import Mathlib.Data.List.GetD
import Mathlib.Data.Nat.ModEq

/-!
# Byte orders

A natural number as `w` bytes, least significant byte first (`leBytes`, `leValue`) or most
significant byte first (`beBytes`, `beValue`). Reading back what was written yields the residue
modulo `256 ^ w`, and a byte string is what is written for its value. `byteSwap` is what `htonl`
and its relatives do to a word on a little-endian host: storing the swapped word in host order is
storing the word in network order (`leBytes_byteSwap`), and swapping a word loaded in host order
reads it in network order (`byteSwap_leValue`). Code that swaps with masks and shifts moves each
byte by `byte_shiftRight` or `byte_shiftLeft` and puts the word together by `leValue_append_or`.
-/

namespace Lib.Endian

/-- The `w` low-order bytes of `x`, least significant first. -/
def leBytes : Nat → Nat → List UInt8
  | 0, _ => []
  | w + 1, x => UInt8.ofNat x :: leBytes w (x / 256)

/-- The number with the given bytes, least significant first. -/
def leValue : List UInt8 → Nat
  | [] => 0
  | b :: bs => b.toNat + 256 * leValue bs

/-- The `w` low-order bytes of `x`, most significant first. -/
def beBytes (w x : Nat) : List UInt8 := (leBytes w x).reverse

/-- The number with the given bytes, most significant first. -/
def beValue (bs : List UInt8) : Nat := leValue bs.reverse

/-- The `w`-byte word `x` with its bytes in the opposite order. -/
def byteSwap (w x : Nat) : Nat := leValue (beBytes w x)

@[simp] theorem length_leBytes (w x : Nat) : (leBytes w x).length = w := by
  induction w generalizing x with
  | zero => rfl
  | succ w ih => simp [leBytes, ih]

@[simp] theorem length_beBytes (w x : Nat) : (beBytes w x).length = w := by
  simp [beBytes]

/-- Reading back the bytes of a number yields its residue. -/
theorem leValue_leBytes (w x : Nat) : leValue (leBytes w x) = x % 256 ^ w := by
  induction w generalizing x with
  | zero => simp [leBytes, leValue, Nat.mod_one]
  | succ w ih =>
      simp only [leBytes, leValue, ih, UInt8.toNat_ofNat']
      rw [show (2 : Nat) ^ 8 = 256 from rfl, pow_succ', Nat.mod_mul]

/-- A byte string is the encoding of its value. -/
theorem leBytes_leValue (bs : List UInt8) : leBytes bs.length (leValue bs) = bs := by
  induction bs with
  | nil => rfl
  | cons b bs ih =>
      have hb : b.toNat < 256 := b.toNat_lt
      have hlow : (b.toNat + 256 * leValue bs) % 2 ^ 8 = b.toNat := by omega
      have hhigh : (b.toNat + 256 * leValue bs) / 256 = leValue bs := by omega
      simp only [leValue, List.length_cons, leBytes, hhigh, ih, List.cons.injEq, and_true]
      rw [← UInt8.toNat_inj, UInt8.toNat_ofNat', hlow]

/-- The value of a byte string is below `256` to the power of its length. -/
theorem leValue_lt (bs : List UInt8) : leValue bs < 256 ^ bs.length := by
  induction bs with
  | nil => simp [leValue]
  | cons b bs ih =>
      have hb : b.toNat < 256 := b.toNat_lt
      rw [leValue, List.length_cons, pow_succ']
      omega

/-- A word of `w` bytes has room for the value of as many bytes. -/
theorem leValue_mod (bs : List UInt8) {w : Nat} (hw : bs.length ≤ w) :
    leValue bs % 2 ^ (8 * w) = leValue bs := by
  refine Nat.mod_eq_of_lt ((leValue_lt bs).trans_le ?_)
  rw [pow_mul]
  exact Nat.pow_le_pow_right (by decide) hw

/-- A slice reads as its first byte and the slice behind it. Bytes beyond the end count as zero. -/
theorem leValue_slice_succ (bs : List UInt8) (p n : Nat) :
    leValue ((bs.drop p).take (n + 1)) =
      (bs.getD p 0).toNat + 256 * leValue ((bs.drop (p + 1)).take n) := by
  by_cases hp : p < bs.length
  · rw [List.drop_eq_getElem_cons hp, List.take_succ_cons, leValue, List.getD_eq_getElem _ _ hp]
  · have hle : bs.length ≤ p := Nat.le_of_not_lt hp
    rw [List.drop_eq_nil_of_le hle, List.drop_eq_nil_of_le (Nat.le_succ_of_le hle),
      List.getD_eq_default _ _ hle, List.take_nil, List.take_nil]
    rfl

/-- The bytes of a number split into those of its low and its high part. -/
theorem leBytes_add (v w x : Nat) :
    leBytes (v + w) x = leBytes v x ++ leBytes w (x / 256 ^ v) := by
  induction v generalizing x with
  | zero => simp [leBytes]
  | succ v ih =>
      rw [Nat.succ_add, leBytes, leBytes, ih, Nat.div_div_eq_div_mul, ← pow_succ', List.cons_append]

/-- The low-order bytes depend on the residue only. -/
theorem leBytes_mod (w x : Nat) : leBytes w (x % 256 ^ w) = leBytes w x := by
  have h := leBytes_leValue (leBytes w x)
  rwa [length_leBytes, leValue_leBytes] at h

/-- Reading a number back in network order yields its residue. -/
theorem beValue_beBytes (w x : Nat) : beValue (beBytes w x) = x % 256 ^ w := by
  simp [beValue, beBytes, leValue_leBytes]

/-- Storing the swapped word in host order stores the word in network order. -/
theorem leBytes_byteSwap (w x : Nat) : leBytes w (byteSwap w x) = beBytes w x := by
  have h := leBytes_leValue (beBytes w x)
  rwa [length_beBytes] at h

/-- Swapping a word loaded in host order reads its bytes in network order. -/
theorem byteSwap_leValue (bs : List UInt8) : byteSwap bs.length (leValue bs) = beValue bs := by
  rw [byteSwap, beBytes, leBytes_leValue, beValue]

/-- A swapped word fits the width it was swapped in. -/
theorem byteSwap_lt (w x : Nat) : byteSwap w x < 256 ^ w := by
  simpa [byteSwap] using leValue_lt (beBytes w x)

/-- The first byte in network order is the most significant one. -/
theorem beBytes_succ (w x : Nat) :
    beBytes (w + 1) x = UInt8.ofNat (x / 256 ^ w) :: beBytes w x := by
  induction w generalizing x with
  | zero => simp [beBytes, leBytes]
  | succ w ih =>
      have h := ih (x / 256)
      rw [Nat.div_div_eq_div_mul, ← pow_succ'] at h
      simp only [beBytes, leBytes, List.reverse_cons] at h ⊢
      rw [h, List.cons_append]

/-! ## Bytes of a word by masks and shifts -/

/-- Masking out the byte at bit `k`. -/
theorem byte_and (n k : Nat) : n &&& (255 <<< k) = ((n >>> k) % 256) <<< k := by
  apply Nat.eq_of_testBit_eq
  intro i
  rw [show (255 : Nat) = 2 ^ 8 - 1 from rfl, show (256 : Nat) = 2 ^ 8 from rfl]
  simp only [Nat.testBit_and, Nat.testBit_shiftLeft, Nat.testBit_two_pow_sub_one,
    Nat.testBit_mod_two_pow, Nat.testBit_shiftRight]
  by_cases h : k ≤ i
  · simp only [h, decide_true, Bool.true_and, Nat.add_sub_cancel' h]
    exact Bool.and_comm _ _
  · simp [h]

/-- The byte at bit `k`, moved down by `s` bits. -/
theorem byte_shiftRight (n : Nat) {k s : Nat} (h : s ≤ k) :
    (n &&& (255 <<< k)) >>> s = (n / 2 ^ k % 256) <<< (k - s) := by
  rw [byte_and, ← Nat.sub_add_cancel h, Nat.shiftLeft_add, Nat.shiftLeft_shiftRight,
    Nat.shiftRight_eq_div_pow, Nat.add_sub_cancel]

/-- The byte at bit `k`, moved up by `s` bits in a word of `w` that has room for it. -/
theorem byte_shiftLeft (n : Nat) {k s w : Nat} (h : k + s + 8 ≤ w) :
    (n &&& (255 <<< k)) <<< s % 2 ^ w = (n / 2 ^ k % 256) <<< (k + s) := by
  rw [byte_and, ← Nat.shiftLeft_add, Nat.shiftRight_eq_div_pow]
  refine Nat.mod_eq_of_lt ?_
  have hbyte : n / 2 ^ k % 256 < 2 ^ 8 := Nat.mod_lt _ (by decide)
  rw [Nat.shiftLeft_eq]
  calc n / 2 ^ k % 256 * 2 ^ (k + s)
      < 2 ^ 8 * 2 ^ (k + s) := Nat.mul_lt_mul_of_pos_right hbyte (Nat.two_pow_pos _)
    _ = 2 ^ (k + s + 8) := by rw [← pow_add, Nat.add_comm]
    _ ≤ 2 ^ w := Nat.pow_le_pow_right (by decide) h

/-- A byte behind the others counts most. -/
theorem leValue_append_singleton (bs : List UInt8) (b : UInt8) :
    leValue (bs ++ [b]) = leValue bs + b.toNat * 256 ^ bs.length := by
  induction bs with
  | nil => simp [leValue]
  | cons c bs ih =>
      rw [List.cons_append, leValue, ih, leValue, List.length_cons, pow_succ', Nat.mul_add,
        Nat.mul_left_comm, Nat.add_assoc]

/-- One more byte at the top of a word. -/
theorem leValue_append_or (bs : List UInt8) (b : UInt8) :
    leValue (bs ++ [b]) = leValue bs ||| (b.toNat <<< (8 * bs.length)) := by
  have hlt : leValue bs < 2 ^ (8 * bs.length) := by
    rw [pow_mul]
    exact leValue_lt bs
  rw [Nat.or_comm, ← Nat.shiftLeft_add_eq_or_of_lt hlt, Nat.shiftLeft_eq, pow_mul,
    leValue_append_singleton, Nat.add_comm]
  rfl

end Lib.Endian
