import CoffeeChat.Crypt.MD5

/-!
# The low halves of the words

What the class computes in words of any width is compared with the algorithm in words of 32 bits
through the low half of each word (`low`). Sums, complements and the four basic functions do not
move bits down, so the low half of the result depends on the low halves only. `ROTATE_LEFT` does:
its right shift brings bits above the low half into it. It rotates the low half exactly when every
bit so brought down falls on a one (`Fits`, `low_rotate_iff`).
-/

namespace CoffeeChat.MD5

open Lib Lib.Endian RFC1321

variable {w : Nat}

/-- The low half of a word. -/
def low (x : BitVec w) : BitVec 32 := x.setWidth 32

/-- The low halves of the registers. -/
def lows (v : Words w) : Words 32 := ⟨low v.a, low v.b, low v.c, low v.d⟩

theorem low_get (v : Words w) (r : Var) : low (v.get r) = (lows v).get r := by
  cases r <;> rfl

theorem lows_set (v : Words w) (r : Var) (x : BitVec w) :
    lows (v.set r x) = (lows v).set r (low x) := by
  cases r <;> rfl

theorem low_add (hw : 32 ≤ w) (x y : BitVec w) : low (x + y) = low x + low y :=
  BitVec.setWidth_add x y hw

theorem lows_add (hw : 32 ≤ w) (u v : Words w) : lows (u.add v) = (lows u).add (lows v) := by
  simp only [lows, Words.add, low_add hw]

/-- The basic functions compute the low half from the low halves. -/
theorem low_basic (hw : 32 ≤ w) (r : Round) (x y z : BitVec w) :
    low (basic r x y z) = r.apply (low x) (low y) (low z) := by
  have hnot (u : BitVec w) : (~~~u).setWidth 32 = ~~~u.setWidth 32 := BitVec.setWidth_not hw
  cases r <;>
    simp only [basic, F, G, H, I, Round.apply, low, BitVec.setWidth_or, BitVec.setWidth_and,
      BitVec.setWidth_xor, hnot]

/-! ## Rotations -/

/-- The bits that `ROTATE_LEFT(x, n)` brings down from above the low half fall on ones. -/
def Fits (x : BitVec w) (n : Nat) : Prop :=
  ∀ i < 32 - n, x.getLsbD (32 + i) = true → x.getLsbD i = true

instance (x : BitVec w) (n : Nat) : Decidable (Fits x n) :=
  inferInstanceAs (Decidable (∀ i < 32 - n, _ → _))

/-- A word of 32 bits has nothing above its low half. -/
theorem Fits.of_width (x : BitVec 32) (n : Nat) : Fits x n := by
  intro i hi hbit
  have hzero : x.getLsbD (32 + i) = false := BitVec.getLsbD_of_ge x (32 + i) (by omega)
  rw [hzero] at hbit
  cases hbit

/-- A bit of the low half after `ROTATE_LEFT`. -/
theorem getLsbD_low_rotate {x : BitVec w} {n i : Nat} (hw : 32 ≤ w) (hi : i < 32) :
    (low (ROTATE_LEFT x n)).getLsbD i =
      ((!decide (i < n) && x.getLsbD (i - n)) || x.getLsbD (32 - n + i)) := by
  have hiw : i < w := by omega
  simp only [low, ROTATE_LEFT, BitVec.getLsbD_setWidth, BitVec.getLsbD_or, BitVec.getLsbD_shiftLeft,
    BitVec.getLsbD_ushiftRight, hi, hiw, decide_true, Bool.true_and]

/-- A bit of the low half after a rotation. -/
theorem getLsbD_rotate_low {x : BitVec w} {n i : Nat} (hn : n < 32) (hi : i < 32) :
    ((low x).rotateLeft n).getLsbD i =
      if i < n then x.getLsbD (32 - n + i) else x.getLsbD (i - n) := by
  rw [BitVec.getLsbD_rotateLeft_of_le hn, low, BitVec.getLsbD_setWidth, BitVec.getLsbD_setWidth]
  by_cases hlow : i < n
  · have hsource : 32 - n + i < 32 := by omega
    simp [hlow, hsource]
  · have hsource : i - n < 32 := by omega
    simp [hlow, hsource, hi]

/-- `ROTATE_LEFT` rotates the low half exactly when what it brings down fits. -/
theorem low_rotate_iff {x : BitVec w} {n : Nat} (hw : 32 ≤ w) (hn : n < 32) :
    low (ROTATE_LEFT x n) = (low x).rotateLeft n ↔ Fits x n := by
  constructor
  · -- bit `32 + i` comes down onto what becomes bit `n + i`
    intro heq i hi hbit
    have hcode := getLsbD_low_rotate (x := x) (n := n) hw (i := n + i) (by omega)
    have hspec := getLsbD_rotate_low (x := x) hn (i := n + i) (by omega)
    have hsource : 32 - n + (n + i) = 32 + i := by omega
    rw [heq, hspec, if_neg (by omega), Nat.add_sub_cancel_left, hsource, hbit,
      Bool.or_true] at hcode
    exact hcode
  · intro hfits
    refine BitVec.eq_of_getLsbD_eq fun i hi ↦ ?_
    rw [getLsbD_low_rotate hw hi, getLsbD_rotate_low hn hi]
    by_cases hlow : i < n
    · simp [hlow]
    · have hsource : 32 - n + i = 32 + (i - n) := by omega
      have hbit := hfits (i - n) (by omega)
      rw [if_neg hlow, hsource]
      cases hx : x.getLsbD (32 + (i - n)) with
      | false => simp [hlow]
      | true => simp [hbit hx]

/-! ## Operations -/

/-- The sum that an operation rotates. -/
def sum (x : Nat → BitVec w) (v : Words w) (o : Operation) : BitVec w :=
  v.get o.a + (basic o.round (v.get o.b) (v.get o.c) (v.get o.d) + x o.k + o.t.setWidth w)

/-- An operation of the algorithm does not rotate its own summand or by a whole word. -/
def WellFormed (o : Operation) : Prop := o.s < 32 ∧ o.b ≠ o.a

instance (o : Operation) : Decidable (WellFormed o) := inferInstanceAs (Decidable (_ ∧ _))

theorem get_set (v : Words w) (r : Var) (x : BitVec w) : (v.set r x).get r = x := by
  cases r <;> rfl

theorem get_set_of_ne (v : Words w) {r r' : Var} (h : r' ≠ r) (x : BitVec w) :
    (v.set r x).get r' = v.get r' := by
  cases r <;> cases r' <;> first | rfl | exact absurd rfl h

theorem set_set (v : Words w) (r : Var) (x y : BitVec w) : (v.set r x).set r y = v.set r y := by
  cases r <;> rfl

/-- The three assignments assign one register. -/
theorem execute_eq {x : Nat → BitVec w} {v : Words w} {o : Operation} (ho : WellFormed o) :
    execute x v o = v.set o.a (ROTATE_LEFT (sum x v o) o.s + v.get o.b) := by
  simp only [execute, get_set, set_set, get_set_of_ne _ ho.2]
  rfl

theorem low_sum (hw : 32 ≤ w) (x : Nat → BitVec w) (v : Words w) (o : Operation) :
    low (sum x v o) = (lows v).get o.a +
      o.round.apply ((lows v).get o.b) ((lows v).get o.c) ((lows v).get o.d) + low (x o.k) +
      o.t := by
  have ht : low (o.t.setWidth w) = o.t := by
    rw [low, BitVec.setWidth_setWidth_of_le _ hw, BitVec.setWidth_eq]
  rw [sum, low_add hw, low_add hw, low_add hw, low_basic hw, ht, low_get, low_get, low_get, low_get,
    ← BitVec.add_assoc, ← BitVec.add_assoc]

/-- An operation whose rotation fits is the one of the algorithm. -/
theorem lows_execute (hw : 32 ≤ w) {x : Nat → BitVec w} {v : Words w} {o : Operation}
    (ho : WellFormed o) (hfits : Fits (sum x v o) o.s) :
    lows (execute x v o) = step (fun k ↦ low (x k)) (lows v) o := by
  have hrotate := (low_rotate_iff hw ho.1).mpr hfits
  rw [execute_eq ho, lows_set, low_add hw, hrotate, low_sum hw, low_get, step, BitVec.add_comm]

/-- What an operation assigns has the low half that the algorithm assigns exactly when the rotation
fits. -/
theorem low_assigned_iff (hw : 32 ≤ w) {x : Nat → BitVec w} {v : Words w} {o : Operation}
    (ho : WellFormed o) :
    low ((execute x v o).get o.a) = (step (fun k ↦ low (x k)) (lows v) o).get o.a ↔
      Fits (sum x v o) o.s := by
  rw [← low_rotate_iff hw ho.1, execute_eq ho, get_set, low_add hw, step, get_set, low_get,
    BitVec.add_comm, low_sum hw, BitVec.add_right_inj]

/-- The statements of `transform` are the operations of the algorithm. -/
theorem statements_eq : statements = operations := by decide

theorem wellFormed_of_mem {o : Operation} (h : o ∈ statements) : WellFormed o :=
  (by decide : ∀ o ∈ statements, WellFormed o) o h

/-! ## Bytes -/

/-- A byte shifted behind the bytes below it. -/
theorem ofNat_or_shiftLeft {x k : Nat} (hx : x < 2 ^ k) (y : Nat) :
    BitVec.ofNat 32 x ||| BitVec.ofNat 32 y <<< k = BitVec.ofNat 32 (x + 2 ^ k * y) := by
  have hshift : BitVec.ofNat 32 y <<< k = BitVec.ofNat 32 (y <<< k) := by
    refine BitVec.eq_of_toNat_eq ?_
    simp only [BitVec.toNat_shiftLeft, BitVec.toNat_ofNat, Nat.shiftLeft_eq, Nat.mod_mul_mod]
  rw [hshift, ← BitVec.ofNat_or, Nat.or_comm, ← Nat.shiftLeft_add_eq_or_of_lt hx, Nat.shiftLeft_eq,
    Nat.mul_comm, Nat.add_comm]

theorem low_byteAt (hw : 32 ≤ w) (input : Bytes) (j : Nat) :
    low (byteAt input j : BitVec w) = BitVec.ofNat 32 (input.getD j 0).toNat :=
  BitVec.setWidth_ofNat_of_le hw _

/-- The low half of a decoded word is the word of the algorithm. -/
theorem low_decode (hw : 32 ≤ w) (block : Bytes) (k : Nat) :
    low (decode block k : BitVec w) = word block k := by
  have hshift (x : BitVec w) (n : Nat) : low (x <<< n) = low x <<< n :=
    BitVec.setWidth_shiftLeft_of_le hw
  have hor (x y : BitVec w) : low (x ||| y) = low x ||| low y := BitVec.setWidth_or
  have h₀ := (block.getD (4 * k) 0).toNat_lt
  have h₁ := (block.getD (4 * k + 1) 0).toNat_lt
  have h₂ := (block.getD (4 * k + 2) 0).toNat_lt
  rw [decode, hor, hor, hor, hshift, hshift, hshift]
  rw [low_byteAt hw, low_byteAt hw, low_byteAt hw, low_byteAt hw, ofNat_or_shiftLeft (by omega),
    ofNat_or_shiftLeft (by omega), ofNat_or_shiftLeft (by omega), word, leValue_slice_succ,
    leValue_slice_succ, leValue_slice_succ, leValue_slice_succ, List.take_zero, leValue]
  simp only [Nat.add_assoc, Nat.reduceAdd]
  congr 1
  omega

/-- The low halves of a decoded block are the words of the algorithm. -/
theorem low_decode_eq (hw : 32 ≤ w) (block : Bytes) :
    (fun k ↦ low (decode block k : BitVec w)) = word block :=
  funext (low_decode hw block)

theorem leBytes_low (x : BitVec w) : leBytes 4 (low x).toNat = leBytes 4 x.toNat := by
  rw [low, BitVec.toNat_setWidth]
  exact leBytes_mod 4 x.toNat

/-- Encoding a word writes the bytes of its low half. -/
theorem encodeWord_eq (hw : 32 ≤ w) (x : BitVec w) : encodeWord x = leBytes 4 (low x).toNat := by
  have hmask : (0xff : BitVec w).toNat = 2 ^ 8 - 1 := by
    have hlt : 255 < 2 ^ w :=
      Nat.lt_of_lt_of_le (by decide : 255 < 2 ^ 32) (Nat.pow_le_pow_right (by decide) hw)
    exact Nat.mod_eq_of_lt hlt
  have hbyte (y : BitVec w) : UInt8.ofNat (y &&& 0xff).toNat = UInt8.ofNat y.toNat := by
    rw [BitVec.toNat_and, hmask, Nat.and_two_pow_sub_one_eq_mod]
    exact UInt8.ofNat_mod_size
  rw [leBytes_low, encodeWord, hbyte, hbyte, hbyte, hbyte]
  simp only [leBytes, BitVec.toNat_ushiftRight, Nat.shiftRight_eq_div_pow, Nat.div_div_eq_div_mul]

/-- The two digits of a byte. -/
theorem bytesToHexString_eq (input : Bytes) : bytesToHexString input =
    input.flatMap fun x ↦ [Nat.digitChar (x.toNat / 16), Nat.digitChar (x.toNat % 16)] := by
  have hdigit : ∀ k < 16, HEX.getD k '0' = Nat.digitChar k := by decide
  refine List.flatMap_congr fun x _ ↦ ?_
  have hx := x.toNat_lt
  rw [hdigit _ (by omega), hdigit _ (by omega)]

end CoffeeChat.MD5
