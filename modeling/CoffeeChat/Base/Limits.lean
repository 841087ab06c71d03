import CoffeeChat.Base.Represents

/-!
# Where the buffer forgets its indices

A read that drains the buffer moves both indices back to the reserve, except for `ReadByte`, which
leaves them. `UnreadBytes` sees the read index only, so that after such a read it uncovers the bytes
in front of the reserve, whatever they are (`unread_iff`). `Truncate` compares the write index with
a sum in `size_t`, which wraps around for the largest arguments (`truncate_iff`).
-/

namespace CoffeeChat.Buffer

open Lib

variable {b : Buffer} {q : Bytes}

/-! ## Unreading -/

/-- The operations that read a number of bytes. -/
inductive ReadOp where
  | next
  | skip
  | readByte
  deriving DecidableEq

/-- `k` calls of `ReadByte()`. -/
def readByteTimes : Nat → Buffer → Result Buffer
  | 0, b => .ok b
  | k + 1, b => do
    let (_, b) ← b.readByte
    readByteTimes k b

/-- Read `k` bytes, and drop them. -/
def ReadOp.run (k : Nat) (b : Buffer) : ReadOp → Result Buffer
  | .next => do
    let (_, b) ← b.next k
    return b
  | .skip => b.skip k
  | .readByte => readByteTimes k b

/-- The buffer with its read index moved on. -/
def advanced (b : Buffer) (k : Nat) : Buffer := { b with readIndex := b.readIndex + k }

/-- `ReadByte` moves the read index on, up to the end of the content. -/
theorem readByteTimes_eq {k : Nat} (h : b.Represents q) (hk : k ≤ q.length) :
    readByteTimes k b = .ok (b.advanced k) := by
  induction k generalizing b q with
  | zero => rfl
  | succ k ih =>
      have hone : 1 ≤ q.length := by omega
      have hne : q.length ≠ 0 := by omega
      have hnext : (b.advanced 1).Represents (q.drop 1) := advance_represents h hone
      have hbyte : b.readByte = .ok ((q.take 1).headD 0, b.advanced 1) := by
        simp only [readByte, h.length_eq, check, ge_iff_le, hone, if_true, hne, if_false,
          h.load_eq hone, bind, Except.bind, pure, Except.pure, advanced]
      have hrest := ih hnext (by rw [List.length_drop]; omega)
      rw [readByteTimes, hbyte]
      show readByteTimes k (b.advanced 1) = _
      rw [hrest, advanced, advanced, advanced, Nat.add_assoc, Nat.add_comm 1]

/-- A read that leaves content, or reads byte by byte, moves the read index on. -/
theorem ReadOp.run_advances {k : Nat} (h : b.Represents q) (hk : k ≤ q.length) (op : ReadOp)
    (hop : op = .readByte ∨ k < q.length) : op.run k b = .ok (b.advanced k) := by
  cases op with
  | next =>
      have hlt : k < q.length := hop.resolve_left fun heq ↦ by cases heq
      simp only [run, Buffer.next, h.length_eq, hlt, if_true, h.load_eq hk, bind, Except.bind, pure,
        Except.pure, advanced]
  | skip =>
      have hlt : k < q.length := hop.resolve_left fun heq ↦ by cases heq
      simp only [run, Buffer.skip, h.length_eq, hlt, if_true, bind, Except.bind, pure, Except.pure,
        advanced]
  | readByte => exact readByteTimes_eq h hk

/-- Any other read resets the buffer. -/
theorem ReadOp.run_drains {k : Nat} (h : b.Represents q) (op : ReadOp)
    (hop : ¬ (op = .readByte ∨ k < q.length)) : op.run k b = .ok b.reset := by
  obtain ⟨hne, hge⟩ := not_or.mp hop
  cases op with
  | next =>
      obtain ⟨r, hr, -, -⟩ := nextAll_represents h
      simp only [run, Buffer.next, h.length_eq, hge, if_false, nextAll, toSlice_eq h, bind,
        Except.bind, pure, Except.pure]
  | skip =>
      simp only [run, Buffer.skip, h.length_eq, hge, if_false, bind, Except.bind, pure, Except.pure]
  | readByte => exact absurd rfl hne

/-- `UnreadBytes` goes back over bytes that were read. -/
theorem unreadBytes_advanced {k n : Nat} (h : b.Represents q) (hpos : 0 < b.readIndex)
    (hk : k ≤ q.length) (hn : n ≤ k) :
    Returns ((b.advanced k).unreadBytes n) fun b' => b'.Represents (q.drop (k - n)) := by
  have hassert : n < (b.advanced k).readIndex := by
    show n < b.readIndex + k
    omega
  have hback : (b.advanced k).readIndex - n = b.readIndex + (k - n) := by
    show b.readIndex + k - n = _
    omega
  refine ⟨_, ?_, advance_represents h (n := k - n) (by omega)⟩
  rw [unreadBytes, check, if_pos hassert, ← hback]
  rfl

/-- After a reset, `UnreadBytes` uncovers bytes in front of the reserve. -/
theorem unreadBytes_reset {n : Nat} {d : Bytes} :
    Returns (b.reset.unreadBytes n) (fun b' => b'.contents = d) ↔
      n < b.reservedPrependSize ∧
        (b.storage.drop (b.reservedPrependSize - n)).take n = d := by
  have hread : b.reset.readIndex = b.reservedPrependSize := rfl
  by_cases hassert : n < b.reservedPrependSize
  · have hsize : b.reservedPrependSize - (b.reservedPrependSize - n) = n := by omega
    have hcontents : contents { b.reset with readIndex := b.reservedPrependSize - n } =
        (b.storage.drop (b.reservedPrependSize - n)).take n := by
      show (b.storage.drop _).take (b.reservedPrependSize - (b.reservedPrependSize - n)) = _
      rw [hsize]
    have heq : b.reset.unreadBytes n =
        .ok { b.reset with readIndex := b.reservedPrependSize - n } := by
      rw [unreadBytes, check, hread, if_pos hassert]
      rfl
    rw [heq, ← hcontents]
    constructor
    · intro hreturns
      exact ⟨hassert, hreturns.of_eq rfl⟩
    · intro hboth
      exact .ok hboth.2
  · have heq : b.reset.unreadBytes n = .error .assertFailed := by
      rw [unreadBytes, check, hread, if_neg hassert]
      rfl
    rw [heq]
    constructor
    · intro hreturns
      obtain ⟨b', hb', -⟩ := hreturns
      cases hb'
    · intro hboth
      exact absurd hboth.1 hassert

/-- `UnreadBytes(n)` undoes the reading of the last `n` of `k` bytes exactly when the read has not
reset the buffer, or the bytes in front of the reserve happen to be the same. -/
theorem unread_iff (h : b.Represents q) (hreserve : 0 < b.reservedPrependSize)
    (hle : b.reservedPrependSize ≤ b.readIndex) {k n : Nat} (hk : k ≤ q.length) (hn : n ≤ k)
    (op : ReadOp) :
    Returns (op.run k b >>= fun b' => b'.unreadBytes n)
        (fun b' => b'.contents = q.drop (k - n)) ↔
      (op = .readByte ∨ k < q.length) ∨ n < b.reservedPrependSize ∧
        (b.storage.drop (b.reservedPrependSize - n)).take n = q.drop (k - n) := by
  by_cases hop : op = .readByte ∨ k < q.length
  · rw [op.run_advances h hk hop]
    have hunread := unreadBytes_advanced h (hreserve.trans_le hle) hk hn
    exact iff_of_true (hunread.mono fun b' hb' ↦ hb'.contents_eq) (.inl hop)
  · rw [op.run_drains h hop]
    show Returns (b.reset.unreadBytes n) _ ↔ _
    rw [unreadBytes_reset, or_iff_right hop]

/-- A buffer of 16 bytes with three bytes of content at its reserve. -/
def three : Buffer := ⟨[0, 0, 0, 0, 0, 0, 0, 0, 1, 2, 3, 0, 0, 0, 0, 0], 16, 8, 11, 8⟩

theorem three_represents : three.Represents [1, 2, 3] := by
  refine ⟨⟨?_, ?_, ?_, ?_, ?_⟩, ?_⟩ <;> decide

theorem unread_iff_three :
    Returns (ReadOp.run 2 three .next >>= fun b' => b'.unreadBytes 1)
        (fun b' => b'.contents = [2, 3]) ↔
      (ReadOp.next = .readByte ∨ 2 < 3) ∨ 1 < 8 ∧ (three.storage.drop 7).take 1 = [2, 3] :=
  unread_iff three_represents (by decide) (by decide) (k := 2) (n := 1) (by decide) (by decide)
    .next

/-- Reading all three bytes and unreading one leaves a byte that was never content. -/
theorem not_unread_three :
    ReadOp.run 3 three .next >>= (fun b' => b'.unreadBytes 1) =
        .ok { three with readIndex := 7, writeIndex := 8 } ∧
      contents { three with readIndex := 7, writeIndex := 8 } = [0] ∧
      three.contents.drop (3 - 1) = [3] := by
  decide

/-! ## Truncating -/

/-- What `Truncate(n)` is meant to leave. -/
structure Truncated (b : Buffer) (n : Nat) (b' : Buffer) : Prop where
  contents_eq : b'.contents = b.contents.take n
  read_le_write : b'.readIndex ≤ b'.writeIndex
  unchanged : b.writeIndex - b.readIndex < n → b' = b

/-- A sum that wraps around is in front of the read index, so that it is taken for a shorter
content. -/
theorem not_truncated {n : Nat} (hle : b.readIndex ≤ b.writeIndex)
    (hcapacity : b.writeIndex < 2 ^ 64) (hn : n < 2 ^ 64) (hwrap : 2 ^ 64 ≤ b.readIndex + n) :
    ¬ Truncated b n (b.truncate n) := by
  intro h
  have hsum : sizeT (b.readIndex + n) < b.readIndex := by
    unfold sizeT
    omega
  have hordered := h.read_le_write
  rw [truncate, if_neg (by omega), if_pos (hsum.trans_le hle)] at hordered
  exact absurd hordered (Nat.not_le.mpr hsum)

theorem truncated {n : Nat} (hle : b.readIndex ≤ b.writeIndex) (hsum : b.readIndex + n < 2 ^ 64) :
    Truncated b n (b.truncate n) := by
  have hadd : sizeT (b.readIndex + n) = b.readIndex + n := Nat.mod_eq_of_lt hsum
  by_cases hzero : n = 0
  · subst n
    refine ⟨?_, Nat.le_refl _, fun hlt ↦ absurd hlt (Nat.not_lt_zero _)⟩
    show (b.storage.drop _).take (b.reservedPrependSize - b.reservedPrependSize) = _
    rw [Nat.sub_self, List.take_zero, List.take_zero]
  · rw [truncate, if_neg hzero, hadd]
    by_cases hlong : b.writeIndex > b.readIndex + n
    · rw [if_pos hlong]
      refine ⟨?_, Nat.le_add_right _ _, fun hlt ↦ absurd hlt (by omega)⟩
      show (b.storage.drop b.readIndex).take (b.readIndex + n - b.readIndex) = _
      rw [contents, List.take_take, Nat.min_eq_left (by omega), Nat.add_sub_cancel_left]
    · rw [if_neg hlong]
      refine ⟨?_, hle, fun _ ↦ rfl⟩
      have hlength : b.contents.length ≤ n := by
        rw [contents, List.length_take]
        omega
      rw [List.take_of_length_le hlength]

/-- `Truncate(n)` does what it is meant to exactly when its sum does not wrap around. -/
theorem truncate_iff (hle : b.readIndex ≤ b.writeIndex) (hwrite : b.writeIndex ≤ b.capacity)
    (hcapacity : b.capacity < 2 ^ 64) (n : UInt64) :
    Truncated b n.toNat (b.truncate n.toNat) ↔ b.readIndex + n.toNat < 2 ^ 64 := by
  constructor
  · intro h
    by_contra hwrap
    have hn : n.toNat < 2 ^ 64 := n.toNat_lt
    exact not_truncated hle (by omega) hn (Nat.le_of_not_lt hwrap) h
  · exact truncated hle

theorem truncate_iff_three :
    Truncated three 2 (three.truncate 2) ↔ three.readIndex + 2 < 2 ^ 64 :=
  truncate_iff (by decide) (by decide) (by decide) 2

/-- The largest argument, far more than the length, moves the write index in front of the read
index. -/
theorem not_truncate_three :
    three.truncate (0xffffffffffffffff : UInt64).toNat = { three with writeIndex := 7 } ∧
      three.writeIndex - three.readIndex < (0xffffffffffffffff : UInt64).toNat ∧
      ¬ Truncated three (0xffffffffffffffff : UInt64).toNat { three with writeIndex := 7 } := by
  refine ⟨by decide, by decide, fun h ↦ ?_⟩
  exact absurd h.read_le_write (by decide)

end CoffeeChat.Buffer
