import CoffeeChat.Base.BufferLemmas

/-!
# The content of a buffer as a queue

`Represents b q` says that the indices of `b` lie in order inside its allocation and its content
is the byte string `q`. Under it, and with the sums the code makes below `2 ^ 63`, every operation
of the buffer whose entry assertion holds returns, and leaves a buffer that represents `q` after
the operation of the same name on a queue.
-/

namespace CoffeeChat

open Lib Lib.Endian

/-- Swapping with the masks and shifts of `evppbswap_64` reverses the bytes. -/
theorem evppbswap64_toNat (x : UInt64) : (evppbswap64 x).toNat = byteSwap 8 x.toNat := by
  have h56 := byte_shiftRight x.toNat (k := 56) (s := 56) (by decide)
  have h48 := byte_shiftRight x.toNat (k := 48) (s := 40) (by decide)
  have h40 := byte_shiftRight x.toNat (k := 40) (s := 24) (by decide)
  have h32 := byte_shiftRight x.toNat (k := 32) (s := 8) (by decide)
  have h24 := byte_shiftLeft x.toNat (k := 24) (s := 8) (w := 64) (by decide)
  have h16 := byte_shiftLeft x.toNat (k := 16) (s := 24) (w := 64) (by decide)
  have h8 := byte_shiftLeft x.toNat (k := 8) (s := 40) (w := 64) (by decide)
  have h0 := byte_shiftLeft x.toNat (k := 0) (s := 56) (w := 64) (by decide)
  simp only [Nat.reduceShiftLeft, Nat.reduceSub, Nat.reduceAdd] at h56 h48 h40 h32 h24 h16 h8 h0
  simp only [evppbswap64, UInt64.toNat_or, UInt64.toNat_and, UInt64.toNat_shiftLeft,
    UInt64.toNat_shiftRight, UInt64.reduceToNat, Nat.reduceMod]
  rw [h56, h48, h40, h32, h24, h16, h8, h0]
  simp only [byteSwap, beBytes, leBytes, List.reverse_cons, List.reverse_nil, leValue_append_or,
    leValue, UInt8.toNat_ofNat', List.length_append, List.length_cons, List.length_nil,
    Nat.div_div_eq_div_mul, Nat.reduceMul, Nat.reduceAdd, Nat.reducePow, Nat.zero_or, Nat.div_one]

namespace Buffer

/-- The buffer is well formed and holds `q`. -/
structure Represents (b : Buffer) (q : Bytes) : Prop where
  wf : b.WF
  contents_eq : b.contents = q

variable {b : Buffer} {q : Bytes}

theorem Leaves.represents {b' : Buffer} (h : Leaves b q b') : b'.Represents q :=
  ⟨h.1, h.2.1⟩

theorem Represents.length_eq (h : b.Represents q) : b.length = .ok q.length := by
  rw [Buffer.length_eq h.wf, h.contents_eq]

/-- The number of unread bytes. -/
theorem Represents.size_eq (h : b.Represents q) : b.writeIndex - b.readIndex = q.length := by
  rw [← contents_length h.wf, h.contents_eq]

theorem Represents.load_eq (h : b.Represents q) {n : Nat} (hn : n ≤ q.length) :
    load b.storage b.readIndex n = .ok (q.take n) := by
  rw [load_contents h.wf (by rw [h.contents_eq]; exact hn), h.contents_eq]

/-- A new buffer is empty. -/
theorem new_represents {initialSize reserved : Nat} (h : reserved + initialSize < 2 ^ 63) :
    Returns (new initialSize reserved) fun b => b.Represents [] :=
  (new_spec h).mono fun _ hb ↦ ⟨hb.1, hb.2.1⟩

/-! ## Dropping content -/

theorem reset_represents (h : b.Represents q) : b.reset.Represents [] :=
  (reset_leaves h.wf).represents

theorem skip_represents (h : b.Represents q) (n : Nat) :
    Returns (b.skip n) fun b' => b'.Represents (q.drop n) := by
  refine (skip_spec h.wf n).mono fun b' hb' ↦ ?_
  rw [← h.contents_eq]
  exact hb'.represents

/-- Moving the read index forward drops from the front. -/
theorem advance_represents (h : b.Represents q) {n : Nat} (hn : n ≤ q.length) :
    Represents { b with readIndex := b.readIndex + n } (q.drop n) := by
  have hsize := h.size_eq
  have hr := h.wf.read_le_write
  refine ⟨⟨h.wf.storage_length, by simp only; omega, h.wf.write_le_capacity,
    h.wf.reserved_le_capacity, h.wf.capacity_lt⟩, ?_⟩
  rw [← h.contents_eq]
  simp only [contents, List.drop_take, List.drop_drop]
  congr 1
  omega

/-- Moving the write index back drops from the back. -/
theorem cut_represents (h : b.Represents q) {n : Nat} (hn : n ≤ q.length) :
    Represents { b with writeIndex := b.readIndex + n } (q.take n) := by
  have hsize := h.size_eq
  have hr := h.wf.read_le_write
  have hw := h.wf.write_le_capacity
  refine ⟨⟨h.wf.storage_length, by simp only; omega, by simp only; omega,
    h.wf.reserved_le_capacity, h.wf.capacity_lt⟩, ?_⟩
  rw [← h.contents_eq]
  simp only [contents, List.take_take]
  congr 1
  omega

/-- `Truncate` keeps a prefix, all of the content when it is asked for more. -/
theorem truncate_represents (h : b.Represents q) {n : Nat} (hsum : b.readIndex + n < 2 ^ 63) :
    (b.truncate n).Represents (q.take n) := by
  have hsize := h.size_eq
  have hr := h.wf.read_le_write
  have hadd : sizeT (b.readIndex + n) = b.readIndex + n := by unfold sizeT; omega
  by_cases hzero : n = 0
  · subst n
    exact reset_represents h
  · rw [truncate, if_neg hzero, hadd]
    by_cases hlong : b.writeIndex > b.readIndex + n
    · rw [if_pos hlong]
      exact cut_represents h (by omega)
    · rw [if_neg hlong, List.take_of_length_le (by omega)]
      exact h

/-- `UnwriteBytes` drops from the back. -/
theorem unwriteBytes_represents (h : b.Represents q) {n : Nat} (hn : n ≤ q.length) :
    Returns (b.unwriteBytes n) fun b' => b'.Represents (q.take (q.length - n)) := by
  have hsize := h.size_eq
  have hr := h.wf.read_le_write
  have hback : b.writeIndex - n = b.readIndex + (q.length - n) := by omega
  refine ⟨{ b with writeIndex := b.writeIndex - n }, ?_, ?_⟩
  · simp only [unwriteBytes, h.length_eq, check, hn, if_true, bind, Except.bind, pure, Except.pure]
  · rw [hback]
    exact cut_represents h (Nat.sub_le _ _)

/-! ## Reading -/

theorem toSlice_eq (h : b.Represents q) : b.toSlice = .ok q := by
  simp only [toSlice, h.length_eq, h.load_eq le_rfl, List.take_length, bind, Except.bind]

/-- `NextAll` returns the content and empties the buffer. -/
theorem nextAll_represents (h : b.Represents q) :
    Returns b.nextAll fun r => r.1 = q ∧ r.2.Represents [] := by
  refine ⟨(q, b.reset), ?_, rfl, reset_represents h⟩
  simp only [nextAll, toSlice_eq h, bind, Except.bind, pure, Except.pure]

/-- `Next` returns what it drops from the front. -/
theorem next_represents (h : b.Represents q) (n : Nat) :
    Returns (b.next n) fun r => r.1 = q.take n ∧ r.2.Represents (q.drop n) := by
  by_cases hn : n < q.length
  · refine ⟨(q.take n, { b with readIndex := b.readIndex + n }), ?_, rfl,
      advance_represents h hn.le⟩
    simp only [next, h.length_eq, hn, if_true, h.load_eq hn.le, bind, Except.bind, pure,
      Except.pure]
  · have hlen : q.length ≤ n := Nat.le_of_not_lt hn
    rw [List.take_of_length_le hlen, List.drop_eq_nil_of_le hlen]
    obtain ⟨r, hr, hpost⟩ := nextAll_represents h
    refine ⟨r, ?_, hpost⟩
    simp only [next, h.length_eq, hn, if_false, hr, bind, Except.bind]

/-- `ReadByte` returns the first byte and drops it. -/
theorem readByte_represents (h : b.Represents q) (hn : 1 ≤ q.length) :
    Returns b.readByte fun r => r.1 = q.headD 0 ∧ r.2.Represents (q.drop 1) := by
  have hne : q.length ≠ 0 := by omega
  refine ⟨((q.take 1).headD 0, { b with readIndex := b.readIndex + 1 }), ?_, ?_,
    advance_represents h hn⟩
  · simp only [readByte, h.length_eq, check, ge_iff_le, hn, if_true, hne, if_false, h.load_eq hn,
      bind, Except.bind, pure, Except.pure]
  · cases q with
    | nil => rfl
    | cons x q => rfl

/-- `evppbswap_64` of a word loaded in host order reads its bytes in network order. -/
theorem evppbswap64_leValue {bs : Bytes} (hlen : bs.length = 8) :
    evppbswap64 (UInt64.ofNat (leValue bs)) = UInt64.ofNat (beValue bs) := by
  have hval : (UInt64.ofNat (leValue bs)).toNat = leValue bs := leValue_mod bs (w := 8) hlen.le
  rw [← UInt64.ofNat_toNat (x := evppbswap64 _), evppbswap64_toNat, hval, ← byteSwap_leValue, hlen]

theorem peekInt64_eq (h : b.WF) (hn : 8 ≤ b.contents.length) :
    b.peekInt64 = .ok (UInt64.ofNat (beValue (b.contents.take 8))).toInt64 := by
  rw [← evppbswap64_leValue (length_take_contents hn)]
  exact peek_eq h hn fun bytes ↦ (evppbswap64 (UInt64.ofNat (leValue bytes))).toInt64

theorem peekInt8_eq (h : b.WF) (hn : 1 ≤ b.contents.length) :
    b.peekInt8 = .ok (UInt8.ofNat (beValue (b.contents.take 1))).toInt8 := by
  obtain ⟨x, hx⟩ := List.length_eq_one_iff.mp (length_take_contents hn)
  have hone : leValue (b.contents.take 1) = beValue (b.contents.take 1) := by
    rw [hx]
    rfl
  rw [← hone]
  exact peek_eq h hn fun bytes ↦ (UInt8.ofNat (leValue bytes)).toInt8

/-- A word is read as it is peeked, and its bytes are dropped. -/
theorem read_represents {α : Type} {peek : Result α} {word : α} {w : Nat} (h : b.Represents q)
    (hpeek : peek = .ok word) :
    Returns (peek >>= fun result => b.skip w >>= fun b' => pure (result, b')) fun r =>
      r.1 = word ∧ r.2.Represents (q.drop w) := by
  obtain ⟨b', hskip, hb'⟩ := skip_represents h w
  exact ⟨(word, b'), bind_eq_ok.mpr ⟨word, hpeek, bind_eq_ok.mpr ⟨b', hskip, rfl⟩⟩, rfl, hb'⟩

/-! ## Room -/

/-- `Reserve(len)` has the capacity, or grows with sums below `2 ^ 63`. -/
def ReserveInRange (b : Buffer) (len : Nat) : Prop :=
  len + b.reservedPrependSize < 2 ^ 63 ∧
    (b.capacity < len + b.reservedPrependSize → b.GrowInRange (len + b.reservedPrependSize))

/-- `Reserve` leaves the content. -/
theorem reserve_represents (h : b.Represents q) {len : Nat} (hrange : b.ReserveInRange len) :
    Returns (b.reserve len) fun b' => b'.Represents q := by
  obtain ⟨hsum, hgrow⟩ := hrange
  have hw := h.wf.write_le_capacity
  have hadd : sizeT (len + b.reservedPrependSize) = len + b.reservedPrependSize := by
    unfold sizeT; omega
  by_cases hless : b.capacity < len + b.reservedPrependSize
  · obtain ⟨b', hb', hwf, hcont, -⟩ := grow_spec h.wf (by omega) (hgrow hless)
    refine ⟨b', ?_, hwf, hcont.trans h.contents_eq⟩
    rw [reserve, hadd, if_neg (Nat.not_le.mpr hless), hb']
  · refine ⟨b, ?_, h⟩
    rw [reserve, hadd, if_pos (Nat.le_of_not_lt hless)]

/-- `EnsureWritableBytes` leaves the content. -/
theorem ensureWritableBytes_represents (h : b.Represents q) {len : Nat}
    (hrange : b.EnsureInRange len) :
    Returns (b.ensureWritableBytes len) fun b' => b'.Represents q :=
  (ensureWritableBytes_spec h.wf hrange).mono fun _ hb' ↦ ⟨hb'.1, hb'.2.1.trans h.contents_eq⟩

/-! ## Writing -/

/-- `Write` appends. -/
theorem write_represents (h : b.Represents q) {d : Bytes} (hrange : b.EnsureInRange d.length) :
    Returns (b.write d) fun b' => b'.Represents (q ++ d) := by
  refine (write_spec_of_range h.wf hrange).mono fun b' hb' ↦ ⟨hb'.1, ?_⟩
  rw [hb'.2.1, h.contents_eq]

/-- `Prepend` puts the bytes before the content. -/
theorem prepend_represents (h : b.Represents q) {d : Bytes} (hroom : d.length ≤ b.readIndex) :
    Returns (b.prepend d) fun b' => b'.Represents (d ++ q) := by
  have hs := h.wf.storage_length
  have hr := h.wf.read_le_write
  have hw := h.wf.write_le_capacity
  have hpos : b.readIndex - d.length + d.length = b.readIndex := Nat.sub_add_cancel hroom
  have hfit : b.readIndex - d.length + d.length ≤ b.storage.length := by omega
  refine ⟨{ b with
    storage := b.storage.take (b.readIndex - d.length) ++ d ++
      b.storage.drop (b.readIndex - d.length + d.length)
    readIndex := b.readIndex - d.length }, ?_, ⟨?_, ?_, hw, h.wf.reserved_le_capacity,
      h.wf.capacity_lt⟩, ?_⟩
  · simp only [prepend, check, prependableBytes, hroom, if_true, store_eq hfit, bind, Except.bind,
      pure, Except.pure]
  · rw [length_overwrite hfit, hs]
  · show b.readIndex - d.length ≤ b.writeIndex
    omega
  · rw [← h.contents_eq]
    have hfront : (b.storage.take (b.readIndex - d.length)).length = b.readIndex - d.length := by
      rw [List.length_take]
      omega
    have hlen : b.writeIndex - (b.readIndex - d.length) =
        d.length + (b.writeIndex - b.readIndex) := by omega
    simp only [contents, hpos, hlen, List.append_assoc]
    rw [List.drop_left' hfront, List.take_length_add_append]

/-- `ToText` leaves the content. -/
theorem toText_represents (h : b.Represents q) (hrange : b.EnsureInRange 1) :
    Returns b.toText fun b' => b'.Represents q := by
  have hone : (leBytes 1 (0 : Int8).toUInt8.toNat).length = 1 := rfl
  refine (write_represents h (d := leBytes 1 (0 : Int8).toUInt8.toNat) hrange).bind fun b' hb' ↦ ?_
  have hle : 1 ≤ (q ++ leBytes 1 (0 : Int8).toUInt8.toNat).length := by
    rw [List.length_append, hone]
    exact Nat.le_add_left 1 q.length
  refine (unwriteBytes_represents hb' hle).mono fun b'' hb'' ↦ ?_
  rwa [List.length_append, hone, Nat.add_sub_cancel, List.take_left] at hb''

/-- `Shrink` leaves the content, in a new allocation. -/
theorem shrink_represents (h : b.Represents q) {n : Nat}
    (hsum : kCheapPrependSize + (q.length + n) < 2 ^ 63) :
    Returns (b.shrink n) fun b' => b'.Represents q := by
  have hadd : sizeT (q.length + n) = q.length + n := by unfold sizeT; omega
  obtain ⟨other, hother, hwf, hcont, hcap, -, -, hwrite⟩ := new_spec hsum
  have hroom : q.length ≤ other.capacity - other.writeIndex := by omega
  obtain ⟨hwf', hcont', -⟩ := appended_leaves hwf hroom
  refine ⟨other.appended q, ?_, hwf', by rw [hcont', hcont, List.nil_append]⟩
  simp only [shrink, h.length_eq, hadd, hother, toSlice_eq h, write_fits hwf hroom, swap, bind,
    Except.bind, pure, Except.pure]

/-! ## Words -/

theorem leBytes_evppbswap64 (x : UInt64) :
    leBytes 8 (evppbswap64 x).toNat = beBytes 8 x.toNat := by
  rw [evppbswap64_toNat, leBytes_byteSwap]

theorem leBytes_one (x : UInt8) : leBytes 1 x.toNat = beBytes 1 x.toNat := rfl

end Buffer

end CoffeeChat
