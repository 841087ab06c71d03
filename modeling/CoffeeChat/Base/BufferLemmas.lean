import CoffeeChat.Base.Buffer

/-!
# What the buffer operations do to the content

`WF` is the representation invariant: the two indices lie in order inside the allocation. Under
it every reading or writing operation returns, and acts on `contents` as the operation of the
same name acts on a queue of bytes: `write` appends, `skip` and the `read` family drop from the
front, `reset` empties. The read operations keep the allocation, which `SameAlloc` records.
-/

namespace CoffeeChat.Buffer

open Lib Lib.Endian

/-- The indices of the buffer lie in order inside its allocation. -/
structure WF (b : Buffer) : Prop where
  storage_length : b.storage.length = b.capacity
  read_le_write : b.readIndex ≤ b.writeIndex
  write_le_capacity : b.writeIndex ≤ b.capacity
  reserved_le_capacity : b.reservedPrependSize ≤ b.capacity
  capacity_lt : b.capacity < 2 ^ 63

/-- The two buffers differ only in their content and the position of it. -/
def SameAlloc (b b' : Buffer) : Prop :=
  b'.capacity = b.capacity ∧ b'.reservedPrependSize = b.reservedPrependSize

/-- What an operation that leaves the content `c` in the allocation of `b` returns. -/
def Leaves (b : Buffer) (c : Bytes) (b' : Buffer) : Prop :=
  b'.WF ∧ b'.contents = c ∧ SameAlloc b b'

variable {b : Buffer}

theorem contents_length (h : b.WF) : b.contents.length = b.writeIndex - b.readIndex := by
  have h1 := h.storage_length
  have h2 := h.write_le_capacity
  simp only [contents, List.length_take, List.length_drop]
  omega

theorem length_eq (h : b.WF) : b.length = .ok b.contents.length := by
  have hle := h.read_le_write
  simp [length, check, hle, contents_length h, bind, Except.bind, pure, Except.pure]

theorem size_eq (h : b.WF) : b.size = .ok b.contents.length := length_eq h

theorem writableBytes_eq (h : b.WF) : b.writableBytes = .ok (b.capacity - b.writeIndex) := by
  have hle := h.write_le_capacity
  simp [writableBytes, check, hle, bind, Except.bind, pure, Except.pure]

/-- A fresh buffer is empty, with its write position behind the reserve. -/
theorem new_spec {initialSize reserved : Nat} (h : reserved + initialSize < 2 ^ 63) :
    Returns (new initialSize reserved) fun b =>
      b.WF ∧ b.contents = [] ∧ b.capacity = reserved + initialSize ∧
        b.reservedPrependSize = reserved ∧ b.readIndex = reserved ∧ b.writeIndex = reserved := by
  have hsum : sizeT (reserved + initialSize) = reserved + initialSize := by
    unfold sizeT; omega
  have hwf : WF ⟨List.replicate (reserved + initialSize) 0, reserved + initialSize, reserved,
      reserved, reserved⟩ :=
    ⟨by simp, le_rfl, by simp, by simp, h⟩
  refine ⟨_, ?_, hwf, by simp [contents], rfl, rfl, rfl, rfl⟩
  simp [new, hsum, length_eq hwf, writableBytes_eq hwf, contents, prependableBytes, check, bind,
    Except.bind, pure, Except.pure]

/-! ## Dropping content -/

theorem reset_leaves (h : b.WF) : Leaves b [] b.reset := by
  refine ⟨⟨h.storage_length, le_rfl, h.reserved_le_capacity, h.reserved_le_capacity,
    h.capacity_lt⟩, ?_, rfl, rfl⟩
  simp [reset, truncate, contents]

/-- `Skip` drops from the front, and empties the buffer when asked for more than it has. -/
theorem skip_spec (h : b.WF) (n : Nat) : Returns (b.skip n) (Leaves b (b.contents.drop n)) := by
  have hlen := contents_length h
  by_cases hn : n < b.contents.length
  · refine ⟨{ b with readIndex := b.readIndex + n }, ?_, ?_, ?_, rfl, rfl⟩
    · simp [skip, length_eq h, hn, bind, Except.bind, pure, Except.pure]
    · exact ⟨h.storage_length, by simp only; omega, h.write_le_capacity,
        h.reserved_le_capacity, h.capacity_lt⟩
    · simp only [contents, List.drop_take, List.drop_drop]
      congr 1
      omega
  · have hdrop : b.contents.drop n = [] := List.drop_eq_nil_of_le (by omega)
    rw [hdrop]
    refine ⟨b.reset, ?_, reset_leaves h⟩
    simp [skip, length_eq h, hn, bind, Except.bind, pure, Except.pure]

/-! ## Reading -/

/-- A load at the read position yields a prefix of the content. -/
theorem load_contents (h : b.WF) {n : Nat} (hn : n ≤ b.contents.length) :
    load b.storage b.readIndex n = .ok (b.contents.take n) := by
  have hlen := contents_length h
  have hs := h.storage_length
  have hr := h.read_le_write
  have hw := h.write_le_capacity
  rw [load_eq (by omega), contents, List.take_take, Nat.min_eq_left (by omega)]

/-- `ntohl` of a word loaded in host order reads its bytes in network order. -/
theorem htonl_leValue {bs : Bytes} (hlen : bs.length = 4) :
    htonl (UInt32.ofNat (leValue bs)) = UInt32.ofNat (beValue bs) := by
  have hval : (UInt32.ofNat (leValue bs)).toNat = leValue bs := leValue_mod bs (w := 4) hlen.le
  rw [htonl, hval, ← byteSwap_leValue, hlen]

/-- `ntohs` of a half word loaded in host order reads its bytes in network order. -/
theorem htons_leValue {bs : Bytes} (hlen : bs.length = 2) :
    htons (UInt16.ofNat (leValue bs)) = UInt16.ofNat (beValue bs) := by
  have hval : (UInt16.ofNat (leValue bs)).toNat = leValue bs := leValue_mod bs (w := 2) hlen.le
  rw [htons, hval, ← byteSwap_leValue, hlen]

/-- A word of `w` bytes is peeked from the front of the content. -/
theorem peek_eq (h : b.WF) {α : Type} {w : Nat} (hn : w ≤ b.contents.length) (word : Bytes → α) :
    (do
      let length ← b.length
      check (length ≥ w)
      let bytes ← load b.storage b.readIndex w
      return word bytes) = .ok (word (b.contents.take w)) := by
  simp only [length_eq h, check, ge_iff_le, hn, if_true, load_contents h hn, bind, Except.bind,
    pure, Except.pure]

theorem length_take_contents {n : Nat} (hn : n ≤ b.contents.length) :
    (b.contents.take n).length = n := by
  rw [List.length_take, Nat.min_eq_left hn]

theorem peekInt32_eq (h : b.WF) (hn : 4 ≤ b.contents.length) :
    b.peekInt32 = .ok (UInt32.ofNat (beValue (b.contents.take 4))).toInt32 := by
  rw [← htonl_leValue (length_take_contents hn)]
  exact peek_eq h hn fun bytes ↦ (htonl (UInt32.ofNat (leValue bytes))).toInt32

theorem peekInt16_eq (h : b.WF) (hn : 2 ≤ b.contents.length) :
    b.peekInt16 = .ok (UInt16.ofNat (beValue (b.contents.take 2))).toInt16 := by
  rw [← htons_leValue (length_take_contents hn)]
  exact peek_eq h hn fun bytes ↦ (htons (UInt16.ofNat (leValue bytes))).toInt16

/-- `ReadInt32` takes a network-order word from the front of the content. -/
theorem readInt32_spec (h : b.WF) (hn : 4 ≤ b.contents.length) :
    Returns b.readInt32 fun r =>
      r.1.toUInt32 = UInt32.ofNat (beValue (b.contents.take 4)) ∧
        Leaves b (b.contents.drop 4) r.2 := by
  obtain ⟨b', hskip, hleaves⟩ := skip_spec h 4
  refine ⟨(_, b'), ?_, rfl, hleaves⟩
  simp only [readInt32, peekInt32_eq h hn, hskip, bind, Except.bind, pure, Except.pure]
  rfl

/-- `ReadInt16` takes a network-order half word from the front of the content. -/
theorem readInt16_spec (h : b.WF) (hn : 2 ≤ b.contents.length) :
    Returns b.readInt16 fun r =>
      r.1.toUInt16 = UInt16.ofNat (beValue (b.contents.take 2)) ∧
        Leaves b (b.contents.drop 2) r.2 := by
  obtain ⟨b', hskip, hleaves⟩ := skip_spec h 2
  refine ⟨(_, b'), ?_, rfl, hleaves⟩
  simp only [readInt16, peekInt16_eq h hn, hskip, bind, Except.bind, pure, Except.pure]
  rfl

/-! ## Writing -/

/-- A buffer whose content has just been stored at its reserve. -/
theorem placed (reserved : Nat) (c : Bytes) {mem : Bytes} {capacity : Nat}
    (hmem : mem.length = capacity) (hfit : reserved + c.length ≤ capacity)
    (hcap : capacity < 2 ^ 63) :
    WF ⟨mem.take reserved ++ c ++ mem.drop (reserved + c.length), capacity, reserved,
        reserved + c.length, reserved⟩ ∧
      contents ⟨mem.take reserved ++ c ++ mem.drop (reserved + c.length), capacity, reserved,
        reserved + c.length, reserved⟩ = c := by
  refine ⟨⟨?_, by simp, hfit, by simp only; omega, hcap⟩, ?_⟩
  · rw [length_overwrite (by omega), hmem]
  · have hslice := slice_overwrite mem c (le_refl reserved) (by omega)
    simpa [contents] using hslice

/-- The sums `grow(len)` makes stay below `2 ^ 63`. -/
def GrowInRange (b : Buffer) (len : Nat) : Prop :=
  len + b.reservedPrependSize < 2 ^ 63 ∧
    (b.capacity - b.writeIndex + b.readIndex < len + b.reservedPrependSize →
      2 * b.capacity + len < 2 ^ 63)

/-- `EnsureWritableBytes(len)` has room for `len` bytes, or grows with sums below `2 ^ 63`. -/
def EnsureInRange (b : Buffer) (len : Nat) : Prop :=
  b.capacity - b.writeIndex < len → b.GrowInRange len

theorem ensureInRange_of_lt (h : b.WF) {len : Nat} (hsize : 2 * b.capacity + len < 2 ^ 63) :
    b.EnsureInRange len := by
  have hres := h.reserved_le_capacity
  exact fun _ ↦ ⟨by omega, fun _ ↦ hsize⟩

/-- `grow` makes room without touching the content. -/
theorem grow_spec (h : b.WF) {len : Nat} (hroom : b.capacity - b.writeIndex < len)
    (hrange : b.GrowInRange len) :
    Returns (b.grow len) fun b' =>
      b'.WF ∧ b'.contents = b.contents ∧ b'.reservedPrependSize = b.reservedPrependSize ∧
        len ≤ b'.capacity - b'.writeIndex ∧
        (b'.capacity = b.capacity ∨ b'.capacity = 2 * b.capacity + len) := by
  have hlen := contents_length h
  have hload := load_contents h le_rfl
  rw [List.take_length] at hload
  have hs := h.storage_length
  have hw := h.write_le_capacity
  have hr := h.read_le_write
  have hres := h.reserved_le_capacity
  have hcap := h.capacity_lt
  have hsum : sizeT (b.capacity - b.writeIndex + b.readIndex) =
      b.capacity - b.writeIndex + b.readIndex := by unfold sizeT; omega
  obtain ⟨hneed_lt, hdouble_lt⟩ := hrange
  have hneed : sizeT (len + b.reservedPrependSize) = len + b.reservedPrependSize := by
    unfold sizeT; omega
  by_cases hfits : b.capacity - b.writeIndex + b.readIndex < len + b.reservedPrependSize
  · -- a larger allocation
    have hsize := hdouble_lt hfits
    have hdouble : sizeT (sizeT (b.capacity * 2) + len) = 2 * b.capacity + len := by
      unfold sizeT; omega
    have hmem : b.reservedPrependSize + b.contents.length ≤
        (List.replicate (2 * b.capacity + len) (0 : UInt8)).length := by simp; omega
    obtain ⟨hwf, hcont⟩ := placed b.reservedPrependSize b.contents
      (List.length_replicate (n := 2 * b.capacity + len) (a := (0 : UInt8))) (by omega)
      (by omega)
    refine ⟨_, ?_, hwf, hcont, rfl, ?_, Or.inr rfl⟩
    · simp only [grow, writableBytes_eq h, bind, Except.bind, prependableBytes, hsum, hneed,
        hfits, if_true, hdouble, length_eq h, hload, store_eq hmem, pure, Except.pure,
        Nat.add_comm b.contents.length]
    · simp only; omega
  · -- the old allocation, the content moved to its front
    have hmem : b.reservedPrependSize + b.contents.length ≤ b.storage.length := by omega
    have hfront : b.reservedPrependSize < b.readIndex := by omega
    obtain ⟨hwf, hcont⟩ := placed b.reservedPrependSize b.contents hs (by omega) hcap
    refine ⟨_, ?_, hwf, hcont, rfl, ?_, Or.inl rfl⟩
    · have hspace : len ≤ b.capacity - (b.reservedPrependSize + b.contents.length) := by omega
      simp only [grow, writableBytes_eq h, bind, Except.bind, prependableBytes, hsum, hneed,
        hfits, if_false, check, hfront, if_true, length_eq h, hload, store_eq hmem,
        length_eq hwf, hcont, writableBytes_eq hwf, ge_iff_le, hspace, pure, Except.pure]
    · simp only; omega

/-- The buffer with `d` stored behind its content. -/
def appended (b : Buffer) (d : Bytes) : Buffer :=
  { b with
    storage := b.storage.take b.writeIndex ++ d ++ b.storage.drop (b.writeIndex + d.length)
    writeIndex := b.writeIndex + d.length }

theorem appended_leaves (h : b.WF) {d : Bytes} (hroom : d.length ≤ b.capacity - b.writeIndex) :
    Leaves b (b.contents ++ d) (b.appended d) := by
  obtain ⟨hs, hr, hw, hres, hcap⟩ := h
  have hfit : b.writeIndex + d.length ≤ b.storage.length := by omega
  refine ⟨⟨?_, ?_, ?_, hres, hcap⟩, ?_, rfl, rfl⟩
  · rw [appended, length_overwrite hfit, hs]
  · simp only [appended]; omega
  · simp only [appended]; omega
  · simp only [appended, contents]
    exact slice_overwrite _ _ hr hfit

theorem storeAtWriteBegin_eq (h : b.WF) {d : Bytes}
    (hroom : d.length ≤ b.capacity - b.writeIndex) :
    b.storeAtWriteBegin d = .ok { b.appended d with writeIndex := b.writeIndex } := by
  have hs := h.storage_length
  have hw := h.write_le_capacity
  have hfit : b.writeIndex + d.length ≤ b.storage.length := by omega
  simp only [storeAtWriteBegin, store_eq hfit, bind, Except.bind, pure, Except.pure, appended]

/-- Bytes stored at `WriteBegin()` become content when `WriteBytes` moves the write index. -/
theorem writeBytes_appended (h : b.WF) {d : Bytes}
    (hroom : d.length ≤ b.capacity - b.writeIndex) :
    ({ b.appended d with writeIndex := b.writeIndex } : Buffer).writeBytes d.length =
      .ok (b.appended d) := by
  have hw := h.write_le_capacity
  simp [writeBytes, writableBytes, appended, check, hw, hroom, bind, Except.bind, pure,
    Except.pure]

/-- `EnsureWritableBytes` makes room and leaves the content. -/
theorem ensureWritableBytes_spec (h : b.WF) {len : Nat} (hrange : b.EnsureInRange len) :
    Returns (b.ensureWritableBytes len) fun b' =>
      b'.WF ∧ b'.contents = b.contents ∧ b'.reservedPrependSize = b.reservedPrependSize ∧
        len ≤ b'.capacity - b'.writeIndex ∧
        (b'.capacity = b.capacity ∨
          b.capacity - b.writeIndex < len ∧ b'.capacity = 2 * b.capacity + len) := by
  by_cases hless : b.capacity - b.writeIndex < len
  · obtain ⟨g, hg, hwf, hcont, hres, hspace, hcap⟩ := grow_spec h hless (hrange hless)
    refine ⟨g, ?_, hwf, hcont, hres, hspace, hcap.imp_right fun hcap ↦ ⟨hless, hcap⟩⟩
    simp only [ensureWritableBytes, writableBytes_eq h, hless, if_true, hg, writableBytes_eq hwf,
      check, ge_iff_le, hspace, bind, Except.bind, pure, Except.pure]
  · have hspace : len ≤ b.capacity - b.writeIndex := by omega
    refine ⟨b, ?_, h, rfl, rfl, hspace, Or.inl rfl⟩
    simp only [ensureWritableBytes, writableBytes_eq h, hless, if_false, check, ge_iff_le, hspace,
      if_true, bind, Except.bind, pure, Except.pure]

/-- With room made for it, a write is one that fits. -/
theorem write_of_ensure {b b' : Buffer} (hwf : b'.WF) {d : Bytes}
    (hensure : b.ensureWritableBytes d.length = .ok b')
    (hroom : d.length ≤ b'.capacity - b'.writeIndex) : b.write d = .ok (b'.appended d) := by
  have hcap := hwf.capacity_lt
  have hw := hwf.write_le_capacity
  have hsum : sizeT (b'.writeIndex + d.length) ≤ b'.capacity := by unfold sizeT; omega
  simp only [write, hensure, storeAtWriteBegin_eq hwf hroom, bind, Except.bind, check, appended,
    hsum, if_true, pure, Except.pure]

/-- A write that fits appends in place. -/
theorem write_fits (h : b.WF) {d : Bytes} (hroom : d.length ≤ b.capacity - b.writeIndex) :
    b.write d = .ok (b.appended d) := by
  have hnot : ¬ b.capacity - b.writeIndex < d.length := by omega
  refine write_of_ensure h ?_ hroom
  simp [ensureWritableBytes, writableBytes_eq h, hnot, check, hroom, bind, Except.bind, pure,
    Except.pure]

/-- `Write` appends to the content, in a larger allocation when the old one is too small. -/
theorem write_spec_of_range (h : b.WF) {d : Bytes} (hrange : b.EnsureInRange d.length) :
    Returns (b.write d) fun b' =>
      b'.WF ∧ b'.contents = b.contents ++ d ∧
        b'.reservedPrependSize = b.reservedPrependSize ∧
        (b'.capacity = b.capacity ∨
          b.capacity - b.writeIndex < d.length ∧ b'.capacity = 2 * b.capacity + d.length) := by
  obtain ⟨g, hg, hwf, hcont, hres, hspace, hcap⟩ := ensureWritableBytes_spec h hrange
  obtain ⟨hwf', hcont', hcap', hres'⟩ := appended_leaves hwf hspace
  refine ⟨_, write_of_ensure hwf hg hspace, hwf', by rw [hcont', hcont], hres'.trans hres, ?_⟩
  rw [hcap']
  exact hcap

/-- `Write` in a buffer small enough to double. -/
theorem write_spec (h : b.WF) {d : Bytes} (hsize : 2 * b.capacity + d.length < 2 ^ 63) :
    Returns (b.write d) fun b' =>
      b'.WF ∧ b'.contents = b.contents ++ d ∧
        b'.reservedPrependSize = b.reservedPrependSize ∧
        (b'.capacity = b.capacity ∨
          b.capacity - b.writeIndex < d.length ∧ b'.capacity = 2 * b.capacity + d.length) :=
  write_spec_of_range h (ensureInRange_of_lt h hsize)

/-- Storing `htonl(x)` stores `x` in network order. -/
theorem leBytes_htonl (x : UInt32) : leBytes 4 (htonl x).toNat = beBytes 4 x.toNat := by
  have hlt := byteSwap_lt 4 x.toNat
  have hval : (htonl x).toNat = byteSwap 4 x.toNat := by
    rw [htonl, UInt32.toNat_ofNat']; omega
  rw [hval, leBytes_byteSwap]

/-- Storing `htons(x)` stores `x` in network order. -/
theorem leBytes_htons (x : UInt16) : leBytes 2 (htons x).toNat = beBytes 2 x.toNat := by
  have hlt := byteSwap_lt 2 x.toNat
  have hval : (htons x).toNat = byteSwap 2 x.toNat := by
    rw [htons, UInt16.toNat_ofNat']; omega
  rw [hval, leBytes_byteSwap]

/-- `AppendInt32` appends the word in network order. -/
theorem appendInt32_eq (h : b.WF) {x : Int32} (hroom : 4 ≤ b.capacity - b.writeIndex) :
    b.appendInt32 x = .ok (b.appended (beBytes 4 x.toUInt32.toNat)) := by
  rw [appendInt32, leBytes_htonl, write_fits h (by simpa using hroom)]

/-- `AppendInt16` appends the half word in network order. -/
theorem appendInt16_eq (h : b.WF) {x : Int16} (hroom : 2 ≤ b.capacity - b.writeIndex) :
    b.appendInt16 x = .ok (b.appended (beBytes 2 x.toUInt16.toNat)) := by
  rw [appendInt16, leBytes_htons, write_fits h (by simpa using hroom)]

/-! ## Filling a fresh buffer -/

/-- The buffer holds `c`, and `room` more bytes fit behind it. -/
structure Filled (room : Nat) (c : Bytes) (b : Buffer) : Prop where
  wf : b.WF
  contents_eq : b.contents = c
  room_le : room ≤ b.capacity - b.writeIndex

variable {room : Nat} {c : Bytes}

/-- Appending uses up as much room as there are bytes. -/
theorem Filled.appended (h : Filled room c b) {d : Bytes} (hroom : d.length ≤ room) :
    Filled (room - d.length) (c ++ d) (b.appended d) := by
  have hle := h.room_le
  obtain ⟨hwf, hcont, hcap, -⟩ := appended_leaves h.wf (d := d) (by omega)
  refine ⟨hwf, by rw [hcont, h.contents_eq], ?_⟩
  rw [hcap]
  simp only [Buffer.appended]
  omega

/-- A fresh buffer has room for as many bytes as it was made for. -/
theorem new_filled {initialSize reserved : Nat} (h : reserved + initialSize < 2 ^ 63) :
    Returns (new initialSize reserved) (Filled initialSize []) := by
  refine (new_spec h).mono fun b hb ↦ ?_
  obtain ⟨hwf, hcont, hcap, -, -, hwrite⟩ := hb
  exact ⟨hwf, hcont, by omega⟩

theorem appendInt32_filled (h : Filled room c b) (x : Int32) (hroom : 4 ≤ room) :
    Returns (b.appendInt32 x) (Filled (room - 4) (c ++ beBytes 4 x.toUInt32.toNat)) := by
  have hle := h.room_le
  refine ⟨_, appendInt32_eq h.wf (by omega), ?_⟩
  simpa using h.appended (d := beBytes 4 x.toUInt32.toNat) (by simpa using hroom)

theorem appendInt16_filled (h : Filled room c b) (x : Int16) (hroom : 2 ≤ room) :
    Returns (b.appendInt16 x) (Filled (room - 2) (c ++ beBytes 2 x.toUInt16.toNat)) := by
  have hle := h.room_le
  refine ⟨_, appendInt16_eq h.wf (by omega), ?_⟩
  simpa using h.appended (d := beBytes 2 x.toUInt16.toNat) (by simpa using hroom)

end CoffeeChat.Buffer
