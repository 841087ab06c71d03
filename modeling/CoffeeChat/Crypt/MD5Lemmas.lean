import CoffeeChat.Crypt.MD5

/-!
# The object `MD5` as an absorber

`update` copies, compresses and copies again, in an order that depends on how full the buffer is.
Seen from outside it is `absorb`: the object stands for its state words and the bytes that wait in
its buffer (`absorber`), and an `update` absorbs its input and counts its bits (`update_spec`).
`final` absorbs the closing bytes of a message, and then puts back what its two `memcpy` reach
(`final_spec`).
-/

namespace CoffeeChat.MD5

open Lib Lib.Absorb RFC1321

variable {m : DataModel}

/-! ## Words that count -/

theorem width_cases (m : DataModel) : m.width = 32 ∨ m.width = 64 := by
  cases m with
  | ilp32 => exact .inl rfl
  | lp64 => exact .inr rfl

/-- A position in an input does not wrap around when a block is added to it. -/
theorem add_mod_width {i k : Nat} (hi : i < 2 ^ (m.width - 1)) (hk : k ≤ 64) :
    (i + k) % 2 ^ m.width = i + k := by
  refine Nat.mod_eq_of_lt ?_
  rcases width_cases m with hw | hw <;> rw [hw] at hi ⊢ <;> omega

/-- The index is the number of bytes counted, modulo 64. -/
theorem index_eq (o : MD5 m) : o.index = o.count0.toNat / 8 % 64 := by
  have hmask : (0x3f : Ulong m).toNat = 2 ^ 6 - 1 := by cases m <;> rfl
  rw [index, BitVec.toNat_and, hmask, Nat.and_two_pow_sub_one_eq_mod, BitVec.toNat_ushiftRight,
    Nat.shiftRight_eq_div_pow]

theorem index_lt (o : MD5 m) : o.index < 64 := by
  rw [index_eq]
  exact Nat.mod_lt _ (by decide)

/-- The bits of an input, as `update` adds them to the low count. -/
theorem toNat_add_bits (c : Ulong m) (length : Nat) :
    (c + BitVec.ofNat m.width length <<< 3).toNat = (c.toNat + 8 * length) % 2 ^ m.width := by
  rw [BitVec.toNat_add, BitVec.toNat_shiftLeft, BitVec.toNat_ofNat, Nat.shiftLeft_eq,
    Nat.mod_mul_mod, Nat.add_mod_mod, Nat.mul_comm]

/-- Counting an input moves the index on by its length. -/
theorem index_of_count {o o' : MD5 m} {length : Nat}
    (h : o'.count0 = o.count0 + BitVec.ofNat m.width length <<< 3) :
    o'.index = (o.index + length) % 64 := by
  rw [index_eq, index_eq, h, toNat_add_bits]
  generalize o.count0.toNat = count
  rcases width_cases m with hw | hw <;> rw [hw] <;> omega

/-! ## Updates -/

/-- The state words, and the bytes that wait in the buffer. -/
def absorber (o : MD5 m) : Absorber (Words m.width) UInt8 := ⟨o.state, o.buffer.take o.index⟩

theorem length_tail (o : MD5 m) : o.absorber.tail.length = o.index := by
  show (o.buffer.take o.index).length = o.index
  rw [List.length_take, o.buffer_length]
  exact Nat.min_eq_left (Nat.le_of_lt o.index_lt)

/-- What a copy of `d` to position `i` of the buffer has done. -/
structure Copied (o : MD5 m) (i : Nat) (d : Bytes) (o' : MD5 m) : Prop where
  buffer : o'.buffer = o.buffer.take i ++ d ++ o.buffer.drop (i + d.length)
  state : o'.state = o.state
  count0 : o'.count0 = o.count0
  count1 : o'.count1 = o.count1
  digestBytes : o'.digestBytes = o.digestBytes
  finished : o'.finished = o.finished

theorem writeBuffer_spec (o : MD5 m) {i : Nat} {d : Bytes} (h : i + d.length ≤ 64) :
    Returns (o.writeBuffer i d) (Copied o i d) := by
  have hfits : i + d.length ≤ o.buffer.length := by rwa [o.buffer_length]
  exact ⟨_, dif_pos hfits, rfl, rfl, rfl, rfl, rfl, rfl⟩

/-- The buffer reads as its old part and the copied bytes up to where the copy ends. -/
theorem Copied.take_end {o o' : MD5 m} {i : Nat} {d : Bytes} (h : Copied o i d o')
    (hfits : i + d.length ≤ 64) : o'.buffer.take (i + d.length) = o.buffer.take i ++ d := by
  rw [h.buffer]
  refine List.take_left' ?_
  rw [List.length_append, List.length_take, o.buffer_length, Nat.min_eq_left (by omega)]

/-- The loop of `update` compresses the full blocks of its input from position `i` on, and stops
where fewer than 64 bytes are left. -/
theorem transformLoop_spec {input : Bytes} (hinput : input.length < 2 ^ (m.width - 1))
    {fuel i : Nat} {state : Words m.width} (hi : i ≤ input.length)
    (hfuel : input.length - i < fuel) :
    Returns (transformLoop m input fuel state i) fun r ↦ r.2 ≤ input.length ∧
      input.length - r.2 < 64 ∧ r.2 % 64 = i % 64 ∧
      absorb 64 transform ⟨state, []⟩ (input.drop i) = ⟨r.1, input.drop r.2⟩ := by
  induction fuel generalizing i state with
  | zero => omega
  | succ fuel ih =>
      have hnext (k : Nat) (hk : k ≤ 64) : (i + k) % 2 ^ m.width = i + k :=
        add_mod_width (Nat.lt_of_le_of_lt hi hinput) hk
      rw [transformLoop, hnext 63 (by decide), hnext 64 (by decide)]
      by_cases hmore : i + 63 < input.length
      · -- one more block: the rest of the run absorbs what is behind it
        rw [if_pos hmore, load_eq (by omega)]
        have hrest : Returns (transformLoop m input fuel
            (transform state ((input.drop i).take 64)) (i + 64)) _ := ih (by omega) (by omega)
        refine hrest.mono fun r hr ↦ ?_
        obtain ⟨hr, hleft, hmod, habsorb⟩ := hr
        refine ⟨hr, hleft, by omega, ?_⟩
        have hmany : 64 ≤ ([] : Bytes).length + (input.drop i).length := by
          rw [List.length_nil, List.length_drop]
          omega
        rw [absorb_fill (Nat.zero_lt_succ 63) hmany]
        show absorb 64 transform _ ((input.drop i).drop 64) = _
        rw [List.drop_drop]
        exact habsorb
      · rw [if_neg hmore]
        refine ⟨(state, i), rfl, hi, by omega, rfl, ?_⟩
        exact absorb_short (by
          rw [List.length_nil, List.length_drop]
          omega)

/-- What an `update` with the given input has done, seen from outside. -/
structure Updated (o : MD5 m) (input : Bytes) (o' : MD5 m) : Prop where
  absorber : o'.absorber = absorb 64 transform o.absorber input
  count0 : o'.count0 = o.count0 + BitVec.ofNat m.width input.length <<< 3
  count1 : o'.count1 =
    (if o'.count0 < BitVec.ofNat m.width input.length <<< 3 then o.count1 + 1 else o.count1) +
      BitVec.ofNat m.width input.length >>> 29
  digestBytes : o'.digestBytes = o.digestBytes
  finished : o'.finished = false
  /-- Input that fills the buffer just so stays in it. -/
  full : o.index + input.length = 64 → o'.buffer = o.absorber.tail ++ input

/-- The object once `update` has counted the bits of an input. -/
def counted (o : MD5 m) (length : Nat) : MD5 m :=
  let bits : Ulong m := BitVec.ofNat m.width length <<< 3
  { o with
    finished := false, count0 := o.count0 + bits
    count1 := (if o.count0 + bits < bits then o.count1 + 1 else o.count1) +
      BitVec.ofNat m.width length >>> 29 }

/-- Input that does not fill the buffer is copied behind what waits there. -/
theorem update_short {o : MD5 m} {input : Bytes} (h : o.index + input.length < 64) :
    o.update input = (o.counted input.length).writeBuffer o.index input := by
  have hload : load input 0 input.length = .ok input := by
    rw [load_eq (by omega), List.drop_zero, List.take_length]
  unfold update
  rw [if_neg (by omega)]
  show (load input 0 input.length >>= fun rest ↦
    (o.counted input.length).writeBuffer o.index rest) = _
  rw [hload]
  rfl

/-- Input that fills the buffer is compressed block by block, and the rest of it is copied. -/
theorem update_long {o : MD5 m} {input : Bytes} (h : 64 ≤ o.index + input.length) :
    o.update input = (do
      let o₁ ← (o.counted input.length).writeBuffer o.index (input.take (64 - o.index))
      let r ← transformLoop m input (input.length + 1) (transform o₁.state o₁.buffer) (64 - o.index)
      let rest ← load input r.2 (input.length - r.2)
      writeBuffer { o₁ with state := r.1 } 0 rest) := by
  unfold update
  rw [if_pos (by omega), load_eq (by omega), List.drop_zero]
  rfl

theorem Updated.of_short {o : MD5 m} {input : Bytes} (hshort : o.index + input.length < 64) :
    Returns (o.update input) (Updated o input) := by
  have hfits : o.index + input.length ≤ 64 := Nat.le_of_lt hshort
  rw [update_short hshort]
  refine (writeBuffer_spec _ hfits).mono fun o' h ↦ ?_
  refine ⟨?_, h.count0, ?_, h.digestBytes, h.finished, fun hfull ↦ absurd hshort (by omega)⟩
  · have hnext := index_of_count (o := o) h.count0
    rw [Nat.mod_eq_of_lt hshort] at hnext
    rw [absorb_short (by rwa [length_tail])]
    show Absorber.mk o'.state (o'.buffer.take o'.index) = _
    rw [hnext, h.take_end hfits, h.state]
    rfl
  · rw [h.count1, h.count0]
    rfl

theorem Updated.of_long {o : MD5 m} {input : Bytes} (hinput : input.length < 2 ^ (m.width - 1))
    (hlong : 64 ≤ o.index + input.length) : Returns (o.update input) (Updated o input) := by
  have hindex := o.index_lt
  have hpart : (input.take (64 - o.index)).length = 64 - o.index := by
    rw [List.length_take]
    omega
  have hfits : o.index + (input.take (64 - o.index)).length ≤ 64 := by omega
  rw [update_long hlong]
  refine (writeBuffer_spec _ hfits).bind fun o₁ h₁ ↦ ?_
  have hblock : o₁.buffer = o.absorber.tail ++ input.take (64 - o.index) := by
    have hsize : o.index + (input.take (64 - o.index)).length = o₁.buffer.length := by
      rw [hpart, o₁.buffer_length]
      omega
    have htake := h₁.take_end hfits
    rw [hsize, List.take_length] at htake
    exact htake
  refine (transformLoop_spec hinput (by omega) (by omega)).bind fun r hr ↦ ?_
  obtain ⟨hr, hleft, hmod, habsorb⟩ := hr
  -- the first block is what waited and the part of the input that the buffer had room for
  have habsorbed : absorb 64 transform o.absorber input = ⟨r.1, input.drop r.2⟩ := by
    rw [absorb_fill (by rwa [length_tail]) (by rwa [length_tail]), length_tail, ← habsorb, hblock,
      h₁.state]
    rfl
  have hrest : (input.drop r.2).take (input.length - r.2) = input.drop r.2 := by
    rw [← List.length_drop, List.take_length]
  have hfits₂ : 0 + (input.drop r.2).length ≤ 64 := by
    rw [List.length_drop]
    omega
  rw [load_eq (by omega), hrest]
  refine (writeBuffer_spec _ hfits₂).mono fun o₂ h₂ ↦ ?_
  have hcount0 := h₂.count0.trans h₁.count0
  refine ⟨?_, hcount0, ?_, h₂.digestBytes.trans h₁.digestBytes, h₂.finished.trans h₁.finished,
    fun hfull ↦ ?_⟩
  · have hindex₂ : o₂.index = 0 + (input.drop r.2).length := by
      rw [index_of_count (o := o) hcount0, List.length_drop]
      omega
    show Absorber.mk o₂.state (o₂.buffer.take o₂.index) = _
    rw [habsorbed, hindex₂, h₂.take_end hfits₂, h₂.state]
    rfl
  · rw [h₂.count1, hcount0]
    exact h₁.count1
  · have hend : r.2 = input.length := by omega
    rw [h₂.buffer, hend, List.drop_length]
    show o₁.buffer = _
    rw [hblock, List.take_of_length_le (by omega)]

/-- `update` absorbs its input. -/
theorem update_spec (o : MD5 m) {input : Bytes} (hinput : input.length < 2 ^ (m.width - 1)) :
    Returns (o.update input) (Updated o input) := by
  by_cases hshort : o.index + input.length < 64
  · exact Updated.of_short hshort
  · exact Updated.of_long hinput (Nat.le_of_not_lt hshort)

/-- A short input is counted with at most one carry, into the high count. -/
theorem Updated.count1_eq {o o' : MD5 m} {input : Bytes} (h : Updated o input o')
    (hinput : input.length ≤ 64) :
    o'.count1 = if o.count0.toNat + 8 * input.length < 2 ^ m.width then o.count1
      else o.count1 + 1 := by
  have hbits : (BitVec.ofNat m.width input.length <<< 3).toNat = 8 * input.length := by
    have hsum := toNat_add_bits (0#m.width) input.length
    rw [BitVec.zero_add, BitVec.toNat_zero, Nat.zero_add] at hsum
    rw [hsum]
    rcases width_cases m with hw | hw <;> rw [hw] <;> omega
  have hhigh : BitVec.ofNat m.width input.length >>> 29 = 0#m.width := by
    refine BitVec.eq_of_toNat_eq ?_
    rw [BitVec.toNat_ushiftRight, BitVec.toNat_ofNat, BitVec.toNat_zero, Nat.shiftRight_eq_div_pow]
    rcases width_cases m with hw | hw <;> rw [hw] <;> omega
  have hcarry : o'.count0 < BitVec.ofNat m.width input.length <<< 3 ↔
      ¬ o.count0.toNat + 8 * input.length < 2 ^ m.width := by
    rw [h.count0, BitVec.lt_def, toNat_add_bits, hbits]
    have hcount := o.count0.isLt
    generalize o.count0.toNat = count at hcount ⊢
    rcases width_cases m with hw | hw <;> rw [hw] at hcount ⊢ <;> omega
  rw [h.count1, hhigh, BitVec.add_zero]
  simp only [hcarry, ite_not]

/-- Two short inputs one after the other are counted with at most one carry, too. -/
theorem Updated.count1_trans {o o₁ o₂ : MD5 m} {xs ys : Bytes} (h₁ : Updated o xs o₁)
    (h₂ : Updated o₁ ys o₂) (hxs : xs.length ≤ 64) (hys : ys.length ≤ 64) :
    o₂.count1 = if o.count0.toNat + 8 * (xs.length + ys.length) < 2 ^ m.width then o.count1
      else o.count1 + 1 := by
  rw [h₂.count1_eq hys, h₁.count1_eq hxs, h₁.count0, toNat_add_bits]
  have hcount := o.count0.isLt
  generalize o.count0.toNat = count at hcount ⊢
  have hsize := (width_cases m).imp (congrArg (2 ^ ·)) (congrArg (2 ^ ·))
  generalize 2 ^ m.width = size at hcount hsize ⊢
  rcases hsize with rfl | rfl <;> split_ifs <;> first | rfl | omega

/-! ## The end of a message -/

/-- The bytes that `final` lets the object absorb: padding up to 56 bytes modulo 64, and the
counts. -/
def closing (o : MD5 m) : Bytes := PADDING.take o.padLen ++ encode [o.count0, o.count1] 8

/-- The state words that the digest is made of. -/
def closed (o : MD5 m) : Words m.width := (absorb 64 transform o.absorber o.closing).state

/-- The last block of the message, which `final` leaves in the buffer. -/
def lastBlock (o : MD5 m) : Bytes :=
  if o.index < 56 then o.absorber.tail ++ o.closing else o.closing.drop (64 - o.index)

/-- What `final` has done, seen from outside. -/
structure Finalized (o o' : MD5 m) : Prop where
  digestBytes : o'.digestBytes = encode [o.closed.a, o.closed.b, o.closed.c, o.closed.d] 16
  state : o'.state = memcpyWords o.closed o.state 16
  count0 : o'.count0 = o.count0
  count1 : o'.count1 = if 2 * m.sizeofUlong ≤ 8 ∨
    o.count0.toNat + 8 * o.closing.length < 2 ^ m.width then o.count1 else o.count1 + 1
  buffer : o'.buffer = o.lastBlock
  finished : o'.finished = false

theorem padLen_le (o : MD5 m) : o.padLen ≤ 64 := by
  have hindex := o.index_lt
  unfold padLen
  split <;> omega

theorem length_padding (o : MD5 m) : (PADDING.take o.padLen).length = o.padLen :=
  List.length_take_of_le o.padLen_le

theorem length_bits (o : MD5 m) : (encode [o.count0, o.count1] 8).length = 8 := rfl

theorem length_closing (o : MD5 m) : o.closing.length = o.padLen + 8 := by
  rw [closing, List.length_append, length_padding, length_bits]

/-- The padding leaves room for the counts. -/
theorem index_padded {o padded : MD5 m} (h : Updated o (PADDING.take o.padLen) padded) :
    padded.index = 56 := by
  have hindex := o.index_lt
  rw [index_of_count h.count0, length_padding, padLen]
  split <;> omega

/-- The bytes that wait once the padding is absorbed, and the counts, are the last block. -/
theorem tail_padded (o : MD5 m) :
    (absorb 64 transform o.absorber (PADDING.take o.padLen)).tail ++
      encode [o.count0, o.count1] 8 = o.lastBlock := by
  have hindex := o.index_lt
  rw [lastBlock, closing]
  split
  case isTrue hshort =>
    have hlen : o.padLen = 56 - o.index := if_pos hshort
    rw [absorb_short (by rw [length_tail, length_padding]; omega)]
    exact List.append_assoc ..
  case isFalse hlong =>
    have hlen : o.padLen = 120 - o.index := if_neg hlong
    rw [absorb_fill (by rwa [length_tail]) (by rw [length_tail, length_padding]; omega),
      length_tail, absorb_short (by rw [List.length_nil, List.length_drop, length_padding]; omega),
      List.drop_append_of_le_length (by rw [length_padding]; omega)]
    rfl

/-- `final` computes the digest of what the object has absorbed. -/
theorem final_spec (o : MD5 m) : Returns o.final (Finalized o) := by
  have hle := o.padLen_le
  have hsmall : 64 < 2 ^ (m.width - 1) := by
    rcases width_cases m with hw | hw <;> rw [hw] <;> decide
  have hload : load PADDING 0 o.padLen = .ok (PADDING.take o.padLen) := load_eq (by
    rw [Nat.zero_add]
    exact hle)
  unfold final
  rw [hload]
  refine (update_spec o (by rw [length_padding]; omega)).bind fun padded h₁ ↦ ?_
  refine (update_spec padded (by rw [length_bits]; omega)).bind fun ended h₂ ↦ ?_
  have hclosed : ended.state = o.closed := by
    rw [closed, closing, absorb_append, ← h₁.absorber, ← h₂.absorber]
    rfl
  have hbuffer : ended.buffer = o.lastBlock := by
    rw [h₂.full (by rw [index_padded h₁, length_bits]), h₁.absorber, tail_padded]
  -- `_count[0]` fits into the eight bytes that are put back, `_count[1]` only where it has four
  refine ⟨_, rfl, ?_, ?_, ?_, ?_, hbuffer, h₂.finished⟩
  · rw [← hclosed]
  · rw [← hclosed]
  · cases m <;> rfl
  · by_cases hwide : 2 * m.sizeofUlong ≤ 8
    · exact (if_pos hwide).trans (if_pos (.inl hwide)).symm
    · refine (if_neg hwide).trans ?_
      rw [h₁.count1_trans h₂ (by rwa [length_padding]) (by rw [length_bits]; decide),
        length_padding, length_bits, length_closing]
      simp only [hwide, false_or]

/-- `digest` computes the digest anew, since `update` has said that it is not finished. -/
theorem digest_spec {o : MD5 m} (hfinished : o.finished = false) :
    Returns o.digest fun r ↦ r.1 = r.2.digestBytes ∧ Finalized o r.2 := by
  unfold digest
  rw [hfinished]
  refine (final_spec { o with finished := true }).bind fun o' h ↦ ?_
  exact ⟨_, rfl, rfl, h.digestBytes, h.state, h.count0, h.count1, h.buffer, h.finished⟩

theorem toString_spec {o : MD5 m} (hfinished : o.finished = false) :
    Returns o.toString fun r ↦ r.1 = bytesToHexString r.2.digestBytes ∧ Finalized o r.2 := by
  refine (digest_spec hfinished).bind fun r h ↦ ?_
  obtain ⟨hdigest, h⟩ := h
  exact ⟨_, rfl, congrArg bytesToHexString hdigest, h⟩

end CoffeeChat.MD5
