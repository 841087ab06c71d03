import CoffeeChat.Crypt.MD5Lemmas

/-!
# Reading a digest between updates

A run of calls on an `MD5` object since `reset()`: updates, and readings of the digest at any point
between them. `final` appends the closing bytes to the message with the ordinary `update` and then
puts the object back, as far as its fixed byte counts reach. Whether a reading leaves the object as
it was depends on the state before it alone (`Restores`, `unchanged_iff`). In a run whose readings
all do, every digest is that of the updates before it (`run_pure`).
-/

namespace CoffeeChat.MD5

open Lib Lib.Absorb RFC1321

variable {m : DataModel}

/-! ## Runs -/

/-- The two members that read the digest. -/
inductive Reader where
  | digest
  | toString
  deriving DecidableEq, Repr

/-- What they return. -/
inductive Reading where
  | bytes (bytes : Bytes)
  | string (str : List Char)
  deriving DecidableEq, Repr

/-- A call on an object. -/
inductive Call (m : DataModel) where
  | update (input : Input m)
  | read (r : Reader)

/-- Read the digest of an object. -/
def Reader.read (o : MD5 m) : Reader → Result (Reading × MD5 m)
  | .digest => do
      let (bytes, o) ← o.digest
      return (.bytes bytes, o)
  | .toString => do
      let (str, o) ← o.toString
      return (.string str, o)

/-- What a member returns, given the bytes of the digest. -/
def Reader.reading : Reader → Bytes → Reading
  | .digest => .bytes
  | .toString => fun digest ↦ .string (bytesToHexString digest)

/-- The readings of a run of calls, and the object after it. -/
def run (o : MD5 m) : List (Call m) → Result (List Reading × MD5 m)
  | [] => .ok ([], o)
  | .update input :: calls => do
      let o ← o.update input.bytes
      run o calls
  | .read r :: calls => do
      let (reading, o) ← r.read o
      let (readings, o) ← run o calls
      return (reading :: readings, o)

/-- The readings of a run in which every reading is made on an object that was not read before. -/
def pureRun (o : MD5 m) : List (Call m) → Result (List Reading)
  | [] => .ok []
  | .update input :: calls => do
      let o ← o.update input.bytes
      pureRun o calls
  | .read r :: calls => do
      let (reading, _) ← r.read o
      let readings ← pureRun o calls
      return reading :: readings

/-- Every reading of a run relates the object before it to the one after it, given the number of
bytes that the object has absorbed. -/
def AtReads (rel : Nat → MD5 m → MD5 m → Prop) (n : Nat) (o : MD5 m) : List (Call m) → Prop
  | [] => True
  | .update input :: calls =>
      ∃ o', o.update input.bytes = .ok o' ∧ AtReads rel (n + input.bytes.length) o' calls
  | .read r :: calls =>
      ∃ reading o', r.read o = .ok (reading, o') ∧ rel n o o' ∧ AtReads rel n o' calls

/-- The state words, the counts and the pending bytes are as before. -/
structure Unchanged (n : Nat) (o o' : MD5 m) : Prop where
  state : o'.state = o.state
  count0 : o'.count0 = o.count0
  count1 : o'.count1 = o.count1
  pending : o'.buffer.take (n % 64) = o.buffer.take (n % 64)

/-! ## When a reading restores the object -/

/-- The condition for a reading to leave the object as it was. The bytes that wait do not spill
into a second block when the padding is added to them, or they begin like the block that then
stays in the buffer. Where two words fill the sixteen bytes that are put back, the closing blocks
take the other two to themselves, and no closing bit is carried out of the low count. -/
def Restores (o : MD5 m) : Prop :=
  (o.index < 56 ∨ o.buffer.take o.index =
    (List.replicate 56 0 ++ encode [o.count0, o.count1] 8).take o.index) ∧
  (m = .ilp32 ∨ o.closed.c = o.state.c ∧ o.closed.d = o.state.d ∧
    o.count0.toNat + 8 * o.closing.length < 2 ^ m.width)

theorem read_spec (r : Reader) {o : MD5 m} (hfinished : o.finished = false) :
    Returns (r.read o) fun x ↦ x.1 = r.reading x.2.digestBytes ∧ Finalized o x.2 := by
  cases r with
  | digest =>
      refine (digest_spec hfinished).bind fun x hx ↦ ?_
      exact ⟨_, rfl, congrArg Reading.bytes hx.1, hx.2⟩
  | toString =>
      refine (toString_spec hfinished).bind fun x hx ↦ ?_
      exact ⟨_, rfl, congrArg Reading.string hx.1, hx.2⟩

/-- `memcpy` of sixteen bytes puts the words back exactly where the others are as before. -/
theorem memcpyWords_eq_iff (dst src : Words m.width) :
    memcpyWords dst src 16 = src ↔ m = .ilp32 ∨ dst.c = src.c ∧ dst.d = src.d := by
  cases m with
  | ilp32 => exact iff_of_true rfl (.inl rfl)
  | lp64 =>
      show Words.mk src.a src.b dst.c dst.d = src ↔ _
      obtain ⟨a, b, c, d⟩ := src
      simp

/-- Where the padding spills over, the block that stays in the buffer is zeros and the counts. -/
theorem lastBlock_of_long {o : MD5 m} (hlong : ¬ o.index < 56) :
    o.lastBlock = List.replicate 56 0 ++ encode [o.count0, o.count1] 8 := by
  have hindex := o.index_lt
  have hpadLen : o.padLen = 120 - o.index := if_neg hlong
  have hzeros : (PADDING.take o.padLen).drop (64 - o.index) = List.replicate 56 0 := by
    obtain ⟨k, hk⟩ : ∃ k, 64 - o.index = k + 1 := ⟨63 - o.index, by omega⟩
    rw [List.drop_take, hpadLen, hk, PADDING, List.drop_succ_cons, List.drop_replicate,
      List.take_replicate]
    congr 1
    omega
  rw [lastBlock, if_neg hlong, closing, List.drop_append_of_le_length (by
    rw [length_padding]
    omega), hzeros]

/-- The last block begins with what waits in the buffer, unless the padding spills over. -/
theorem take_lastBlock_iff (o : MD5 m) : o.lastBlock.take o.index = o.buffer.take o.index ↔
    o.index < 56 ∨ o.buffer.take o.index =
      (List.replicate 56 0 ++ encode [o.count0, o.count1] 8).take o.index := by
  by_cases hshort : o.index < 56
  · -- the padding is copied behind what waits
    refine iff_of_true ?_ (.inl hshort)
    rw [lastBlock, if_pos hshort]
    exact List.take_left' o.length_tail
  · rw [lastBlock_of_long hshort, eq_comm, or_iff_right hshort]

/-- The high count is as before exactly where it is put back or nothing is carried into it. -/
theorem Finalized.count1_iff {o o' : MD5 m} (h : Finalized o o') : o'.count1 = o.count1 ↔
    m = .ilp32 ∨ o.count0.toNat + 8 * o.closing.length < 2 ^ m.width := by
  have hsize : 2 * m.sizeofUlong ≤ 8 ↔ m = .ilp32 := by cases m <;> decide
  have hone : 1#m.width ≠ 0#m.width := by cases m <;> decide
  rw [h.count1, ← hsize]
  split
  case isTrue hkept => exact iff_of_true rfl hkept
  case isFalse hcarry =>
    exact iff_of_false (fun heq ↦ hone (BitVec.add_right_eq_self.mp heq)) hcarry

/-- A reading leaves the object as it was exactly under the condition. -/
theorem unchanged_iff {n : Nat} {o o' : MD5 m} (hn : o.index = n % 64) (h : Finalized o o') :
    Unchanged n o o' ↔ Restores o := by
  have hstate := memcpyWords_eq_iff o.closed o.state
  have hcount1 := h.count1_iff
  have hpending := take_lastBlock_iff o
  rw [← h.state] at hstate
  rw [← h.buffer] at hpending
  constructor
  · rintro ⟨hs, -, hc, hp⟩
    rw [← hn] at hp
    refine ⟨hpending.mp hp, ?_⟩
    rcases hstate.mp hs with rfl | ⟨hcs, hds⟩
    · exact .inl rfl
    · exact (hcount1.mp hc).imp_right fun hcarry ↦ ⟨hcs, hds, hcarry⟩
  · rintro ⟨hp, hrest⟩
    refine ⟨hstate.mpr (hrest.imp_right fun hr ↦ ⟨hr.1, hr.2.1⟩), h.count0,
      hcount1.mpr (hrest.imp_right fun hr ↦ hr.2.2), ?_⟩
    rw [← hn]
    exact hpending.mpr hp

/-! ## Runs of calls -/

/-- What holds of an object at every call: `update` and `final` say that it is not finished, and
the low count is that of the bytes absorbed. -/
structure Counts (n : Nat) (o : MD5 m) : Prop where
  finished : o.finished = false
  index : o.index = n % 64

theorem Counts.reset (o : MD5 m) : Counts 0 o.reset := by
  refine ⟨rfl, ?_⟩
  rw [index_eq]
  show (0#m.width).toNat / 8 % 64 = 0
  rw [BitVec.toNat_zero]

theorem Counts.update {n : Nat} {o o' : MD5 m} {input : Bytes} (h : Counts n o)
    (hupdated : Updated o input o') : Counts (n + input.length) o' := by
  refine ⟨hupdated.finished, ?_⟩
  rw [index_of_count hupdated.count0, h.index, Nat.mod_add_mod]

theorem Counts.read {n : Nat} {o o' : MD5 m} (h : Counts n o) (hfinal : Finalized o o') :
    Counts n o' := by
  refine ⟨hfinal.finished, ?_⟩
  rw [index_eq, hfinal.count0, ← index_eq, h.index]

/-- Two objects that have absorbed the same. -/
structure Same (o p : MD5 m) : Prop where
  absorber : o.absorber = p.absorber
  count0 : o.count0 = p.count0
  count1 : o.count1 = p.count1

theorem Same.index {o p : MD5 m} (h : Same o p) : o.index = p.index := by
  rw [index_eq, index_eq, h.count0]

theorem Same.closed {o p : MD5 m} (h : Same o p) : o.closed = p.closed := by
  have hclosing : o.closing = p.closing := by
    rw [closing, closing, padLen, padLen, h.index, h.count0, h.count1]
  rw [MD5.closed, MD5.closed, h.absorber, hclosing]

/-- Two objects that have absorbed the same read the same. -/
theorem Same.reading_eq {o o' p p' : MD5 m} (h : Same o p) (ho : Finalized o o')
    (hp : Finalized p p') (r : Reader) : r.reading o'.digestBytes = r.reading p'.digestBytes := by
  rw [ho.digestBytes, hp.digestBytes, h.closed]

/-- The same input keeps two objects the same. -/
theorem Same.update {o o' p p' : MD5 m} {input : Bytes} (h : Same o p) (ho : Updated o input o')
    (hp : Updated p input p') : Same o' p' := by
  have hcount0 : o'.count0 = p'.count0 := by rw [ho.count0, hp.count0, h.count0]
  refine ⟨?_, hcount0, ?_⟩
  · rw [ho.absorber, hp.absorber, h.absorber]
  · rw [ho.count1, hp.count1, hcount0, h.count1]

/-- A reading that restores the object keeps it the same. -/
theorem Same.read {n : Nat} {o o' p : MD5 m} (h : Same o p) (hn : o.index = n % 64)
    (hunchanged : Unchanged n o o') : Same o' p := by
  refine ⟨?_, hunchanged.count0.trans h.count0, hunchanged.count1.trans h.count1⟩
  have hindex : o'.index = o.index := by rw [index_eq, hunchanged.count0, ← index_eq]
  show Absorber.mk o'.state (o'.buffer.take o'.index) = _
  rw [hindex, hunchanged.state, hn, hunchanged.pending, ← hn]
  exact h.absorber

/-- The readings of a run leave the object as it was exactly where each meets the condition. -/
theorem atReads_iff {n : Nat} {o : MD5 m} (hcounts : Counts n o) (calls : List (Call m)) :
    AtReads Unchanged n o calls ↔ AtReads (fun _ o _ ↦ Restores o) n o calls := by
  induction calls generalizing n o with
  | nil => exact Iff.rfl
  | cons call calls ih =>
      cases call with
      | update input =>
          refine exists_congr fun o' ↦ and_congr_right fun ho' ↦ ?_
          exact ih (hcounts.update ((update_spec o input.length_lt).of_eq ho'))
      | read r =>
          refine exists_congr fun reading ↦ exists_congr fun o' ↦ and_congr_right fun ho' ↦ ?_
          have hfinal := ((read_spec r hcounts.finished).of_eq ho').2
          exact and_congr (unchanged_iff hcounts.index hfinal) (ih (hcounts.read hfinal))

/-- In a run whose readings meet the condition, every reading is that of an object which was not
read before. -/
theorem run_pure {n : Nat} {o p : MD5 m} {calls : List (Call m)} (hcounts : Counts n o)
    (hp : p.finished = false) (hsame : Same o p)
    (h : AtReads (fun _ o _ ↦ Restores o) n o calls) :
    ∃ readings o', run o calls = .ok (readings, o') ∧ pureRun p calls = .ok readings := by
  induction calls generalizing n o p with
  | nil => exact ⟨[], o, rfl, rfl⟩
  | cons call calls ih =>
      cases call with
      | update input =>
          obtain ⟨o', ho', hrest⟩ := h
          obtain ⟨p', hp', hupdated'⟩ := update_spec p input.length_lt
          have hupdated := (update_spec o input.length_lt).of_eq ho'
          obtain ⟨readings, final, hrun, hpure⟩ := ih (hcounts.update hupdated) hupdated'.finished
            (hsame.update hupdated hupdated') hrest
          refine ⟨readings, final, ?_, ?_⟩
          · rw [run, ho']
            exact hrun
          · rw [pureRun, hp']
            exact hpure
      | read r =>
          -- `p` has not been read before and is left unread
          obtain ⟨reading, o', ho', hrestores, hrest⟩ := h
          obtain ⟨⟨reading', p'⟩, hp', hreading', (hfinal' : Finalized p p')⟩ := read_spec r hp
          obtain ⟨hreading, (hfinal : Finalized o o')⟩ :=
            (read_spec r hcounts.finished).of_eq ho'
          have hvalue : reading = reading' :=
            calc reading = r.reading o'.digestBytes := hreading
              _ = r.reading p'.digestBytes := hsame.reading_eq hfinal hfinal' r
              _ = reading' := hreading'.symm
          have hunchanged := (unchanged_iff hcounts.index hfinal).mpr hrestores
          obtain ⟨readings, final, hrun, hpure⟩ := ih (hcounts.read hfinal) hp
            (hsame.read hcounts.index hunchanged) hrest
          refine ⟨reading :: readings, final, ?_, ?_⟩
          · rw [run, ho']
            show (run o' calls >>= fun x ↦ _) = _
            rw [hrun]
            rfl
          · rw [pureRun, hp']
            show (pureRun p calls >>= fun x ↦ _) = _
            rw [hpure, hvalue]
            rfl

/-- In every run since `reset()`, the readings leave the object as it was exactly where each meets
the condition, and then each digest is as if no other had been read. -/
theorem readings_pure (memory : MD5 m) (calls : List (Call m)) :
    (AtReads Unchanged 0 memory.reset calls ↔
      AtReads (fun _ o _ ↦ Restores o) 0 memory.reset calls) ∧
    (AtReads (fun _ o _ ↦ Restores o) 0 memory.reset calls →
      ∃ readings o, run memory.reset calls = .ok (readings, o) ∧
        pureRun memory.reset calls = .ok readings) :=
  ⟨atReads_iff (Counts.reset memory) calls,
    run_pure (Counts.reset memory) rfl ⟨rfl, rfl, rfl⟩⟩

/-- In LP64 the second of two readings in a row is not what the first one was. -/
theorem not_readings_pure_twice :
    (run (zeroed .lp64).reset [.read .digest, .read .digest]).map Prod.fst ≠
      pureRun (zeroed .lp64).reset [.read .digest, .read .digest] := by
  decide +kernel

end CoffeeChat.MD5
