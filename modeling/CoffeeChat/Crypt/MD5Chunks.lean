import CoffeeChat.Crypt.MD5Correct
import CoffeeChat.Lib.Run

/-!
# Messages in chunks

`update` may be called with one chunk of a message after another, and `update(ifstream&)` calls it
with 1024 bytes of a file at a time. The chunks are absorbed as their concatenation, so neither the
state words nor the buffer nor the index shows how a message was cut (`updates_exact`).

The counts do show it. `_count[0]` carries when its sum wraps around, and in LP64 it has 64 bits, so
that it does not carry at 2 ^ 32. The upper half of the length gets into `_count[1]` only as the
`length >> 29` of each chunk (`bits_updates`).
-/

namespace CoffeeChat.MD5

open Lib Lib.Absorb Lib.Endian Lib.Run

variable {m : DataModel}

/-! ## Chunks -/

/-- Calls of `update` one after another. -/
def updates (o : MD5 m) (inputs : List (Input m)) : Result (MD5 m) :=
  exec (fun (o : MD5 m) (input : Input m) ↦ o.update input.bytes) o inputs

/-- The message that chunks make up. -/
def message (inputs : List (Input m)) : Bytes := inputs.flatMap Input.bytes

theorem message_cons (input : Input m) (inputs : List (Input m)) :
    message (input :: inputs) = input.bytes ++ message inputs :=
  List.flatMap_cons

/-- Chunks are absorbed as the message they make up. -/
theorem updates_absorber (o : MD5 m) (inputs : List (Input m)) :
    Returns (updates o inputs) fun o' ↦
      o'.absorber = absorb 64 transform o.absorber (message inputs) := by
  induction inputs generalizing o with
  | nil => exact .ok rfl
  | cons input inputs ih =>
      refine (update_spec o input.length_lt).bind ?_
      intro o₁ h₁
      refine (ih o₁).mono ?_
      intro o' h
      rw [message_cons, absorb_append, ← h₁.absorber]
      exact h

/-- However a message is cut, all accesses are within bounds, the full blocks are compressed in
order and the rest waits in the buffer. -/
theorem updates_exact (memory : MD5 m) (inputs : List (Input m)) :
    Returns (updates memory.reset inputs) fun o ↦
      o.state = (fullBlocks 64 (message inputs)).foldl transform (start m) ∧
      o.index = (message inputs).length % 64 ∧
      o.buffer.take ((message inputs).length % 64) =
        (message inputs).drop (64 * ((message inputs).length / 64)) := by
  refine (updates_absorber memory.reset inputs).mono ?_
  intro o h
  rw [absorber_reset, absorb_eq (by decide)] at h
  have hstate := congrArg Absorber.state h
  have htail := congrArg Absorber.tail h
  have hindex : o.index = (message inputs).length % 64 := by
    rw [← length_tail, htail, List.length_drop]
    omega
  refine ⟨hstate, hindex, ?_⟩
  rw [← hindex]
  exact htail

/-! ## Files -/

/-- An `ifstream` that reads its file without an error of the device. -/
structure Ifstream where
  rest : Bytes
  eofbit : Bool
  failbit : Bool

/-- The stream over a file just opened. -/
def Ifstream.opened (content : Bytes) : Ifstream := ⟨content, false, false⟩

/-- `read(buffer, n)`, with the `gcount()` bytes it has put into the buffer. -/
def Ifstream.read (stream : Ifstream) (n : Nat) : Bytes × Ifstream :=
  if stream.eofbit || stream.failbit then ([], { stream with failbit := true })
  else if n ≤ stream.rest.length then
    (stream.rest.take n, { stream with rest := stream.rest.drop n })
  else (stream.rest, ⟨[], true, true⟩)

def BUFFER_SIZE : Nat := 1024

/-- The loop of `update(ifstream&)`. -/
def streamLoop : Nat → MD5 m → Ifstream → Result (MD5 m)
  | 0, _, _ => .error .notTerminated
  | fuel + 1, o, stream =>
    if stream.eofbit then .ok o
    else do
      let (buffer, stream) := stream.read BUFFER_SIZE
      let o ← if buffer.length > 0 then o.update buffer else pure o
      streamLoop fuel o stream

/-- `update(ifstream&)`. -/
def updateStream (o : MD5 m) (stream : Ifstream) : Result (MD5 m) :=
  if stream.failbit then .ok o
  else streamLoop (stream.rest.length / BUFFER_SIZE + 2) o stream

/-- `FileDigest(file)`, with the content of the file if it can be opened. -/
def FileDigest (memory : MD5 m) (file : Option Bytes) : Result (List Char) :=
  match file with
  | none => .ok []
  | some content => do
    let o ← memory.reset.updateStream (.opened content)
    let (str, _) ← o.toString
    return str

theorem bufferSize_lt (m : DataModel) : BUFFER_SIZE < 2 ^ (m.width - 1) := by
  cases m <;> decide

/-- A full buffer is an input, and the loop goes on behind it. -/
theorem streamLoop_full {rest : Bytes} (h : BUFFER_SIZE ≤ rest.length) (fuel : Nat) (o : MD5 m) :
    streamLoop (fuel + 1) o (.opened rest) =
      o.update (rest.take BUFFER_SIZE) >>= fun o ↦
        streamLoop fuel o (.opened (rest.drop BUFFER_SIZE)) := by
  have hlen : (rest.take BUFFER_SIZE).length > 0 := by
    rw [List.length_take_of_le h]
    decide
  have hopen : ¬ (Ifstream.opened rest).eofbit = true := Bool.false_ne_true
  have hread : (Ifstream.opened rest).read BUFFER_SIZE =
      (rest.take BUFFER_SIZE, .opened (rest.drop BUFFER_SIZE)) := if_pos h
  rw [streamLoop, if_neg hopen, hread]
  exact if_pos hlen

/-- What does not fill the buffer is the last input, unless there is nothing left. -/
theorem streamLoop_last {rest : Bytes} (h : ¬ BUFFER_SIZE ≤ rest.length) (fuel : Nat) (o : MD5 m) :
    streamLoop (fuel + 2) o (.opened rest) = if rest.length > 0 then o.update rest else .ok o := by
  have hopen : ¬ (Ifstream.opened rest).eofbit = true := Bool.false_ne_true
  have hread : (Ifstream.opened rest).read BUFFER_SIZE = (rest, ⟨[], true, true⟩) := if_neg h
  rw [streamLoop, if_neg hopen, hread]
  by_cases hsome : rest.length > 0
  · rw [if_pos hsome]
    exact (if_pos hsome).trans (bind_pure (o.update rest))
  · rw [if_neg hsome]
    exact if_neg hsome

/-- Chunks of a file, as the loop passes them to `update`. -/
structure ChunksOf (content : Bytes) (inputs : List (Input m)) : Prop where
  message : message inputs = content
  length_le : ∀ input ∈ inputs, input.bytes.length ≤ BUFFER_SIZE

theorem ChunksOf.nil : ChunksOf [] ([] : List (Input m)) where
  message := rfl
  length_le := fun _ hmem ↦ absurd hmem List.not_mem_nil

theorem ChunksOf.cons {content : Bytes} {inputs : List (Input m)} (input : Input m)
    (hinput : input.bytes.length ≤ BUFFER_SIZE) (h : ChunksOf content inputs) :
    ChunksOf (input.bytes ++ content) (input :: inputs) where
  message := by rw [message_cons, h.message]
  length_le := List.forall_mem_cons.mpr ⟨hinput, h.length_le⟩

/-- A piece of a file that fits into the buffer of the stream. -/
def piece (m : DataModel) (bytes : Bytes) (h : bytes.length ≤ BUFFER_SIZE) : Input m :=
  ⟨bytes, h.trans_lt (bufferSize_lt m)⟩

theorem streamLoop_short (m : DataModel) {rest : Bytes} (h : ¬ BUFFER_SIZE ≤ rest.length) :
    ∃ inputs : List (Input m), ChunksOf rest inputs ∧
      ∀ (fuel : Nat) (o : MD5 m), streamLoop (fuel + 2) o (.opened rest) = updates o inputs := by
  by_cases hsome : rest.length > 0
  · let last := piece m rest (Nat.le_of_not_le h)
    have hcut : last.bytes ++ [] = rest := List.append_nil rest
    have hchunks := ChunksOf.nil.cons last (Nat.le_of_not_le h)
    rw [hcut] at hchunks
    refine ⟨[last], hchunks, fun fuel o ↦ ?_⟩
    rw [streamLoop_last h, if_pos hsome]
    exact (bind_pure (o.update rest)).symm
  · have hnil : rest = [] := List.eq_nil_of_length_eq_zero (Nat.eq_zero_of_not_pos hsome)
    subst hnil
    refine ⟨[], ChunksOf.nil, fun fuel o ↦ ?_⟩
    rw [streamLoop_last h, if_neg hsome]
    rfl

/-- The loop over a file calls `update` with chunks of it. -/
theorem streamLoop_chunks (m : DataModel) {fuel : Nat} {rest : Bytes}
    (h : rest.length < BUFFER_SIZE * (fuel + 1)) : ∃ inputs : List (Input m),
      ChunksOf rest inputs ∧
        ∀ o : MD5 m, streamLoop (fuel + 2) o (.opened rest) = updates o inputs := by
  induction fuel generalizing rest with
  | zero =>
      have hlast : ¬ BUFFER_SIZE ≤ rest.length := by omega
      obtain ⟨inputs, hchunks, hrun⟩ := streamLoop_short m hlast
      exact ⟨inputs, hchunks, hrun 0⟩
  | succ fuel ih =>
      by_cases hfull : BUFFER_SIZE ≤ rest.length
      · have hrest : (rest.drop BUFFER_SIZE).length < BUFFER_SIZE * (fuel + 1) := by
          rw [List.length_drop]
          rw [Nat.mul_succ] at h
          omega
        obtain ⟨inputs, hchunks, hrun⟩ := ih hrest
        let first := piece m (rest.take BUFFER_SIZE) (List.length_take_le ..)
        have hcut : first.bytes ++ rest.drop BUFFER_SIZE = rest := List.take_append_drop ..
        have hcons := hchunks.cons first (List.length_take_le ..)
        rw [hcut] at hcons
        refine ⟨first :: inputs, hcons, fun o ↦ ?_⟩
        rw [streamLoop_full hfull]
        exact congrArg (o.update (rest.take BUFFER_SIZE) >>= ·) (funext hrun)
      · obtain ⟨inputs, hchunks, hrun⟩ := streamLoop_short m hfull
        exact ⟨inputs, hchunks, hrun (fuel + 1)⟩

/-- `update(ifstream&)` calls `update` with chunks of the file. -/
theorem updateStream_chunks (m : DataModel) (content : Bytes) : ∃ inputs : List (Input m),
    ChunksOf content inputs ∧
      ∀ o : MD5 m, o.updateStream (.opened content) = updates o inputs :=
  streamLoop_chunks m (Nat.lt_mul_div_succ content.length (by decide))

/-! ## Counts -/

/-- An object that has counted the bits of `bytes` bytes, `carries` of them in the upper count. -/
structure Counted (o : MD5 m) (bytes carries : Nat) : Prop where
  count0 : o.count0.toNat = 8 * bytes
  count1 : o.count1.toNat = carries

/-- In words of 64 bits the carry test does not fire: the sum has room for all bits. -/
theorem Counted.update (hw : m.width = 64) {o o' : MD5 m} {input : Bytes} {bytes carries : Nat}
    (ho : Counted o bytes carries) (hle : carries ≤ bytes) (hlt : bytes + input.length < 2 ^ 61)
    (h : Updated o input o') :
    Counted o' (bytes + input.length) (carries + input.length / 2 ^ 29) := by
  have hcount0 : o'.count0.toNat = 8 * (bytes + input.length) := by
    rw [h.count0, toNat_add_bits, ho.count0, hw]
    omega
  have hbits : (BitVec.ofNat m.width input.length <<< 3).toNat = 8 * input.length := by
    rw [BitVec.toNat_shiftLeft, BitVec.toNat_ofNat, Nat.shiftLeft_eq, hw]
    omega
  have hcarry : ¬ o'.count0 < BitVec.ofNat m.width input.length <<< 3 := by
    rw [BitVec.lt_def, hcount0, hbits]
    omega
  have hupper : (BitVec.ofNat m.width input.length >>> 29).toNat = input.length / 2 ^ 29 := by
    rw [BitVec.toNat_ushiftRight, BitVec.toNat_ofNat, Nat.shiftRight_eq_div_pow, hw]
    omega
  refine ⟨hcount0, ?_⟩
  rw [h.count1, if_neg hcarry, BitVec.toNat_add, hupper, ho.count1, hw]
  omega

/-- What the chunks add to the upper count. -/
def carries (inputs : List (Input m)) : Nat :=
  (inputs.map fun input ↦ input.bytes.length / 2 ^ 29).sum

/-- What the chunks have beyond multiples of 2 ^ 29 bytes, which does not get into the upper
count. -/
def remainders (inputs : List (Input m)) : Nat :=
  (inputs.map fun input ↦ input.bytes.length % 2 ^ 29).sum

theorem length_message (inputs : List (Input m)) :
    (message inputs).length = 2 ^ 29 * carries inputs + remainders inputs := by
  induction inputs with
  | nil => rfl
  | cons input inputs ih =>
      have hinput := Nat.div_add_mod input.bytes.length (2 ^ 29)
      rw [message_cons, List.length_append, ih]
      simp only [carries, remainders, List.map_cons, List.sum_cons]
      omega

/-- Chunks one after another count their bytes, and the carries of each of them. -/
theorem updates_counted (hw : m.width = 64) {o : MD5 m} {bytes carries' : Nat}
    (ho : Counted o bytes carries') (hle : carries' ≤ bytes) (inputs : List (Input m))
    (hlt : bytes + (message inputs).length < 2 ^ 61) :
    Returns (updates o inputs) fun o' ↦
      Counted o' (bytes + (message inputs).length) (carries' + carries inputs) := by
  induction inputs generalizing o bytes carries' with
  | nil => exact .ok ho
  | cons input inputs ih =>
      rw [message_cons, List.length_append, ← Nat.add_assoc] at hlt ⊢
      have hcarries : carries (input :: inputs) = input.bytes.length / 2 ^ 29 + carries inputs :=
        List.sum_cons
      rw [hcarries, ← Nat.add_assoc]
      refine (update_spec o input.length_lt).bind ?_
      intro o₁ h₁
      exact ih (ho.update hw hle (by omega) h₁) (by omega) (by omega)

theorem counted_reset (o : MD5 m) : Counted o.reset 0 0 where
  count0 := BitVec.toNat_zero
  count1 := BitVec.toNat_zero

/-- The length that `final` encodes is right when the upper count is the upper half of it. -/
theorem Counted.bits_iff (hw : 32 ≤ m.width) {o : MD5 m} {bytes carries : Nat}
    (ho : Counted o bytes carries) (hle : carries ≤ bytes / 2 ^ 29) (hlt : bytes < 2 ^ 61) :
    encode [o.count0, o.count1] 8 = leBytes 8 (8 * bytes) ↔ carries = bytes / 2 ^ 29 := by
  have hencode : encode [o.count0, o.count1] 8 = leBytes 4 (8 * bytes) ++ leBytes 4 carries := by
    show encodeWord o.count0 ++ (encodeWord o.count1 ++ []) = _
    rw [List.append_nil, encodeWord_eq hw, encodeWord_eq hw, leBytes_low, leBytes_low, ho.count0,
      ho.count1]
  have hupper : 8 * bytes / 256 ^ 4 = bytes / 2 ^ 29 := by omega
  rw [hencode, leBytes_add 4 4, hupper, List.append_right_inj]
  constructor
  · intro h
    have hvalue := congrArg leValue h
    rw [leValue_leBytes, leValue_leBytes] at hvalue
    omega
  · intro h
    rw [h]

/-- The bits that `final` encodes are those of the message when no 2 ^ 29 bytes are put together
from parts of several chunks. -/
theorem updates_bits (hw : m.width = 64) (memory : MD5 m) (inputs : List (Input m))
    (hlt : (message inputs).length < 2 ^ 61) :
    Returns (updates memory.reset inputs) fun o ↦
      (encode [o.count0, o.count1] 8 = leBytes 8 (8 * (message inputs).length) ↔
        remainders inputs < 2 ^ 29) := by
  have hlength := length_message inputs
  have hrun := updates_counted hw (counted_reset memory) (Nat.le_refl 0) inputs (by omega)
  rw [Nat.zero_add, Nat.zero_add] at hrun
  refine hrun.mono ?_
  intro o ho
  rw [ho.bits_iff (by omega) (by omega) hlt]
  omega

/-! ## Counts of files -/

/-- The chunks of a file are too short to add anything to the upper count. -/
theorem ChunksOf.carries {content : Bytes} {inputs : List (Input m)} (h : ChunksOf content inputs) :
    carries inputs = 0 := by
  refine List.sum_eq_zero_iff_forall_eq_nat.mpr ?_
  intro n hn
  obtain ⟨input, hmem, rfl⟩ := List.mem_map.mp hn
  have hle : input.bytes.length ≤ 1024 := h.length_le input hmem
  omega

theorem ChunksOf.remainders {content : Bytes} {inputs : List (Input m)}
    (h : ChunksOf content inputs) : remainders inputs = content.length := by
  have hlength := length_message inputs
  rw [h.carries, h.message] at hlength
  omega

theorem updates_finished {o : MD5 m} (h : o.finished = false) (inputs : List (Input m)) :
    Returns (updates o inputs) fun o' ↦ o'.finished = false := by
  induction inputs generalizing o with
  | nil => exact .ok h
  | cons input inputs ih =>
      exact (update_spec o input.length_lt).bind fun o₁ h₁ ↦ ih h₁.finished

/-- The digest shows of an object only what it has absorbed and counted. -/
theorem closed_congr {o o' : MD5 m} (habsorber : o.absorber = o'.absorber)
    (hcount0 : o.count0 = o'.count0) (hcount1 : o.count1 = o'.count1) : o.closed = o'.closed := by
  have hindex : o.index = o'.index := by rw [index, index, hcount0]
  simp only [closed, closing, padLen, habsorber, hcount0, hcount1, hindex]

theorem toString_eq {o : MD5 m} (h : o.finished = false) :
    (o.toString >>= fun r ↦ pure r.1) = .ok (bytesToHexString
      (encode [o.closed.a, o.closed.b, o.closed.c, o.closed.d] 16)) := by
  obtain ⟨r, hr, hstr, hfinal⟩ := toString_spec h
  rw [hr, ← hfinal.digestBytes, ← hstr]
  rfl

/-- The digest of a file is that of its content, as long as the length of the content does not
get into the upper count. -/
theorem FileDigest_eq (hw : m.width = 64) (memory : MD5 m) {content : Bytes}
    (hlt : content.length < 2 ^ 29) : FileDigest memory (some content) = hash memory content := by
  obtain ⟨inputs, hchunks, hfile⟩ := updateStream_chunks m content
  have hsum := hchunks.message
  obtain ⟨o, ho, habsorber⟩ := updates_absorber memory.reset inputs
  have hfinished : o.finished = false := (updates_finished rfl inputs).of_eq ho
  have hcounted := (updates_counted hw (counted_reset memory) (Nat.le_refl 0) inputs
    (by rw [hsum]; omega)).of_eq ho
  have hinput : content.length < 2 ^ (m.width - 1) := by
    rw [hw]
    omega
  obtain ⟨o', ho', hupdated⟩ := update_spec memory.reset hinput
  have hcounted' := (counted_reset memory).update hw (Nat.le_refl 0) (by omega) hupdated
  rw [hsum, hchunks.carries] at hcounted
  rw [Nat.div_eq_of_lt hlt] at hcounted'
  have hclosed : o.closed = o'.closed := by
    refine closed_congr ?_ (BitVec.eq_of_toNat_eq ?_) (BitVec.eq_of_toNat_eq ?_)
    · rw [habsorber, hupdated.absorber, hsum]
    · rw [hcounted.count0, hcounted'.count0]
    · rw [hcounted.count1, hcounted'.count1]
  calc FileDigest memory (some content)
      = updates memory.reset inputs >>= fun o ↦ o.toString >>= fun r ↦ pure r.1 :=
        congrArg (· >>= fun o : MD5 m ↦ o.toString >>= fun r ↦ pure r.1) (hfile memory.reset)
    _ = o.toString >>= fun r ↦ pure r.1 := by
        rw [ho]
        rfl
    _ = o'.toString >>= fun r ↦ pure r.1 := by
        rw [toString_eq hfinished, toString_eq hupdated.finished, hclosed]
    _ = hash memory content := by
        rw [hash, ho']
        rfl

/-- The length appended to a message is right exactly when what its chunks have beyond multiples
of 2 ^ 29 bytes does not add up to 2 ^ 29, and that of a file exactly when the file is shorter than
that. The digest of such a file is that of its content. -/
theorem length_appended (memory : MD5 .lp64) (inputs : List (Input .lp64))
    (hlt : (message inputs).length < 2 ^ 61) :
    Returns (updates memory.reset inputs) (fun o ↦
      (encode [o.count0, o.count1] 8 = leBytes 8 (8 * (message inputs).length) ↔
        remainders inputs < 2 ^ 29)) ∧
    Returns (memory.reset.updateStream (.opened (message inputs))) (fun o ↦
      (encode [o.count0, o.count1] 8 = leBytes 8 (8 * (message inputs).length) ↔
        (message inputs).length < 2 ^ 29)) ∧
    ((message inputs).length < 2 ^ 29 →
      FileDigest memory (some (message inputs)) = hash memory (message inputs)) := by
  refine ⟨updates_bits rfl memory inputs hlt, ?_, FileDigest_eq rfl memory⟩
  obtain ⟨chunks, hchunks, hfile⟩ := updateStream_chunks .lp64 (message inputs)
  have hbits := updates_bits rfl memory chunks (by rwa [hchunks.message])
  rw [hchunks.message, hchunks.remainders] at hbits
  rw [hfile]
  exact hbits

/-- `abc` in three chunks, the second of them empty. -/
def abc : List (Input .lp64) := [⟨[97, 98], by decide⟩, ⟨[], by decide⟩, ⟨[99], by decide⟩]

theorem length_appended_abc :
    Returns (updates (zeroed .lp64).reset abc) (fun o ↦
      encode [o.count0, o.count1] 8 = leBytes 8 24) ∧
    Returns ((zeroed .lp64).reset.updateStream (.opened [97, 98, 99])) (fun o ↦
      encode [o.count0, o.count1] 8 = leBytes 8 24) ∧
    FileDigest (zeroed .lp64) (some [97, 98, 99]) = hash (zeroed .lp64) [97, 98, 99] := by
  obtain ⟨hchunks, hfile, hdigest⟩ := length_appended (zeroed .lp64) abc (by decide)
  refine ⟨hchunks.mono fun o ho ↦ ho.mpr (by decide), hfile.mono fun o ho ↦ ho.mpr (by decide),
    hdigest (by decide)⟩

/-- 2 ^ 28 zero bytes. -/
def quarter : Input .lp64 where
  bytes := List.replicate (2 ^ 28) 0
  length_lt := by
    rw [List.length_replicate]
    decide

/-- Two chunks of 2 ^ 28 bytes are 2 ^ 32 bits: `_count[0]` holds them all, and `encode` leaves the
upper half of it out. -/
theorem not_length_appended_quarters :
    (message [quarter, quarter]).length < 2 ^ 61 ∧
    ¬ Returns (updates (zeroed .lp64).reset [quarter, quarter]) fun o ↦
      encode [o.count0, o.count1] 8 = leBytes 8 (8 * (message [quarter, quarter]).length) := by
  have hquarter : quarter.bytes.length = 2 ^ 28 := List.length_replicate
  have hlength : (message [quarter, quarter]).length = 2 ^ 29 := by
    rw [message_cons, message_cons, List.length_append, List.length_append, hquarter]
    rfl
  have hremainders : remainders [quarter, quarter] = 2 ^ 29 := by
    simp only [remainders, List.map_cons, List.map_nil, hquarter]
    rfl
  refine ⟨by rw [hlength]; decide, ?_⟩
  intro hreturns
  obtain ⟨o, ho, hbits⟩ := hreturns
  have hiff := (updates_bits rfl (zeroed .lp64) [quarter, quarter]
    (by rw [hlength]; decide)).of_eq ho
  rw [hremainders] at hiff
  exact Nat.lt_irrefl _ (hiff.mp hbits)

end CoffeeChat.MD5
