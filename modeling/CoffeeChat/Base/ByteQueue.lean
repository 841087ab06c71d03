import CoffeeChat.Base.Represents
import CoffeeChat.Lib.Refinement

/-!
# Buffers refine byte queues

`Op` is an operation of one buffer and `Call` one on a family of buffers, which also swaps two of
them. `Call.run` is what the code does and `Call.spec` the same on a family of byte strings:
writing appends, prepending puts in front, reading and skipping drop from the front. A call
`Meets` its entry assertion with its sums below `2 ^ 63`. Every sequence of such calls returns,
answers as the queues do, and leaves each buffer representing its queue
(`buffers_refine_queues`).
-/

namespace CoffeeChat.Buffer

open Lib Lib.Endian Lib.Refinement

/-- A call of one buffer. -/
inductive Op where
  | write (d : Bytes)
  | appendInt64 (x : Int64)
  | appendInt32 (x : Int32)
  | appendInt16 (x : Int16)
  | appendInt8 (x : Int8)
  | prepend (d : Bytes)
  | prependInt64 (x : Int64)
  | prependInt32 (x : Int32)
  | prependInt16 (x : Int16)
  | prependInt8 (x : Int8)
  | skip (n : Nat)
  | next (n : Nat)
  | nextAll
  | readByte
  | readInt64
  | readInt32
  | readInt16
  | readInt8
  | truncate (n : Nat)
  | reset
  | unwriteBytes (n : Nat)
  | reserve (n : Nat)
  | ensureWritableBytes (n : Nat)
  | toText
  | shrink (n : Nat)

/-- What a call returns. -/
inductive Answer where
  | nothing
  | slice (bytes : Bytes)
  | byte (x : UInt8)
  | int64 (x : Int64)
  | int32 (x : Int32)
  | int16 (x : Int16)
  | int8 (x : Int8)
  deriving DecidableEq

/-- A call that returns nothing. -/
def silent (r : Result Buffer) : Result (Answer × Buffer) := r.map fun b => (.nothing, b)

/-- A call that returns a value. -/
def answer {α : Type} (f : α → Answer) (r : Result (α × Buffer)) : Result (Answer × Buffer) :=
  r.map fun r => (f r.1, r.2)

/-- The operation of the code. -/
def Op.run (b : Buffer) : Op → Result (Answer × Buffer)
  | .write d => silent (b.write d)
  | .appendInt64 x => silent (b.appendInt64 x)
  | .appendInt32 x => silent (b.appendInt32 x)
  | .appendInt16 x => silent (b.appendInt16 x)
  | .appendInt8 x => silent (b.appendInt8 x)
  | .prepend d => silent (b.prepend d)
  | .prependInt64 x => silent (b.prependInt64 x)
  | .prependInt32 x => silent (b.prependInt32 x)
  | .prependInt16 x => silent (b.prependInt16 x)
  | .prependInt8 x => silent (b.prependInt8 x)
  | .skip n => silent (b.skip n)
  | .next n => answer .slice (b.next n)
  | .nextAll => answer .slice b.nextAll
  | .readByte => answer .byte b.readByte
  | .readInt64 => answer .int64 b.readInt64
  | .readInt32 => answer .int32 b.readInt32
  | .readInt16 => answer .int16 b.readInt16
  | .readInt8 => answer .int8 b.readInt8
  | .truncate n => silent (.ok (b.truncate n))
  | .reset => silent (.ok b.reset)
  | .unwriteBytes n => silent (b.unwriteBytes n)
  | .reserve n => silent (b.reserve n)
  | .ensureWritableBytes n => silent (b.ensureWritableBytes n)
  | .toText => silent b.toText
  | .shrink n => silent (b.shrink n)

/-- The operation on a queue. -/
def Op.spec (q : Bytes) : Op → Answer × Bytes
  | .write d => (.nothing, q ++ d)
  | .appendInt64 x => (.nothing, q ++ beBytes 8 x.toUInt64.toNat)
  | .appendInt32 x => (.nothing, q ++ beBytes 4 x.toUInt32.toNat)
  | .appendInt16 x => (.nothing, q ++ beBytes 2 x.toUInt16.toNat)
  | .appendInt8 x => (.nothing, q ++ beBytes 1 x.toUInt8.toNat)
  | .prepend d => (.nothing, d ++ q)
  | .prependInt64 x => (.nothing, beBytes 8 x.toUInt64.toNat ++ q)
  | .prependInt32 x => (.nothing, beBytes 4 x.toUInt32.toNat ++ q)
  | .prependInt16 x => (.nothing, beBytes 2 x.toUInt16.toNat ++ q)
  | .prependInt8 x => (.nothing, beBytes 1 x.toUInt8.toNat ++ q)
  | .skip n => (.nothing, q.drop n)
  | .next n => (.slice (q.take n), q.drop n)
  | .nextAll => (.slice q, [])
  | .readByte => (.byte (q.headD 0), q.drop 1)
  | .readInt64 => (.int64 (UInt64.ofNat (beValue (q.take 8))).toInt64, q.drop 8)
  | .readInt32 => (.int32 (UInt32.ofNat (beValue (q.take 4))).toInt32, q.drop 4)
  | .readInt16 => (.int16 (UInt16.ofNat (beValue (q.take 2))).toInt16, q.drop 2)
  | .readInt8 => (.int8 (UInt8.ofNat (beValue (q.take 1))).toInt8, q.drop 1)
  | .truncate n => (.nothing, q.take n)
  | .reset => (.nothing, [])
  | .unwriteBytes n => (.nothing, q.take (q.length - n))
  | .reserve _ | .ensureWritableBytes _ | .toText | .shrink _ => (.nothing, q)

/-- The assertion an operation makes on entry. -/
def Op.Entry (b : Buffer) : Op → Prop
  | .prepend d => d.length ≤ b.prependableBytes
  | .prependInt64 _ => 8 ≤ b.prependableBytes
  | .prependInt32 _ => 4 ≤ b.prependableBytes
  | .prependInt16 _ => 2 ≤ b.prependableBytes
  | .prependInt8 _ => 1 ≤ b.prependableBytes
  | .unwriteBytes n => n ≤ b.writeIndex - b.readIndex
  | .readByte | .readInt8 => 1 ≤ b.writeIndex - b.readIndex
  | .readInt64 => 8 ≤ b.writeIndex - b.readIndex
  | .readInt32 => 4 ≤ b.writeIndex - b.readIndex
  | .readInt16 => 2 ≤ b.writeIndex - b.readIndex
  | _ => True

/-- The sizes and the sums of indices an operation makes stay below `2 ^ 63`. -/
def Op.InRange (b : Buffer) : Op → Prop
  | .write d => b.EnsureInRange d.length
  | .appendInt64 _ => b.EnsureInRange 8
  | .appendInt32 _ => b.EnsureInRange 4
  | .appendInt16 _ => b.EnsureInRange 2
  | .appendInt8 _ | .toText => b.EnsureInRange 1
  | .truncate n => b.readIndex + n < 2 ^ 63
  | .reserve n => b.ReserveInRange n
  | .ensureWritableBytes n => b.EnsureInRange n
  | .shrink n => kCheapPrependSize + (b.writeIndex - b.readIndex + n) < 2 ^ 63
  | _ => True

/-! ## One operation -/

variable {b : Buffer} {q : Bytes}

/-- The operation returns `a` and leaves a buffer that represents `q`. -/
def Refines (r : Result (Answer × Buffer)) (expected : Answer × Bytes) : Prop :=
  Returns r fun out => out.1 = expected.1 ∧ out.2.Represents expected.2

theorem refines_silent {r : Result Buffer} (h : Returns r fun b => b.Represents q) :
    Refines (silent r) (.nothing, q) := by
  obtain ⟨b, rfl, hb⟩ := h
  exact ⟨(.nothing, b), rfl, rfl, hb⟩

theorem refines_answer {α : Type} {f : α → Answer} {r : Result (α × Buffer)} {a : α}
    (h : Returns r fun r => r.1 = a ∧ r.2.Represents q) : Refines (answer f r) (f a, q) := by
  obtain ⟨⟨a, b⟩, rfl, rfl, hb⟩ := h
  exact ⟨(f a, b), rfl, rfl, hb⟩

/-- Appending a word of `w` bytes. -/
theorem refines_append (h : b.Represents q) {r : Result Buffer} {w x : Nat}
    (hr : r = b.write (beBytes w x)) (hrange : b.EnsureInRange w) :
    Refines (silent r) (.nothing, q ++ beBytes w x) := by
  rw [hr]
  exact refines_silent (write_represents h (by rwa [length_beBytes]))

/-- Prepending a word of `w` bytes. -/
theorem refines_prepend (h : b.Represents q) {r : Result Buffer} {w x : Nat}
    (hr : r = b.prepend (beBytes w x)) (hroom : w ≤ b.readIndex) :
    Refines (silent r) (.nothing, beBytes w x ++ q) := by
  rw [hr]
  exact refines_silent (prepend_represents h (by rwa [length_beBytes]))

/-- Reading a word of `w` bytes. -/
theorem refines_read (h : b.Represents q) {α : Type} {f : α → Answer} {peek : Result α} {w : Nat}
    (word : Nat → α)
    (hpeek : w ≤ b.contents.length → peek = .ok (word (beValue (b.contents.take w))))
    (hn : w ≤ b.writeIndex - b.readIndex) :
    Refines (answer f (peek >>= fun result => b.skip w >>= fun b' => pure (result, b')))
      (f (word (beValue (q.take w))), q.drop w) := by
  rw [h.contents_eq] at hpeek
  exact refines_answer (read_represents h (hpeek (h.size_eq ▸ hn)))

/-- An operation whose entry assertion holds acts on the content as on a queue. -/
theorem Op.refines (h : b.Represents q) (op : Op) (hentry : op.Entry b) (hrange : op.InRange b) :
    Refines (op.run b) (op.spec q) := by
  have hsize := h.size_eq
  cases op with
  | write d => exact refines_silent (write_represents h hrange)
  | appendInt64 x =>
      exact refines_append h (congrArg b.write (leBytes_evppbswap64 x.toUInt64)) hrange
  | appendInt32 x => exact refines_append h (congrArg b.write (leBytes_htonl x.toUInt32)) hrange
  | appendInt16 x => exact refines_append h (congrArg b.write (leBytes_htons x.toUInt16)) hrange
  | appendInt8 x => exact refines_append h (congrArg b.write (leBytes_one x.toUInt8)) hrange
  | prepend d => exact refines_silent (prepend_represents h hentry)
  | prependInt64 x =>
      exact refines_prepend h (congrArg b.prepend (leBytes_evppbswap64 x.toUInt64)) hentry
  | prependInt32 x =>
      exact refines_prepend h (congrArg b.prepend (leBytes_htonl x.toUInt32)) hentry
  | prependInt16 x =>
      exact refines_prepend h (congrArg b.prepend (leBytes_htons x.toUInt16)) hentry
  | prependInt8 x => exact refines_prepend h (congrArg b.prepend (leBytes_one x.toUInt8)) hentry
  | skip n => exact refines_silent (skip_represents h n)
  | next n => exact refines_answer (next_represents h n)
  | nextAll => exact refines_answer (nextAll_represents h)
  | readByte => exact refines_answer (readByte_represents h (hsize ▸ hentry))
  | readInt64 =>
      exact refines_read h (fun x => (UInt64.ofNat x).toInt64) (peekInt64_eq h.wf) hentry
  | readInt32 =>
      exact refines_read h (fun x => (UInt32.ofNat x).toInt32) (peekInt32_eq h.wf) hentry
  | readInt16 =>
      exact refines_read h (fun x => (UInt16.ofNat x).toInt16) (peekInt16_eq h.wf) hentry
  | readInt8 =>
      exact refines_read h (fun x => (UInt8.ofNat x).toInt8) (peekInt8_eq h.wf) hentry
  | truncate n => exact refines_silent ⟨_, rfl, truncate_represents h hrange⟩
  | reset => exact refines_silent ⟨_, rfl, reset_represents h⟩
  | unwriteBytes n => exact refines_silent (unwriteBytes_represents h (hsize ▸ hentry))
  | reserve n => exact refines_silent (reserve_represents h hrange)
  | ensureWritableBytes n => exact refines_silent (ensureWritableBytes_represents h hrange)
  | toText => exact refines_silent (toText_represents h hrange)
  | shrink n => exact refines_silent (shrink_represents h (hsize ▸ hrange))

/-! ## A family of buffers -/

/-- A call of one of the buffers, or `Swap` of two, which may be the same. -/
inductive Call (ι : Type) where
  | on (i : ι) (op : Op)
  | swap (i j : ι)

variable {ι : Type} [DecidableEq ι]

/-- The call on the buffers. -/
def Call.run (bufs : ι → Buffer) : Call ι → Result (Answer × (ι → Buffer))
  | .on i op => do
    let (a, b) ← op.run (bufs i)
    return (a, Function.update bufs i b)
  | .swap i j =>
    let (b, rhs) := (bufs i).swap (bufs j)
    .ok (.nothing, Function.update (Function.update bufs i b) j rhs)

/-- The call on the queues. -/
def Call.spec (queues : ι → Bytes) : Call ι → Answer × (ι → Bytes)
  | .on i op =>
    let (a, q) := op.spec (queues i)
    (a, Function.update queues i q)
  | .swap i j =>
    (.nothing, Function.update (Function.update queues i (queues j)) j (queues i))

/-- The entry assertion of the call holds, and its sums stay below `2 ^ 63`. -/
def Call.Meets (bufs : ι → Buffer) : Call ι → Prop
  | .on i op => op.Entry (bufs i) ∧ op.InRange (bufs i)
  | .swap _ _ => True

/-- Each buffer represents its queue. -/
def RepresentAll (bufs : ι → Buffer) (queues : ι → Bytes) : Prop :=
  ∀ i, (bufs i).Represents (queues i)

theorem RepresentAll.update {bufs : ι → Buffer} {queues : ι → Bytes}
    (h : RepresentAll bufs queues) {i : ι} {b : Buffer} {q : Bytes} (hb : b.Represents q) :
    RepresentAll (Function.update bufs i b) (Function.update queues i q) := by
  intro j
  by_cases hj : j = i
  · subst j
    rwa [Function.update_self, Function.update_self]
  · rw [Function.update_of_ne hj, Function.update_of_ne hj]
    exact h j

/-- A call that meets its conditions acts on the buffers as on queues. -/
theorem Call.simulates :
    Simulates (@RepresentAll ι) Call.Meets Call.run Call.spec := by
  intro bufs queues call h hmeets
  cases call with
  | on i op =>
      obtain ⟨⟨_, b⟩, hrun, rfl, hb⟩ := Op.refines (h i) op hmeets.1 hmeets.2
      exact ⟨Function.update bufs i b, bind_eq_ok.mpr ⟨_, hrun, rfl⟩, h.update hb⟩
  | swap i j =>
      exact ⟨Function.update (Function.update bufs i (bufs j)) j (bufs i), rfl,
        (h.update (h j)).update (h i)⟩

/-- New buffers are empty, and from there every sequence of calls that meet their entry
assertions, with sums below `2 ^ 63`, returns, answers as byte queues do and leaves each buffer
representing its queue. -/
theorem buffers_refine_queues (initialSize reserved : ι → Nat)
    (hsum : ∀ i, reserved i + initialSize i < 2 ^ 63) :
    ∃ bufs : ι → Buffer, (∀ i, new (initialSize i) (reserved i) = .ok (bufs i)) ∧
      ∀ calls, Allowed Call.Meets Call.run bufs calls →
        ∃ bufs', play Call.run bufs calls =
            .ok ((playSpec Call.spec (fun _ ↦ []) calls).1, bufs') ∧
          RepresentAll bufs' (playSpec Call.spec (fun _ ↦ []) calls).2 := by
  choose bufs hnew hempty using fun i ↦ new_represents (hsum i)
  exact ⟨bufs, hnew, fun calls hallowed ↦ Call.simulates.play hempty hallowed⟩

/-- Two buffers with room for four bytes: a prepend, a write that grows, a swap and a read. -/
theorem buffers_refine_queues_pair :
    ∃ bufs bufs' : Bool → Buffer, (∀ i, new 4 8 = .ok (bufs i)) ∧
      play Call.run bufs [.on false (.appendInt16 0x0102), .on false (.prepend [7]),
        .on true (.write [1, 2, 3, 4, 5]), .swap false true, .on true .readInt8] =
          .ok ([.nothing, .nothing, .nothing, .nothing, .int8 7], bufs') ∧
      (bufs' false).Represents [1, 2, 3, 4, 5] ∧ (bufs' true).Represents [1, 2] := by
  obtain ⟨bufs, hnew, hrun⟩ := buffers_refine_queues (fun _ : Bool ↦ 4) (fun _ ↦ 8)
    (by decide)
  have hbufs : bufs = fun _ ↦ ⟨List.replicate 12 0, 12, 8, 8, 8⟩ :=
    funext fun i ↦ (Except.ok.inj (hnew i)).symm
  subst hbufs
  obtain ⟨bufs', hplay, hall⟩ := hrun
    [.on false (.appendInt16 0x0102), .on false (.prepend [7]),
      .on true (.write [1, 2, 3, 4, 5]), .swap false true, .on true .readInt8]
    (Allowed.cons ⟨trivial, fun _ ↦ ⟨by decide, fun _ ↦ by decide⟩⟩ rfl
      (Allowed.cons ⟨show 1 ≤ 8 by decide, trivial⟩ rfl
        (Allowed.cons ⟨trivial, fun _ ↦ ⟨by decide, fun _ ↦ by decide⟩⟩ rfl
          (Allowed.cons trivial rfl (Allowed.cons ⟨show 1 ≤ 3 by decide, trivial⟩ rfl trivial)))))
  exact ⟨_, bufs', hnew, hplay, hall false, hall true⟩

end CoffeeChat.Buffer
