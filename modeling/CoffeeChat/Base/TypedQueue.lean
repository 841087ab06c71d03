import CoffeeChat.Base.ByteQueue

/-!
# Integers through a buffer

Over the byte queue of a buffer lies a queue of integers of four widths: `AppendIntN` puts a value
at its end, and once the bytes that were there before are consumed, `ReadIntN` takes the value at
its front, if that has the width of the call. What is stored for a value are the bytes of its two's
complement, the most significant one first (`typed_round_trip`).
-/

namespace CoffeeChat.Buffer

open Lib Lib.Endian Lib.Refinement

/-! ## Values -/

/-- The widths of the integers that a buffer takes. -/
inductive Width where
  | w64
  | w32
  | w16
  | w8
  deriving DecidableEq

/-- The number of bytes. -/
def Width.bytes : Width → Nat
  | .w64 => 8
  | .w32 => 4
  | .w16 => 2
  | .w8 => 1

/-- A signed integer of one of the widths. -/
inductive Value where
  | int64 (x : Int64)
  | int32 (x : Int32)
  | int16 (x : Int16)
  | int8 (x : Int8)
  deriving DecidableEq

def Value.width : Value → Width
  | .int64 _ => .w64
  | .int32 _ => .w32
  | .int16 _ => .w16
  | .int8 _ => .w8

/-- The integer itself. -/
def Value.toInt : Value → Int
  | .int64 x => x.toInt
  | .int32 x => x.toInt
  | .int16 x => x.toInt
  | .int8 x => x.toInt

/-- The two's complement in big-endian order. -/
def Value.encode (v : Value) : Bytes :=
  beBytes v.width.bytes (v.toInt % 256 ^ v.width.bytes).toNat

/-- The value as a call returns it. -/
def Value.answer : Value → Answer
  | .int64 x => .int64 x
  | .int32 x => .int32 x
  | .int16 x => .int16 x
  | .int8 x => .int8 x

/-- `AppendIntN(v)`. -/
def Value.append : Value → Op
  | .int64 x => .appendInt64 x
  | .int32 x => .appendInt32 x
  | .int16 x => .appendInt16 x
  | .int8 x => .appendInt8 x

/-- `ReadIntN()`. -/
def Width.read : Width → Op
  | .w64 => .readInt64
  | .w32 => .readInt32
  | .w16 => .readInt16
  | .w8 => .readInt8

/-- The two's complement of a word is the word. -/
theorem toInt_emod {w : Nat} (x : BitVec w) : (x.toInt % 2 ^ w).toNat = x.toNat := by
  have hsize : ((2 ^ w : Nat) : Int) = 2 ^ w := by norm_cast
  have hlt : (x.toNat : Int) < 2 ^ w := by
    rw [← hsize]
    exact Int.ofNat_lt.mpr x.isLt
  rw [BitVec.toInt_eq_toNat_bmod, ← hsize, Int.bmod_emod, hsize,
    Int.emod_eq_of_lt (Int.natCast_nonneg _) hlt]
  rfl

/-- The value as the unsigned integer that the code converts it to. -/
def Value.unsigned : Value → Nat
  | .int64 x => x.toUInt64.toNat
  | .int32 x => x.toUInt32.toNat
  | .int16 x => x.toUInt16.toNat
  | .int8 x => x.toUInt8.toNat

theorem Value.encode_eq (v : Value) : v.encode = beBytes v.width.bytes v.unsigned := by
  cases v with
  | int64 x => exact congrArg (beBytes 8) (toInt_emod x.toBitVec)
  | int32 x => exact congrArg (beBytes 4) (toInt_emod x.toBitVec)
  | int16 x => exact congrArg (beBytes 2) (toInt_emod x.toBitVec)
  | int8 x => exact congrArg (beBytes 1) (toInt_emod x.toBitVec)

theorem Value.unsigned_lt (v : Value) : v.unsigned < 256 ^ v.width.bytes := by
  cases v with
  | int64 x => exact x.toUInt64.toNat_lt
  | int32 x => exact x.toUInt32.toNat_lt
  | int16 x => exact x.toUInt16.toNat_lt
  | int8 x => exact x.toUInt8.toNat_lt

theorem Value.length_encode (v : Value) : v.encode.length = v.width.bytes :=
  length_beBytes _ _

theorem Value.beValue_encode (v : Value) : beValue v.encode = v.unsigned := by
  rw [v.encode_eq, beValue_beBytes, Nat.mod_eq_of_lt v.unsigned_lt]

/-- Appending a value appends its bytes. -/
theorem Value.append_spec (v : Value) (q : Bytes) :
    v.append.spec q = (.nothing, q ++ v.encode) := by
  rw [v.encode_eq]
  cases v <;> rfl

/-- Reading the bytes of a value returns the value. -/
theorem Value.read_spec (v : Value) (q : Bytes) :
    v.width.read.spec (v.encode ++ q) = (v.answer, q) := by
  have hfront : (v.encode ++ q).take v.width.bytes = v.encode := by
    rw [← v.length_encode, List.take_left]
  have hrest : (v.encode ++ q).drop v.width.bytes = q := by
    rw [← v.length_encode, List.drop_left]
  have hread {α : Type} (f : α → Answer) (word : Nat → α) :
      (f (word (beValue ((v.encode ++ q).take v.width.bytes))),
        (v.encode ++ q).drop v.width.bytes) = (f (word v.unsigned), q) := by
    rw [hfront, hrest, v.beValue_encode]
  cases v with
  | int64 x =>
      have hword : (UInt64.ofNat x.toUInt64.toNat).toInt64 = x := by
        rw [UInt64.ofNat_toNat, x.toInt64_toUInt64]
      exact (hread .int64 fun n ↦ (UInt64.ofNat n).toInt64).trans
        (congrArg (fun x ↦ (Answer.int64 x, q)) hword)
  | int32 x =>
      have hword : (UInt32.ofNat x.toUInt32.toNat).toInt32 = x := by
        rw [UInt32.ofNat_toNat, x.toInt32_toUInt32]
      exact (hread .int32 fun n ↦ (UInt32.ofNat n).toInt32).trans
        (congrArg (fun x ↦ (Answer.int32 x, q)) hword)
  | int16 x =>
      have hword : (UInt16.ofNat x.toUInt16.toNat).toInt16 = x := by
        rw [UInt16.ofNat_toNat, x.toInt16_toUInt16]
      exact (hread .int16 fun n ↦ (UInt16.ofNat n).toInt16).trans
        (congrArg (fun x ↦ (Answer.int16 x, q)) hword)
  | int8 x =>
      have hword : (UInt8.ofNat x.toUInt8.toNat).toInt8 = x := by
        rw [UInt8.ofNat_toNat, x.toInt8_toUInt8]
      exact (hread .int8 fun n ↦ (UInt8.ofNat n).toInt8).trans
        (congrArg (fun x ↦ (Answer.int8 x, q)) hword)

/-! ## The queue of values -/

/-- A call in a sequence of appends and reads. -/
inductive Act where
  /-- `AppendIntN(v)`. -/
  | append (v : Value)
  /-- `ReadIntN()`. -/
  | read (w : Width)
  /-- A call that consumes bytes from before. -/
  | skip (n : Nat)
  | next (n : Nat)
  | readByte

/-- The operation of the buffer. -/
def Act.op : Act → Op
  | .append v => v.append
  | .read w => w.read
  | .skip n => .skip n
  | .next n => .next n
  | .readByte => .readByte

/-- The call on the buffer. -/
def Act.run (b : Buffer) (act : Act) : Result (Answer × Buffer) := act.op.run b

/-- Bytes from before, and the values behind them. -/
structure TypedQueue where
  old : Bytes
  pending : List Value

/-- The bytes that the queue stands for. -/
def TypedQueue.bytes (t : TypedQueue) : Bytes := t.old ++ t.pending.flatMap Value.encode

/-- The call on the queue of values. -/
def Act.spec (t : TypedQueue) : Act → Answer × TypedQueue
  | .append v => (.nothing, { t with pending := t.pending ++ [v] })
  | .read _ => ((t.pending.head?.map Value.answer).getD .nothing,
      { t with pending := t.pending.tail })
  | .skip n => (.nothing, { t with old := t.old.drop n })
  | .next n => (.slice (t.old.take n), { t with old := t.old.drop n })
  | .readByte => (.byte (t.old.headD 0), { t with old := t.old.drop 1 })

/-- A value is read once the bytes from before are consumed, by a call of its width. -/
def Act.Legal (t : TypedQueue) : Act → Prop
  | .append _ => True
  | .read w => t.old = [] ∧ t.pending.head?.map Value.width = some w
  | .skip n | .next n => n ≤ t.old.length
  | .readByte => 1 ≤ t.old.length

/-- The sums of the call stay below `2 ^ 63`. -/
def Act.InRange (b : Buffer) (act : Act) : Prop := act.op.InRange b

/-- What a legal `ReadIntN` finds. -/
theorem Act.Legal.front {t : TypedQueue} {w : Width} (h : (Act.read w).Legal t) :
    ∃ v rest, t = ⟨[], v :: rest⟩ ∧ v.width = w := by
  obtain ⟨old, pending⟩ := t
  obtain ⟨hold, hwidth⟩ := h
  cases pending with
  | nil => cases hwidth
  | cons v rest =>
      cases hold
      exact ⟨v, rest, rfl, Option.some.inj hwidth⟩

/-- A legal call acts on the queue of values as on the bytes it stands for. -/
theorem Act.spec_bytes {t : TypedQueue} {act : Act} (h : act.Legal t) :
    act.op.spec t.bytes = ((act.spec t).1, (act.spec t).2.bytes) := by
  cases act with
  | append v =>
      refine (v.append_spec t.bytes).trans ?_
      show _ = (Answer.nothing, t.old ++ (t.pending ++ [v]).flatMap Value.encode)
      rw [List.flatMap_append, List.flatMap_singleton, ← List.append_assoc]
      rfl
  | read w =>
      obtain ⟨v, rest, rfl, rfl⟩ := h.front
      exact v.read_spec (rest.flatMap Value.encode)
  | skip n =>
      show (Answer.nothing, (t.old ++ t.pending.flatMap Value.encode).drop n) = _
      rw [List.drop_append_of_le_length h]
      rfl
  | next n =>
      show (Answer.slice ((t.old ++ t.pending.flatMap Value.encode).take n),
        (t.old ++ t.pending.flatMap Value.encode).drop n) = _
      rw [List.drop_append_of_le_length h, List.take_append_of_le_length h]
      rfl
  | readByte =>
      obtain ⟨old, pending⟩ := t
      cases old with
      | nil => exact absurd h (Nat.not_succ_le_zero 0)
      | cons x old => rfl

/-- The assertion of a legal call holds: the buffer has what the call reads. -/
theorem Act.entry {b : Buffer} {t : TypedQueue} (hb : b.Represents t.bytes) {act : Act}
    (h : act.Legal t) : act.op.Entry b := by
  have hsize := hb.size_eq
  cases act with
  | append v => cases v <;> trivial
  | read w =>
      obtain ⟨v, rest, rfl, rfl⟩ := h.front
      have hlength : v.width.bytes ≤ b.writeIndex - b.readIndex := by
        rw [hsize]
        show _ ≤ (v.encode ++ rest.flatMap Value.encode).length
        rw [List.length_append, v.length_encode]
        exact Nat.le_add_right _ _
      cases v <;> exact hlength
  | skip n | next n => trivial
  | readByte =>
      show 1 ≤ b.writeIndex - b.readIndex
      rw [hsize, TypedQueue.bytes, List.length_append]
      exact Nat.le_add_right_of_le h

/-- A legal call answers and acts as on the queue of values. -/
theorem Act.refines (b : Buffer) (t : TypedQueue) (act : Act) (hb : b.Represents t.bytes)
    (h : act.Legal t) (hrange : act.InRange b) :
    ∃ b', act.run b = .ok ((act.spec t).1, b') ∧ b'.Represents (act.spec t).2.bytes := by
  obtain ⟨⟨a, b'⟩, hrun, ha, hb'⟩ := Op.refines hb act.op (Act.entry hb h) hrange
  rw [Act.spec_bytes h] at ha hb'
  cases ha
  exact ⟨b', hrun, hb'⟩

/-! ## Sequences of calls -/

/-- The values that a call appends. -/
def Act.appends : Act → List Value
  | .append v => [v]
  | .read _ | .skip _ | .next _ | .readByte => []

/-- The number of bytes from before that a call consumes. -/
def Act.consumes : Act → Nat
  | .skip n | .next n => n
  | .readByte => 1
  | .append _ | .read _ => 0

/-- The answers to the calls of `ReadIntN`. -/
def readAnswers : List Act → List Answer → List Answer
  | .read _ :: acts, a :: answers => a :: readAnswers acts answers
  | _ :: acts, _ :: answers => readAnswers acts answers
  | _, _ => []

/-- What has come out of a queue of values and what is left in it is what was put in, in order. -/
theorem conservation {t : TypedQueue} {acts : List Act} (h : Legal Act.Legal Act.spec t acts) :
    ∃ values, readAnswers acts (playSpec Act.spec t acts).1 = values.map Value.answer ∧
      values ++ (playSpec Act.spec t acts).2.pending = t.pending ++ acts.flatMap Act.appends ∧
      (playSpec Act.spec t acts).2.old = t.old.drop (acts.map Act.consumes).sum := by
  induction acts generalizing t with
  | nil => exact ⟨[], rfl, (List.append_nil _).symm, rfl⟩
  | cons act acts ih =>
      obtain ⟨hact, hacts⟩ := h
      obtain ⟨values, hanswers, hvalues, hold⟩ := ih hacts
      cases act with
      | append v =>
          refine ⟨values, hanswers, ?_, ?_⟩
          · exact hvalues.trans (List.append_assoc ..)
          · rw [List.map_cons, List.sum_cons, Act.consumes, Nat.zero_add]
            exact hold
      | read w =>
          obtain ⟨v, rest, rfl, rfl⟩ := hact.front
          refine ⟨v :: values, congrArg (v.answer :: ·) hanswers, congrArg (v :: ·) hvalues, ?_⟩
          rw [List.map_cons, List.sum_cons, Act.consumes, Nat.zero_add]
          exact hold
      | skip n | next n =>
          refine ⟨values, hanswers, hvalues, ?_⟩
          rw [List.map_cons, List.sum_cons, ← List.drop_drop]
          exact hold
      | readByte =>
          refine ⟨values, hanswers, hvalues, ?_⟩
          rw [List.map_cons, List.sum_cons, ← List.drop_drop]
          exact hold

/-- The values that `ReadIntN` returns, followed by those whose bytes are the content once the
bytes from before are consumed, are the values appended. -/
theorem typed_round_trip {b : Buffer} {old : Bytes} (hb : b.Represents old) {acts : List Act}
    (hlegal : Legal Act.Legal Act.spec ⟨old, []⟩ acts)
    (hrange : Allowed Act.InRange Act.run b acts) :
    ∃ answers b' values pending, play Act.run b acts = .ok (answers, b') ∧
      readAnswers acts answers = values.map Value.answer ∧
      values ++ pending = acts.flatMap Act.appends ∧
      b'.Represents (old.drop (acts.map Act.consumes).sum ++ pending.flatMap Value.encode) := by
  have hempty : b.Represents (TypedQueue.bytes ⟨old, []⟩) := by
    rw [TypedQueue.bytes, List.flatMap_nil, List.append_nil]
    exact hb
  obtain ⟨b', hrun, hb'⟩ := play_of_legal Act.refines hempty hlegal hrange
  obtain ⟨values, hanswers, hvalues, hold⟩ := conservation hlegal
  refine ⟨_, b', values, _, hrun, hanswers, hvalues, ?_⟩
  rw [TypedQueue.bytes, hold] at hb'
  exact hb'

/-- A buffer of four bytes behind its reserve, with a byte of content. -/
def seven : Buffer := ⟨[0, 0, 0, 0, 0, 0, 0, 0, 7, 0, 0, 0], 12, 8, 9, 8⟩

theorem seven_represents : seven.Represents [7] := by
  refine ⟨⟨?_, ?_, ?_, ?_, ?_⟩, ?_⟩ <;> decide

/-- The byte from before is skipped between two appends, the second of which grows the buffer. -/
theorem typed_round_trip_seven :
    ∃ answers b' values pending,
      play Act.run seven [.append (.int16 (-2)), .skip 1, .append (.int64 5), .read .w16] =
        .ok (answers, b') ∧
      readAnswers [.append (.int16 (-2)), .skip 1, .append (.int64 5), .read .w16] answers =
        values.map Value.answer ∧
      values ++ pending = [.int16 (-2), .int64 5] ∧
      b'.Represents (([7] : Bytes).drop 1 ++ pending.flatMap Value.encode) :=
  typed_round_trip seven_represents
    ⟨trivial, Nat.le_refl 1, trivial, ⟨rfl, rfl⟩, trivial⟩
    (Allowed.cons (fun _ ↦ ⟨by decide, fun _ ↦ by decide⟩) rfl
      (Allowed.cons trivial rfl
        (Allowed.cons (fun _ ↦ ⟨by decide, fun _ ↦ by decide⟩) rfl
          (Allowed.cons trivial rfl trivial))))

end CoffeeChat.Buffer
