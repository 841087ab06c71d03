import CoffeeChat.Core.Messages

/-!
# Laws of the generated message classes

The generated parsers reject a zero byte behind a message they accept (`rejectsZeroTag`), and
`CIMMsgData` survives serialization (`CIMMsgData.roundTrips`). These are the two facts the
results about the receive path assume of protobuf.
-/

namespace CoffeeChat

open Lib.WireFormat

/-! ## Rejected field tags -/

/-- A parser that folds fields rejects a zero byte behind what it accepts. -/
theorem fieldParser_zero {α : Type} {initial : α} {step : α → Field → Option α} {bs : Bytes}
    (t : Bytes) (h : (fieldParser initial step bs).isSome) :
    fieldParser initial step (bs ++ 0 :: t) = none := by
  have hparse : (parse bs).isSome := by
    unfold fieldParser at h
    cases hp : parse bs with
    | none => simp [hp] at h
    | some fs => rfl
  simp [fieldParser, parse_zero t hparse]

theorem CIMAuthRsp.rejectsZeroTag : CIMAuthRsp.codec.RejectsZeroTag :=
  fun _ t h ↦ fieldParser_zero t h

theorem CIMMsgData.rejectsZeroTag : CIMMsgData.codec.RejectsZeroTag :=
  fun _ t h ↦ fieldParser_zero t h

/-! ## Round trip -/

/-- The sign extension of an `int32` has the `int32` in its low half. -/
theorem int32OfVarint_toVarint (x : Int32) : int32OfVarint (int32ToVarint x) = x := by
  apply Int32.toBitVec_inj.mp
  show BitVec.ofNat 32 (x.toBitVec.signExtend 64).toNat = x.toBitVec
  rw [BitVec.ofNat_toNat]
  ext i hi
  rw [BitVec.getElem_setWidth, BitVec.getLsbD_signExtend]
  simp [hi, show i < 64 by omega]

theorem int32ToVarint_lt (x : Int32) : int32ToVarint x < 2 ^ 64 :=
  x.toInt64.toUInt64.toNat_lt

section Fields

variable {α : Type} {step : α → Field → Option α} {msg msg' : α}

/-- A varint field that is not written is one whose value the message already holds. -/
theorem foldlM_optVarint {number n : Nat} (hstep : step msg ⟨number, .varint n⟩ = some msg')
    (hdefault : step msg ⟨number, .varint 0⟩ = some msg) (rest : List Field) :
    (optVarint number n ++ rest).foldlM step msg = rest.foldlM step msg' := by
  unfold optVarint
  split
  case isTrue h =>
    subst h
    cases hstep.symm.trans hdefault
    rfl
  case isFalse => simp [hstep]

/-- A length-delimited field that is not written is one whose value the message already
holds. -/
theorem foldlM_optBytes {number : Nat} {bs : Bytes}
    (hstep : step msg ⟨number, .len bs⟩ = some msg')
    (hdefault : step msg ⟨number, .len []⟩ = some msg) (rest : List Field) :
    (optBytes number bs ++ rest).foldlM step msg = rest.foldlM step msg' := by
  unfold optBytes
  split
  case isTrue h =>
    subst h
    cases hstep.symm.trans hdefault
    rfl
  case isFalse => simp [hstep]

/-- A field the generated serializers write: a legal number with a varint or bytes. -/
def Written (f : Field) : Prop :=
  0 < f.number ∧ f.number < 2 ^ 29 ∧
    ((∃ n < 2 ^ 64, f.value = .varint n) ∨ ∃ bs, f.value = .len bs)

theorem optVarint_written {number n : Nat} (hpos : 0 < number) (hlt : number < 2 ^ 29)
    (hn : n < 2 ^ 64) : ∀ f ∈ optVarint number n, Written f := by
  intro f hf
  unfold optVarint at hf
  split at hf
  case isTrue => simp at hf
  case isFalse =>
    cases List.mem_singleton.mp hf
    exact ⟨hpos, hlt, .inl ⟨n, hn, rfl⟩⟩

theorem optBytes_written {number : Nat} {bs : Bytes} (hpos : 0 < number)
    (hlt : number < 2 ^ 29) : ∀ f ∈ optBytes number bs, Written f := by
  intro f hf
  unfold optBytes at hf
  split at hf
  case isTrue => simp at hf
  case isFalse =>
    cases List.mem_singleton.mp hf
    exact ⟨hpos, hlt, .inr ⟨bs, rfl⟩⟩

/-- A length-delimited payload is no longer than the message it is written in. -/
theorem length_le_of_mem {fs : List Field} {f : Field} {bs : Bytes} (hf : f ∈ fs)
    (hv : f.value = .len bs) : bs.length ≤ (fs.flatMap writeField).length := by
  induction fs with
  | nil => simp at hf
  | cons g fs ih =>
      rw [List.flatMap_cons, List.length_append]
      rcases List.mem_cons.mp hf with rfl | hf
      · simp only [writeField, hv, Value.write, List.length_append]
        omega
      · have := ih hf
        omega

/-- Written fields of a message of at most 2 GiB are read back. -/
theorem parse_written {fs : List Field} (h : ∀ f ∈ fs, Written f)
    (hsize : (fs.flatMap writeField).length < 2 ^ 31) :
    parse (fs.flatMap writeField) = some fs := by
  refine parse_writeFields fun f hf ↦ ?_
  obtain ⟨hpos, hlt, ⟨n, hn, hv⟩ | ⟨bs, hv⟩⟩ := h f hf
  · exact ⟨hpos, hlt, by rw [hv]; exact hn⟩
  · have hle := length_le_of_mem hf hv
    exact ⟨hpos, hlt, by rw [hv]; exact lt_of_le_of_lt hle hsize⟩

end Fields

namespace CIMMsgData

variable {msg : CIMMsgData}

theorem fields_written : ∀ f ∈ msg.fields, Written f := by
  simp only [fields, List.forall_mem_append]
  refine ⟨⟨⟨⟨⟨⟨⟨⟨?_, ?_⟩, ?_⟩, ?_⟩, ?_⟩, ?_⟩, ?_⟩, ?_⟩, ?_⟩
  · exact optVarint_written (by decide) (by decide) msg.fromUserId.toNat_lt
  · exact optBytes_written (by decide) (by decide)
  · exact optVarint_written (by decide) (by decide) msg.toSessionId.toNat_lt
  · exact optBytes_written (by decide) (by decide)
  · exact optVarint_written (by decide) (by decide) msg.serverMsgId.toNat_lt
  · exact optVarint_written (by decide) (by decide) (int32ToVarint_lt _)
  · exact optVarint_written (by decide) (by decide) (int32ToVarint_lt _)
  · exact optVarint_written (by decide) (by decide) (int32ToVarint_lt _)
  · exact optBytes_written (by decide) (by decide)

/-- The fields of a well-formed message fold back into it. -/
theorem foldlM_fields (h : msg.WellFormed) : msg.fields.foldlM step {} = some msg := by
  obtain ⟨hnick, hid, hunknown⟩ := h
  -- the message under construction, after each of the nine fields
  let m1 : CIMMsgData := { fromUserId := msg.fromUserId }
  let m2 := { m1 with fromNickName := msg.fromNickName }
  let m3 := { m2 with toSessionId := msg.toSessionId }
  let m4 := { m3 with clientMsgId := msg.clientMsgId }
  let m5 := { m4 with serverMsgId := msg.serverMsgId }
  let m6 := { m5 with createTime := msg.createTime }
  let m7 := { m6 with msgType := msg.msgType }
  let m8 := { m7 with sessionType := msg.sessionType }
  let m9 := { m8 with msgData := msg.msgData }
  have h1 : step {} ⟨1, .varint msg.fromUserId.toNat⟩ = some m1 := by simp [step, m1]
  have h2 : step m1 ⟨2, .len msg.fromNickName⟩ = some m2 := by simp [step, hnick, m2]
  have h3 : step m2 ⟨3, .varint msg.toSessionId.toNat⟩ = some m3 := by simp [step, m3]
  have h4 : step m3 ⟨4, .len msg.clientMsgId⟩ = some m4 := by simp [step, hid, m4]
  have h5 : step m4 ⟨5, .varint msg.serverMsgId.toNat⟩ = some m5 := by simp [step, m5]
  have h6 : step m5 ⟨6, .varint (int32ToVarint msg.createTime)⟩ = some m6 := by
    simp [step, int32OfVarint_toVarint, m6]
  have h7 : step m6 ⟨7, .varint (int32ToVarint msg.msgType)⟩ = some m7 := by
    simp [step, int32OfVarint_toVarint, m7]
  have h8 : step m7 ⟨8, .varint (int32ToVarint msg.sessionType)⟩ = some m8 := by
    simp [step, int32OfVarint_toVarint, m8]
  have h9 : step m8 ⟨9, .len msg.msgData⟩ = some m9 := by simp [step, m9]
  have hend : m9 = msg := by
    rw [show msg = { msg with unknownFields := [] } by rw [← hunknown]]
  rw [← List.append_nil msg.fields]
  simp only [fields, List.append_assoc]
  rw [foldlM_optVarint h1 rfl, foldlM_optBytes h2 rfl, foldlM_optVarint h3 rfl,
    foldlM_optBytes h4 rfl, foldlM_optVarint h5 rfl, foldlM_optVarint h6 rfl,
    foldlM_optVarint h7 rfl, foldlM_optVarint h8 rfl, foldlM_optBytes h9 rfl, hend]
  rfl

/-- The serializer writes the fields and nothing else when there are no unknown ones. -/
theorem serializeToArray_eq (h : msg.WellFormed) :
    msg.serializeToArray = msg.fields.flatMap writeField := by
  rw [serializeToArray, h.2.2, List.append_nil]

/-- Parsing a serialized message yields the message. -/
theorem roundTrips : codec.RoundTrips WellFormed := by
  intro msg hvalid hsize
  simp only [codec, serializeToArray_eq hvalid] at hsize ⊢
  rw [fieldParser, parse_written fields_written hsize, Option.bind_some, foldlM_fields hvalid]

end CIMMsgData

theorem CIMMsgData.parsesEmpty : CIMMsgData.codec.ParsesEmpty {} := rfl

end CoffeeChat
