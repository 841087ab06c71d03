import CoffeeChat.Pb.Classes

/-!
# The members of the generated classes

`ParseFromArray`, `SerializeToArray` and `ByteSizeLong` of a generated class form a `Codec`. With
any runtime that reads for them as documented, for each of the 52 classes a message survives the
round trip and is counted exactly (`class_roundTrips`), an input that is accepted means the same
after it is written anew (`class_rewrites`), and a message sent behind another is merged into it as
`MergeFrom` does (`class_merges`).

The messages that the client core is modelled with are those of the generated classes, field by
field: with the reader of the wire format their parsers agree, and their serializers with any
(`ofMsgData_parse`, `ofMsgData_serialize` and so on).
-/

namespace CoffeeChat.Pb

open Lib.WireFormat Lib.Schema

/-- A generated class. -/
abbrev Generated (rt : Reader) := { c : MessageClass // c ∈ generated rt }

section Members

variable {c : MessageClass}

/-- The members of a generated class that the core calls. -/
def codec (rt : Reader) (c : MessageClass) : Codec (Message c) where
  parseFromArray := Message.parseFrom rt
  byteSizeLong := Message.byteSize
  serializeToArray := Message.serialize

/-- `MergeFrom(from)`. -/
def mergeFrom (msg source : Message c) : Message c := msg.merge source

/-- `Clear()`. -/
def clear (_ : Message c) : Message c := .initial

/-- `CopyFrom(from)`. -/
def copyFrom (msg source : Message c) : Message c := mergeFrom (clear msg) source

theorem copyFrom_eq (msg source : Message c) : copyFrom msg source = source :=
  source.merge_initial

theorem parsesEmpty (rt : Reader) (c : MessageClass) : (codec rt c).ParsesEmpty .initial := rfl

theorem codec_rejectsZeroTag (rt : Reader) (c : MessageClass) : (codec rt c).RejectsZeroTag := by
  intro bs t h
  obtain ⟨msg, hmsg⟩ := Option.isSome_iff_exists.mp h
  obtain ⟨fs, hfs, -⟩ := Option.bind_eq_some_iff.mp hmsg
  show (rt.parse (bs ++ 0 :: t)).bind _ = none
  rw [Reader.parse_zero t (by rw [hfs]; rfl)]
  rfl

end Members

/-! ## The messages of the client core -/

/-- Two embeddings of a message class: their parsers agree when their steps do. -/
theorem fieldParser_view {α β : Type} {step : α → Field → Option α} {step' : β → Field → Option β}
    (view : α → β) (hstep : ∀ a f, (step a f).map view = step' (view a) f) (initial : α)
    (bs : Bytes) :
    (fieldParser initial step bs).map view = fieldParser (view initial) step' bs := by
  have hfold : ∀ (fs : List Field) (a : α),
      (fs.foldlM step a).map view = fs.foldlM step' (view a) := by
    intro fs
    induction fs with
    | nil => intro a; rfl
    | cons f fs ih =>
        intro a
        rw [List.foldlM_cons, List.foldlM_cons, ← hstep a f]
        cases step a f with
        | none => rfl
        | some b => exact ih b
  unfold fieldParser
  cases parse bs with
  | none => rfl
  | some fs => exact hfold fs initial

/-- A scalar is written like an optional varint. -/
theorem fields_scalar {α : Type} [DecidableEq α] (s : Scalar α)
    (hzero : s.toVarint (s.ofVarint 0) = 0) (number : Nat) (a : α) :
    ((FieldType.scalar s).write a).map (fun v ↦ (⟨number, v⟩ : Field)) =
      optVarint number (s.toVarint a) := by
  by_cases ha : a = s.ofVarint 0
  · simp [FieldType.scalar, optVarint, ha, hzero]
  · have hne : s.toVarint a ≠ 0 := by
      intro h
      rw [← s.ofVarint_toVarint a, h] at ha
      exact ha rfl
    simp [FieldType.scalar, optVarint, ha, hne]

theorem fields_checked {check : Bytes → Bool} {hnil : check []} (number : Nat) (bs : Bytes) :
    ((FieldType.bytes check hnil).write bs).map (fun v ↦ (⟨number, v⟩ : Field)) =
      optBytes number bs := by
  by_cases hbs : bs = [] <;> simp [FieldType.bytes, optBytes, hbs]

@[simp] theorem fields_uint64 (number : Nat) (a : UInt64) :
    (uint64.write a).map (fun v ↦ (⟨number, v⟩ : Field)) = optVarint number a.toNat :=
  fields_scalar _ rfl number a

@[simp] theorem fields_uint32 (number : Nat) (a : UInt32) :
    (uint32.write a).map (fun v ↦ (⟨number, v⟩ : Field)) = optVarint number a.toNat :=
  fields_scalar _ rfl number a

@[simp] theorem fields_int32 (number : Nat) (a : Int32) :
    (int32.write a).map (fun v ↦ (⟨number, v⟩ : Field)) = optVarint number (int32ToVarint a) :=
  fields_scalar _ rfl number a

@[simp] theorem fields_enum (number : Nat) (a : Int32) :
    (enum.write a).map (fun v ↦ (⟨number, v⟩ : Field)) = optVarint number (int32ToVarint a) :=
  fields_int32 number a

@[simp] theorem fields_string (rt : Reader) (number : Nat) (bs : Bytes) :
    ((string rt).write bs).map (fun v ↦ (⟨number, v⟩ : Field)) = optBytes number bs :=
  fields_checked number bs

@[simp] theorem fields_bytes (number : Nat) (bs : Bytes) :
    (bytes.write bs).map (fun v ↦ (⟨number, v⟩ : Field)) = optBytes number bs :=
  fields_checked number bs

variable {rt : Reader}

theorem reader_verifyUtf8 (bs : Bytes) : reader.verifyUtf8 bs = verifyUtf8 bs := rfl

/-! ### `CIMMsgData` -/

def ofMsgData (msg : CoffeeChat.CIMMsgData) : Message (CIMMsgData rt) :=
  ⟨(msg.fromUserId, msg.fromNickName, msg.toSessionId, msg.clientMsgId, msg.serverMsgId,
    msg.createTime, msg.msgType, msg.sessionType, msg.msgData, ()), msg.unknownFields⟩

theorem ofMsgData_step (msg : CoffeeChat.CIMMsgData) (f : Field) :
    (msg.step f).map ofMsgData = (ofMsgData msg : Message (CIMMsgData reader)).step f := by
  obtain ⟨n, v⟩ := f
  rcases n with _ | _ | _ | _ | _ | _ | _ | _ | _ | _ | n <;> cases v <;> try rfl
  -- the two strings
  all_goals
    rename_i bs
    cases h : verifyUtf8 bs <;>
    simp [CoffeeChat.CIMMsgData.step, ofMsgData, Message.step, Vals.takes, Vals.read, CIMMsgData,
      string, FieldType.bytes, isLen, reader_verifyUtf8, h] <;>
    rfl

/-- `CIMMsgData` is parsed as the generated class parses it. -/
theorem ofMsgData_parse (bs : Bytes) :
    (CoffeeChat.CIMMsgData.codec.parseFromArray bs).map ofMsgData =
      (codec reader (CIMMsgData reader)).parseFromArray bs :=
  fieldParser_view ofMsgData ofMsgData_step {} bs

theorem ofMsgData_serialize (msg : CoffeeChat.CIMMsgData) :
    (codec rt (CIMMsgData rt)).serializeToArray (ofMsgData msg) =
      CoffeeChat.CIMMsgData.codec.serializeToArray msg := by
  have hfields : Vals.fields (CIMMsgData rt).entries (ofMsgData msg).vals = msg.fields := by
    simp [CIMMsgData, ofMsgData, Vals.fields, CoffeeChat.CIMMsgData.fields]
  show (Vals.fields (CIMMsgData rt).entries (ofMsgData msg).vals).flatMap writeField ++
    msg.unknownFields = msg.fields.flatMap writeField ++ msg.unknownFields
  rw [hfields]

/-! ### `CIMAuthRsp` -/

def ofUserInfo (msg : CoffeeChat.CIMUserInfo) : Message (CIMUserInfo rt) :=
  ⟨(msg.userId, msg.nickName, msg.nickNameSpell, msg.phone, msg.avatarUrl, msg.attachInfo, ()),
    msg.unknownFields⟩

def ofAuthRsp (msg : CoffeeChat.CIMAuthRsp) : Message (CIMAuthRsp rt) :=
  ⟨(msg.serverTime, msg.resultCode, msg.resultString, msg.userInfo.map ofUserInfo, ()),
    msg.unknownFields⟩

theorem ofUserInfo_step (msg : CoffeeChat.CIMUserInfo) (f : Field) :
    (msg.step f).map ofUserInfo = (ofUserInfo msg : Message (CIMUserInfo reader)).step f := by
  obtain ⟨n, v⟩ := f
  rcases n with _ | _ | _ | _ | _ | _ | _ | _ | _ | _ | _ | _ | n <;> cases v <;> try rfl
  -- the five strings
  all_goals
    rename_i bs
    cases h : verifyUtf8 bs <;>
    simp [CoffeeChat.CIMUserInfo.step, ofUserInfo, Message.step, Vals.takes, Vals.read,
      CIMUserInfo, string, FieldType.bytes, isLen, reader_verifyUtf8, h] <;>
    rfl

theorem ofAuthRsp_step (msg : CoffeeChat.CIMAuthRsp) (f : Field) :
    (msg.step f).map ofAuthRsp = (ofAuthRsp msg : Message (CIMAuthRsp reader)).step f := by
  obtain ⟨n, v⟩ := f
  rcases n with _ | _ | _ | _ | _ | n <;> cases v <;> try rfl
  case succ.succ.succ.zero.len bs =>
    cases h : verifyUtf8 bs <;>
    simp [CoffeeChat.CIMAuthRsp.step, ofAuthRsp, Message.step, Vals.takes, Vals.read, CIMAuthRsp,
      string, FieldType.bytes, isLen, reader_verifyUtf8, h] <;>
    rfl
  case succ.succ.succ.succ.zero.len bs =>
    have hmerge : (fieldParser (msg.userInfo.getD {}) CoffeeChat.CIMUserInfo.step bs).map
        ofUserInfo = (((msg.userInfo.map ofUserInfo).getD .initial :
          Message (CIMUserInfo reader)).parseInto reader bs) := by
      rw [fieldParser_view ofUserInfo ofUserInfo_step]
      cases msg.userInfo <;> rfl
    show Option.map ofAuthRsp (Option.map _ (fieldParser (msg.userInfo.getD {}) _ bs)) =
      Option.map _ (Option.map _ (Option.map _ (Option.map _ (Option.map _ (Option.map some
        (((msg.userInfo.map ofUserInfo).getD .initial).parseInto reader bs))))))
    rw [← hmerge]
    cases fieldParser (msg.userInfo.getD {}) CoffeeChat.CIMUserInfo.step bs <;> rfl

/-- `CIMAuthRsp` is parsed as the generated class parses it. -/
theorem ofAuthRsp_parse (bs : Bytes) :
    (CoffeeChat.CIMAuthRsp.codec.parseFromArray bs).map ofAuthRsp =
      (codec reader (CIMAuthRsp reader)).parseFromArray bs :=
  fieldParser_view ofAuthRsp ofAuthRsp_step {} bs

theorem ofUserInfo_serialize (msg : CoffeeChat.CIMUserInfo) :
    (ofUserInfo msg : Message (CIMUserInfo rt)).serialize = msg.serializeToArray := by
  simp [Message.serialize, CIMUserInfo, ofUserInfo, Vals.fields,
    CoffeeChat.CIMUserInfo.serializeToArray]

theorem ofAuthRsp_serialize (msg : CoffeeChat.CIMAuthRsp) :
    (codec rt (CIMAuthRsp rt)).serializeToArray (ofAuthRsp msg) =
      CoffeeChat.CIMAuthRsp.codec.serializeToArray msg := by
  have hinfo : ((FieldType.message rt (CIMUserInfo rt)).write (msg.userInfo.map ofUserInfo)).map
      (fun v ↦ (⟨4, v⟩ : Field)) =
        (msg.userInfo.map fun info ↦ (⟨4, .len info.serializeToArray⟩ : Field)).toList := by
    cases msg.userInfo with
    | none => rfl
    | some info =>
        show [(⟨4, .len (ofUserInfo info : Message (CIMUserInfo rt)).serialize⟩ : Field)] =
          [⟨4, .len info.serializeToArray⟩]
        rw [ofUserInfo_serialize]
  have hfields : Vals.fields (CIMAuthRsp rt).entries (ofAuthRsp msg).vals =
      optVarint 1 msg.serverTime.toNat ++ optVarint 2 (int32ToVarint msg.resultCode) ++
        optBytes 3 msg.resultString ++
        (msg.userInfo.map fun info ↦ (⟨4, .len info.serializeToArray⟩ : Field)).toList := by
    rw [← hinfo]
    simp [CIMAuthRsp, ofAuthRsp, Vals.fields]
  show (Vals.fields (CIMAuthRsp rt).entries (ofAuthRsp msg).vals).flatMap writeField ++
    msg.unknownFields = msg.serializeToArray
  rw [hfields]
  rfl

/-! ### `CIMAuthReq` and `CIMLogoutReq` -/

def ofAuthReq (msg : CoffeeChat.CIMAuthReq) : Message (CIMAuthReq rt) :=
  ⟨(msg.userName, msg.userPwd, msg.clientType, msg.clientVersion, ()), []⟩

def ofLogoutReq (msg : CoffeeChat.CIMLogoutReq) : Message CIMLogoutReq :=
  ⟨(msg.userId, msg.clientType, ()), []⟩

theorem ofAuthReq_serialize (msg : CoffeeChat.CIMAuthReq) :
    (ofAuthReq msg : Message (CIMAuthReq rt)).serialize = msg.toLite.serialized := by
  simp [Message.serialize, CIMAuthReq, ofAuthReq, Vals.fields, CoffeeChat.CIMAuthReq.toLite]

theorem ofLogoutReq_serialize (msg : CoffeeChat.CIMLogoutReq) :
    (ofLogoutReq msg).serialize = msg.toLite.serialized := by
  simp [Message.serialize, CIMLogoutReq, ofLogoutReq, Vals.fields, CoffeeChat.CIMLogoutReq.toLite]

/-! ## All generated classes -/

/-- What `SerializeToArray` writes is as long as `ByteSizeLong` says, and `ParseFromArray` makes
the same message of it: of every message of less than 1 GiB in which the strings are UTF-8 and the
unknown bytes are fields that the runtime reads and the class does not know. -/
theorem class_roundTrips (rt : Reader) (c : Generated rt) (msg : Message c.1)
    (hvalid : msg.Valid rt) (hlt : ((codec rt c.1).serializeToArray msg).length < 2 ^ 30) :
    (codec rt c.1).byteSizeLong msg = ((codec rt c.1).serializeToArray msg).length ∧
      (codec rt c.1).parseFromArray ((codec rt c.1).serializeToArray msg) = some msg :=
  ⟨Message.byteSize_eq hlt, Message.parseFrom_serialize hvalid hlt⟩

/-- An invitation of two members to a named channel, with two unknown fields, the second of them a
group. -/
def someInvite : Message (CIMVoipInviteReq reader) :=
  ⟨((7 : UInt64), ([300, 5] : List UInt64), (-1 : Int32),
    some ⟨(([0x67] : Bytes), ([] : Bytes), (9 : UInt64), ()), []⟩, ()),
    [0x85, 0x01, 1, 2, 3, 4, 0x8b, 0x01, 0x08, 5, 0x8c, 0x01]⟩

theorem someInvite_valid : someInvite.Valid reader := by
  refine ⟨⟨trivial, trivial, trivial, ?_, trivial⟩,
    [⟨16, .fixed32 [1, 2, 3, 4]⟩, ⟨17, .group [0x08, 5, 0x8c, 0x01]⟩], rfl, ?_⟩
  · intro msg hmsg
    cases Option.mem_some.mp hmsg
    exact ⟨⟨rfl, rfl, trivial, trivial⟩, [], rfl, fun f hf ↦ absurd hf List.not_mem_nil⟩
  · intro f hf
    rcases List.mem_pair.mp hf with rfl | rfl
    · exact ⟨reader.plain (show 0 < 16 by norm_num) (show 16 < 2 ^ 29 by norm_num)
        (show [1, 2, 3, 4].length = 4 from rfl), rfl⟩
    · have hread : reader.readField [0x8b, 0x01, 0x08, 5, 0x8c, 0x01] =
          some (⟨17, .group [0x08, 5, 0x8c, 0x01]⟩, []) := by decide +kernel
      exact ⟨reader.again hread, rfl⟩

theorem class_roundTrips_someInvite :
    (codec reader (CIMVoipInviteReq reader)).byteSizeLong someInvite = 37 ∧
      someInvite.serialize.length = 37 ∧
      (codec reader (CIMVoipInviteReq reader)).parseFromArray someInvite.serialize =
        some someInvite := by
  have hlength : someInvite.serialize.length = 37 := by decide
  obtain ⟨hsize, hparse⟩ := class_roundTrips reader ⟨CIMVoipInviteReq reader, by simp [generated]⟩
    someInvite someInvite_valid (lt_of_eq_of_lt hlength (by norm_num))
  exact ⟨hsize.trans hlength, hlength, hparse⟩

/-- An input that is accepted means the same after it is written anew, whatever its order, its
repetitions and its encodings were. -/
theorem class_rewrites (rt : Reader) (c : Generated rt) (bs : Bytes) (msg : Message c.1)
    (h : (codec rt c.1).parseFromArray bs = some msg)
    (hlt : ((codec rt c.1).serializeToArray msg).length < 2 ^ 30) :
    (codec rt c.1).byteSizeLong msg = ((codec rt c.1).serializeToArray msg).length ∧
      (codec rt c.1).parseFromArray ((codec rt c.1).serializeToArray msg) = some msg :=
  ⟨Message.byteSize_eq hlt, Message.parseFrom_serialize (Message.valid_of_parseFrom h) hlt⟩

/-- Members that are not packed, the invitation type given twice, a default written out, and a group
with a number in more bytes than it needs. -/
theorem class_rewrites_unpacked :
    (codec reader (CIMVoipInviteReq reader)).parseFromArray
        [24, 1, 16, 5, 8, 0, 16, 0xAC, 2, 24, 2, 43, 8, 0x81, 0, 44] =
      some ⟨((0 : UInt64), ([5, 300] : List UInt64), (2 : Int32), none, ()), [43, 8, 1, 44]⟩ ∧
    (codec reader (CIMVoipInviteReq reader)).parseFromArray
        [18, 3, 5, 0xAC, 2, 24, 2, 43, 8, 1, 44] =
      some ⟨((0 : UInt64), ([5, 300] : List UInt64), (2 : Int32), none, ()), [43, 8, 1, 44]⟩ := by
  have hparse : (codec reader (CIMVoipInviteReq reader)).parseFromArray
      [24, 1, 16, 5, 8, 0, 16, 0xAC, 2, 24, 2, 43, 8, 0x81, 0, 44] =
        some ⟨((0 : UInt64), ([5, 300] : List UInt64), (2 : Int32), none, ()), [43, 8, 1, 44]⟩ :=
    rfl
  exact ⟨hparse, (class_rewrites reader ⟨CIMVoipInviteReq reader, by simp [generated]⟩ _ _ hparse
    (show 11 < 2 ^ 30 by norm_num)).2⟩

/-- A message whose bytes follow those of another is merged into that one as `MergeFrom` does. -/
theorem class_merges (rt : Reader) (c : Generated rt) (bs : Bytes) (msg source : Message c.1)
    (h : (codec rt c.1).parseFromArray bs = some msg) (hvalid : source.Valid rt)
    (hlt : ((codec rt c.1).serializeToArray source).length < 2 ^ 30) :
    (codec rt c.1).parseFromArray (bs ++ (codec rt c.1).serializeToArray source) =
      some (mergeFrom msg source) :=
  Message.parseFrom_append h hvalid hlt

theorem class_merges_someInvite :
    (codec reader (CIMVoipInviteReq reader)).parseFromArray
        ([16, 6, 34, 2, 18, 0] ++ someInvite.serialize) =
      some ⟨((7 : UInt64), ([6, 300, 5] : List UInt64), (-1 : Int32),
        some ⟨(([0x67] : Bytes), ([] : Bytes), (9 : UInt64), ()), []⟩, ()),
        someInvite.unknown⟩ :=
  class_merges reader ⟨CIMVoipInviteReq reader, by simp [generated]⟩ [16, 6, 34, 2, 18, 0]
    ⟨((0 : UInt64), ([6] : List UInt64), (0 : Int32), some .initial, ()), []⟩ someInvite rfl
    someInvite_valid (show someInvite.serialize.length < 2 ^ 30 by decide)

end CoffeeChat.Pb
