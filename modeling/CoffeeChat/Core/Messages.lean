import CoffeeChat.Base.Buffer
import CoffeeChat.Lib.WireFormat

/-!
# Packet header, commands and messages

The definitions of `cim_def.h` and of the generated protobuf classes that the client core uses:
the 16-byte packet header, the command numbers and error codes of `CIM.Def.proto`, and the
messages `CIMAuthReq`, `CIMAuthRsp`, `CIMLogoutReq` and `CIMMsgData`.

The core calls three members of a message class, `ParseFromArray`, `ByteSizeLong` and
`SerializeToArray`; a `Codec` is one choice of them. The codecs defined here follow the
generated `_InternalParse` and `_InternalSerialize` over the wire format of
`CoffeeChat.Lib.WireFormat`: a scalar with its default value is not written, a later occurrence
overrides an earlier one, a string must be UTF-8, and unknown fields are kept as they came.
-/

namespace CoffeeChat

open Lib.WireFormat

/-! ## `cim_def.h` and `CIM.Def.proto` -/

/-- `kMaxBufferLen` of `client.cpp`. -/
def kMaxBufferLen : UInt32 := 1024 * 10

/-- `sizeof(IMHeader)`. -/
def sizeofIMHeader : Nat := 16

/-- `kProtocolVersion`. -/
def kProtocolVersion : UInt16 := 1

/-- `cim::Result::kError`. -/
def kError : Int32 := -1

/-- The packet header; `len` counts the header and the body. -/
structure IMHeader where
  len : UInt32
  version : UInt16
  flag : UInt16
  serviceId : UInt16
  cmd : UInt16
  seq : UInt16
  reserved : UInt16
  deriving DecidableEq, Repr

/-- `CIM::Def::CIMCmdID`; a proto3 enumeration holds any `int`. -/
abbrev CIMCmdID := Int32

def kCIM_CID_LOGIN_AUTH_LOGOUT_REQ : CIMCmdID := 0x0103
def kCIM_CID_LOGIN_AUTH_REQ : CIMCmdID := 0x0107
def kCIM_CID_LOGIN_AUTH_RSP : CIMCmdID := 0x0108
def kCIM_CID_MSG_DATA : CIMCmdID := 0x0301

theorem msgData_ne_authRsp : kCIM_CID_MSG_DATA ≠ kCIM_CID_LOGIN_AUTH_RSP := by decide

/-- `CIM::Def::CIMErrorCode`. -/
abbrev CIMErrorCode := Int32

def kCIM_ERR_SUCCESS : CIMErrorCode := 200
def kCIM_ERR_INTERNAL_ERROR : CIMErrorCode := 201

/-- `CIM::Def::CIMClientType`. -/
abbrev CIMClientType := Int32

def kCIM_CLIENT_TYPE_PC_WINDOWS : CIMClientType := 5

/-- `CIM::Def::CIMMsgType`. -/
abbrev CIMMsgType := Int32

/-- `CIM::Def::CIMSessionType`. -/
abbrev CIMSessionType := Int32

/-- The value a `switch` on `header->cmd` compares with the enumerators. -/
def IMHeader.cmdId (header : IMHeader) : CIMCmdID := header.cmd.toUInt32.toInt32

/-! ## Messages -/

/-- `CIM::Def::CIMUserInfo`. -/
structure CIMUserInfo where
  userId : UInt64 := 0
  nickName : Bytes := []
  nickNameSpell : Bytes := []
  phone : Bytes := []
  avatarUrl : Bytes := []
  attachInfo : Bytes := []
  unknownFields : Bytes := []
  deriving DecidableEq, Repr

/-- `CIM::Login::CIMAuthRsp`. -/
structure CIMAuthRsp where
  serverTime : UInt32 := 0
  resultCode : CIMErrorCode := 0
  resultString : Bytes := []
  userInfo : Option CIMUserInfo := none
  unknownFields : Bytes := []
  deriving DecidableEq, Repr

/-- `CIM::Login::CIMAuthReq`. -/
structure CIMAuthReq where
  userName : Bytes := []
  userPwd : Bytes := []
  clientType : CIMClientType := 0
  clientVersion : Bytes := []
  deriving DecidableEq, Repr

/-- `CIM::Login::CIMLogoutReq`. -/
structure CIMLogoutReq where
  userId : UInt64 := 0
  clientType : CIMClientType := 0
  deriving DecidableEq, Repr

/-- `CIM::Message::CIMMsgData`. -/
structure CIMMsgData where
  fromUserId : UInt64 := 0
  fromNickName : Bytes := []
  toSessionId : UInt64 := 0
  clientMsgId : Bytes := []
  serverMsgId : UInt64 := 0
  createTime : Int32 := 0
  msgType : CIMMsgType := 0
  sessionType : CIMSessionType := 0
  msgData : Bytes := []
  unknownFields : Bytes := []
  deriving DecidableEq, Repr

/-- What a sender uses of a `google::protobuf::MessageLite`: the bytes `SerializeToArray`
writes. -/
structure MessageLite where
  serialized : Bytes

/-- `ByteSizeLong()`, the number of bytes `SerializeToArray` writes. -/
def MessageLite.byteSizeLong (msg : MessageLite) : Nat := msg.serialized.length

/-- The members of a message class that the core calls. -/
structure Codec (α : Type) where
  parseFromArray : Bytes → Option α
  byteSizeLong : α → Nat
  serializeToArray : α → Bytes

namespace Codec

variable {α : Type}

/-- The message as a sender sees it. -/
def toLite (codec : Codec α) (msg : α) : MessageLite := ⟨codec.serializeToArray msg⟩

/-- A zero byte behind an accepted message is a field tag of zero, which is rejected. -/
def RejectsZeroTag (codec : Codec α) : Prop :=
  ∀ bs t, (codec.parseFromArray bs).isSome → codec.parseFromArray (bs ++ 0 :: t) = none

/-- Parsing a serialized message of at most 2 GiB yields the message, for those messages that
`valid` says can be serialized. -/
def RoundTrips (codec : Codec α) (valid : α → Prop) : Prop :=
  ∀ msg, valid msg → (codec.serializeToArray msg).length < 2 ^ 31 →
    codec.parseFromArray (codec.serializeToArray msg) = some msg

/-- The empty input is the message with all defaults. -/
def ParsesEmpty (codec : Codec α) (initial : α) : Prop :=
  codec.parseFromArray [] = some initial

end Codec

/-! ## The generated parsers and serializers -/

/-- A varint field, not written when it is zero. -/
def optVarint (number n : Nat) : List Field :=
  if n = 0 then [] else [⟨number, .varint n⟩]

/-- A length-delimited field, not written when it is empty. -/
def optBytes (number : Nat) (bs : Bytes) : List Field :=
  if bs = [] then [] else [⟨number, .len bs⟩]

/-- An `int32` or an enumerator is written as its sign extension to 64 bits. -/
def int32ToVarint (x : Int32) : Nat := x.toInt64.toUInt64.toNat

/-- The low half of a varint read for an `int32` or an enumerator. -/
def int32OfVarint (n : Nat) : Int32 := (UInt32.ofNat n).toInt32

/-- The fields of the input, folded into a message one by one. -/
def fieldParser {α : Type} (initial : α) (step : α → Field → Option α) (bs : Bytes) : Option α :=
  (parse bs).bind (·.foldlM step initial)

namespace CIMUserInfo

/-- One turn of `CIMUserInfo::_InternalParse`. -/
def step (msg : CIMUserInfo) (f : Field) : Option CIMUserInfo :=
  match f.number, f.value with
  | 1, .varint n => some { msg with userId := UInt64.ofNat n }
  | 2, .len bs => if verifyUtf8 bs then some { msg with nickName := bs } else none
  | 3, .len bs => if verifyUtf8 bs then some { msg with nickNameSpell := bs } else none
  | 9, .len bs => if verifyUtf8 bs then some { msg with phone := bs } else none
  | 10, .len bs => if verifyUtf8 bs then some { msg with avatarUrl := bs } else none
  | 11, .len bs => if verifyUtf8 bs then some { msg with attachInfo := bs } else none
  | _, _ => some { msg with unknownFields := msg.unknownFields ++ writeField f }

/-- `CIMUserInfo::_InternalSerialize`. -/
def serializeToArray (msg : CIMUserInfo) : Bytes :=
  (optVarint 1 msg.userId.toNat ++ optBytes 2 msg.nickName ++ optBytes 3 msg.nickNameSpell ++
    optBytes 9 msg.phone ++ optBytes 10 msg.avatarUrl ++ optBytes 11 msg.attachInfo).flatMap
      writeField ++ msg.unknownFields

end CIMUserInfo

namespace CIMAuthRsp

/-- One turn of `CIMAuthRsp::_InternalParse`. A repeated `user_info` is merged into the first. -/
def step (msg : CIMAuthRsp) (f : Field) : Option CIMAuthRsp :=
  match f.number, f.value with
  | 1, .varint n => some { msg with serverTime := UInt32.ofNat n }
  | 2, .varint n => some { msg with resultCode := int32OfVarint n }
  | 3, .len bs => if verifyUtf8 bs then some { msg with resultString := bs } else none
  | 4, .len bs =>
    (fieldParser (msg.userInfo.getD {}) CIMUserInfo.step bs).map fun info ↦
      { msg with userInfo := some info }
  | _, _ => some { msg with unknownFields := msg.unknownFields ++ writeField f }

/-- `CIMAuthRsp::_InternalSerialize`. -/
def serializeToArray (msg : CIMAuthRsp) : Bytes :=
  (optVarint 1 msg.serverTime.toNat ++ optVarint 2 (int32ToVarint msg.resultCode) ++
    optBytes 3 msg.resultString ++
    (msg.userInfo.map fun info ↦ (⟨4, .len info.serializeToArray⟩ : Field)).toList).flatMap
      writeField ++ msg.unknownFields

/-- The generated class. -/
def codec : Codec CIMAuthRsp where
  parseFromArray := fieldParser {} step
  byteSizeLong msg := msg.serializeToArray.length
  serializeToArray := serializeToArray

end CIMAuthRsp

/-- `CIMAuthReq::_InternalSerialize`. -/
def CIMAuthReq.toLite (msg : CIMAuthReq) : MessageLite :=
  ⟨(optBytes 1 msg.userName ++ optBytes 2 msg.userPwd ++
    optVarint 3 (int32ToVarint msg.clientType) ++ optBytes 4 msg.clientVersion).flatMap
      writeField⟩

/-- `CIMLogoutReq::_InternalSerialize`. -/
def CIMLogoutReq.toLite (msg : CIMLogoutReq) : MessageLite :=
  ⟨(optVarint 1 msg.userId.toNat ++ optVarint 2 (int32ToVarint msg.clientType)).flatMap
    writeField⟩

namespace CIMMsgData

/-- One turn of `CIMMsgData::_InternalParse`. -/
def step (msg : CIMMsgData) (f : Field) : Option CIMMsgData :=
  match f.number, f.value with
  | 1, .varint n => some { msg with fromUserId := UInt64.ofNat n }
  | 2, .len bs => if verifyUtf8 bs then some { msg with fromNickName := bs } else none
  | 3, .varint n => some { msg with toSessionId := UInt64.ofNat n }
  | 4, .len bs => if verifyUtf8 bs then some { msg with clientMsgId := bs } else none
  | 5, .varint n => some { msg with serverMsgId := UInt64.ofNat n }
  | 6, .varint n => some { msg with createTime := int32OfVarint n }
  | 7, .varint n => some { msg with msgType := int32OfVarint n }
  | 8, .varint n => some { msg with sessionType := int32OfVarint n }
  | 9, .len bs => some { msg with msgData := bs }
  | _, _ => some { msg with unknownFields := msg.unknownFields ++ writeField f }

/-- The fields `CIMMsgData::_InternalSerialize` writes. -/
def fields (msg : CIMMsgData) : List Field :=
  optVarint 1 msg.fromUserId.toNat ++ optBytes 2 msg.fromNickName ++
    optVarint 3 msg.toSessionId.toNat ++ optBytes 4 msg.clientMsgId ++
    optVarint 5 msg.serverMsgId.toNat ++ optVarint 6 (int32ToVarint msg.createTime) ++
    optVarint 7 (int32ToVarint msg.msgType) ++ optVarint 8 (int32ToVarint msg.sessionType) ++
    optBytes 9 msg.msgData

/-- `CIMMsgData::_InternalSerialize`. -/
def serializeToArray (msg : CIMMsgData) : Bytes :=
  msg.fields.flatMap writeField ++ msg.unknownFields

/-- The generated class. -/
def codec : Codec CIMMsgData where
  parseFromArray := fieldParser {} step
  byteSizeLong msg := msg.serializeToArray.length
  serializeToArray := serializeToArray

/-- A message whose `string` fields are UTF-8 and that carries no unknown fields. -/
def WellFormed (msg : CIMMsgData) : Prop :=
  verifyUtf8 msg.fromNickName ∧ verifyUtf8 msg.clientMsgId ∧ msg.unknownFields = []

end CIMMsgData

end CoffeeChat
