import CoffeeChat.Core.MessagesLemmas
import CoffeeChat.Lib.FieldTypes

/-!
# The generated message classes

The classes of `chatkit/cim/pb` by the numbers and types of their fields. The members of each
(`_InternalParse`, `_InternalSerialize`, `ByteSizeLong`, `MergeFrom`) treat a field by its type
alone, in the order of the numbers; only the declarations differ between the classes. What they call
in the protobuf runtime to read is a `Reader`.
-/

namespace CoffeeChat.Pb

open Lib.WireFormat Lib.Schema

variable (rt : Reader)

/-! ## Field types -/

def uint64 : FieldType :=
  .scalar ⟨UInt64.ofNat, UInt64.toNat, fun _ ↦ UInt64.ofNat_toNat, UInt64.toNat_lt⟩

def uint32 : FieldType :=
  .scalar ⟨UInt32.ofNat, UInt32.toNat, fun _ ↦ UInt32.ofNat_toNat,
    fun a ↦ lt_trans a.toNat_lt (by norm_num)⟩

def int32 : FieldType :=
  .scalar ⟨int32OfVarint, int32ToVarint, int32OfVarint_toVarint, int32ToVarint_lt⟩

/-- An enumeration, which holds any `int`. -/
def enum : FieldType := int32

def bool : FieldType :=
  .scalar ⟨fun n ↦ n != 0, Bool.toNat, fun b ↦ by cases b <;> rfl,
    fun b ↦ lt_of_le_of_lt b.toNat_le (by norm_num)⟩

def string : FieldType := .bytes rt.verifyUtf8 (rt.verifyUtf8_iff.mpr ⟨[], rfl⟩)

def bytes : FieldType := .bytes (fun _ ↦ true) rfl

def packedUint64 : FieldType :=
  .packed rt ⟨UInt64.ofNat, UInt64.toNat, fun _ ↦ UInt64.ofNat_toNat, UInt64.toNat_lt⟩

def repeatedString : FieldType := .repeated (.string rt.verifyUtf8)

/-! ## `CIM.Def.pb.cc` -/

def CIMUserInfo : MessageClass :=
  ⟨[⟨1, uint64⟩, ⟨2, string rt⟩, ⟨3, string rt⟩, ⟨9, string rt⟩, ⟨10, string rt⟩,
    ⟨11, string rt⟩], rfl⟩

def CIMContactSessionInfo : MessageClass :=
  ⟨[⟨1, uint64⟩, ⟨2, enum⟩, ⟨3, enum⟩, ⟨4, uint32⟩, ⟨5, uint32⟩, ⟨6, string rt⟩, ⟨7, uint64⟩,
    ⟨8, uint32⟩, ⟨9, bytes⟩, ⟨10, enum⟩, ⟨11, uint64⟩, ⟨12, enum⟩, ⟨13, string rt⟩, ⟨14, string rt⟩,
    ⟨15, bool⟩], rfl⟩

def CIMMsgInfo : MessageClass :=
  ⟨[⟨1, string rt⟩, ⟨2, uint64⟩, ⟨3, enum⟩, ⟨4, enum⟩, ⟨5, enum⟩, ⟨6, uint64⟩, ⟨7, uint64⟩,
    ⟨8, uint32⟩, ⟨9, enum⟩, ⟨10, enum⟩, ⟨11, bytes⟩, ⟨12, string rt⟩, ⟨13, enum⟩], rfl⟩

def CIMChannelInfo : MessageClass := ⟨[⟨1, string rt⟩, ⟨2, string rt⟩, ⟨3, uint64⟩], rfl⟩

/-! ## `CIM.Friend.pb.cc` -/

def CIMFriendQueryUserListReq : MessageClass := ⟨[⟨1, uint64⟩], rfl⟩

def CIMFriendQueryUserListRsp : MessageClass :=
  ⟨[⟨1, uint64⟩, ⟨2, .repeated (.message rt (CIMUserInfo rt))⟩], rfl⟩

/-! ## `CIM.Group.pb.cc` -/

def CIMGroupCreateReq : MessageClass := ⟨[⟨1, uint64⟩, ⟨2, string rt⟩, ⟨3, packedUint64 rt⟩], rfl⟩

def CIMGroupInfo : MessageClass :=
  ⟨[⟨1, uint64⟩, ⟨2, string rt⟩, ⟨3, enum⟩, ⟨4, enum⟩, ⟨5, enum⟩, ⟨6, enum⟩, ⟨7, uint64⟩,
    ⟨8, uint32⟩, ⟨9, uint32⟩, ⟨10, string rt⟩, ⟨11, string rt⟩, ⟨12, string rt⟩], rfl⟩

def CIMGroupCreateRsp : MessageClass :=
  ⟨[⟨1, uint64⟩, ⟨2, uint32⟩, ⟨3, .message rt (CIMGroupInfo rt)⟩, ⟨4, packedUint64 rt⟩,
    ⟨10, bytes⟩], rfl⟩

def CIMGroupDisbandingReq : MessageClass := ⟨[⟨1, uint64⟩, ⟨2, uint64⟩], rfl⟩

def CIMGroupDisbandingRsp : MessageClass :=
  ⟨[⟨1, uint64⟩, ⟨2, uint64⟩, ⟨3, uint32⟩, ⟨10, bytes⟩], rfl⟩

def CIMGroupExitReq : MessageClass := ⟨[⟨1, uint64⟩, ⟨2, uint64⟩], rfl⟩

def CIMGroupExitRsp : MessageClass := ⟨[⟨1, uint64⟩, ⟨2, uint64⟩, ⟨3, uint32⟩, ⟨10, bytes⟩], rfl⟩

def CIMGroupListReq : MessageClass := ⟨[⟨1, uint64⟩], rfl⟩

def CIMGroupVersionInfo : MessageClass := ⟨[⟨1, uint64⟩, ⟨2, uint32⟩], rfl⟩

def CIMGroupListRsp : MessageClass :=
  ⟨[⟨1, uint64⟩, ⟨2, .repeated (.message rt CIMGroupVersionInfo)⟩], rfl⟩

def CIMGroupInfoReq : MessageClass :=
  ⟨[⟨1, uint64⟩, ⟨2, .repeated (.message rt CIMGroupVersionInfo)⟩], rfl⟩

def CIMGroupInfoRsp : MessageClass :=
  ⟨[⟨1, uint64⟩, ⟨2, uint32⟩, ⟨3, .repeated (.message rt (CIMGroupInfo rt))⟩], rfl⟩

def CIMGroupInviteMemberReq : MessageClass :=
  ⟨[⟨1, uint64⟩, ⟨2, uint64⟩, ⟨3, packedUint64 rt⟩], rfl⟩

def CIMGroupInviteMemberRsp : MessageClass :=
  ⟨[⟨1, uint64⟩, ⟨2, uint64⟩, ⟨3, uint32⟩, ⟨10, bytes⟩], rfl⟩

def CIMGroupKickOutMemberReq : MessageClass :=
  ⟨[⟨1, uint64⟩, ⟨2, uint64⟩, ⟨3, packedUint64 rt⟩], rfl⟩

def CIMGroupKickOutMemberRsp : MessageClass :=
  ⟨[⟨1, uint64⟩, ⟨2, uint64⟩, ⟨3, uint32⟩, ⟨10, bytes⟩], rfl⟩

def CIMGroupMemberListReq : MessageClass := ⟨[⟨1, uint64⟩, ⟨2, uint64⟩], rfl⟩

def CIMGroupMemberListRsp : MessageClass := ⟨[⟨1, uint64⟩, ⟨2, uint64⟩, ⟨3, packedUint64 rt⟩], rfl⟩

def CIMGroupMemberChangedInfo : MessageClass := ⟨[⟨1, uint64⟩, ⟨2, enum⟩], rfl⟩

def CIMGroupMemberChangedNotify : MessageClass :=
  ⟨[⟨1, uint64⟩, ⟨2, uint64⟩, ⟨3, .repeated (.message rt CIMGroupMemberChangedInfo)⟩], rfl⟩

/-! ## `CIM.List.pb.cc` -/

def CIMRecentContactSessionReq : MessageClass := ⟨[⟨1, uint64⟩, ⟨2, uint32⟩], rfl⟩

def CIMRecentContactSessionRsp : MessageClass :=
  ⟨[⟨1, uint64⟩, ⟨2, uint32⟩, ⟨3, .repeated (.message rt (CIMContactSessionInfo rt))⟩], rfl⟩

def CIMGetMsgListReq : MessageClass :=
  ⟨[⟨1, uint64⟩, ⟨2, enum⟩, ⟨3, uint64⟩, ⟨4, uint64⟩, ⟨6, uint32⟩], rfl⟩

def CIMGetMsgListRsp : MessageClass :=
  ⟨[⟨1, uint64⟩, ⟨2, enum⟩, ⟨3, uint64⟩, ⟨4, uint64⟩,
    ⟨6, .repeated (.message rt (CIMMsgInfo rt))⟩], rfl⟩

/-! ## `CIM.Login.pb.cc` -/

def CIMAuthTokenReq : MessageClass :=
  ⟨[⟨1, uint64⟩, ⟨2, string rt⟩, ⟨3, string rt⟩, ⟨4, enum⟩, ⟨5, string rt⟩], rfl⟩

def CIMAuthTokenRsp : MessageClass :=
  ⟨[⟨1, uint32⟩, ⟨2, enum⟩, ⟨3, string rt⟩, ⟨4, .message rt (CIMUserInfo rt)⟩], rfl⟩

def CIMAuthReq : MessageClass := ⟨[⟨1, string rt⟩, ⟨2, string rt⟩, ⟨3, enum⟩, ⟨4, string rt⟩], rfl⟩

def CIMAuthRsp : MessageClass :=
  ⟨[⟨1, uint32⟩, ⟨2, enum⟩, ⟨3, string rt⟩, ⟨4, .message rt (CIMUserInfo rt)⟩], rfl⟩

def CIMLogoutReq : MessageClass := ⟨[⟨1, uint64⟩, ⟨2, enum⟩], rfl⟩

def CIMLogoutRsp : MessageClass := ⟨[⟨1, uint32⟩], rfl⟩

def CIMHeartBeat : MessageClass := ⟨[], rfl⟩

/-! ## `CIM.Message.pb.cc` -/

def CIMMsgData : MessageClass :=
  ⟨[⟨1, uint64⟩, ⟨2, string rt⟩, ⟨3, uint64⟩, ⟨4, string rt⟩, ⟨5, uint64⟩, ⟨6, int32⟩, ⟨7, enum⟩,
    ⟨8, enum⟩, ⟨9, bytes⟩], rfl⟩

def CIMMsgDataAck : MessageClass :=
  ⟨[⟨1, uint64⟩, ⟨2, uint64⟩, ⟨3, string rt⟩, ⟨4, uint64⟩, ⟨5, enum⟩, ⟨6, enum⟩, ⟨7, int32⟩], rfl⟩

def CIMMsgDataReadAck : MessageClass := ⟨[⟨1, uint64⟩, ⟨2, uint64⟩, ⟨3, uint64⟩, ⟨4, enum⟩], rfl⟩

def CIMMsgDataReadNotify : MessageClass := ⟨[⟨1, uint64⟩, ⟨2, uint64⟩, ⟨3, uint64⟩, ⟨4, enum⟩], rfl⟩

def CIMGetLatestMsgIdReq : MessageClass := ⟨[⟨1, uint64⟩, ⟨2, enum⟩, ⟨3, uint64⟩], rfl⟩

def CIMGetLatestMsgIdRsp : MessageClass :=
  ⟨[⟨1, uint64⟩, ⟨2, enum⟩, ⟨3, uint64⟩, ⟨4, string rt⟩], rfl⟩

def CIMGetMsgByIdReq : MessageClass :=
  ⟨[⟨1, uint64⟩, ⟨2, enum⟩, ⟨3, uint64⟩, ⟨4, repeatedString rt⟩], rfl⟩

def CIMGetMsgByIdRsp : MessageClass :=
  ⟨[⟨1, uint64⟩, ⟨2, enum⟩, ⟨3, uint64⟩, ⟨4, .repeated (.message rt (CIMMsgInfo rt))⟩], rfl⟩

/-! ## `CIM.Voip.pb.cc` -/

def CIMVoipInviteReq : MessageClass :=
  ⟨[⟨1, uint64⟩, ⟨2, packedUint64 rt⟩, ⟨3, enum⟩, ⟨4, .message rt (CIMChannelInfo rt)⟩], rfl⟩

def CIMVoipInviteReply : MessageClass :=
  ⟨[⟨1, uint64⟩, ⟨2, enum⟩, ⟨3, .message rt (CIMChannelInfo rt)⟩], rfl⟩

def CIMVoipInviteReplyAck : MessageClass := ⟨[⟨1, .message rt (CIMChannelInfo rt)⟩], rfl⟩

def CIMVoipHeartbeat : MessageClass := ⟨[], rfl⟩

def CIMVoipByeReq : MessageClass :=
  ⟨[⟨1, uint64⟩, ⟨2, uint64⟩, ⟨3, .message rt (CIMChannelInfo rt)⟩, ⟨4, enum⟩], rfl⟩

def CIMVoipByeRsp : MessageClass := ⟨[⟨1, enum⟩], rfl⟩

def CIMVoipByeNotify : MessageClass :=
  ⟨[⟨1, uint64⟩, ⟨2, .message rt (CIMChannelInfo rt)⟩, ⟨3, enum⟩], rfl⟩

/-- The generated classes. -/
def generated : List MessageClass :=
  [CIMUserInfo rt, CIMContactSessionInfo rt, CIMMsgInfo rt, CIMChannelInfo rt,
    CIMFriendQueryUserListReq, CIMFriendQueryUserListRsp rt, CIMGroupCreateReq rt, CIMGroupInfo rt,
    CIMGroupCreateRsp rt, CIMGroupDisbandingReq, CIMGroupDisbandingRsp, CIMGroupExitReq,
    CIMGroupExitRsp, CIMGroupListReq, CIMGroupVersionInfo, CIMGroupListRsp rt, CIMGroupInfoReq rt,
    CIMGroupInfoRsp rt, CIMGroupInviteMemberReq rt, CIMGroupInviteMemberRsp,
    CIMGroupKickOutMemberReq rt, CIMGroupKickOutMemberRsp, CIMGroupMemberListReq,
    CIMGroupMemberListRsp rt, CIMGroupMemberChangedInfo, CIMGroupMemberChangedNotify rt,
    CIMRecentContactSessionReq, CIMRecentContactSessionRsp rt, CIMGetMsgListReq,
    CIMGetMsgListRsp rt, CIMAuthTokenReq rt, CIMAuthTokenRsp rt, CIMAuthReq rt, CIMAuthRsp rt,
    CIMLogoutReq, CIMLogoutRsp, CIMHeartBeat, CIMMsgData rt, CIMMsgDataAck rt, CIMMsgDataReadAck,
    CIMMsgDataReadNotify, CIMGetLatestMsgIdReq, CIMGetLatestMsgIdRsp rt, CIMGetMsgByIdReq rt,
    CIMGetMsgByIdRsp rt, CIMVoipInviteReq rt, CIMVoipInviteReply rt, CIMVoipInviteReplyAck rt,
    CIMVoipHeartbeat, CIMVoipByeReq rt, CIMVoipByeRsp, CIMVoipByeNotify rt]

end CoffeeChat.Pb
