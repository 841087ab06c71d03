import CoffeeChat.Core.Messages
import Mathlib.Data.Set.Function

/-!
# Message records

The conversion of a received `CIMMsgInfo` into the `MessageModel` of `cim_def.h`. It copies twelve
of the thirteen fields; the target session is filled from the result code (`recovered_model`). So a
set of records can be recovered from their models exactly when no two of them differ in the target
session alone (`recoverable_iff`).
-/

namespace CoffeeChat

/-- `CIM::Def::CIMResCode`. -/
abbrev CIMResCode := Int32

def kCIM_RES_CODE_UNKNOWN : CIMResCode := 0

/-- `CIM::Def::CIMMsgFeature`. -/
abbrev CIMMsgFeature := Int32

/-- `CIM::Def::CIMMsgStatus`. -/
abbrev CIMMsgStatus := Int32

/-- `CIM::Def::CIMMsgInfo`. -/
structure CIMMsgInfo where
  clientMsgId : Bytes := []
  serverMsgId : UInt64 := 0
  msgResCode : CIMResCode := 0
  msgFeature : CIMMsgFeature := 0
  sessionType : CIMSessionType := 0
  fromUserId : UInt64 := 0
  toSessionId : UInt64 := 0
  createTime : UInt32 := 0
  msgType : CIMMsgType := 0
  msgStatus : CIMMsgStatus := 0
  msgData : Bytes := []
  attach : Bytes := []
  senderClientType : CIMClientType := 0
  deriving DecidableEq, Repr

/-- `cim::MessageModel`; the values are those of its default constructor. -/
structure MessageModel where
  clientMsgId : Bytes := []
  serverMsgId : UInt64 := 0
  msgResCode : CIMResCode := kCIM_RES_CODE_UNKNOWN
  msgFeature : CIMMsgFeature := 0
  sessionType : CIMSessionType := 0
  fromUserId : UInt64 := 0
  toSessionId : UInt64 := 0
  createTime : UInt32 := 0
  msgType : CIMMsgType := 0
  msgStatus : CIMMsgStatus := 0
  msgData : Bytes := []
  attach : Bytes := []
  senderClientType : CIMClientType := 0
  deriving DecidableEq, Repr

/-- The conversion of an enumerator to `uint64_t`. -/
def CIMResCode.toUInt64 (code : CIMResCode) : UInt64 := UInt64.ofInt code.toInt

/-- `MessageModel::MessageModel(const CIM::Def::CIMMsgInfo& info)`. -/
def MessageModel.ofCIMMsgInfo (info : CIMMsgInfo) : MessageModel where
  clientMsgId := info.clientMsgId
  serverMsgId := info.serverMsgId
  msgResCode := info.msgResCode
  msgFeature := info.msgFeature
  sessionType := info.sessionType
  fromUserId := info.fromUserId
  -- the getter is the one of the result code
  toSessionId := CIMResCode.toUInt64 info.msgResCode
  createTime := info.createTime
  msgType := info.msgType
  msgStatus := info.msgStatus
  attach := info.attach
  senderClientType := info.senderClientType
  msgData := info.msgData

namespace MessageModel

/-! ## Recovering a record -/

/-- The record with the fields of the model. -/
def recovered (model : MessageModel) : CIMMsgInfo where
  clientMsgId := model.clientMsgId
  serverMsgId := model.serverMsgId
  msgResCode := model.msgResCode
  msgFeature := model.msgFeature
  sessionType := model.sessionType
  fromUserId := model.fromUserId
  toSessionId := model.toSessionId
  createTime := model.createTime
  msgType := model.msgType
  msgStatus := model.msgStatus
  msgData := model.msgData
  attach := model.attach
  senderClientType := model.senderClientType

/-- Twelve fields come back; the target session is the result code. -/
theorem recovered_model (info : CIMMsgInfo) :
    (ofCIMMsgInfo info).recovered =
      { info with toSessionId := CIMResCode.toUInt64 info.msgResCode } := rfl

/-- A record comes back exactly when its target session is its result code. -/
theorem recovered_eq_iff (info : CIMMsgInfo) :
    (ofCIMMsgInfo info).recovered = info ↔
      info.toSessionId = CIMResCode.toUInt64 info.msgResCode := by
  rw [recovered_model]
  constructor
  · intro h
    exact (congrArg CIMMsgInfo.toSessionId h).symm
  · intro h
    rw [← h]

/-- The target session does not reach the model. -/
theorem ofCIMMsgInfo_toSessionId (info : CIMMsgInfo) (session : UInt64) :
    ofCIMMsgInfo { info with toSessionId := session } = ofCIMMsgInfo info := rfl

/-- Two records have one model exactly when they differ in nothing but the target session. -/
theorem ofCIMMsgInfo_eq_iff (a b : CIMMsgInfo) :
    ofCIMMsgInfo a = ofCIMMsgInfo b ↔ { a with toSessionId := b.toSessionId } = b := by
  constructor
  · intro h
    have hback : ({ a with toSessionId := CIMResCode.toUInt64 a.msgResCode } : CIMMsgInfo) =
        { b with toSessionId := CIMResCode.toUInt64 b.msgResCode } :=
      congrArg recovered h
    calc ({ a with toSessionId := b.toSessionId } : CIMMsgInfo)
        = { ({ a with toSessionId := CIMResCode.toUInt64 a.msgResCode } : CIMMsgInfo) with
            toSessionId := b.toSessionId } := rfl
      _ = { ({ b with toSessionId := CIMResCode.toUInt64 b.msgResCode } : CIMMsgInfo) with
            toSessionId := b.toSessionId } := by rw [hback]
      _ = b := rfl
  · intro h
    rw [← ofCIMMsgInfo_toSessionId a b.toSessionId, h]

/-- For every set of records: a map recovers them all from their models exactly when no two of them
differ in the target session alone. -/
theorem recoverable_iff (records : Set CIMMsgInfo) :
    (∃ back : MessageModel → CIMMsgInfo, ∀ info ∈ records, back (ofCIMMsgInfo info) = info) ↔
      ∀ a ∈ records, ∀ b ∈ records, { a with toSessionId := b.toSessionId } = b → a = b := by
  constructor
  · intro hrecover a ha b hb hdiffer
    obtain ⟨back, hback⟩ := hrecover
    have hmodel : ofCIMMsgInfo a = ofCIMMsgInfo b := (ofCIMMsgInfo_eq_iff a b).mpr hdiffer
    rw [← hback a ha, hmodel, hback b hb]
  · intro hdiffer
    have hinj : Set.InjOn ofCIMMsgInfo records := by
      intro a ha b hb hmodel
      exact hdiffer a ha b hb ((ofCIMMsgInfo_eq_iff a b).mp hmodel)
    have : Nonempty CIMMsgInfo := ⟨{}⟩
    exact ⟨Function.invFunOn ofCIMMsgInfo records, hinj.leftInvOn_invFunOn⟩

/-- A message to session 0 and one to session 1, alike otherwise. -/
theorem not_recoverable :
    ¬ ∃ back : MessageModel → CIMMsgInfo, ∀ info, back (ofCIMMsgInfo info) = info := by
  intro hrecover
  obtain ⟨back, hback⟩ := hrecover
  have hmodel : ofCIMMsgInfo { toSessionId := 0 } = ofCIMMsgInfo { toSessionId := 1 } := rfl
  have hrecords : ({ toSessionId := 0 } : CIMMsgInfo) = { toSessionId := 1 } := by
    rw [← hback { toSessionId := 0 }, hmodel, hback]
  exact absurd hrecords (by decide)

end MessageModel

end CoffeeChat
