import CoffeeChat.Core.Walk
import CoffeeChat.Core.MessagesLemmas
import Mathlib.Data.List.TakeWhile

/-!
# From one client to another

The frame that `Client::send` hands to its connection, delivered as one chunk to an idle client,
is dispatched with the header and the body it was made from (`sent_received`). For a chat message
that makes the receive callback see what the sender passed to `sendMessage`, up to the first NUL
of the payload (`delivered_iff`).
-/

namespace CoffeeChat

open Lib

/-! ## Frames -/

/-- The length field of a frame that the receiver accepts does not wrap around. -/
theorem Client.outHeader_len (c : Client) (cmdId : CIMCmdID) {msg : MessageLite}
    (hlen : sizeofIMHeader + msg.byteSizeLong < kMaxBufferLen.toNat) :
    (c.outHeader cmdId msg).len.toNat = sizeofIMHeader + msg.byteSizeLong := by
  have hmax : kMaxBufferLen.toNat < 2 ^ 32 := kMaxBufferLen.toNat_lt
  rw [Client.outHeader, UInt32.toNat_ofNat', Nat.mod_eq_of_lt (hlen.trans hmax)]

/-- The packet `Client::send` makes of a message. -/
def Client.outPacket (c : Client) (cmdId : CIMCmdID) (msg : MessageLite)
    (hne : msg.serialized ≠ []) (hlen : sizeofIMHeader + msg.byteSizeLong < kMaxBufferLen.toNat) :
    Packet where
  header := c.outHeader cmdId msg
  body := msg.serialized
  len_eq := c.outHeader_len cmdId hlen
  body_ne_nil := hne
  len_lt := UInt32.lt_iff_toNat_lt.mpr ((c.outHeader_len cmdId hlen).trans_lt hlen)

/-- What a client that is connected hands to its connection. -/
theorem send_connected (env : Env) {c : Client} {tcp : TcpClient} (htcp : c.tcpClient = some tcp)
    (hup : tcp.connectStatus = .kConnectOk) (cmdId : CIMCmdID) {msg : MessageLite}
    (hlen : sizeofIMHeader + msg.byteSizeLong < kMaxBufferLen.toNat) :
    ∃ r c', c.send env cmdId msg = .ok (r, c') ∧
      c'.tcpClient = some { tcp with sent := tcp.sent ++ [(c.frame cmdId msg, r)] } := by
  have hsend := Client.send_eq env c cmdId msg htcp (Nat.lt_trans hlen kMaxBufferLen.toNat_lt)
  rw [Client.afterSend, if_pos hup] at hsend
  exact ⟨_, _, hsend, rfl⟩

/-- The frame of a message is dispatched with its header and its body. -/
theorem sent_received (env : Env) {c : Client} {tcp : TcpClient} (htcp : c.tcpClient = some tcp)
    (hup : tcp.connectStatus = .kConnectOk) (cmd : UInt16) (msg : MessageLite)
    (hne : msg.serialized ≠ [])
    (hlen : sizeofIMHeader + msg.serialized.length < kMaxBufferLen.toNat) :
    ∃ r c' frame, c.send env cmd.toUInt32.toInt32 msg = .ok (r, c') ∧
      c'.tcpClient = some { tcp with sent := tcp.sent ++ [(frame, r)] } ∧
      frame.length = sizeofIMHeader + msg.serialized.length ∧
      ∀ env' kit, Idle kit → ∀ chunk : Chunk, chunk.bytes = frame →
        ∃ d, (Client.onMessage env' kit chunk).dispatches.head? = some d ∧
          d.header = {
            len := UInt32.ofNat (sizeofIMHeader + msg.serialized.length)
            version := kProtocolVersion
            flag := 0, serviceId := 0, cmd := cmd, seq := c.seq + 1, reserved := 0 } ∧
          d.body = msg.serialized := by
  obtain ⟨r, c', hsend, hsent⟩ := send_connected env htcp hup cmd.toUInt32.toInt32 hlen
  let p := c.outPacket cmd.toUInt32.toInt32 msg hne hlen
  refine ⟨r, c', p.bytes, hsend, hsent, p.length_bytes, ?_⟩
  intro env' kit hidle chunk hchunk
  refine ⟨_, first_dispatch env' hidle (hchunk.trans (List.append_nil _).symm), ?_, ?_⟩
  · show c.outHeader cmd.toUInt32.toInt32 msg = _
    simp [Client.outHeader, MessageLite.byteSizeLong]
  · exact List.append_nil _

/-- A client that is connected. -/
def connectedClient : Client :=
  { (ChatKit.fresh none none).client with tcpClient := some ⟨.kConnectOk, []⟩ }

theorem sent_received_chatMessage :
    ∃ r c' frame, connectedClient.send (Env.generated false)
        (UInt16.toUInt32 0xffff).toInt32 ⟨[0x38, 0x01]⟩ = .ok (r, c') ∧
      c'.tcpClient = some ⟨.kConnectOk, [(frame, r)]⟩ ∧ frame.length = 18 := by
  obtain ⟨r, c', frame, hsend, hsent, hlen, -⟩ :=
    sent_received (Env.generated false) (c := connectedClient) rfl rfl 0xffff ⟨[0x38, 0x01]⟩
      (by decide) (by decide)
  exact ⟨r, c', frame, hsend, hsent, hlen⟩

/-! ## Chat messages -/

/-- The message `ChatManager::sendMessage` makes of its arguments. -/
def ChatKit.outData (kit : ChatKit) (toId : UInt64) (msg : Int32) (msgData : Bytes) :
    CIMMsgData where
  fromUserId := kit.client.userId
  fromNickName := [0x75, 0x6e, 0x6b, 0x6e, 0x6f, 0x77]
  msgType := msg
  toSessionId := toId
  msgData := cStr msgData

theorem outData_wellFormed (kit : ChatKit) (toId : UInt64) (msg : Int32) (msgData : Bytes) :
    (kit.outData toId msg msgData).WellFormed :=
  ⟨by rfl, by rfl, rfl⟩

/-- The messages depend on the sender's state only in the user id. -/
theorem outData_eq_of_userId {kit kit1 : ChatKit} (h : kit1.client.userId = kit.client.userId)
    (toId : UInt64) (msg : Int32) (msgData : Bytes) :
    kit1.outData toId msg msgData = kit.outData toId msg msgData := by
  rw [ChatKit.outData, ChatKit.outData, h]

/-- `c_str` keeps a payload exactly when it contains no NUL. -/
theorem cStr_eq_self {s : Bytes} : cStr s = s ↔ 0 ∉ s := by
  rw [cStr, List.takeWhile_eq_self_iff]
  simp only [decide_eq_true_eq]
  exact ⟨fun h hmem ↦ h 0 hmem rfl, fun h x hx heq ↦ h (heq ▸ hx)⟩

section Message

variable {env env' : Env} {kit kit' : ChatKit} {tcp : TcpClient} {id : CallbackId}

/-- `kit` sends, and the frame delivered to `kit'` makes `id` see what was sent. -/
def Delivered (env env' : Env) (kit kit' : ChatKit) (tcp : TcpClient) (id : CallbackId)
    (toId : UInt64) (msg : Int32) (msgData : Bytes) : Prop :=
  ∃ sent frame r, ChatManager.sendMessage env kit toId msg msgData = .ok sent ∧
    sent.client.tcpClient = some { tcp with sent := tcp.sent ++ [(frame, r)] } ∧
    ∃ chunk : Chunk, chunk.bytes = frame ∧
      ∃ data, (Client.onMessage env' kit' chunk).calls.head? = some (.recvCb id data) ∧
        data.toSessionId = toId ∧ data.msgType = msg ∧ data.msgData = msgData

/-- Protobuf reads back the message that was sent. -/
theorem outData_parsed (hround : env.msgData.RoundTrips CIMMsgData.WellFormed) {toId : UInt64}
    {msg : Int32} {msgData : Bytes}
    (hlen : sizeofIMHeader + (env.msgData.toLite (kit.outData toId msg msgData)).byteSizeLong <
      kMaxBufferLen.toNat) :
    env.msgData.parseFromArray (env.msgData.serializeToArray (kit.outData toId msg msgData)) =
      some (kit.outData toId msg msgData) := by
  have hmax : kMaxBufferLen.toNat < 2 ^ 31 := by decide
  have hsize : (env.msgData.toLite (kit.outData toId msg msgData)).byteSizeLong < 2 ^ 31 := by
    omega
  exact hround _ (outData_wellFormed kit toId msg msgData) hsize

/-- A message with a nick name is not the empty one. -/
theorem outData_ne_nil (hempty : env.msgData.ParsesEmpty {}) {toId : UInt64} {msg : Int32}
    {msgData : Bytes}
    (hparse : env.msgData.parseFromArray
      (env.msgData.serializeToArray (kit.outData toId msg msgData)) =
        some (kit.outData toId msg msgData)) :
    (env.msgData.toLite (kit.outData toId msg msgData)).serialized ≠ [] := by
  intro hnil
  rw [show env.msgData.serializeToArray (kit.outData toId msg msgData) = [] from hnil,
    hempty] at hparse
  have hname := congrArg CIMMsgData.fromNickName (Option.some.inj hparse)
  cases hname

/-- The receive callback is first called with the message the sender made of its arguments. -/
theorem message_first_call (hround : env.msgData.RoundTrips CIMMsgData.WellFormed)
    (hempty : env.msgData.ParsesEmpty {}) (hcodec : env'.msgData = env.msgData)
    (htcp : kit.client.tcpClient = some tcp) (hup : tcp.connectStatus = .kConnectOk)
    (hidle : Idle kit') (hcb : kit'.chatManager.recvCb = some id) {toId : UInt64} {msg : Int32}
    {msgData : Bytes}
    (hlen : sizeofIMHeader + (env.msgData.toLite (kit.outData toId msg msgData)).byteSizeLong <
      kMaxBufferLen.toNat) :
    ∃ sent frame r, ChatManager.sendMessage env kit toId msg msgData = .ok sent ∧
      sent.client.tcpClient = some { tcp with sent := tcp.sent ++ [(frame, r)] } ∧
      ∃ chunk : Chunk, chunk.bytes = frame ∧
        (Client.onMessage env' kit' chunk).calls.head? =
          some (.recvCb id (kit.outData toId msg msgData)) := by
  have hmax : kMaxBufferLen.toNat < 2 ^ 31 := by decide
  have hparse := outData_parsed hround hlen
  have hne := outData_ne_nil hempty hparse
  obtain ⟨r, c', hsend, hsent⟩ := send_connected env htcp hup kCIM_CID_MSG_DATA hlen
  let p := kit.client.outPacket kCIM_CID_MSG_DATA _ hne hlen
  have hmake : ChatManager.sendMessage env kit toId msg msgData =
      (kit.client.send env kCIM_CID_MSG_DATA
        (env.msgData.toLite (kit.outData toId msg msgData))).bind
          fun r ↦ .ok { kit with client := r.2 } := rfl
  have hsmall : p.bytes.length < 2 ^ 31 := by
    rw [p.length_bytes]
    exact Nat.lt_trans hlen hmax
  have hfirst := first_dispatch env' hidle
    (show (⟨p.bytes, hsmall⟩ : Chunk).bytes = p.bytes ++ [] from (List.append_nil _).symm)
  have hcall : callOf env' kit' p.header (p.body ++ []) =
      some (.recvCb id (kit.outData toId msg msgData)) := by
    rw [callOf_msgData rfl, hcb, hcodec, List.append_nil]
    exact congrArg (Option.map (Call.recvCb id)) hparse
  refine ⟨{ kit with client := c' }, p.bytes, r, by rw [hmake, hsend]; rfl, hsent,
    ⟨p.bytes, hsmall⟩, rfl, ?_⟩
  obtain ⟨rest, hrest⟩ := List.head?_eq_some_iff.mp hfirst
  rw [Received.calls, hrest, hcall]
  rfl

/-- The receiver sees the payload that `c_str` leaves of it. -/
theorem delivered_iff_cStr (hround : env.msgData.RoundTrips CIMMsgData.WellFormed)
    (hempty : env.msgData.ParsesEmpty {}) (hcodec : env'.msgData = env.msgData)
    (htcp : kit.client.tcpClient = some tcp) (hup : tcp.connectStatus = .kConnectOk)
    (hidle : Idle kit') (hcb : kit'.chatManager.recvCb = some id) {toId : UInt64} {msg : Int32}
    {msgData : Bytes}
    (hlen : sizeofIMHeader + (env.msgData.toLite (kit.outData toId msg msgData)).byteSizeLong <
      kMaxBufferLen.toNat) :
    Delivered env env' kit kit' tcp id toId msg msgData ↔ cStr msgData = msgData := by
  obtain ⟨sent, frame, r, hsend, hsent, chunk, hchunk, hcall⟩ :=
    message_first_call hround hempty hcodec htcp hup hidle hcb hlen
  constructor
  · rintro ⟨sent', frame', r', hsend', hsent', chunk', hchunk', data, hcall', -, -, hdata⟩
    cases hsend.symm.trans hsend'
    have hsame : frame = frame' ∧ r = r' := by
      simpa [hsent] using hsent'
    have hchunks : chunk = chunk' := by
      obtain ⟨bytes, _⟩ := chunk
      obtain ⟨bytes', _⟩ := chunk'
      have hbytes : bytes = bytes' := hchunk.trans (hsame.1.trans hchunk'.symm)
      subst hbytes
      rfl
    rw [← hchunks, hcall] at hcall'
    cases hcall'
    exact hdata
  · intro hkept
    exact ⟨sent, frame, r, hsend, hsent, chunk, hchunk, _, hcall, rfl, rfl, hkept⟩

/-- Of what the sender passes, the receiver sees everything exactly when the payload contains
no NUL. -/
theorem delivered_iff (hround : env.msgData.RoundTrips CIMMsgData.WellFormed)
    (hempty : env.msgData.ParsesEmpty {}) (hcodec : env'.msgData = env.msgData)
    (htcp : kit.client.tcpClient = some tcp) (hup : tcp.connectStatus = .kConnectOk)
    (hidle : Idle kit') (hcb : kit'.chatManager.recvCb = some id) {toId : UInt64} {msg : Int32}
    {msgData : Bytes}
    (hlen : sizeofIMHeader + (env.msgData.toLite (kit.outData toId msg msgData)).byteSizeLong <
      kMaxBufferLen.toNat) :
    Delivered env env' kit kit' tcp id toId msg msgData ↔ 0 ∉ msgData := by
  rw [← cStr_eq_self]
  exact delivered_iff_cStr hround hempty hcodec htcp hup hidle hcb hlen

end Message

/-- A kit that is connected. -/
def connectedKit : ChatKit := { ChatKit.fresh none none with client := connectedClient }

/-- What the results assume of protobuf holds of the generated classes. -/
theorem generated_roundTrips (ndebug : Bool) :
    (Env.generated ndebug).msgData.RoundTrips CIMMsgData.WellFormed := CIMMsgData.roundTrips

theorem generated_parsesEmpty (ndebug : Bool) : (Env.generated ndebug).msgData.ParsesEmpty {} :=
  CIMMsgData.parsesEmpty

theorem delivered_text :
    Delivered (Env.generated false) (Env.generated false) connectedKit
      (ChatKit.fresh none (some 0)) ⟨.kConnectOk, []⟩ 0 7 1 [0x68, 0x69] :=
  (delivered_iff (generated_roundTrips false) (generated_parsesEmpty false) rfl rfl rfl
    (fresh_idle none (some 0)) rfl (by decide +kernel)).mpr (by decide)

/-- A payload is cut at its first NUL on the way. -/
theorem not_delivered_nul :
    ¬ Delivered (Env.generated false) (Env.generated false) connectedKit
      (ChatKit.fresh none (some 0)) ⟨.kConnectOk, []⟩ 0 7 1 [0x61, 0x00, 0x62] := by
  have hiff := delivered_iff_cStr (generated_roundTrips false) (generated_parsesEmpty false)
    (rfl : (Env.generated false).msgData = _) (rfl : connectedKit.client.tcpClient = _) rfl
    (fresh_idle none (some 0)) rfl
    (by decide +kernel : sizeofIMHeader + ((Env.generated false).msgData.toLite
      (connectedKit.outData 7 1 [0x61, 0x00, 0x62])).byteSizeLong < kMaxBufferLen.toNat)
  rw [hiff]
  decide

end CoffeeChat
