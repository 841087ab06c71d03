import CoffeeChat.Core.Frame

/-!
# Sending a packet

`Client.send` allocates a buffer for the frame, appends the header field by field and lets
protobuf write the body behind it. `send_eq` is its whole behaviour on a client that holds a
connection: every write stays inside the allocation, the frame is the encoded header followed by
the body, and it is handed to the connection exactly when that is up.
-/

namespace CoffeeChat.Client

open Lib Lib.Endian Lib.WireFormat Buffer

/-- The header `Client::send` makes for a message. -/
def outHeader (c : Client) (cmdId : CIMCmdID) (msg : MessageLite) : IMHeader where
  len := UInt32.ofNat (sizeofIMHeader + msg.byteSizeLong)
  version := kProtocolVersion
  flag := 0
  serviceId := 0
  cmd := cmdId.toUInt32.toUInt16
  seq := c.seq + 1
  reserved := 0

/-- The bytes `Client::send` makes of a message. -/
def frame (c : Client) (cmdId : CIMCmdID) (msg : MessageLite) : Bytes :=
  (c.outHeader cmdId msg).encode ++ msg.serialized

/-- The result of `Client::send` over the connection `tcp`, and the client behind it. -/
def afterSend (env : Env) (c : Client) (tcp : TcpClient) (frame : Bytes) : Int32 × Client :=
  if tcp.connectStatus = .kConnectOk then
    let result := env.kernelSend tcp.sent frame
    (result, { c with
      seq := c.seq + 1
      lastSendTime := env.now
      tcpClient := some { tcp with sent := tcp.sent ++ [(frame, result)] } })
  else (kError, { c with seq := c.seq + 1 })

@[simp] theorem afterSend_recvBuffer (env : Env) (c : Client) (tcp : TcpClient) (frame : Bytes) :
    (afterSend env c tcp frame).2.recvBuffer = c.recvBuffer := by
  unfold afterSend
  split <;> rfl

@[simp] theorem afterSend_loginCb (env : Env) (c : Client) (tcp : TcpClient) (frame : Bytes) :
    (afterSend env c tcp frame).2.loginCb = c.loginCb := by
  unfold afterSend
  split <;> rfl

/-- On a client that holds a connection `send` returns, whatever the message. -/
theorem send_eq (env : Env) (c : Client) (cmdId : CIMCmdID) (msg : MessageLite) {tcp : TcpClient}
    (htcp : c.tcpClient = some tcp) (hsize : sizeofIMHeader + msg.byteSizeLong < 2 ^ 32) :
    c.send env cmdId msg = .ok (afterSend env c tcp (c.frame cmdId msg)) := by
  suffices h : Returns (c.send env cmdId msg) fun r =>
      r = afterSend env c tcp (c.frame cmdId msg) by
    obtain ⟨r, hr, rfl⟩ := h
    exact hr
  simp only [sizeofIMHeader] at hsize
  have hlen : (c.outHeader cmdId msg).len.toNat = 16 + msg.byteSizeLong := by
    rw [outHeader, sizeofIMHeader, UInt32.toNat_ofNat']
    omega
  -- the buffer is made for the header and the body, and each field takes its share
  have hnew : kCheapPrependSize + (c.outHeader cmdId msg).len.toNat < 2 ^ 63 := by
    rw [kCheapPrependSize, hlen]
    omega
  refine (new_filled hnew).bind fun b0 h0 ↦ ?_
  rw [hlen] at h0
  refine (appendInt32_filled h0 _ (by omega)).bind fun b1 h1 ↦ ?_
  refine (appendInt16_filled h1 _ (by omega)).bind fun b2 h2 ↦ ?_
  refine (appendInt16_filled h2 _ (by omega)).bind fun b3 h3 ↦ ?_
  refine (appendInt16_filled h3 _ (by omega)).bind fun b4 h4 ↦ ?_
  refine (appendInt16_filled h4 _ (by omega)).bind fun b5 h5 ↦ ?_
  refine (appendInt16_filled h5 _ (by omega)).bind fun b6 h6 ↦ ?_
  refine (appendInt16_filled h6 _ (by omega)).bind fun b7 h7 ↦ ?_
  have hroom : msg.serialized.length ≤ b7.capacity - b7.writeIndex := by
    have := h7.room_le
    simp only [MessageLite.byteSizeLong] at this
    omega
  have hframe : (b7.appended msg.serialized).contents = c.frame cmdId msg := by
    rw [(appended_leaves h7.wf hroom).2.1, h7.contents_eq]
    rfl
  rw [storeAtWriteBegin_eq h7.wf hroom]
  simp only [bind, Except.bind, MessageLite.byteSizeLong, writeBytes_appended h7.wf hroom, hframe]
  refine ⟨_, ?_, rfl⟩
  by_cases hup : tcp.connectStatus = .kConnectOk
  · simp [connStatus, hup, sendData, htcp, TcpClient.send, check, afterSend]
  · simp [connStatus, htcp, hup, afterSend, pure, Except.pure]

/-- A varint field takes at most twenty bytes. -/
theorem length_optVarint_le (number n : Nat) :
    ((optVarint number n).flatMap writeField).length ≤ 20 := by
  unfold optVarint
  split
  case isTrue => simp
  case isFalse =>
    have htag := length_writeVarint_le (8 * number + 0)
    have hval := length_writeVarint_le n
    simp only [List.flatMap_cons, List.flatMap_nil, List.append_nil, writeField, Value.wireType,
      Value.write, List.length_append]
    omega

/-- A logout request is short. -/
theorem length_logoutReq_le (msg : CIMLogoutReq) : msg.toLite.byteSizeLong ≤ 40 := by
  have huser := length_optVarint_le 1 msg.userId.toNat
  have htype := length_optVarint_le 2 (int32ToVarint msg.clientType)
  simp only [MessageLite.byteSizeLong, CIMLogoutReq.toLite, List.flatMap_append,
    List.length_append]
  omega

/-- What `logout` leaves as it was. -/
structure LoggedOut (c c' : Client) : Prop where
  recvBuffer : c'.recvBuffer = c.recvBuffer
  loginCb : c'.loginCb = c.loginCb
  holdsConn : c'.HoldsConn

/-- Letting the connection go keeps the receive buffer and the callback. -/
theorem LoggedOut.of_closed {c c' : Client} (hbuffer : c'.recvBuffer = c.recvBuffer)
    (hcb : c'.loginCb = c.loginCb) :
    LoggedOut c { c' with loginStatus := .kDefault, tcpClient := none } where
  recvBuffer := hbuffer
  loginCb := hcb
  holdsConn := by simp [HoldsConn]

/-- `logout` returns on every client that holds a connection while it is logged in. -/
theorem logout_spec (env : Env) {c : Client} (h : c.HoldsConn) :
    Returns (c.logout env) (LoggedOut c) := by
  by_cases hin : c.loginStatus = .kLoginOk
  · -- logged in: a logout request goes out first
    obtain ⟨tcp, htcp⟩ := Option.isSome_iff_exists.mp (h hin)
    have hsize (req : CIMLogoutReq) : sizeofIMHeader + req.toLite.byteSizeLong < 2 ^ 32 := by
      have hsmall := length_logoutReq_le req
      rw [sizeofIMHeader]
      omega
    obtain ⟨r, hsend, hbuffer, hcb⟩ : ∃ r,
        send env { c with loginStatus := .kDefault } kCIM_CID_LOGIN_AUTH_LOGOUT_REQ
          (CIMLogoutReq.toLite
            { userId := c.userId, clientType := kCIM_CLIENT_TYPE_PC_WINDOWS }) = .ok r ∧
        r.2.recvBuffer = c.recvBuffer ∧ r.2.loginCb = c.loginCb :=
      ⟨_, send_eq env _ _ _ htcp (hsize _), afterSend_recvBuffer .., afterSend_loginCb ..⟩
    refine ⟨_, ?_, LoggedOut.of_closed hbuffer hcb⟩
    simp only [logout, hin, if_true, bind, Except.bind, pure, Except.pure, hsend]
  · refine ⟨_, ?_, LoggedOut.of_closed rfl rfl⟩
    simp only [logout, hin, if_false, bind, Except.bind, pure, Except.pure]

end CoffeeChat.Client
