import CoffeeChat.Core.Messages
import CoffeeChat.Lib.Loop

/-!
# The client core

`cim::core::Client` and `cim::core::ChatManager`: sending a packet, and receiving a chunk of
bytes from the connection. Both classes are singletons that call one another, so their state is
one record, `ChatKit`.

What lies outside the code while one event is handled is an `Env`: the clock, the kernel behind
`::send`, the two protobuf parsers, and the application, whose callbacks may call back into the
public interface. `onMessage` returns, with the new state, one `Pass` for every turn of its
receive loop, which tells what the turn read, what it passed to `onHandleData` and which
callbacks ran.
-/

namespace CoffeeChat

open Lib

/-! ## State -/

/-- `cim::core::LoginStatus`. -/
inductive LoginStatus where
  | kDefault
  | kLogining
  | kLoginOk
  deriving DecidableEq, Repr

/-- `cim::base::ConnectionStatus`. -/
inductive ConnectionStatus where
  | kDefault
  | kConnecting
  | kDisConnected
  | kConnectOk
  deriving DecidableEq, Repr

/-- The identity of a callback the application has registered. -/
abbrev CallbackId := Nat

/-- `cim::base::TcpClient` as its owner uses it. `sent` lists the buffers handed to `::send`,
each with the result. -/
structure TcpClient where
  connectStatus : ConnectionStatus
  sent : List (Bytes × Int32)
  deriving DecidableEq, Repr

/-- The members of `Client`. -/
structure Client where
  tcpClient : Option TcpClient
  recvBuffer : Buffer
  loginStatus : LoginStatus
  lastSendTime : UInt64
  loginCb : Option CallbackId
  userId : UInt64
  seq : UInt16
  deriving DecidableEq, Repr

/-- The members of `ChatManager`. -/
structure ChatManager where
  recvCb : Option CallbackId
  deriving DecidableEq, Repr

/-- The two singletons. -/
structure ChatKit where
  client : Client
  chatManager : ChatManager
  deriving DecidableEq, Repr

/-- A logged-in client holds a connection. -/
def Client.HoldsConn (c : Client) : Prop :=
  c.loginStatus = .kLoginOk → c.tcpClient.isSome

/-- The constructors `Client::Client()` and `ChatManager::ChatManager()`. -/
def ChatKit.init : Result ChatKit := do
  let recvBuffer ← Buffer.new kInitialSize kCheapPrependSize
  return {
    client := {
      tcpClient := none, recvBuffer, loginStatus := .kDefault, lastSendTime := 0,
      loginCb := none, userId := 0, seq := 0 }
    chatManager := { recvCb := none } }

/-- A callback invoked, with its argument. -/
inductive Call where
  | loginCb (id : CallbackId) (rsp : CIMAuthRsp)
  | recvCb (id : CallbackId) (data : CIMMsgData)
  deriving DecidableEq, Repr

/-- The application. A callback may use the public interface, which gives no access to the
receive buffer and never leaves a logged-in client without a connection. -/
structure Application where
  react : Call → ChatKit → ChatKit
  react_recvBuffer : ∀ call kit, (react call kit).client.recvBuffer = kit.client.recvBuffer
  react_holdsConn : ∀ call kit, kit.client.HoldsConn → (react call kit).client.HoldsConn

/-- What lies outside the code while one event is handled. `ndebug` tells whether the assertion
on `reset_len` is compiled out, and says nothing of the other assertions, which are compiled in;
`kernelSend` is the result of `::send`, given what was handed to it before on the same
connection. -/
structure Env where
  ndebug : Bool
  now : UInt64
  kernelSend : List (Bytes × Int32) → Bytes → Int32
  authRsp : Codec CIMAuthRsp
  msgData : Codec CIMMsgData
  app : Application

/-! ## Sending -/

/-- `TcpClient::send(buff, len)`. -/
def TcpClient.send (env : Env) (tcp : TcpClient) (buff : Bytes) : Result (Int32 × TcpClient) := do
  check (tcp.connectStatus = .kConnectOk)
  let result := env.kernelSend tcp.sent buff
  return (result, { tcp with sent := tcp.sent ++ [(buff, result)] })

namespace Client

/-- `Client::connStatus()`. -/
def connStatus (c : Client) : Result ConnectionStatus :=
  match c.tcpClient with
  | some tcp => .ok tcp.connectStatus
  | none => .error .nullPointer

/-- `Client::send(data, len)`. -/
def sendData (env : Env) (c : Client) (data : Bytes) : Result (Int32 × Client) := do
  let c := { c with lastSendTime := env.now }
  match c.tcpClient with
  | some tcp =>
    let (result, tcp) ← tcp.send env data
    return (result, { c with tcpClient := some tcp })
  | none => .error .nullPointer

/-- `Client::getSeq()`. -/
def getSeq (c : Client) : UInt16 × Client :=
  let c := { c with seq := c.seq + 1 }
  (c.seq, c)

/-- `Client::send(cmd_id, msg)`. -/
def send (env : Env) (c : Client) (cmdId : CIMCmdID) (msg : MessageLite) :
    Result (Int32 × Client) := do
  let (seq, c) := c.getSeq
  let header : IMHeader := {
    cmd := cmdId.toUInt32.toUInt16
    seq := seq
    len := UInt32.ofNat (sizeofIMHeader + msg.byteSizeLong)
    version := kProtocolVersion
    flag := 0, serviceId := 0, reserved := 0 }
  let buffer ← Buffer.new header.len.toNat kCheapPrependSize
  let buffer ← buffer.appendInt32 header.len.toInt32
  let buffer ← buffer.appendInt16 kProtocolVersion.toInt16
  let buffer ← buffer.appendInt16 0
  let buffer ← buffer.appendInt16 0
  let buffer ← buffer.appendInt16 header.cmd.toInt16
  let buffer ← buffer.appendInt16 header.seq.toInt16
  let buffer ← buffer.appendInt16 0
  -- `SerializeToArray` writes straight to `WriteBegin()`
  let buffer ← buffer.storeAtWriteBegin msg.serialized
  let buffer ← buffer.writeBytes msg.byteSizeLong
  let status ← c.connStatus
  if status = .kConnectOk then c.sendData env buffer.contents
  else return (kError, c)

/-- `Client::logout()`. The connection is closed and let go. -/
def logout (env : Env) (c : Client) : Result Client := do
  let c ← if c.loginStatus = .kLoginOk then do
      let c := { c with loginStatus := .kDefault }
      let req : CIMLogoutReq :=
        { userId := c.userId, clientType := kCIM_CLIENT_TYPE_PC_WINDOWS }
      let (_, c) ← c.send env kCIM_CID_LOGIN_AUTH_LOGOUT_REQ req.toLite
      pure c
    else pure c
  return { c with loginStatus := .kDefault, tcpClient := none }

end Client

/-! ## Handling one packet -/

/-- `PARSE_PB_AND_CHECK(rsp, buffer)`: the message and the buffer behind it, or nothing when the
macro returns from the handler. The parser is given all that is unread. -/
def parsePbAndCheck {α : Type} (codec : Codec α) (buffer : Buffer) :
    Result (Option (α × Buffer)) := do
  let _ ← buffer.length
  match codec.parseFromArray buffer.contents with
  | none => return none
  | some rsp =>
    let buffer ← buffer.skip (codec.byteSizeLong rsp)
    return some (rsp, buffer)

namespace ChatKit

/-- The state with another receive buffer. -/
def withBuffer (kit : ChatKit) (buffer : Buffer) : ChatKit :=
  { kit with client := { kit.client with recvBuffer := buffer } }

/-- Run a callback, when there is one to run. -/
def invoke (env : Env) (kit : ChatKit) (call : Option Call) : List Call × ChatKit :=
  match call with
  | some call => ([call], env.app.react call kit)
  | none => ([], kit)

end ChatKit

/-- `Client::onHandleAuthRsp(header, buffer)`. -/
def Client.onHandleAuthRsp (env : Env) (kit : ChatKit) : Result (List Call × ChatKit) := do
  match ← parsePbAndCheck env.authRsp kit.client.recvBuffer with
  | none => return ([], kit)
  | some (rsp, buffer) =>
    let kit := kit.withBuffer buffer
    let kit ← if rsp.resultCode ≠ kCIM_ERR_SUCCESS then do
        let client ← kit.client.logout env
        pure { kit with client }
      else pure kit
    return kit.invoke env (kit.client.loginCb.map fun id ↦ .loginCb id rsp)

/-- `ChatManager::onHandleData(header, buffer)`. -/
def ChatManager.onHandleData (env : Env) (header : IMHeader) (kit : ChatKit) :
    Result (List Call × ChatKit) := do
  if header.cmdId = kCIM_CID_MSG_DATA then
    match kit.chatManager.recvCb with
    | some id =>
      let _ ← kit.client.recvBuffer.length
      let data := env.msgData.parseFromArray kit.client.recvBuffer.contents
      return kit.invoke env (data.map fun data ↦ .recvCb id data)
    | none => return ([], kit)
  else return ([], kit)

/-- `Client::onHandleData(header, buffer)`; the buffer is always `recv_buffer_`. -/
def Client.onHandleData (env : Env) (header : IMHeader) (kit : ChatKit) :
    Result (List Call × ChatKit) := do
  if header.cmdId = kCIM_CID_LOGIN_AUTH_RSP then Client.onHandleAuthRsp env kit
  else if header.cmdId = kCIM_CID_MSG_DATA then ChatManager.onHandleData env header kit
  else
    let buffer ← kit.client.recvBuffer.skip header.len.toNat
    return ([], kit.withBuffer buffer)

/-! ## The receive loop -/

/-- A call of `onHandleData` with what surrounds it. -/
structure Dispatch where
  /-- The header passed. -/
  header : IMHeader
  /-- The unread bytes when it was passed, `recv_buffer_->data()` with `length()`. -/
  body : Bytes
  /-- The callbacks that ran. -/
  calls : List Call
  /-- The unread bytes when the handler returned. -/
  left : Bytes
  /-- `reset_len`. -/
  resetLen : Int
  deriving DecidableEq, Repr

/-- One turn of the loop: the unread bytes at its top, the receive buffer after each `ReadInt32`,
`ReadInt16` and `Skip` that the turn made, and the packet it dispatched. -/
structure Pass where
  head : Bytes
  buffers : List Buffer
  dispatched : Option Dispatch

/-- The conversion of a `size_t` to `int`. -/
def toInt (n : Nat) : Int := (n : Int).bmod (2 ^ 32)

/-- `reset_len == recv_buffer_->length()`, compared as `size_t`. -/
def Dispatch.ResetLenHolds (d : Dispatch) : Prop :=
  d.resetLen % 2 ^ 64 = (d.left.length : Int)

instance (d : Dispatch) : Decidable d.ResetLenHolds :=
  inferInstanceAs (Decidable (_ = _))

namespace Client

/-- The six reads after the length: the header, and the buffer after each read. -/
def readHeader (len : UInt32) (b : Buffer) : Result (IMHeader × List Buffer × Buffer) := do
  let (version, b1) ← b.readInt16
  let (flag, b2) ← b1.readInt16
  let (serviceId, b3) ← b2.readInt16
  let (cmd, b4) ← b3.readInt16
  let (seq, b5) ← b4.readInt16
  let (reserved, b6) ← b5.readInt16
  let header : IMHeader := {
    len
    version := version.toUInt16
    flag := flag.toUInt16
    serviceId := serviceId.toUInt16
    cmd := cmd.toUInt16
    seq := seq.toUInt16
    reserved := reserved.toUInt16 }
  return (header, [b1, b2, b3, b4, b5, b6], b6)

/-- The turn from the call of `onHandleData` on. -/
def dispatch (env : Env) (kit : ChatKit) (header : IMHeader) (resetLen : Int) (pass : Pass) :
    Result (Pass × Loop.Turn ChatKit Fault) := do
  let body := kit.client.recvBuffer.contents
  match onHandleData env header kit with
  | .error fault =>
    return ({ pass with dispatched := some ⟨header, body, [], body, resetLen⟩ }, .fail fault)
  | .ok (calls, kit) =>
    let b := kit.client.recvBuffer
    let length ← b.length
    let d : Dispatch := ⟨header, body, calls, b.contents, resetLen⟩
    let pass := { pass with buffers := pass.buffers ++ [b], dispatched := some d }
    if env.ndebug = false ∧ ¬ d.ResetLenHolds then return (pass, .fail .assertFailed)
    else if length ≤ 0 then return (pass, .leave kit)
    else if length < sizeofIMHeader then return (pass, .leave kit)
    else return (pass, .again kit)

/-- One turn of the `while (true)` loop of `Client::onMessage`. -/
def turn (env : Env) (kit : ChatKit) : Result (Pass × Loop.Turn ChatKit Fault) := do
  let head := kit.client.recvBuffer.contents
  let (word, b) ← kit.client.recvBuffer.readInt32
  let len := word.toUInt32
  let length ← b.length
  let resetLen := toInt (sizeT (length + 2 ^ 64 - len.toNat + 4))
  let size ← b.size
  if sizeT (len.toNat + 2 ^ 64 - 4) > size then
    return (⟨head, [b], none⟩, .leave (kit.withBuffer b))
  else if len < kMaxBufferLen then
    let (header, buffers, b') ← readHeader len b
    dispatch env (kit.withBuffer b') header resetLen ⟨head, b :: buffers, none⟩
  else return (⟨head, [b], none⟩, .leave (kit.withBuffer b))

/-- The same turn, a fault taken for the end of the loop. -/
def loopBody (env : Env) (kit : ChatKit) : Pass × Loop.Turn ChatKit Fault :=
  match turn env kit with
  | .ok r => r
  | .error fault => (⟨kit.client.recvBuffer.contents, [], none⟩, .fail fault)

end Client

/-- A chunk as `TcpClient` delivers it: its length is an `int`. -/
structure Chunk where
  bytes : Bytes
  length_lt : bytes.length < 2 ^ 31

/-- What calls of `onMessage` did, and how the last of them ended. -/
structure Received where
  passes : List Pass
  outcome : Loop.End ChatKit Fault

/-- The packets passed to `onHandleData`, in order. -/
def Received.dispatches (r : Received) : List Dispatch := r.passes.filterMap (·.dispatched)

/-- The callbacks that ran, in order. -/
def Received.calls (r : Received) : List Call := r.dispatches.flatMap (·.calls)

namespace Client

/-- `Client::onMessage(conn, buf, len)`, its loop bounded by `fuel` turns. -/
def onMessageFuel (env : Env) (kit : ChatKit) (chunk : Chunk) (fuel : Nat) : Received :=
  if chunk.bytes.length ≤ sizeofIMHeader then ⟨[], .left kit⟩
  else
    match kit.client.recvBuffer.write chunk.bytes with
    | .error fault => ⟨[], .failed fault⟩
    | .ok b =>
      match Loop.run (loopBody env) fuel (kit.withBuffer b) with
      | (passes, .left kit) => ⟨passes, .left (kit.withBuffer kit.client.recvBuffer.reset)⟩
      | (passes, outcome) => ⟨passes, outcome⟩

/-- `Client::onMessage(conn, buf, len)`. There are never more turns than bytes. -/
def onMessage (env : Env) (kit : ChatKit) (chunk : Chunk) : Received :=
  onMessageFuel env kit chunk chunk.bytes.length

/-- A run of `onMessage` calls, each in its own environment, until one does not return. -/
def onMessages (kit : ChatKit) : List (Env × Chunk) → Received
  | [] => ⟨[], .left kit⟩
  | (env, chunk) :: rest =>
    match onMessage env kit chunk with
    | ⟨passes, .left kit⟩ =>
      ⟨passes ++ (onMessages kit rest).passes, (onMessages kit rest).outcome⟩
    | r => r

end Client

/-- The payload up to its first NUL, as `c_str()` hands it to a `const char *` parameter. -/
def cStr (s : Bytes) : Bytes := s.takeWhile (· ≠ 0)

/-- `ChatManager::sendMessage(to, msg, msg_data)`. -/
def ChatManager.sendMessage (env : Env) (kit : ChatKit) (toId : UInt64) (msg : Int32)
    (msgData : Bytes) : Result ChatKit := do
  let data : CIMMsgData := {
    fromUserId := kit.client.userId
    fromNickName := [0x75, 0x6e, 0x6b, 0x6e, 0x6f, 0x77] -- "unknow"
    msgType := msg
    toSessionId := toId
    msgData := cStr msgData }
  let (_, client) ← kit.client.send env kCIM_CID_MSG_DATA (env.msgData.toLite data)
  return { kit with client }

end CoffeeChat
