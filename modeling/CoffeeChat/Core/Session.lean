import CoffeeChat.Core.Client
import CoffeeChat.Crypt.MD5
import CoffeeChat.Lib.Run

/-!
# The login session

The part of `cim::core::Client` that keeps the login state: `login`, `logout`,
`onConnectionStatusChanged`, `onHandleAuthRsp` and `onTimer`. A `Session` adds to the singletons
of `CoffeeChat.Core.Client` the members that only this part uses.

A session moves in steps: a call of the public interface, a connection that reports a status, a
login response, or a tick of the timer. Each step is taken in front of a `Host`. A callback of
the application is a sequence of calls of the public interface, none of which runs a callback
itself, so a callback that calls back is played out where the source invokes it.

`past` and `made` are not members of the source: they record what has happened, in order, and how
many connection objects there have been, so that a property of a whole run is one of its last
state.
-/

namespace CoffeeChat

open Lib

/-! ## State -/

/-- `LoginConfig` of `cim_def.h`. The times are meant as milliseconds. -/
structure LoginConfig where
  loginTimeOut : UInt32 := 10 * 1000
  keepAliveTimeOut : UInt32 := 90 * 1000
  deriving DecidableEq, Repr

/-- A call of a callback of the application, with its arguments. A connection object is named by
its number. -/
inductive Notice where
  | loginCb (id : CallbackId) (rsp : CIMAuthRsp)
  | loginTimeoutCb (id : CallbackId)
  | connectionCb (id : CallbackId) (conn : Option Nat) (status : ConnectionStatus)
  deriving DecidableEq, Repr

/-- Something that has happened to the session. -/
inductive Mark where
  /-- A call of `login()`. -/
  | login
  /-- A call of `logout()`. -/
  | logout
  /-- A login response that was parsed. -/
  | authRsp (rsp : CIMAuthRsp)
  /-- A connection status other than `kConnectOk` that was reported. -/
  | disconnect
  /-- A callback that was invoked. -/
  | notice (n : Notice)
  deriving DecidableEq, Repr

/-- The singletons and the members of `Client` that only the session uses. -/
structure Session where
  kit : ChatKit
  lastLoginTime : UInt64
  lastRecvTime : UInt64
  loginTimeoutCb : Option CallbackId
  userName : Bytes
  userPwd : Bytes
  connectionCb : Option CallbackId
  /-- How many `TcpClient` objects were made; `tcp_client_`, unless null, is the last of them. -/
  made : Nat
  /-- What has happened, oldest first. -/
  past : List Mark
  deriving DecidableEq, Repr

/-- The arguments of `login`, with what `time` and `TcpClient::connect` return inside it. -/
structure LoginArgs where
  userName : Bytes
  pwd : Input .lp64
  cb : Option CallbackId
  timeoutCb : Option CallbackId
  now : UInt64
  connected : Bool

/-- A call of the public interface of `Client` and `ChatManager`. -/
inductive ApiCall where
  | login (args : LoginArgs)
  | logout
  | setConnectionCallback (cb : Option CallbackId)
  | setRecvMsgCallback (cb : Option CallbackId)
  | connStatus
  | sendData (data : Bytes)
  | send (cmdId : CIMCmdID) (msg : MessageLite)
  | sendMessage (toId : UInt64) (msg : Int32) (msgData : Bytes)

/-- What lies outside the code while one step is taken: the environment of one event, the
configuration, and the body of every callback. -/
structure Host extends Env where
  config : LoginConfig
  script : Notice → List ApiCall

namespace Session

/-- The `Client` singleton. -/
def client (s : Session) : Client := s.kit.client

/-- The session with another `Client`. -/
def withClient (s : Session) (c : Client) : Session := { s with kit := { s.kit with client := c } }

/-- The session once `m` has happened. -/
def mark (s : Session) (m : Mark) : Session := { s with past := s.past ++ [m] }

/-- The constructors `Client::Client()` and `ChatManager::ChatManager()`. -/
def init : Result Session := do
  let kit ← ChatKit.init
  return {
    kit, lastLoginTime := 0, lastRecvTime := 0, loginTimeoutCb := none, userName := [],
    userPwd := [], connectionCb := none, made := 0, past := [] }

end Session

/-! ## The public interface -/

/-- `TcpClient::TcpClient()`. -/
def TcpClient.new : TcpClient := ⟨.kDefault, []⟩

/-- What `TcpClient::connect` leaves of the status, given its result. -/
def TcpClient.connect (tcp : TcpClient) (connected : Bool) : TcpClient :=
  { tcp with connectStatus := if connected then .kConnecting else .kDisConnected }

namespace Session

/-- `Client::logout()`. -/
def logout (env : Env) (s : Session) : Result Session := do
  let client ← s.client.logout env
  return (s.withClient client).mark .logout

/-- `Client::login(user_name, pwd, cb, timeout_cb)`. -/
def login (env : Env) (args : LoginArgs) (s : Session) : Result Session := do
  let s ← s.logout env
  let s := { s.withClient { s.client with loginCb := args.cb, loginStatus := .kLogining } with
    loginTimeoutCb := args.timeoutCb
    lastLoginTime := args.now }
  let md5 ← MD5.hash (MD5.zeroed .lp64) args.pwd.bytes
  let s := { s with userName := args.userName, userPwd := asciiBytes md5 }
  let (tcp, made) := match s.client.tcpClient with
    | none => (TcpClient.new, s.made + 1)
    | some tcp => (tcp, s.made)
  -- the result of `connect` is not looked at
  let s := s.withClient { s.client with tcpClient := some (tcp.connect args.connected) }
  return { s with made }.mark .login

end Session

/-- A call of the public interface. The values it returns to the caller are dropped. -/
def ApiCall.run (env : Env) (call : ApiCall) (s : Session) : Result Session :=
  match call with
  | .login args => s.login env args
  | .logout => s.logout env
  | .setConnectionCallback cb => .ok { s with connectionCb := cb }
  | .setRecvMsgCallback cb => .ok { s with kit := { s.kit with chatManager := ⟨cb⟩ } }
  | .connStatus => do
    let _ ← s.client.connStatus
    return s
  | .sendData data => do
    let (_, client) ← s.client.sendData env data
    return s.withClient client
  | .send cmdId msg => do
    let (_, client) ← s.client.send env cmdId msg
    return s.withClient client
  | .sendMessage toId msg msgData => do
    let kit ← ChatManager.sendMessage env s.kit toId msg msgData
    return { s with kit }

/-- Several calls, one after another. -/
def runCalls (env : Env) : List ApiCall → Session → Result Session
  | [], s => .ok s
  | call :: calls, s => do
    let s ← call.run env s
    runCalls env calls s

/-! ## The handlers -/

/-- `kClientVersion` of `client.cpp`. -/
def kClientVersion : Bytes := [0x30, 0x2e, 0x31] -- "0.1"

namespace Session

/-- Invoke a callback, when there is one to invoke. -/
def notify (host : Host) (n : Option Notice) (s : Session) : Result Session :=
  match n with
  | some n => runCalls host.toEnv (host.script n) (s.mark (.notice n))
  | none => .ok s

/-- The response `onConnectionStatusChanged` makes up when the connection is lost. -/
def lostRsp : CIMAuthRsp where
  resultCode := kCIM_ERR_INTERNAL_ERROR
  resultString := "连接服务器失败，网络异常或者服务器异常".toUTF8.toList

/-- The request sent once the connection is up. -/
def authReq (s : Session) : CIMAuthReq where
  userName := s.userName
  userPwd := s.userPwd
  clientVersion := kClientVersion
  clientType := kCIM_CLIENT_TYPE_PC_WINDOWS

/-- `Client::onConnectionStatusChanged(conn, status)`. -/
def onConnectionStatusChanged (host : Host) (conn : Nat) (status : ConnectionStatus)
    (s : Session) : Result Session := do
  let s ← if status = .kConnectOk then do
      let (_, client) ← s.client.send host.toEnv kCIM_CID_LOGIN_AUTH_REQ s.authReq.toLite
      pure (s.withClient client)
    else do
      let s := s.mark .disconnect
      let s ← if s.client.loginStatus = .kLogining then
          s.notify host (s.client.loginCb.map (.loginCb · lostRsp))
        else pure s
      s.logout host.toEnv
  s.notify host (s.connectionCb.map (.connectionCb · (some conn) status))

/-- `TcpClient::setConnectionStatus(status)` of the object `conn`, which the client may hold or
have let go. -/
def setConnectionStatus (host : Host) (conn : Nat) (status : ConnectionStatus) (s : Session) :
    Result Session :=
  let tcp := if conn = s.made then
      s.client.tcpClient.map ({ · with connectStatus := status })
    else s.client.tcpClient
  (s.withClient { s.client with tcpClient := tcp }).onConnectionStatusChanged host conn status

/-- `Client::onHandleAuthRsp(header, buffer)`. -/
def onHandleAuthRsp (host : Host) (s : Session) : Result Session := do
  match ← parsePbAndCheck host.authRsp s.client.recvBuffer with
  | none => return s
  | some (rsp, buffer) =>
    let s := { s with kit := s.kit.withBuffer buffer }.mark (.authRsp rsp)
    let s ← if rsp.resultCode ≠ kCIM_ERR_SUCCESS then s.logout host.toEnv else pure s
    s.notify host (s.client.loginCb.map (.loginCb · rsp))

/-- The login timeout `onTimer` compares with: cut to a `uint16_t`. -/
def loginTimeout (config : LoginConfig) : UInt64 := config.loginTimeOut.toUInt16.toUInt64

/-- The keep-alive timeout `onTimer` compares with: cut to a `uint16_t`. -/
def keepAliveTimeout (config : LoginConfig) : UInt64 := config.keepAliveTimeOut.toUInt16.toUInt64

/-- `Client::onTimer(handle)`. -/
def onTimer (host : Host) (s : Session) : Result Session := do
  let curTime := host.now
  let s ← if s.client.loginStatus = .kLogining ∧
      curTime - s.lastLoginTime > loginTimeout host.config then
      s.notify host (s.loginTimeoutCb.map .loginTimeoutCb)
    else pure s
  if s.client.loginStatus = .kLoginOk ∧
      curTime - s.lastRecvTime > keepAliveTimeout host.config then
    let s ← s.logout host.toEnv
    -- `tcp_client_` is null by now
    s.notify host (s.connectionCb.map (.connectionCb · none .kDisConnected))
  else return s

end Session

/-! ## Runs -/

/-- What can happen to a session. -/
inductive Event where
  /-- The application calls the public interface. -/
  | call (call : ApiCall)
  /-- A connection object reports a status. -/
  | connection (conn : Nat) (status : ConnectionStatus)
  /-- The receive loop hands a login response to its handler, with these bytes unread. -/
  | authRsp (unread : Buffer)
  /-- The timer fires. -/
  | tick

namespace Session

/-- One step of a session. -/
def step (s : Session) (input : Host × Event) : Result Session :=
  match input.2 with
  | .call call => call.run input.1.toEnv s
  | .connection conn status => s.setConnectionStatus input.1 conn status
  | .authRsp unread => { s with kit := s.kit.withBuffer unread }.onHandleAuthRsp input.1
  | .tick => s.onTimer input.1

/-- The states a run from the constructors can reach. -/
def Reachable (s : Session) : Prop :=
  ∃ start inputs, init = .ok start ∧ Run.exec step start inputs = .ok s

end Session

end CoffeeChat
