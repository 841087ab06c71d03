import CoffeeChat.Core.SessionLemmas
import CoffeeChat.Net.Steps

/-!
# The session over its connections

`CoffeeChat.Session` takes the connection as given: `connect` returns what it is told, and any
connection object may report any status. `CoffeeChat.Net.World` takes the calls as given. A
`ChatSystem` is both at once, as they run in the program: `login` constructs a `TcpClient` and calls
its `connect`, `logout` closes it, and a callback of libuv that finds a client reports the status
to the session, whose callbacks may log in or out again before the callback of libuv returns.

An object lives on behind a `logout` for as long as the application, or a callback on the stack,
has a reference. `release` is the end of the last one, at any time from then on. `events` is not a
member of the source: it records the calls of clients and the callbacks of libuv, in order.
-/

namespace CoffeeChat

open Lib

/-! ## State -/

/-- The singletons, the connection objects and libuv. -/
structure ChatSystem where
  session : Session
  net : Net.World
  /-- What has happened to `net`, oldest first. -/
  events : List Net.Event

/-- What the application does: a call of the public interface, with what libuv yields inside
`connect` and whether `tcp_client_` is the last reference when it is let go, or the release of
the last reference to a connection object. -/
inductive Action where
  | call (call : ApiCall) (os : Net.Outcome) (last : Bool)
  | release (c : Nat)

/-- What lies outside the code while one step is taken. `last` is for the `logout` of a handler. -/
structure SystemHost extends Env where
  config : LoginConfig
  script : Notice → List Action
  last : Bool

/-- A host of the session alone: its callbacks make the calls `outcome` when they hear how a
login ended, and `change` when they hear of a connection. -/
def SystemHost.session (host : SystemHost) (outcome change : List ApiCall) : Host where
  toEnv := host.toEnv
  config := host.config
  script n :=
    match n with
    | .connectionCb _ _ _ => change
    | .loginCb _ _ | .loginTimeoutCb _ => outcome

namespace ChatSystem

/-- Before the first call. -/
def fresh : ChatSystem where
  session := Session.fresh
  net := .init
  events := []

/-- The client `tcp_client_` points to; the session numbers its clients from 1. -/
def tcpClient (p : ChatSystem) : Option Nat :=
  p.session.client.tcpClient.map fun _ ↦ p.session.made - 1

/-- The system with another session. -/
def withSession (p : ChatSystem) (session : Session) : ChatSystem := { p with session }

/-- A call of a client or a callback of libuv. -/
def emit (x : Net.Event) (p : ChatSystem) : Result ChatSystem := do
  let net ← p.net.step x
  return { p with net, events := p.events ++ [x] }

/-! ## The public interface -/

/-- What `Client::logout()` does with the connection. -/
def letGo (last : Bool) (p : ChatSystem) : Result ChatSystem :=
  match p.tcpClient with
  | none => .ok p
  | some c => do
    let p ← p.emit (.close c)
    -- `tcp_client_ = nullptr` runs the destructor
    if last then p.emit (.destroy c) else return p

/-- `Client::logout()`. -/
def logout (env : Env) (last : Bool) (p : ChatSystem) : Result ChatSystem := do
  let session ← p.session.logout env
  let p ← p.letGo last
  return p.withSession session

/-- `Client::login(user_name, pwd, cb, timeout_cb)`. What `connect` returns is no argument here. -/
def login (env : Env) (args : LoginArgs) (os : Net.Outcome) (last : Bool) (p : ChatSystem) :
    Result ChatSystem := do
  let session := p.session
  let p ← p.letGo last
  let c := p.net.made
  let p ← p.emit .construct
  let (connected, net) ← p.net.connect c os
  let session ← session.login env { args with connected }
  return { session, net, events := p.events ++ [.connect c os] }

end ChatSystem

open ChatSystem

/-- An action of the application. What `tcp_client_` points to is not released. -/
def Action.run (env : Env) (action : Action) (p : ChatSystem) : Result ChatSystem :=
  match action with
  | .call api os last =>
    match api with
    | .login args => p.login env args os last
    | .logout => p.logout env last
    | api => do
      let session ← api.run env p.session
      return p.withSession session
  | .release c => if p.tcpClient = some c then .ok p else p.emit (.destroy c)

/-- Several actions, one after another. -/
def runActions (env : Env) : List Action → ChatSystem → Result ChatSystem
  | [], p => .ok p
  | action :: actions, p => do
    let p ← action.run env p
    runActions env actions p

/-! ## The handlers -/

namespace ChatSystem

/-- Invoke a callback, when there is one to invoke. -/
def notify (host : SystemHost) (n : Option Notice) (p : ChatSystem) : Result ChatSystem :=
  match n with
  | some n => runActions host.toEnv (host.script n) (p.withSession (p.session.mark (.notice n)))
  | none => .ok p

/-- `Client::onConnectionStatusChanged(conn, status)`. -/
def onConnectionStatusChanged (host : SystemHost) (conn : Nat) (status : ConnectionStatus)
    (p : ChatSystem) : Result ChatSystem := do
  let p ← if status = .kConnectOk then do
      let (_, client) ← p.session.client.send host.toEnv kCIM_CID_LOGIN_AUTH_REQ
        p.session.authReq.toLite
      pure (p.withSession (p.session.withClient client))
    else do
      let p := p.withSession (p.session.mark .disconnect)
      let p ← if p.session.client.loginStatus = .kLogining then
          p.notify host (p.session.client.loginCb.map (.loginCb · Session.lostRsp))
        else pure p
      p.logout host.toEnv host.last
  p.notify host (p.session.connectionCb.map (.connectionCb · (some conn) status))

/-- The connection callback a client has, with the status it has just changed to. -/
def report (host : SystemHost) (tcpClient : Option Nat) (status : ConnectionStatus)
    (p : ChatSystem) : Result ChatSystem :=
  match tcpClient with
  | some c =>
    (p.withSession (p.session.reported (c + 1) status)).onConnectionStatusChanged host (c + 1)
      status
  | none => .ok p

/-- `TcpClient::onConnect(req, status)`, which libuv calls once for a connect under way. -/
def onConnect (host : SystemHost) (h : Nat) (status : Int) (p : ChatSystem) :
    Result ChatSystem := do
  if (p.net.handle h).pending then
    let given := if (p.net.handle h).closing then Net.UV_ECANCELED else status
    let tcpClient ← p.net.findTcpClient h
    let p ← p.emit (.onConnect h status)
    if given = 0 then
      let p ← p.report host tcpClient .kConnectOk
      p.emit (.connectReturn h)
    else p.report host tcpClient .kDisConnected
  else return p

/-- `TcpClient::onRead(client, nread, buf)`, for a handle that is read. The message callback is
`authRsp` of `step`. -/
def onRead (host : SystemHost) (h : Nat) (nread : Int) (p : ChatSystem) : Result ChatSystem := do
  if (p.net.handle h).reading ∧ nread < 0 then
    let tcpClient ← p.net.findTcpClient h
    let p ← p.emit (.onRead h nread)
    p.report host tcpClient .kDisConnected
  else p.emit (.onRead h nread)

/-- `Client::onHandleAuthRsp(header, buffer)`. -/
def onHandleAuthRsp (host : SystemHost) (p : ChatSystem) : Result ChatSystem := do
  match ← parsePbAndCheck host.authRsp p.session.client.recvBuffer with
  | none => return p
  | some (rsp, buffer) =>
    let p := p.withSession (p.session.took rsp buffer)
    let p ← if rsp.resultCode ≠ kCIM_ERR_SUCCESS then p.logout host.toEnv host.last else pure p
    p.notify host (p.session.client.loginCb.map (.loginCb · rsp))

/-- `Client::onTimer(handle)`. -/
def onTimer (host : SystemHost) (p : ChatSystem) : Result ChatSystem := do
  let curTime := host.now
  let p ← if p.session.client.loginStatus = .kLogining ∧
      curTime - p.session.lastLoginTime > Session.loginTimeout host.config then
      p.notify host (p.session.loginTimeoutCb.map .loginTimeoutCb)
    else pure p
  if p.session.client.loginStatus = .kLoginOk ∧
      curTime - p.session.lastRecvTime > Session.keepAliveTimeout host.config then
    let p ← p.logout host.toEnv host.last
    p.notify host (p.session.connectionCb.map (.connectionCb · none .kDisConnected))
  else return p

/-! ## Runs -/

/-- What can happen to the system. -/
inductive Event where
  /-- The application acts. -/
  | action (action : Action)
  /-- libuv reports how a connect ended. -/
  | onConnect (h : Nat) (status : Int)
  /-- libuv has read something, or says why it cannot. -/
  | onRead (h : Nat) (nread : Int)
  /-- The receive loop hands a login response to its handler, with these bytes unread. -/
  | authRsp (unread : Buffer)
  /-- The timer fires. -/
  | tick

/-- One step of the system. -/
def step (p : ChatSystem) (input : SystemHost × Event) : Result ChatSystem :=
  match input.2 with
  | .action action => action.run input.1.toEnv p
  | .onConnect h status => p.onConnect input.1 h status
  | .onRead h nread => p.onRead input.1 h nread
  | .authRsp unread =>
    (p.withSession { p.session with kit := p.session.kit.withBuffer unread }).onHandleAuthRsp
      input.1
  | .tick => p.onTimer input.1

end ChatSystem

end CoffeeChat
