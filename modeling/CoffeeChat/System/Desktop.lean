import CoffeeChat.Core.Walk
import CoffeeChat.System.Linked

/-!
# The program

`ChatSystem` takes it as given that the receive loop hands over a login response, and with which
bytes unread. In the program the bytes decide: what libuv has read for a client goes through the
loop of `Client::onMessage`, and the callbacks of the application, which may log in and out,
register other callbacks or let go of connection objects, run between its statements. The state
is that of `ChatSystem`.

The handlers leave the receive buffer to the loop: whatever they do, it is as it was
(`KeepsBuffer`).
-/

namespace CoffeeChat

open Lib Buffer

/-- What lies outside the code while one step of the program is taken: the body of the receive
callback too. -/
structure DesktopHost extends SystemHost where
  received : CallbackId → CIMMsgData → List Action

namespace ChatSystem

/-- `recv_buffer_`. -/
def recvBuffer (p : ChatSystem) : Buffer := p.session.client.recvBuffer

/-- The system with another receive buffer. -/
def withBuffer (b : Buffer) (p : ChatSystem) : ChatSystem :=
  p.withSession { p.session with kit := p.session.kit.withBuffer b }

end ChatSystem

open ChatSystem

/-! ## The receive loop -/

namespace Desktop

/-- `ChatManager::onHandleData(header, buffer)`. -/
def onHandleMsgData (host : DesktopHost) (header : IMHeader) (p : ChatSystem) :
    Result ChatSystem := do
  if header.cmdId = kCIM_CID_MSG_DATA then
    match p.session.kit.chatManager.recvCb with
    | some id =>
      let _ ← p.recvBuffer.length
      match host.msgData.parseFromArray p.recvBuffer.contents with
      | some data => runActions host.toEnv (host.received id data) p
      | none => return p
    | none => return p
  else return p

/-- `Client::onHandleData(header, buffer)`. -/
def onHandleData (host : DesktopHost) (header : IMHeader) (p : ChatSystem) :
    Result ChatSystem := do
  if header.cmdId = kCIM_CID_LOGIN_AUTH_RSP then p.onHandleAuthRsp host.toSystemHost
  else if header.cmdId = kCIM_CID_MSG_DATA then onHandleMsgData host header p
  else
    let buffer ← p.recvBuffer.skip header.len.toNat
    return p.withBuffer buffer

/-- The turn from the call of `onHandleData` on. -/
def dispatch (host : DesktopHost) (header : IMHeader) (resetLen : Int) (p : ChatSystem) :
    Result (Loop.Turn ChatSystem Fault) := do
  let p ← onHandleData host header p
  let length ← p.recvBuffer.length
  check (host.ndebug = true ∨ resetLen % 2 ^ 64 = (length : Int))
  if length ≤ 0 then return .leave p
  else if length < sizeofIMHeader then return .leave p
  else return .again p

/-- One turn of the `while (true)` loop of `Client::onMessage`. -/
def turn (host : DesktopHost) (p : ChatSystem) : Result (Loop.Turn ChatSystem Fault) := do
  let (word, b) ← p.recvBuffer.readInt32
  let len := word.toUInt32
  let length ← b.length
  let resetLen := toInt (sizeT (length + 2 ^ 64 - len.toNat + 4))
  let size ← b.size
  if sizeT (len.toNat + 2 ^ 64 - 4) > size then return .leave (p.withBuffer b)
  else if len < kMaxBufferLen then
    let (header, _, b) ← Client.readHeader len b
    dispatch host header resetLen (p.withBuffer b)
  else return .leave (p.withBuffer b)

/-- A fault is the end of the loop. -/
def ended : Result (Loop.Turn ChatSystem Fault) → Loop.Turn ChatSystem Fault
  | .ok t => t
  | .error fault => .fail fault

/-- The same turn, with the bytes unread at its top. -/
def loopBody (host : DesktopHost) (p : ChatSystem) : Bytes × Loop.Turn ChatSystem Fault :=
  (p.recvBuffer.contents, ended (turn host p))

/-- `Client::onMessage(conn, buf, len)`. There are never more turns than bytes. -/
def onMessage (host : DesktopHost) (chunk : Chunk) (p : ChatSystem) : Result ChatSystem := do
  if chunk.bytes.length ≤ sizeofIMHeader then return p
  else
    let b ← p.recvBuffer.write chunk.bytes
    match (Loop.run (loopBody host) chunk.bytes.length (p.withBuffer b)).2 with
    | .left p => return p.withBuffer p.recvBuffer.reset
    | .failed fault => throw fault
    | .running p => return p

/-- `TcpClient::onRead(client, nread, buf)` for a chunk; every client has the message callback. -/
def onRead (host : DesktopHost) (h : Nat) (chunk : Chunk) (p : ChatSystem) :
    Result ChatSystem := do
  let nread : Int := chunk.bytes.length
  if (p.net.handle h).reading ∧ nread > 0 then
    let tcpClient ← p.net.findTcpClient h
    let p ← p.emit (.onRead h nread)
    if tcpClient.isSome then onMessage host chunk p else return p
  else p.emit (.onRead h nread)

/-! ## Runs -/

/-- What can happen to the program. -/
inductive Event where
  /-- The application acts. -/
  | action (action : Action)
  /-- libuv reports how a connect ended. -/
  | onConnect (h : Nat) (status : Int)
  /-- libuv has read the chunk. -/
  | onRead (h : Nat) (chunk : Chunk)
  /-- libuv cannot read; the error is the negative number below `error`. -/
  | onReadError (h : Nat) (error : Nat)
  /-- The timer fires. -/
  | tick

/-- One step of the program. -/
def step (p : ChatSystem) (input : DesktopHost × Event) : Result ChatSystem :=
  match input.2 with
  | .action action => action.run input.1.toEnv p
  | .onConnect h status => p.onConnect input.1.toSystemHost h status
  | .onRead h chunk => onRead input.1 h chunk p
  | .onReadError h error => p.onRead input.1.toSystemHost h (Int.negSucc error)
  | .tick => p.onTimer input.1.toSystemHost

/-! ## The receive buffer -/

/-- No session is logged in, and the receive buffer is the same. -/
structure KeepsBuffer (p p' : ChatSystem) : Prop where
  loggedOut : p'.session.client.loginStatus ≠ .kLoginOk
  recvBuffer : p'.recvBuffer = p.recvBuffer

variable {p p' : ChatSystem} {env : Env} {host : SystemHost}

theorem KeepsBuffer.trans {p'' : ChatSystem} (h : KeepsBuffer p p') (h' : KeepsBuffer p' p'') :
    KeepsBuffer p p'' :=
  ⟨h'.loggedOut, h'.recvBuffer.trans h.recvBuffer⟩

/-- Whatever is done to the connections, the session stays. -/
theorem emit_session {x : Net.Event} (h : p.emit x = .ok p') : p'.session = p.session := by
  obtain ⟨net, _, rfl⟩ := emit_ok h
  rfl

section

variable (hout : p.session.client.loginStatus ≠ .kLoginOk)

include hout

theorem keepsBuffer_logout {last : Bool} (h : p.logout env last = .ok p') :
    KeepsBuffer p p' := by
  obtain ⟨session, hsession, h⟩ := bind_eq_ok.mp h
  obtain ⟨p1, _, h⟩ := bind_eq_ok.mp h
  cases h
  cases (Session.logout_eq env hout).symm.trans hsession
  exact ⟨(by simp : (Session.loggedOut _).client.loginStatus ≠ _), rfl⟩

theorem keepsBuffer_action {action : Action} (h : action.run env p = .ok p') :
    KeepsBuffer p p' := by
  have hcall {api : ApiCall} {s : Session} (hrun : api.run env p.session = .ok s) :
      s.client.loginStatus ≠ .kLoginOk ∧ s.client.recvBuffer = p.session.client.recvBuffer := by
    refine ⟨ApiCall.run_loginStatus hout hrun, ?_⟩
    rcases ApiCall.run_cases hout hrun with ⟨args, md5, _, rfl⟩ | ⟨_, rfl⟩ | ⟨_, hquiet⟩
    · rfl
    · rfl
    · exact hquiet.client.recvBuffer
  have hrest {api : ApiCall} (h : (do
      let session ← api.run env p.session
      return p.withSession session) = .ok p') : KeepsBuffer p p' := by
    obtain ⟨session, hrun, h⟩ := bind_eq_ok.mp h
    cases h
    exact ⟨(hcall hrun).1, (hcall hrun).2⟩
  cases action with
  | release c =>
      by_cases hc : p.tcpClient = some c
      · cases (if_pos hc).symm.trans h
        exact ⟨hout, rfl⟩
      · have hsame := emit_session ((if_neg hc).symm.trans h)
        exact ⟨hsame ▸ hout, congrArg (fun s : Session ↦ s.client.recvBuffer) hsame⟩
  | call api os last =>
      cases api with
      | login args =>
          obtain ⟨p1, _, h⟩ := bind_eq_ok.mp h
          obtain ⟨p2, _, h⟩ := bind_eq_ok.mp h
          obtain ⟨⟨connected, net⟩, _, h⟩ := bind_eq_ok.mp h
          obtain ⟨session, hlogin, h⟩ := bind_eq_ok.mp h
          cases h
          have hrun : (ApiCall.login { args with connected }).run env p.session = .ok session :=
            hlogin
          exact ⟨(hcall hrun).1, (hcall hrun).2⟩
      | logout => exact keepsBuffer_logout hout h
      | setConnectionCallback | setRecvMsgCallback | connStatus | sendData | send
      | sendMessage => exact hrest h

end

theorem keepsBuffer_runActions {actions : List Action}
    (hout : p.session.client.loginStatus ≠ .kLoginOk) (h : runActions env actions p = .ok p') :
    KeepsBuffer p p' := by
  induction actions generalizing p with
  | nil =>
      cases h
      exact ⟨hout, rfl⟩
  | cons action actions ih =>
      obtain ⟨p1, hrun, h⟩ := bind_eq_ok.mp h
      have hfirst := keepsBuffer_action hout hrun
      exact hfirst.trans (ih hfirst.loggedOut h)

theorem keepsBuffer_notify {n : Option Notice} (hout : p.session.client.loginStatus ≠ .kLoginOk)
    (h : p.notify host n = .ok p') : KeepsBuffer p p' := by
  cases n with
  | none =>
      cases h
      exact ⟨hout, rfl⟩
  | some m =>
      have hmarked := keepsBuffer_runActions
        (p := p.withSession (p.session.mark (.notice m))) hout h
      exact ⟨hmarked.loggedOut, hmarked.recvBuffer⟩

theorem keepsBuffer_statusChanged {conn : Nat} {status : ConnectionStatus}
    (hout : p.session.client.loginStatus ≠ .kLoginOk)
    (h : p.onConnectionStatusChanged host conn status = .ok p') : KeepsBuffer p p' := by
  by_cases hup : status = .kConnectOk
  · subst hup
    obtain ⟨r, hsend, h⟩ := onConnectionStatusChanged_up h
    have hquiet := Client.send_quiet hsend
    have hsent : KeepsBuffer p (p.withSession (p.session.withClient r.2)) :=
      ⟨hquiet.loginStatus ▸ hout, hquiet.recvBuffer⟩
    exact hsent.trans (keepsBuffer_notify hsent.loggedOut h)
  · obtain ⟨p1, p2, hlost, hlogout, h⟩ := onConnectionStatusChanged_lost hup h
    have hfirst := keepsBuffer_notify (p := p.withSession (p.session.mark .disconnect)) hout hlost
    have hthen := hfirst.trans (keepsBuffer_logout hfirst.loggedOut hlogout)
    have hall := hthen.trans (keepsBuffer_notify hthen.loggedOut h)
    exact ⟨hall.loggedOut, hall.recvBuffer⟩

theorem keepsBuffer_report {r : Option Nat} {status : ConnectionStatus}
    (hout : p.session.client.loginStatus ≠ .kLoginOk) (h : p.report host r status = .ok p') :
    KeepsBuffer p p' := by
  cases r with
  | none =>
      cases h
      exact ⟨hout, rfl⟩
  | some c =>
      have hall := keepsBuffer_statusChanged
        (p := p.withSession (p.session.reported (c + 1) status)) hout h
      exact ⟨hall.loggedOut, hall.recvBuffer⟩

theorem keepsBuffer_emit {x : Net.Event} (hout : p.session.client.loginStatus ≠ .kLoginOk)
    (h : p.emit x = .ok p') : KeepsBuffer p p' := by
  have hsame := emit_session h
  exact ⟨hsame ▸ hout, congrArg (fun s : Session ↦ s.client.recvBuffer) hsame⟩

theorem keepsBuffer_onConnect {h : Nat} {status : Int}
    (hout : p.session.client.loginStatus ≠ .kLoginOk)
    (hstep : p.onConnect host h status = .ok p') : KeepsBuffer p p' := by
  by_cases hpending : (p.net.handle h).pending = true
  · obtain ⟨r, _, hstep⟩ := bind_eq_ok.mp ((if_pos hpending).symm.trans hstep)
    obtain ⟨p1, hemit, hstep⟩ := bind_eq_ok.mp hstep
    have hfirst := keepsBuffer_emit hout hemit
    by_cases hup : (if (p.net.handle h).closing then Net.UV_ECANCELED else status) = 0
    · obtain ⟨p2, hreport, hreturn⟩ := bind_eq_ok.mp ((if_pos hup).symm.trans hstep)
      have hthen := hfirst.trans (keepsBuffer_report hfirst.loggedOut hreport)
      exact hthen.trans (keepsBuffer_emit hthen.loggedOut hreturn)
    · exact hfirst.trans (keepsBuffer_report hfirst.loggedOut ((if_neg hup).symm.trans hstep))
  · cases (if_neg hpending).symm.trans hstep
    exact ⟨hout, rfl⟩

theorem keepsBuffer_onRead {h : Nat} {nread : Int}
    (hout : p.session.client.loginStatus ≠ .kLoginOk)
    (hstep : p.onRead host h nread = .ok p') : KeepsBuffer p p' := by
  by_cases hlost : (p.net.handle h).reading = true ∧ nread < 0
  · obtain ⟨r, _, hstep⟩ := bind_eq_ok.mp ((if_pos hlost).symm.trans hstep)
    obtain ⟨p1, hemit, hstep⟩ := bind_eq_ok.mp hstep
    have hfirst := keepsBuffer_emit hout hemit
    exact hfirst.trans (keepsBuffer_report hfirst.loggedOut hstep)
  · exact keepsBuffer_emit hout ((if_neg hlost).symm.trans hstep)

theorem keepsBuffer_onTimer (hout : p.session.client.loginStatus ≠ .kLoginOk)
    (h : p.onTimer host = .ok p') : KeepsBuffer p p' := by
  unfold ChatSystem.onTimer at h
  by_cases hlate : p.session.client.loginStatus = .kLogining ∧
      host.now - p.session.lastLoginTime > Session.loginTimeout host.config
  · obtain ⟨p1, hnotify, h⟩ := bind_eq_ok.mp ((if_pos hlate).symm.trans h)
    have hfirst := keepsBuffer_notify hout hnotify
    cases (if_neg fun hin ↦ hfirst.loggedOut hin.1).symm.trans h
    exact hfirst
  · obtain ⟨p1, hsame, h⟩ := bind_eq_ok.mp ((if_neg hlate).symm.trans h)
    cases hsame
    cases (if_neg fun hin ↦ hout hin.1).symm.trans h
    exact ⟨hout, rfl⟩

end Desktop

end CoffeeChat
