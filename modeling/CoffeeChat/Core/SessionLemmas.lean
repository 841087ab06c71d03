import CoffeeChat.Core.Session
import CoffeeChat.Core.Walk
import CoffeeChat.Crypt.MD5Correct

/-!
# What one step of a session does

The public calls fall into three kinds: `login`, `logout`, and those that leave the session as it
was (`Quiet`). For a session that is not logged in, and none ever is, `logout_eq` and `login_eq`
say what the first two return, and `runCalls_induction` is the rule for a callback: a property
that the three kinds keep is kept by its body. The lemmas `..._eq` for the handlers then say
which of these parts a step is made of.
-/

namespace CoffeeChat

open Lib

/-! ## Calls that leave the session alone -/

/-- The clients differ at most in what sending a packet changes. -/
structure Client.Quiet (c c' : Client) : Prop where
  recvBuffer : c'.recvBuffer = c.recvBuffer
  loginStatus : c'.loginStatus = c.loginStatus
  loginCb : c'.loginCb = c.loginCb
  userId : c'.userId = c.userId
  connStatus : c'.tcpClient.map (·.connectStatus) = c.tcpClient.map (·.connectStatus)

namespace Client

theorem Quiet.refl (c : Client) : Quiet c c := ⟨rfl, rfl, rfl, rfl, rfl⟩

theorem Quiet.trans {c c' c'' : Client} (h : Quiet c c') (h' : Quiet c' c'') : Quiet c c'' where
  recvBuffer := h'.recvBuffer.trans h.recvBuffer
  loginStatus := h'.loginStatus.trans h.loginStatus
  loginCb := h'.loginCb.trans h.loginCb
  userId := h'.userId.trans h.userId
  connStatus := h'.connStatus.trans h.connStatus

/-- The connection object stays, and with it its status. -/
theorem Quiet.tcpClient_eq_some {c c' : Client} (h : Quiet c c') {tcp : TcpClient}
    (htcp : c.tcpClient = some tcp) :
    ∃ tcp', c'.tcpClient = some tcp' ∧ tcp'.connectStatus = tcp.connectStatus := by
  have hmap := h.connStatus
  rw [htcp, Option.map_some] at hmap
  exact Option.map_eq_some_iff.mp hmap

/-- `connStatus` returns exactly when there is a connection object. -/
theorem connStatus_eq_ok {c : Client} {status : ConnectionStatus} :
    c.connStatus = .ok status ↔ ∃ tcp, c.tcpClient = some tcp ∧ tcp.connectStatus = status := by
  cases h : c.tcpClient with
  | none => simp [connStatus, h]
  | some tcp => simp [connStatus, h]

theorem sendData_quiet {env : Env} {c : Client} {data : Bytes} {r : Int32 × Client}
    (h : c.sendData env data = .ok r) : Quiet c r.2 := by
  cases htcp : c.tcpClient with
  | none => simp [sendData, htcp] at h
  | some tcp =>
      simp only [sendData, htcp, TcpClient.send] at h
      obtain ⟨sent, hsent, h⟩ := bind_eq_ok.mp h
      obtain ⟨_, _, hsent⟩ := bind_eq_ok.mp hsent
      cases hsent
      cases h
      exact ⟨rfl, rfl, rfl, rfl, by simp [htcp]⟩

/-- A `send` that returns has looked at the connection and left the rest of the client alone. -/
theorem send_ok {env : Env} {c : Client} {cmdId : CIMCmdID} {msg : MessageLite}
    {r : Int32 × Client} (h : c.send env cmdId msg = .ok r) :
    ∃ status data, c.connStatus = .ok status ∧
      (if status = .kConnectOk then c.getSeq.2.sendData env data
        else .ok (kError, c.getSeq.2)) = .ok r := by
  unfold send at h
  -- the buffer first: it has no part in the client
  obtain ⟨_, _, h⟩ := bind_eq_ok.mp h
  obtain ⟨_, _, h⟩ := bind_eq_ok.mp h
  obtain ⟨_, _, h⟩ := bind_eq_ok.mp h
  obtain ⟨_, _, h⟩ := bind_eq_ok.mp h
  obtain ⟨_, _, h⟩ := bind_eq_ok.mp h
  obtain ⟨_, _, h⟩ := bind_eq_ok.mp h
  obtain ⟨_, _, h⟩ := bind_eq_ok.mp h
  obtain ⟨_, _, h⟩ := bind_eq_ok.mp h
  obtain ⟨_, _, h⟩ := bind_eq_ok.mp h
  obtain ⟨buffer, _, h⟩ := bind_eq_ok.mp h
  obtain ⟨status, hstatus, h⟩ := bind_eq_ok.mp h
  exact ⟨status, buffer.contents, hstatus, h⟩

theorem send_quiet {env : Env} {c : Client} {cmdId : CIMCmdID} {msg : MessageLite}
    {r : Int32 × Client} (h : c.send env cmdId msg = .ok r) : Quiet c r.2 := by
  have hseq : Quiet c c.getSeq.2 := ⟨rfl, rfl, rfl, rfl, rfl⟩
  obtain ⟨status, data, _, h⟩ := send_ok h
  by_cases hup : status = .kConnectOk
  · rw [if_pos hup] at h
    exact hseq.trans (sendData_quiet h)
  · rw [if_neg hup] at h
    cases h
    exact hseq

end Client

namespace Session

/-- The sessions differ at most in what a call other than `login` and `logout` changes. -/
structure Quiet (s s' : Session) : Prop where
  client : s.client.Quiet s'.client
  lastLoginTime : s'.lastLoginTime = s.lastLoginTime
  lastRecvTime : s'.lastRecvTime = s.lastRecvTime
  loginTimeoutCb : s'.loginTimeoutCb = s.loginTimeoutCb
  made : s'.made = s.made
  past : s'.past = s.past

@[simp] theorem client_withClient (s : Session) (c : Client) : (s.withClient c).client = c := rfl
@[simp] theorem made_withClient (s : Session) (c : Client) : (s.withClient c).made = s.made := rfl
@[simp] theorem past_withClient (s : Session) (c : Client) : (s.withClient c).past = s.past := rfl
@[simp] theorem client_mark (s : Session) (m : Mark) : (s.mark m).client = s.client := rfl
@[simp] theorem made_mark (s : Session) (m : Mark) : (s.mark m).made = s.made := rfl
@[simp] theorem past_mark (s : Session) (m : Mark) : (s.mark m).past = s.past ++ [m] := rfl

theorem quiet_withClient (s : Session) {c : Client} (h : s.client.Quiet c) :
    Quiet s (s.withClient c) :=
  ⟨h, rfl, rfl, rfl, rfl, rfl⟩

/-! ## Logging out and in -/

/-- A session that is not logged in, after `logout`. -/
def loggedOut (s : Session) : Session :=
  (s.withClient { s.client with loginStatus := .kDefault, tcpClient := none }).mark .logout

/-- The connection object `login` leaves behind. -/
def LoginArgs.tcpClient (args : LoginArgs) : TcpClient := TcpClient.new.connect args.connected

/-- A session that is not logged in, after `login`. -/
def loggedIn (s : Session) (args : LoginArgs) (md5 : Bytes) : Session :=
  { s.loggedOut.withClient { s.client with
      loginCb := args.cb
      loginStatus := .kLogining
      tcpClient := some (LoginArgs.tcpClient args) } with
    lastLoginTime := args.now
    loginTimeoutCb := args.timeoutCb
    userName := args.userName
    userPwd := md5
    made := s.made + 1 }.mark .login

/-- Nothing is sent by a `logout` of a session that is not logged in. -/
theorem logout_eq (env : Env) {s : Session} (h : s.client.loginStatus ≠ .kLoginOk) :
    s.logout env = .ok s.loggedOut := by
  simp only [logout, Client.logout, h, if_false, bind, Except.bind, pure, Except.pure]
  rfl

/-- `login` always makes a new connection object, whatever became of the old one. -/
theorem login_eq (env : Env) {s : Session} (args : LoginArgs)
    (h : s.client.loginStatus ≠ .kLoginOk) :
    ∃ md5, s.login env args = .ok (s.loggedIn args md5) := by
  obtain ⟨md5, hmd5⟩ : ∃ md5, MD5.hash (MD5.zeroed .lp64) args.pwd.bytes = .ok md5 :=
    ⟨_, MD5.hash_eq _ args.pwd.length_lt⟩
  refine ⟨asciiBytes md5, ?_⟩
  simp only [login, logout_eq env h, bind, Except.bind, pure, Except.pure, hmd5]
  rfl

@[simp] theorem client_loggedOut (s : Session) : s.loggedOut.client =
    { s.client with loginStatus := .kDefault, tcpClient := none } := rfl

@[simp] theorem past_loggedOut (s : Session) : s.loggedOut.past = s.past ++ [.logout] := rfl

@[simp] theorem made_loggedOut (s : Session) : s.loggedOut.made = s.made := rfl

@[simp] theorem client_loggedIn (s : Session) (args : LoginArgs) (md5 : Bytes) :
    (s.loggedIn args md5).client = { s.client with
      loginCb := args.cb
      loginStatus := .kLogining
      tcpClient := some (LoginArgs.tcpClient args) } := rfl

@[simp] theorem past_loggedIn (s : Session) (args : LoginArgs) (md5 : Bytes) :
    (s.loggedIn args md5).past = s.past ++ [.logout, .login] := by
  show s.past ++ [.logout] ++ [.login] = _
  rw [List.append_assoc]
  rfl

@[simp] theorem made_loggedIn (s : Session) (args : LoginArgs) (md5 : Bytes) :
    (s.loggedIn args md5).made = s.made + 1 := rfl

end Session

/-! ## The public calls -/

open Session

/-- What a public call adds to the past of a session that is not logged in. -/
def ApiCall.marks : ApiCall → List Mark
  | .login _ => [.logout, .login]
  | .logout => [.logout]
  | _ => []

/-- A call other than `login` and `logout` leaves the session as it was. -/
theorem ApiCall.run_quiet {env : Env} {call : ApiCall} {s s' : Session} (hcall : call.marks = [])
    (h : call.run env s = .ok s') : Quiet s s' := by
  cases call with
  | login => cases hcall
  | logout => cases hcall
  | setConnectionCallback | setRecvMsgCallback =>
      cases h
      exact ⟨Client.Quiet.refl _, rfl, rfl, rfl, rfl, rfl⟩
  | connStatus =>
      obtain ⟨_, _, h⟩ := bind_eq_ok.mp h
      cases h
      exact ⟨Client.Quiet.refl _, rfl, rfl, rfl, rfl, rfl⟩
  | sendData data =>
      obtain ⟨r, hr, h⟩ := bind_eq_ok.mp h
      cases h
      exact quiet_withClient s (Client.sendData_quiet hr)
  | send cmdId msg =>
      obtain ⟨r, hr, h⟩ := bind_eq_ok.mp h
      cases h
      exact quiet_withClient s (Client.send_quiet hr)
  | sendMessage toId msg msgData =>
      obtain ⟨kit, hkit, h⟩ := bind_eq_ok.mp h
      cases h
      obtain ⟨r, hr, hkit⟩ := bind_eq_ok.mp hkit
      cases hkit
      exact quiet_withClient s (Client.send_quiet hr)

/-- A public call logs in, logs out, or leaves the session as it was. -/
theorem ApiCall.run_cases {env : Env} {call : ApiCall} {s s' : Session}
    (hout : s.client.loginStatus ≠ .kLoginOk) (h : call.run env s = .ok s') :
    (∃ args md5, call = .login args ∧ s' = s.loggedIn args md5) ∨
      (call = .logout ∧ s' = s.loggedOut) ∨ (call.marks = [] ∧ Quiet s s') := by
  by_cases hcall : call.marks = []
  · exact Or.inr (Or.inr ⟨hcall, run_quiet hcall h⟩)
  · cases call with
    | login args =>
        obtain ⟨md5, hlogin⟩ := login_eq env args hout
        have hs : s' = s.loggedIn args md5 := Except.ok.inj (h.symm.trans hlogin)
        exact Or.inl ⟨args, md5, rfl, hs⟩
    | logout =>
        have hs : s' = s.loggedOut := Except.ok.inj (h.symm.trans (logout_eq env hout))
        exact Or.inr (Or.inl ⟨rfl, hs⟩)
    | setConnectionCallback | setRecvMsgCallback | connStatus | sendData | send | sendMessage =>
        exact absurd rfl hcall

/-- A property of sessions that `login`, `logout` and the quiet calls keep. -/
structure Kept (calls : List ApiCall) (p : Session → Prop) : Prop where
  quiet : ∀ s s', p s → Quiet s s' → p s'
  logout : ∀ s, p s → .logout ∈ calls → p s.loggedOut
  login : ∀ s args md5, p s → .login args ∈ calls → p (s.loggedIn args md5)

/-- No public call logs the session in by itself. -/
theorem ApiCall.run_loginStatus {env : Env} {call : ApiCall} {s s' : Session}
    (hout : s.client.loginStatus ≠ .kLoginOk) (h : call.run env s = .ok s') :
    s'.client.loginStatus ≠ .kLoginOk := by
  rcases run_cases hout h with ⟨args, md5, _, rfl⟩ | ⟨_, rfl⟩ | ⟨_, hquiet⟩
  · simp
  · simp
  · rw [hquiet.client.loginStatus]
    exact hout

/-- A property that `login`, `logout` and the quiet calls keep is kept by any sequence of public
calls. -/
theorem runCalls_induction {env : Env} {calls : List ApiCall} {p : Session → Prop}
    (hp : Kept calls p) {s s' : Session} (hout : s.client.loginStatus ≠ .kLoginOk) (hs : p s)
    (h : runCalls env calls s = .ok s') : p s' ∧ s'.client.loginStatus ≠ .kLoginOk := by
  induction calls generalizing s with
  | nil =>
      cases h
      exact ⟨hs, hout⟩
  | cons call calls ih =>
      obtain ⟨s1, hs1, h⟩ := bind_eq_ok.mp h
      have htail : Kept calls p := {
        quiet := hp.quiet
        logout := fun s hs hmem ↦ hp.logout s hs (List.mem_cons_of_mem _ hmem)
        login := fun s args md5 hs hmem ↦ hp.login s args md5 hs (List.mem_cons_of_mem _ hmem) }
      have hout1 := ApiCall.run_loginStatus hout hs1
      refine ih htail hout1 ?_ h
      rcases ApiCall.run_cases hout hs1 with ⟨args, md5, rfl, rfl⟩ | ⟨rfl, rfl⟩ | ⟨_, hquiet⟩
      · exact hp.login s args md5 hs List.mem_cons_self
      · exact hp.logout s hs List.mem_cons_self
      · exact hp.quiet s s1 hs hquiet

/-- No sequence of public calls logs the session in. -/
theorem runCalls_loginStatus {env : Env} {calls : List ApiCall} {s s' : Session}
    (hout : s.client.loginStatus ≠ .kLoginOk) (h : runCalls env calls s = .ok s') :
    s'.client.loginStatus ≠ .kLoginOk := by
  have hkept : Kept calls (fun _ ↦ True) :=
    ⟨fun _ _ _ _ ↦ trivial, fun _ _ _ ↦ trivial, fun _ _ _ _ _ ↦ trivial⟩
  exact (runCalls_induction hkept hout trivial h).2

/-- What the body of a callback adds to the past. -/
theorem runCalls_past {env : Env} {calls : List ApiCall} {s s' : Session}
    (hout : s.client.loginStatus ≠ .kLoginOk) (h : runCalls env calls s = .ok s') :
    s'.past = s.past ++ calls.flatMap ApiCall.marks := by
  induction calls generalizing s with
  | nil =>
      cases h
      simp
  | cons call calls ih =>
      obtain ⟨s1, hs1, h⟩ := bind_eq_ok.mp h
      have hpast : s1.past = s.past ++ call.marks := by
        rcases ApiCall.run_cases hout hs1 with ⟨args, md5, rfl, rfl⟩ | ⟨rfl, rfl⟩ | ⟨hnil, hquiet⟩
        · simp [ApiCall.marks]
        · simp [ApiCall.marks]
        · rw [hquiet.past, hnil, List.append_nil]
      rw [ih (ApiCall.run_loginStatus hout hs1) h, hpast, List.flatMap_cons, List.append_assoc]

namespace Session

/-! ## The callbacks -/

/-- What invoking a callback adds to the past. -/
def noticeMarks (host : Host) : Option Notice → List Mark
  | some n => .notice n :: (host.script n).flatMap ApiCall.marks
  | none => []

/-- A property that marking the notice and the calls of the script keep is kept by `notify`. -/
theorem notify_induction {host : Host} {n : Option Notice} {p : Session → Prop}
    (hmark : ∀ s m, p s → n = some m → p (s.mark (.notice m)))
    (hp : ∀ m, n = some m → Kept (host.script m) p) {s s' : Session}
    (hout : s.client.loginStatus ≠ .kLoginOk) (hs : p s) (h : s.notify host n = .ok s') :
    p s' ∧ s'.client.loginStatus ≠ .kLoginOk := by
  cases n with
  | none =>
      cases h
      exact ⟨hs, hout⟩
  | some m =>
      exact runCalls_induction (s := s.mark (.notice m)) (hp m rfl) hout (hmark s m hs rfl) h

theorem notify_loginStatus {host : Host} {n : Option Notice} {s s' : Session}
    (hout : s.client.loginStatus ≠ .kLoginOk) (h : s.notify host n = .ok s') :
    s'.client.loginStatus ≠ .kLoginOk := by
  cases n with
  | none =>
      cases h
      exact hout
  | some m => exact runCalls_loginStatus (s := s.mark (.notice m)) hout h

theorem notify_past {host : Host} {n : Option Notice} {s s' : Session}
    (hout : s.client.loginStatus ≠ .kLoginOk) (h : s.notify host n = .ok s') :
    s'.past = s.past ++ noticeMarks host n := by
  cases n with
  | none =>
      cases h
      simp [noticeMarks]
  | some m =>
      have hpast := runCalls_past (s := s.mark (.notice m)) hout h
      rw [hpast, past_mark, List.append_assoc]
      rfl

/-! ## The handlers -/

/-- The outcome `onConnectionStatusChanged` reports when the connection is not up. -/
def lostNotice (s : Session) : Option Notice :=
  if s.client.loginStatus = .kLogining then s.client.loginCb.map (.loginCb · lostRsp) else none

/-- The outcome `onHandleAuthRsp` reports. -/
def rspNotice (s : Session) (rsp : CIMAuthRsp) : Option Notice :=
  s.client.loginCb.map (.loginCb · rsp)

/-- The outcome `onTimer` reports. -/
def timeoutNotice (host : Host) (s : Session) : Option Notice :=
  if s.client.loginStatus = .kLogining ∧
      host.now - s.lastLoginTime > loginTimeout host.config then
    s.loginTimeoutCb.map .loginTimeoutCb
  else none

/-- What the application is told of a status. -/
def statusNotice (s : Session) (conn : Nat) (status : ConnectionStatus) : Option Notice :=
  s.connectionCb.map (.connectionCb · (some conn) status)

/-- When the connection is up, a login request goes out and the application is told. -/
theorem onConnectionStatusChanged_up {host : Host} {conn : Nat} {s s' : Session}
    (h : s.onConnectionStatusChanged host conn .kConnectOk = .ok s') :
    ∃ s1, Quiet s s1 ∧ s1.notify host (s.statusNotice conn .kConnectOk) = .ok s' := by
  unfold onConnectionStatusChanged at h
  obtain ⟨r, hr, h⟩ := bind_eq_ok.mp h
  exact ⟨_, quiet_withClient s (Client.send_quiet hr), h⟩

/-- When it is not up, a pending login is reported as failed, the session is logged out behind
that, and the application is told. -/
theorem onConnectionStatusChanged_lost {host : Host} {conn : Nat} {status : ConnectionStatus}
    {s s' : Session} (hout : s.client.loginStatus ≠ .kLoginOk) (hstatus : status ≠ .kConnectOk)
    (h : s.onConnectionStatusChanged host conn status = .ok s') :
    ∃ s1, (s.mark .disconnect).notify host s.lostNotice = .ok s1 ∧
      s1.loggedOut.notify host (s1.statusNotice conn status) = .ok s' := by
  unfold onConnectionStatusChanged at h
  rw [if_neg hstatus] at h
  obtain ⟨s1, hnotify, h⟩ : ∃ s1, (s.mark .disconnect).notify host s.lostNotice = .ok s1 ∧
      (s1.logout host.toEnv >>= fun s2 ↦ s2.notify host (s2.statusNotice conn status)) =
        .ok s' := by
    unfold lostNotice
    by_cases hin : s.client.loginStatus = .kLogining
    · rw [if_pos hin]
      exact bind_eq_ok.mp ((if_pos hin).symm.trans h)
    · rw [if_neg hin]
      exact ⟨_, rfl, (if_neg hin).symm.trans h⟩
  have hout1 := notify_loginStatus (s := s.mark .disconnect) hout hnotify
  rw [logout_eq _ hout1] at h
  exact ⟨s1, hnotify, h⟩

/-- The session with a parsed response taken from its receive buffer. -/
def took (s : Session) (rsp : CIMAuthRsp) (buffer : Buffer) : Session :=
  { s with kit := s.kit.withBuffer buffer }.mark (.authRsp rsp)

/-- The session `onHandleAuthRsp` shows to the callback. -/
def answered (s : Session) (rsp : CIMAuthRsp) (buffer : Buffer) : Session :=
  if rsp.resultCode ≠ kCIM_ERR_SUCCESS then (s.took rsp buffer).loggedOut else s.took rsp buffer

/-- A response that does not parse is dropped; any other is reported, after a `logout` when it
says that the login failed. -/
theorem onHandleAuthRsp_eq {host : Host} {s : Session}
    (hout : s.client.loginStatus ≠ .kLoginOk) :
    s.onHandleAuthRsp host = (do
      match ← parsePbAndCheck host.authRsp s.client.recvBuffer with
      | none => return s
      | some (rsp, buffer) => (s.answered rsp buffer).notify host (s.rspNotice rsp)) := by
  unfold onHandleAuthRsp
  congr 1
  funext parsed
  cases parsed with
  | none => rfl
  | some r =>
      obtain ⟨rsp, buffer⟩ := r
      have hlogout := logout_eq host.toEnv (s := s.took rsp buffer) hout
      by_cases hfail : rsp.resultCode ≠ kCIM_ERR_SUCCESS
      · simp only [answered, if_pos hfail]
        show (s.took rsp buffer).logout host.toEnv >>= _ = _
        rw [hlogout]
        rfl
      · simp only [answered, if_neg hfail]
        rfl

/-- On `ChatKit` the handler does what that of the receive loop does, when the application of
the loop reacts to the response as the script says. -/
theorem onHandleAuthRsp_kit {host : Host} {s s' : Session}
    (hreact : ∀ id rsp (t t' : Session),
      runCalls host.toEnv (host.script (.loginCb id rsp)) t = .ok t' →
        host.app.react (.loginCb id rsp) t.kit = t'.kit)
    (h : s.onHandleAuthRsp host = .ok s') :
    ∃ calls, Client.onHandleAuthRsp host.toEnv s.kit = .ok (calls, s'.kit) := by
  have hinvoke (rsp : CIMAuthRsp) (t : Session)
      (ht : t.notify host (t.client.loginCb.map (.loginCb · rsp)) = .ok s') :
      ∃ calls, t.kit.invoke host.toEnv (t.kit.client.loginCb.map fun id ↦ .loginCb id rsp) =
        (calls, s'.kit) := by
    cases hcb : t.kit.client.loginCb with
    | none =>
        have hnone : t.client.loginCb = none := hcb
        rw [hnone] at ht
        cases ht
        exact ⟨[], rfl⟩
    | some id =>
        have hsome : t.client.loginCb = some id := hcb
        rw [hsome] at ht
        exact ⟨[.loginCb id rsp], congrArg (Prod.mk _) (hreact id rsp (t.mark _) s' ht)⟩
  unfold onHandleAuthRsp at h
  obtain ⟨parsed, hparsed, h⟩ := bind_eq_ok.mp h
  cases parsed with
  | none =>
      cases h
      exact ⟨[], bind_eq_ok.mpr ⟨none, hparsed, rfl⟩⟩
  | some r =>
      obtain ⟨rsp, buffer⟩ := r
      by_cases hfail : rsp.resultCode ≠ kCIM_ERR_SUCCESS
      · obtain ⟨s1, hs1, h⟩ := bind_eq_ok.mp ((if_pos hfail).symm.trans h)
        obtain ⟨client, hclient, hs1⟩ := bind_eq_ok.mp hs1
        cases hs1
        obtain ⟨calls, hcalls⟩ := hinvoke rsp _ h
        refine ⟨calls, bind_eq_ok.mpr ⟨_, hparsed, (if_pos hfail).trans ?_⟩⟩
        exact bind_eq_ok.mpr ⟨client, hclient, congrArg Except.ok hcalls⟩
      · obtain ⟨calls, hcalls⟩ := hinvoke rsp _ ((if_neg hfail).symm.trans h)
        refine ⟨calls, bind_eq_ok.mpr ⟨_, hparsed, (if_neg hfail).trans ?_⟩⟩
        exact congrArg Except.ok hcalls

/-- A tick reports a login that takes too long, and then checks how long nothing has come. -/
theorem onTimer_bind (host : Host) (s : Session) : s.onTimer host =
    s.notify host (s.timeoutNotice host) >>= fun s1 ↦
      if s1.client.loginStatus = .kLoginOk ∧
          host.now - s1.lastRecvTime > keepAliveTimeout host.config then
        s1.logout host.toEnv >>= fun s2 ↦
          s2.notify host (s2.connectionCb.map (.connectionCb · none .kDisConnected))
      else .ok s1 := by
  unfold onTimer timeoutNotice
  by_cases hlate : s.client.loginStatus = .kLogining ∧
      host.now - s.lastLoginTime > loginTimeout host.config
  · rw [if_pos hlate, if_pos hlate]
    rfl
  · rw [if_neg hlate, if_neg hlate]
    rfl

/-- A tick reports a login that takes too long, and nothing else. -/
theorem onTimer_eq {host : Host} {s s' : Session} (hout : s.client.loginStatus ≠ .kLoginOk)
    (h : s.onTimer host = .ok s') : s.notify host (s.timeoutNotice host) = .ok s' := by
  rw [onTimer_bind] at h
  obtain ⟨s1, hnotify, h⟩ := bind_eq_ok.mp h
  have hout1 := notify_loginStatus hout hnotify
  rw [if_neg (fun hin ↦ hout1 hin.1)] at h
  cases h
  exact hnotify

/-- A session that is logged in is only checked for its keep-alive. -/
theorem onTimer_loggedIn (host : Host) {s : Session} (hin : s.client.loginStatus = .kLoginOk) :
    s.onTimer host =
      if host.now - s.lastRecvTime > keepAliveTimeout host.config then
        s.logout host.toEnv >>= fun s2 ↦
          s2.notify host (s2.connectionCb.map (.connectionCb · none .kDisConnected))
      else .ok s := by
  have hnone : s.timeoutNotice host = none := by
    refine if_neg fun h ↦ ?_
    rw [hin] at h
    cases h.1
  rw [onTimer_bind, hnone]
  show (if s.client.loginStatus = .kLoginOk ∧ _ then _ else _) = _
  simp only [hin, true_and]

/-! ## Steps -/

/-- The parse of a response decides what the macro hands on. -/
theorem parsePbAndCheck_fst {α : Type} {codec : Codec α} {buffer : Buffer}
    {r : Option (α × Buffer)} (h : parsePbAndCheck codec buffer = .ok r) :
    r.map Prod.fst = codec.parseFromArray buffer.contents := by
  unfold parsePbAndCheck at h
  obtain ⟨_, _, h⟩ := bind_eq_ok.mp h
  cases hparse : codec.parseFromArray buffer.contents with
  | none =>
      simp only [hparse] at h
      cases h
      rfl
  | some rsp =>
      simp only [hparse] at h
      obtain ⟨b, _, h⟩ := bind_eq_ok.mp h
      cases h
      rfl

/-- What a step made of a response: nothing, or the answer to it. -/
theorem step_authRsp {host : Host} {s s' : Session} {unread : Buffer}
    (hout : s.client.loginStatus ≠ .kLoginOk) (h : s.step (host, .authRsp unread) = .ok s') :
    (host.authRsp.parseFromArray unread.contents = none ∧
        s' = { s with kit := s.kit.withBuffer unread }) ∨
      ∃ rsp buffer, host.authRsp.parseFromArray unread.contents = some rsp ∧
        (s.answered rsp buffer).notify host (s.rspNotice rsp) = .ok s' := by
  have hstart : ({ s with kit := s.kit.withBuffer unread } : Session).client.loginStatus ≠
      .kLoginOk := hout
  obtain ⟨parsed, hparsed, h⟩ := bind_eq_ok.mp ((onHandleAuthRsp_eq hstart).symm.trans h)
  have hfst := parsePbAndCheck_fst hparsed
  cases parsed with
  | none =>
      cases h
      exact Or.inl ⟨hfst.symm, rfl⟩
  | some r =>
      obtain ⟨rsp, buffer⟩ := r
      exact Or.inr ⟨rsp, buffer, hfst.symm, h⟩

/-- The session once `conn` has changed its own status. -/
def reported (s : Session) (conn : Nat) (status : ConnectionStatus) : Session :=
  s.withClient { s.client with
    tcpClient := if conn = s.made then
        s.client.tcpClient.map ({ · with connectStatus := status })
      else s.client.tcpClient }

/-- A step made of a status `kConnectOk`. -/
theorem step_connection_up {host : Host} {s s' : Session} {conn : Nat}
    (hout : s.client.loginStatus ≠ .kLoginOk)
    (h : s.step (host, .connection conn .kConnectOk) = .ok s') :
    ∃ s1, Quiet (s.reported conn .kConnectOk) s1 ∧ s1.client.loginStatus ≠ .kLoginOk ∧
      s1.notify host (s.statusNotice conn .kConnectOk) = .ok s' := by
  obtain ⟨s1, hquiet, h⟩ := onConnectionStatusChanged_up (s := s.reported conn .kConnectOk) h
  refine ⟨s1, hquiet, ?_, h⟩
  rw [hquiet.client.loginStatus]
  exact hout

/-- A step made of any other status. -/
theorem step_connection_lost {host : Host} {s s' : Session} {conn : Nat}
    {status : ConnectionStatus} (hout : s.client.loginStatus ≠ .kLoginOk)
    (hstatus : status ≠ .kConnectOk) (h : s.step (host, .connection conn status) = .ok s') :
    ∃ s1, ((s.reported conn status).mark .disconnect).notify host s.lostNotice = .ok s1 ∧
      s1.loggedOut.notify host (s1.statusNotice conn status) = .ok s' :=
  onConnectionStatusChanged_lost (s := s.reported conn status) hout hstatus h

theorem answered_loginStatus {s : Session} (hout : s.client.loginStatus ≠ .kLoginOk)
    (rsp : CIMAuthRsp) (buffer : Buffer) :
    (s.answered rsp buffer).client.loginStatus ≠ .kLoginOk := by
  unfold answered
  split
  · simp
  · exact hout

/-- No step logs the session in. -/
theorem step_loginStatus {s s' : Session} {input : Host × Event}
    (hout : s.client.loginStatus ≠ .kLoginOk) (h : s.step input = .ok s') :
    s'.client.loginStatus ≠ .kLoginOk := by
  obtain ⟨host, event⟩ := input
  cases event with
  | call call => exact ApiCall.run_loginStatus hout h
  | connection conn status =>
      by_cases hstatus : status = .kConnectOk
      · subst hstatus
        obtain ⟨s1, _, hout1, h⟩ := step_connection_up hout h
        exact notify_loginStatus hout1 h
      · obtain ⟨s1, _, h⟩ := step_connection_lost hout hstatus h
        exact notify_loginStatus (by simp) h
  | authRsp unread =>
      rcases step_authRsp hout h with ⟨_, rfl⟩ | ⟨rsp, buffer, _, h⟩
      · exact hout
      · exact notify_loginStatus (answered_loginStatus hout rsp buffer) h
  | tick => exact notify_loginStatus hout (onTimer_eq hout h)

/-- A property that every part of a step keeps: the quiet calls, a logout, a login, the marks,
a status the connection reports, and taking a response from the buffer. -/
structure Stable (p : Session → Prop) : Prop where
  quiet : ∀ s s', p s → Quiet s s' → p s'
  logout : ∀ s, p s → p s.loggedOut
  login : ∀ s args md5, p s → p (s.loggedIn args md5)
  notice : ∀ s n, p s → p (s.mark (.notice n))
  disconnect : ∀ s, p s → p (s.mark .disconnect)
  reported : ∀ s conn status, p s → p (s.reported conn status)
  took : ∀ s rsp buffer, p s → p (s.took rsp buffer)
  buffer : ∀ s buffer, p s → p { s with kit := s.kit.withBuffer buffer }

theorem Stable.kept {p : Session → Prop} (hp : Stable p) (calls : List ApiCall) : Kept calls p where
  quiet := hp.quiet
  logout s hs _ := hp.logout s hs
  login s args md5 hs _ := hp.login s args md5 hs

theorem Stable.notify {p : Session → Prop} (hp : Stable p) {host : Host} {n : Option Notice}
    {s s' : Session} (hout : s.client.loginStatus ≠ .kLoginOk) (hs : p s)
    (h : s.notify host n = .ok s') : p s' :=
  (notify_induction (fun s m hs _ ↦ hp.notice s m hs) (fun m _ ↦ hp.kept (host.script m))
    hout hs h).1

/-- Such a property is kept by every step. -/
theorem Stable.step {p : Session → Prop} (hp : Stable p) {s s' : Session} {input : Host × Event}
    (hout : s.client.loginStatus ≠ .kLoginOk) (hs : p s) (h : s.step input = .ok s') : p s' := by
  obtain ⟨host, event⟩ := input
  cases event with
  | call call =>
      exact (runCalls_induction (hp.kept [call]) hout hs (bind_eq_ok.mpr ⟨s', h, rfl⟩)).1
  | connection conn status =>
      have hrep := hp.reported s conn status hs
      by_cases hstatus : status = .kConnectOk
      · subst hstatus
        obtain ⟨s1, hquiet, hout1, h⟩ := step_connection_up hout h
        exact hp.notify hout1 (hp.quiet _ _ hrep hquiet) h
      · obtain ⟨s1, h1, h⟩ := step_connection_lost hout hstatus h
        have hs1 : p s1 := hp.notify (s := (s.reported conn status).mark .disconnect) hout
          (hp.disconnect _ hrep) h1
        exact hp.notify (by simp) (hp.logout s1 hs1) h
  | authRsp unread =>
      rcases step_authRsp hout h with ⟨_, rfl⟩ | ⟨rsp, buffer, _, h⟩
      · exact hp.buffer s unread hs
      · refine hp.notify (answered_loginStatus hout rsp buffer) ?_ h
        have htook := hp.took s rsp buffer hs
        unfold answered
        split
        · exact hp.logout _ htook
        · exact htook
  | tick => exact hp.notify hout hs (onTimer_eq hout h)

/-! ## What a step adds to the past -/

section Past

variable {host : Host} {s s' : Session} (hout : s.client.loginStatus ≠ .kLoginOk)

include hout

theorem step_call_past {call : ApiCall} (h : s.step (host, .call call) = .ok s') :
    s'.past = s.past ++ call.marks := by
  have hrun : runCalls host.toEnv [call] s = .ok s' := bind_eq_ok.mpr ⟨s', h, rfl⟩
  have hpast := runCalls_past hout hrun
  simpa using hpast

theorem step_connection_up_past {conn : Nat}
    (h : s.step (host, .connection conn .kConnectOk) = .ok s') :
    s'.past = s.past ++ noticeMarks host (s.statusNotice conn .kConnectOk) := by
  obtain ⟨s1, hquiet, hout1, h⟩ := step_connection_up hout h
  rw [notify_past hout1 h, hquiet.past]
  rfl

theorem step_connection_lost_past {conn : Nat} {status : ConnectionStatus}
    (hstatus : status ≠ .kConnectOk) (h : s.step (host, .connection conn status) = .ok s') :
    ∃ s1 : Session, s'.past = s.past ++ ([.disconnect] ++ noticeMarks host s.lostNotice ++
      [.logout] ++ noticeMarks host (s1.statusNotice conn status)) := by
  obtain ⟨s1, h1, h⟩ := step_connection_lost hout hstatus h
  have hpast1 := notify_past (s := (s.reported conn status).mark .disconnect) hout h1
  refine ⟨s1, ?_⟩
  rw [notify_past (s := s1.loggedOut) (by simp) h, past_loggedOut, hpast1]
  simp [reported]

/-- A response is marked, then the logout behind a failed one, then the callback. -/
theorem step_authRsp_past {unread : Buffer} (h : s.step (host, .authRsp unread) = .ok s') :
    s'.past = s.past ++ match host.authRsp.parseFromArray unread.contents with
      | none => []
      | some rsp => .authRsp rsp ::
        ((if rsp.resultCode ≠ kCIM_ERR_SUCCESS then [.logout] else []) ++
          noticeMarks host (s.rspNotice rsp)) := by
  rcases step_authRsp hout h with ⟨hparse, rfl⟩ | ⟨rsp, buffer, hparse, h⟩
  · simp [hparse]
  · rw [hparse, notify_past (answered_loginStatus hout rsp buffer) h]
    by_cases hsuccess : rsp.resultCode = kCIM_ERR_SUCCESS
    · simp [answered, hsuccess, took]
    · simp [answered, hsuccess, took]

theorem step_tick_past (h : s.step (host, .tick) = .ok s') :
    s'.past = s.past ++ noticeMarks host (s.timeoutNotice host) :=
  notify_past hout (onTimer_eq hout h)

end Past

/-- The session after the constructors. -/
def fresh : Session where
  kit := ChatKit.fresh none none
  lastLoginTime := 0
  lastRecvTime := 0
  loginTimeoutCb := none
  userName := []
  userPwd := []
  connectionCb := none
  made := 0
  past := []

theorem init_eq : init = .ok fresh := rfl

/-- No reachable session is logged in: nothing ever sets `kLoginOk`. -/
theorem Reachable.loginStatus {s : Session} (h : Reachable s) :
    s.client.loginStatus ≠ .kLoginOk := by
  obtain ⟨start, inputs, hstart, hrun⟩ := h
  cases hstart
  have halways := Run.always_of_invariant step (fun s ↦ s.client.loginStatus ≠ .kLoginOk)
    (s := fresh) (by decide) (fun s x s' hout hs ↦ step_loginStatus hout hs) inputs
  exact halways.last hrun

/-- What every part of a step keeps holds of every reachable session, if it does of the first. -/
theorem Reachable.induction {p : Session → Prop} (hp : Stable p) (hfresh : p fresh) {s : Session}
    (h : Reachable s) : p s := by
  obtain ⟨start, inputs, hstart, hrun⟩ := h
  cases hstart
  have halways := Run.always_of_invariant step
    (fun s ↦ s.client.loginStatus ≠ .kLoginOk ∧ p s) (s := fresh) ⟨by decide, hfresh⟩
    (fun s x s' hs h ↦ ⟨step_loginStatus hs.1 h, hp.step hs.1 hs.2 h⟩) inputs
  exact (halways.last hrun).2

end Session

/-! ## A plain host -/

/-- The generated protobuf classes, the default configuration, and an application whose callbacks
call nothing. -/
def Host.plain (now : UInt64) : Host where
  toEnv := { Env.generated false with now }
  config := {}
  script _ := []

/-- A login with both callbacks set. -/
def LoginArgs.plain (now : UInt64) (connected : Bool) : LoginArgs where
  userName := [0x75]
  pwd := ⟨[0x70], by decide⟩
  cb := some 1
  timeoutCb := some 2
  now := now
  connected := connected

/-- The unread bytes of a response with result code 200 for the user 7. -/
def successRsp : Buffer := ⟨[0x10, 0xc8, 0x01, 0x22, 0x02, 0x08, 0x07], 7, 0, 7, 0⟩

/-- The unread bytes of a response with result code 201. -/
def failureRsp : Buffer := ⟨[0x10, 0xc9, 0x01], 3, 0, 3, 0⟩

end CoffeeChat
