import CoffeeChat.Core.History

/-!
# The connection of a pending login

Two properties of the connection object of a login attempt. A pending login has one that is
connecting or connected, in every run in which `TcpClient::connect` returns true inside every
`login()` (`always_pending_connected`); where it returns false the attempt is left hanging
(`login_failed`). And a `login()` made from the login callback, when an attempt fails, is in force
behind the event exactly when the failure was a response and not a lost connection
(`retry_inForce_iff`): the one path logs out before it calls back, the other behind.
-/

namespace CoffeeChat

open Lib

namespace Session

/-! ## Pending logins -/

/-- A pending login has a connection that is connecting or connected. -/
def PendingConnected (s : Session) : Prop :=
  s.client.loginStatus = .kLogining → ∃ tcp, s.client.tcpClient = some tcp ∧
    (tcp.connectStatus = .kConnecting ∨ tcp.connectStatus = .kConnectOk)

/-- Every `login()` that is made in the step, by the application itself or by a callback that is
invoked, has its `connect` return true. -/
def Connects : Session → Host × Event → Prop :=
  Makes fun _ call ↦ ∀ args, call = .login args → args.connected = true

theorem PendingConnected.of_quiet {s s' : Session} (h : PendingConnected s) (hq : Quiet s s') :
    PendingConnected s' := by
  intro hin
  rw [hq.client.loginStatus] at hin
  obtain ⟨tcp, htcp, hstatus⟩ := h hin
  obtain ⟨tcp', htcp', heq⟩ := hq.client.tcpClient_eq_some htcp
  rw [← heq] at hstatus
  exact ⟨tcp', htcp', hstatus⟩

theorem pendingConnected_loggedOut (s : Session) : PendingConnected s.loggedOut :=
  fun hin ↦ by simp at hin

theorem pendingConnected_loggedIn (s : Session) {args : LoginArgs} (md5 : Bytes)
    (h : args.connected = true) : PendingConnected (s.loggedIn args md5) := by
  intro _
  exact ⟨_, rfl, Or.inl (by simp [LoginArgs.tcpClient, TcpClient.connect, h])⟩

/-- A connection that comes up serves a pending login as well as one that is coming up. -/
theorem PendingConnected.reported {s : Session} (hs : PendingConnected s) (conn : Nat) :
    PendingConnected (s.reported conn .kConnectOk) := by
  intro hin
  obtain ⟨tcp, htcp, hstatus⟩ := hs hin
  by_cases hconn : conn = s.made
  · exact ⟨{ tcp with connectStatus := .kConnectOk }, by simp [Session.reported, hconn, htcp],
      Or.inr rfl⟩
  · exact ⟨tcp, by simp [Session.reported, hconn, htcp], hstatus⟩

/-- A pending login is kept connected by logins that connect. -/
theorem PendingConnected.said : Said (fun _ call ↦ ∀ args, call = .login args →
    args.connected = true) fun _ ↦ PendingConnected where
  call _ _ _ _ _ _ hquiet _ hs h := hs.of_quiet (ApiCall.run_quiet hquiet h)
  -- whatever the login callback has done, the session is logged out behind it
  logout _ s := pendingConnected_loggedOut s
  login _ _ s _ _ hconnected _ := pendingConnected_loggedIn s _ (hconnected _ rfl)
  up _ _ _ conn _ hs hr :=
    (hs.reported conn).of_quiet (quiet_withClient _ (Client.send_quiet hr))
  notice _ _ _ hs := hs
  took _ _ _ _ hs := hs
  buffer _ _ _ hs := hs

/-- A `login()` whose `connect` returns false leaves a pending login without a connection. -/
theorem login_failed {env : Env} {args : LoginArgs} {s s' : Session}
    (hout : s.client.loginStatus ≠ .kLoginOk) (hfailed : args.connected = false)
    (h : s.login env args = .ok s') : ¬ PendingConnected s' := by
  obtain ⟨md5, hlogin⟩ := login_eq env args hout
  cases h.symm.trans hlogin
  intro hs
  obtain ⟨tcp, htcp, hstatus⟩ := hs rfl
  have htcp' : tcp = LoginArgs.tcpClient args := (Option.some.inj htcp).symm
  rw [htcp'] at hstatus
  simp [LoginArgs.tcpClient, TcpClient.connect, hfailed] at hstatus

/-- From the constructors on, a pending login always has a connection that is connecting or
connected in the runs in which every `connect` made inside a `login()` returns true; and a
`login()` whose `connect` returns false always leaves one that has not. -/
theorem always_pending_connected (inputs : List (Host × Event)) : ∃ start, init = .ok start ∧
    (Run.Along Connects step start inputs →
      Run.Always PendingConnected step start inputs) ∧
    ∀ s env args s', Run.exec step start inputs = .ok s → args.connected = false →
      s.login env args = .ok s' → ¬ PendingConnected s' := by
  refine ⟨fresh, init_eq, fun halong ↦ ?_, ?_⟩
  · have hfresh : PendingConnected fresh := fun hin ↦ by cases hin
    exact Recorded.always_state_iff.mp (PendingConnected.said.always_of_along hfresh halong)
  · intro s env args s' hrun hfailed h
    exact login_failed (Reachable.loginStatus ⟨fresh, inputs, init_eq, hrun⟩) hfailed h

/-- A `login()` whose `connect` returns false. -/
theorem not_always_pending_connected :
    ¬ ∀ inputs, Run.Always PendingConnected step fresh inputs := by
  intro h
  obtain ⟨final, hrun, hview⟩ := Run.exec_of_view step
    (fun s ↦ (s.client.loginStatus, s.client.tcpClient)) fresh
    [(.plain 0, .call (.login (.plain 0 false)))]
    (v := (.kLogining, some ⟨.kDisConnected, []⟩)) (by decide +kernel)
  obtain ⟨hstatus, htcp⟩ := Prod.mk.inj hview
  obtain ⟨tcp, htcp', hup⟩ := (h _).last hrun hstatus
  cases htcp.symm.trans htcp'
  simp at hup

/-! ## A retry from the login callback -/

/-- The event ends a pending login in failure, and this is what the login callback is given. -/
inductive Fails (host : Host) : Event → CIMAuthRsp → Prop where
  | response {unread : Buffer} {rsp : CIMAuthRsp} :
      host.authRsp.parseFromArray unread.contents = some rsp →
      rsp.resultCode ≠ kCIM_ERR_SUCCESS → Fails host (.authRsp unread) rsp
  | lost {conn : Nat} {status : ConnectionStatus} :
      status ≠ .kConnectOk → Fails host (.connection conn status) lostRsp

/-- Whether a call is a `login()`. -/
def isLogin : ApiCall → Bool
  | .login _ => true
  | _ => false

/-- A body of the login callback that calls `login()` again, with a `connect` that succeeds, and
does not take it back. -/
structure Retry (calls : List ApiCall) where
  before : List ApiCall
  args : LoginArgs
  after : List ApiCall
  calls_eq : calls = before ++ .login args :: after
  connected : args.connected = true
  after_quiet : ∀ call ∈ after, call.marks = []

/-- The number of the connection object the retry opens, when it starts from `s`. -/
def Retry.conn {calls : List ApiCall} (r : Retry calls) (s : Session) : Nat :=
  s.made + r.before.countP isLogin + 1

/-- A login is pending over the connection object `conn`, which is not closed. -/
def InForce (s : Session) (conn : Nat) : Prop :=
  s.client.loginStatus = .kLogining ∧ s.made = conn ∧
    ∃ tcp, s.client.tcpClient = some tcp ∧ tcp.connectStatus ≠ .kDisConnected

theorem runCalls_append {env : Env} (calls calls' : List ApiCall) (s : Session) :
    runCalls env (calls ++ calls') s = runCalls env calls s >>= runCalls env calls' := by
  induction calls generalizing s with
  | nil => rfl
  | cons call calls ih =>
      simp only [List.cons_append, runCalls, ih]
      cases call.run env s <;> rfl

/-- Every `login()` makes one connection object, and nothing else does. -/
theorem runCalls_made {env : Env} {calls : List ApiCall} {s s' : Session}
    (hout : s.client.loginStatus ≠ .kLoginOk) (h : runCalls env calls s = .ok s') :
    s'.made = s.made + calls.countP isLogin := by
  induction calls generalizing s with
  | nil =>
      cases h
      rfl
  | cons call calls ih =>
      obtain ⟨s1, hs1, h⟩ := bind_eq_ok.mp h
      have hmade : s1.made = s.made + if isLogin call then 1 else 0 := by
        rcases ApiCall.run_cases hout hs1 with ⟨args, md5, rfl, rfl⟩ | ⟨rfl, rfl⟩ | ⟨hnil, hquiet⟩
        · rfl
        · rfl
        · have hlogin : isLogin call = false := by
            cases call <;> first | rfl | simp [ApiCall.marks] at hnil
          rw [hquiet.made, hlogin]
          rfl
      rw [ih (ApiCall.run_loginStatus hout hs1) h, hmade, List.countP_cons, Nat.add_assoc,
        Nat.add_comm (List.countP _ _)]

/-- Calls that neither log in nor out leave an attempt in force. -/
theorem kept_inForce {calls : List ApiCall} (h : ∀ call ∈ calls, call.marks = []) (conn : Nat) :
    Kept calls (InForce · conn) where
  quiet s s' hs hq := by
    obtain ⟨hin, hmade, tcp, htcp, hopen⟩ := hs
    obtain ⟨tcp', htcp', heq⟩ := hq.client.tcpClient_eq_some htcp
    rw [← heq] at hopen
    exact ⟨hq.client.loginStatus.trans hin, hq.made.trans hmade, tcp', htcp', hopen⟩
  logout s _ hmem := by cases h _ hmem
  login s args _ _ hmem := by cases h _ hmem

/-- The retry is in force when the callback returns. -/
theorem Retry.inForce {env : Env} {calls : List ApiCall} (r : Retry calls) {s s' : Session}
    (hout : s.client.loginStatus ≠ .kLoginOk) (h : runCalls env calls s = .ok s') :
    InForce s' (r.conn s) := by
  rw [r.calls_eq, runCalls_append] at h
  obtain ⟨s1, hs1, h⟩ := bind_eq_ok.mp h
  obtain ⟨s2, hs2, h⟩ := bind_eq_ok.mp h
  have hout1 := runCalls_loginStatus hout hs1
  have hmade1 := runCalls_made hout hs1
  obtain ⟨md5, hlogin⟩ := login_eq env r.args hout1
  cases (show s1.login env r.args = .ok s2 from hs2).symm.trans hlogin
  refine (runCalls_induction (kept_inForce r.after_quiet _) (by simp) ?_ h).1
  refine ⟨rfl, ?_, _, rfl, ?_⟩
  · rw [made_loggedIn, hmade1, Retry.conn]
  · simp [LoginArgs.tcpClient, TcpClient.connect, r.connected]

/-- No connection object made so far is held any more. -/
def LetGo (conn : Nat) (s : Session) : Prop :=
  (s.client.tcpClient = none ∧ s.made = conn) ∨ conn < s.made

/-- What is let go is not taken back by any call. -/
theorem kept_letGo (calls : List ApiCall) (conn : Nat) : Kept calls (LetGo conn) where
  quiet s s' hs hq := by
    rcases hs with ⟨hnone, hmade⟩ | hlt
    · refine Or.inl ⟨?_, hq.made.trans hmade⟩
      have hmap := hq.client.connStatus
      rw [hnone] at hmap
      exact Option.map_eq_none_iff.mp hmap
    · exact Or.inr (hq.made.symm ▸ hlt)
  logout s hs _ := by
    rcases hs with ⟨_, hmade⟩ | hlt
    · exact Or.inl ⟨rfl, hmade⟩
    · exact Or.inr hlt
  login s args md5 hs _ := by
    rcases hs with ⟨_, hmade⟩ | hlt
    · exact Or.inr (by rw [made_loggedIn]; omega)
    · exact Or.inr (by rw [made_loggedIn]; omega)

/-- From every reachable session with a pending login, for every event that ends it in failure
and a login callback that calls `login()` again with success: behind the event the new attempt is
in force exactly when the failure was a response. -/
theorem retry_inForce_iff {s s' : Session} (hs : Reachable s)
    (hin : s.client.loginStatus = .kLogining) {host : Host} {event : Event} {rsp : CIMAuthRsp}
    (hfails : Fails host event rsp) {id : CallbackId} (hcb : s.client.loginCb = some id)
    (retry : Retry (host.script (.loginCb id rsp))) (h : s.step (host, event) = .ok s') :
    InForce s' (retry.conn s) ↔ ∃ unread, event = .authRsp unread := by
  have hout := hs.loginStatus
  cases hfails with
  | @response unread rsp hparse hcode =>
      refine iff_of_true ?_ ⟨unread, rfl⟩
      rcases step_authRsp hout h with ⟨hnone, _⟩ | ⟨rsp', buffer, hparse', h⟩
      · cases hnone.symm.trans hparse
      · cases hparse.symm.trans hparse'
        -- the logout comes first, so the callback has the last word
        have hnotice : s.rspNotice rsp = some (.loginCb id rsp) := by simp [rspNotice, hcb]
        have hanswered : s.answered rsp buffer = (s.took rsp buffer).loggedOut := if_pos hcode
        rw [hnotice, hanswered] at h
        exact retry.inForce (s := (s.took rsp buffer).loggedOut.mark _) (by simp) h
  | @lost conn status hstatus =>
      refine iff_of_false ?_ (by simp)
      obtain ⟨s1, h1, h⟩ := step_connection_lost hout hstatus h
      have hnotice : s.lostNotice = some (.loginCb id lostRsp) := by simp [lostNotice, hin, hcb]
      rw [hnotice] at h1
      have hforce : InForce s1 (retry.conn s) :=
        retry.inForce (s := ((s.reported conn status).mark .disconnect).mark _) hout h1
      -- the logout behind the callback lets the new connection go
      have hgone : LetGo (retry.conn s) s1.loggedOut := Or.inl ⟨rfl, hforce.2.1⟩
      have hend := (notify_induction (p := LetGo (retry.conn s)) (fun _ _ hs _ ↦ hs)
        (fun m _ ↦ kept_letGo (host.script m) _) (by simp) hgone h).1
      rintro ⟨_, hmade, tcp, htcp, _⟩
      rcases hend with ⟨hnone, _⟩ | hlt
      · cases hnone.symm.trans htcp
      · omega

/-- An application that answers every outcome of a login with another one. -/
def retryingHost : Host where
  toEnv := { Env.generated false with now := 1 }
  config := {}
  script
    | .loginCb _ _ => [.login (.plain 1 true)]
    | _ => []

def plainRetry (rsp : CIMAuthRsp) : Retry (retryingHost.script (.loginCb 1 rsp)) where
  before := []
  args := .plain 1 true
  after := []
  calls_eq := rfl
  connected := rfl
  after_quiet := nofun

/-- A pending login. -/
theorem exists_pending : ∃ s, Run.exec step fresh [(.plain 0, .call (.login (.plain 0 true)))] =
    .ok s ∧ s.client.loginStatus = .kLogining ∧ s.client.loginCb = some 1 ∧ s.made = 1 := by
  obtain ⟨s, hrun, hview⟩ := Run.exec_of_view step
    (fun s ↦ (s.client.loginStatus, s.client.loginCb, s.made)) fresh
    [(.plain 0, .call (.login (.plain 0 true)))]
    (v := (.kLogining, some 1, 1)) (by decide +kernel)
  simp only [Prod.mk.injEq] at hview
  exact ⟨s, hrun, hview⟩

/-- A retry behind a response with code 201 is in force. -/
theorem retry_inForce_response : ∃ s s', Run.exec step fresh
    [(.plain 0, .call (.login (.plain 0 true)))] = .ok s ∧
      s.step (retryingHost, .authRsp failureRsp) = .ok s' ∧ InForce s' 2 := by
  obtain ⟨s, hrun, hin, hcb, hmade⟩ := exists_pending
  obtain ⟨s', hrun', _⟩ := Run.exec_of_view step (·.made) fresh
    [(.plain 0, .call (.login (.plain 0 true))), (retryingHost, .authRsp failureRsp)] (v := 2)
    (by decide +kernel)
  have hstep := (Run.exec_concat_eq_ok hrun).mp hrun'
  have hfails : Fails retryingHost (.authRsp failureRsp) { resultCode := 201 } :=
    .response (by decide +kernel) (by decide)
  have hconn : (plainRetry { resultCode := 201 }).conn s = 2 := by rw [Retry.conn, hmade]; rfl
  refine ⟨s, s', hrun, hstep, ?_⟩
  rw [← hconn]
  exact (retry_inForce_iff ⟨fresh, _, init_eq, hrun⟩ hin hfails hcb (plainRetry _) hstep).mpr
    ⟨failureRsp, rfl⟩

/-- A retry behind a lost connection is not. -/
theorem not_retry_inForce : ¬ ∀ (s s' : Session) (host : Host) (event : Event) (rsp : CIMAuthRsp)
    (id : CallbackId) (retry : Retry (host.script (.loginCb id rsp))), Reachable s →
    s.client.loginStatus = .kLogining → Fails host event rsp → s.client.loginCb = some id →
    s.step (host, event) = .ok s' → InForce s' (retry.conn s) := by
  intro h
  obtain ⟨s, hrun, hin, hcb, _⟩ := exists_pending
  obtain ⟨s', hrun', htcp⟩ := Run.exec_of_view step (·.client.tcpClient) fresh
    [(.plain 0, .call (.login (.plain 0 true))), (retryingHost, .connection 1 .kDisConnected)]
    (v := none) (by decide +kernel)
  have hstep := (Run.exec_concat_eq_ok hrun).mp hrun'
  obtain ⟨_, _, tcp, htcp', _⟩ := h s s' retryingHost (.connection 1 .kDisConnected) lostRsp 1
    (plainRetry lostRsp) ⟨fresh, _, init_eq, hrun⟩ hin (.lost (by decide)) hcb hstep
  cases htcp.symm.trans htcp'

end Session

end CoffeeChat
