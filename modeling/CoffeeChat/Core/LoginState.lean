import CoffeeChat.Core.SessionLemmas

/-!
# What the login status says

`LoggedInAs past userId` is what `kLoginOk` is meant to say of a session with that past: the
latest `login()` was answered by a successful response of that user, and nothing has undone it.
The code never sets `kLoginOk`, so the status says the right thing exactly in those runs in which
no response ever makes it true (`right_iff_not_confirms`, the step; `always_right_iff`, the run).
-/

namespace CoffeeChat

open Lib

/-! ## The meaning of `kLoginOk` -/

/-- `user_info().user_id()`; a message without user information has the default one. -/
def CIMAuthRsp.userId (rsp : CIMAuthRsp) : UInt64 := (rsp.userInfo.getD {}).userId

/-- A callback was invoked. -/
def Mark.IsNotice (m : Mark) : Prop := ∃ n, m = .notice n

/-- A login response said that the login succeeded. -/
def Mark.Succeeds (m : Mark) : Prop :=
  ∃ rsp, m = .authRsp rsp ∧ rsp.resultCode = kCIM_ERR_SUCCESS

/-- Since the latest `login()` a response has said that the login of this user succeeded, and no
`logout()`, failed response or disconnect has followed it. -/
def LoggedInAs (past : List Mark) (userId : UInt64) : Prop :=
  ∃ before rsp after, past = before ++ .authRsp rsp :: after ∧ .login ∈ before ∧
    rsp.resultCode = kCIM_ERR_SUCCESS ∧ rsp.userId = userId ∧ ∀ m ∈ after, m.IsNotice

/-- Marks other than a successful response confirm no login; they keep one only if they are
callbacks. -/
theorem loggedInAs_append {past ms : List Mark} {userId : UInt64} (h : ∀ m ∈ ms, ¬ m.Succeeds) :
    LoggedInAs (past ++ ms) userId ↔ LoggedInAs past userId ∧ ∀ m ∈ ms, m.IsNotice := by
  constructor
  · rintro ⟨before, rsp, after, hpast, hlogin, hsuccess, huser, hafter⟩
    rcases List.append_eq_append_iff.mp hpast with ⟨as, _, hms⟩ | ⟨bs, hbs, hrest⟩
    · exact absurd ⟨rsp, rfl, hsuccess⟩ (h (.authRsp rsp) (by rw [hms]; simp))
    · cases bs with
      | nil =>
          rw [List.nil_append] at hrest
          exact absurd ⟨rsp, rfl, hsuccess⟩ (h (.authRsp rsp) (by rw [← hrest]; simp))
      | cons m bs =>
          rw [List.cons_append, List.cons.injEq] at hrest
          obtain ⟨rfl, rfl⟩ := hrest
          refine ⟨⟨before, rsp, bs, hbs, hlogin, hsuccess, huser, ?_⟩, ?_⟩
          · intro m hm
            exact hafter m (List.mem_append_left _ hm)
          · intro m hm
            exact hafter m (List.mem_append_right _ hm)
  · rintro ⟨⟨before, rsp, after, rfl, hlogin, hsuccess, huser, hafter⟩, hms⟩
    refine ⟨before, rsp, after ++ ms, by simp, hlogin, hsuccess, huser, ?_⟩
    intro m hm
    rcases List.mem_append.mp hm with hm | hm
    · exact hafter m hm
    · exact hms m hm

/-- A successful response confirms the login if there was one and only callbacks follow. -/
theorem loggedInAs_response {past ms : List Mark} {rsp : CIMAuthRsp} {userId : UInt64}
    (hsuccess : rsp.resultCode = kCIM_ERR_SUCCESS) (h : ∀ m ∈ ms, ¬ m.Succeeds) :
    LoggedInAs (past ++ .authRsp rsp :: ms) userId ↔
      .login ∈ past ∧ rsp.userId = userId ∧ ∀ m ∈ ms, m.IsNotice := by
  constructor
  · rintro ⟨before, rsp', after, hpast, hlogin, hsuccess', huser, hafter⟩
    rcases List.append_eq_append_iff.mp hpast with ⟨as, hbefore, hrest⟩ | ⟨bs, hbs, hrest⟩
    · cases as with
      | nil =>
          rw [List.append_nil] at hbefore
          rw [List.nil_append, List.cons.injEq, Mark.authRsp.injEq] at hrest
          obtain ⟨rfl, rfl⟩ := hrest
          subst hbefore
          exact ⟨hlogin, huser, hafter⟩
      | cons m as =>
          rw [List.cons_append, List.cons.injEq] at hrest
          exact absurd ⟨rsp', rfl, hsuccess'⟩ (h (.authRsp rsp') (by rw [hrest.2]; simp))
    · cases bs with
      | nil =>
          rw [List.append_nil] at hbs
          rw [List.nil_append, List.cons.injEq, Mark.authRsp.injEq] at hrest
          obtain ⟨rfl, rfl⟩ := hrest
          subst hbs
          exact ⟨hlogin, huser, hafter⟩
      | cons m bs =>
          rw [List.cons_append, List.cons.injEq] at hrest
          obtain ⟨n, hn⟩ := hafter (.authRsp rsp) (by rw [hrest.2]; simp)
          cases hn
  · rintro ⟨hlogin, huser, hms⟩
    exact ⟨past, rsp, ms, rfl, hlogin, hsuccess, huser, hms⟩

/-! ## The marks of one step -/

/-- The calls that `LoggedInAs` counts as undoing a login. -/
def ApiCall.Undoes (call : ApiCall) : Prop := call = .logout ∨ ∃ args, call = .login args

theorem ApiCall.marks_eq_nil_iff {call : ApiCall} : call.marks = [] ↔ ¬ call.Undoes := by
  cases call <;> simp [marks, Undoes]

/-- A public call leaves no response in the past, nor a callback. -/
theorem ApiCall.not_isNotice {call : ApiCall} {m : Mark} (hm : m ∈ call.marks) :
    ¬ m.Succeeds ∧ ¬ m.IsNotice := by
  have hcases : m = .login ∨ m = .logout := by
    cases call <;> simp [marks] at hm <;> tauto
  rcases hcases with rfl | rfl <;> simp [Mark.Succeeds, Mark.IsNotice]

theorem not_succeeds_noticeMarks {host : Host} {n : Option Notice} :
    ∀ m ∈ Session.noticeMarks host n, ¬ m.Succeeds := by
  intro m hm
  cases n with
  | none => simp [Session.noticeMarks] at hm
  | some n =>
      rcases List.mem_cons.mp hm with rfl | hm
      · simp [Mark.Succeeds]
      · obtain ⟨call, _, hm⟩ := List.mem_flatMap.mp hm
        exact (ApiCall.not_isNotice hm).1

/-- A callback leaves nothing but itself exactly when its body undoes no login. -/
theorem isNotice_noticeMarks_iff {host : Host} {n : Option Notice} :
    (∀ m ∈ Session.noticeMarks host n, m.IsNotice) ↔
      ∀ m, n = some m → ∀ call ∈ host.script m, ¬ call.Undoes := by
  cases n with
  | none => simp [Session.noticeMarks]
  | some n =>
      simp only [Session.noticeMarks, List.mem_cons, forall_eq_or_imp, Option.some.injEq,
        forall_eq']
      constructor
      · rintro ⟨_, hrest⟩ call hcall
        rw [← ApiCall.marks_eq_nil_iff, List.eq_nil_iff_forall_not_mem]
        intro m hm
        exact (ApiCall.not_isNotice hm).2 (hrest m (List.mem_flatMap.mpr ⟨call, hcall, hm⟩))
      · intro hscript
        refine ⟨⟨n, rfl⟩, fun m hm ↦ ?_⟩
        obtain ⟨call, hcall, hm⟩ := List.mem_flatMap.mp hm
        rw [ApiCall.marks_eq_nil_iff.mpr (hscript call hcall)] at hm
        cases hm

namespace Session

/-! ## Runs -/

/-- The login status says what it means, and the user is that of the response. -/
def LoginStateRight (s : Session) : Prop :=
  (s.client.loginStatus = .kLoginOk ↔ ∃ userId, LoggedInAs s.past userId) ∧
    ∀ userId, LoggedInAs s.past userId → s.client.userId = userId

/-- The step handles a successful response, after a `login()`, and the login callback does not
call `login` or `logout`. -/
def Confirms (s : Session) (input : Host × Event) : Prop :=
  ∃ unread rsp, input.2 = .authRsp unread ∧
    input.1.authRsp.parseFromArray unread.contents = some rsp ∧
    rsp.resultCode = kCIM_ERR_SUCCESS ∧ .login ∈ s.past ∧
    ∀ id, s.client.loginCb = some id → ∀ call ∈ input.1.script (.loginCb id rsp), ¬ call.Undoes

/-- Of a session that is not logged in the status is right exactly when it should not be. -/
theorem loginStateRight_iff {s : Session} (hout : s.client.loginStatus ≠ .kLoginOk) :
    LoginStateRight s ↔ ∀ userId, ¬ LoggedInAs s.past userId := by
  constructor
  · rintro ⟨hiff, _⟩ userId h
    exact hout (hiff.mpr ⟨userId, h⟩)
  · intro h
    refine ⟨iff_of_false hout ?_, fun userId hin ↦ absurd hin (h userId)⟩
    rintro ⟨userId, hin⟩
    exact h userId hin

/-- A step that adds no successful response confirms nothing. -/
theorem not_loggedInAs_append {s s' : Session} {ms : List Mark}
    (hpast : s'.past = s.past ++ ms) (hms : ∀ m ∈ ms, ¬ m.Succeeds)
    (h : ∀ userId, ¬ LoggedInAs s.past userId) (userId : UInt64) :
    ¬ LoggedInAs s'.past userId := by
  rw [hpast, loggedInAs_append hms]
  exact fun hin ↦ h userId hin.1

/-- A step other than a parsed response adds no successful response to the past. -/
theorem step_past {s s' : Session} {input : Host × Event}
    (hout : s.client.loginStatus ≠ .kLoginOk) (h : s.step input = .ok s')
    (hevent : ∀ unread rsp, input.2 = .authRsp unread →
      input.1.authRsp.parseFromArray unread.contents ≠ some rsp) :
    ∃ ms, s'.past = s.past ++ ms ∧ ∀ m ∈ ms, ¬ m.Succeeds := by
  obtain ⟨host, event⟩ := input
  cases event with
  | call call =>
      exact ⟨call.marks, step_call_past hout h, fun m hm ↦ (ApiCall.not_isNotice hm).1⟩
  | connection conn status =>
      by_cases hstatus : status = .kConnectOk
      · subst hstatus
        exact ⟨_, step_connection_up_past hout h, not_succeeds_noticeMarks⟩
      · obtain ⟨s1, hpast⟩ := step_connection_lost_past hout hstatus h
        refine ⟨_, hpast, fun m hm ↦ ?_⟩
        simp only [List.mem_append, List.mem_singleton] at hm
        rcases hm with ((rfl | hm) | rfl) | hm
        · simp [Mark.Succeeds]
        · exact not_succeeds_noticeMarks m hm
        · simp [Mark.Succeeds]
        · exact not_succeeds_noticeMarks m hm
  | authRsp unread =>
      cases hparse : host.authRsp.parseFromArray unread.contents with
      | none =>
          have hpast := step_authRsp_past hout h
          rw [hparse] at hpast
          exact ⟨[], hpast, by simp⟩
      | some rsp => exact absurd hparse (hevent unread rsp rfl)
  | tick => exact ⟨_, step_tick_past hout h, not_succeeds_noticeMarks⟩

/-- The body of the login callback undoes nothing exactly when only the callback is marked. -/
theorem isNotice_rspNotice_iff {host : Host} {s : Session} {rsp : CIMAuthRsp} :
    (∀ m ∈ noticeMarks host (s.rspNotice rsp), m.IsNotice) ↔
      ∀ id, s.client.loginCb = some id →
        ∀ call ∈ host.script (.loginCb id rsp), ¬ call.Undoes := by
  rw [isNotice_noticeMarks_iff, rspNotice]
  cases s.client.loginCb <;> simp

/-- A step made of a parsed response confirms a login exactly when the past says so. -/
theorem confirms_iff {host : Host} {s s' : Session} {unread : Buffer} {rsp : CIMAuthRsp}
    (hout : s.client.loginStatus ≠ .kLoginOk) (hnone : ∀ userId, ¬ LoggedInAs s.past userId)
    (h : s.step (host, .authRsp unread) = .ok s')
    (hparse : host.authRsp.parseFromArray unread.contents = some rsp) :
    Confirms s (host, .authRsp unread) ↔ ∃ userId, LoggedInAs s'.past userId := by
  have hpast := step_authRsp_past hout h
  simp only [hparse] at hpast
  by_cases hsuccess : rsp.resultCode = kCIM_ERR_SUCCESS
  · rw [if_neg (not_not.mpr hsuccess), List.nil_append] at hpast
    constructor
    · rintro ⟨_, rsp', hevent, hparse', _, hlogin, hscript⟩
      cases hevent
      cases hparse.symm.trans hparse'
      refine ⟨rsp.userId, ?_⟩
      rw [hpast, loggedInAs_response hsuccess not_succeeds_noticeMarks]
      exact ⟨hlogin, rfl, isNotice_rspNotice_iff.mpr hscript⟩
    · rintro ⟨userId, hin⟩
      rw [hpast, loggedInAs_response hsuccess not_succeeds_noticeMarks] at hin
      obtain ⟨hlogin, _, hnotices⟩ := hin
      exact ⟨unread, rsp, rfl, hparse, hsuccess, hlogin, isNotice_rspNotice_iff.mp hnotices⟩
  · -- a failed response confirms nothing
    refine iff_of_false ?_ ?_
    · rintro ⟨_, rsp', hevent, hparse', hsuccess', _⟩
      cases hevent
      cases hparse.symm.trans hparse'
      exact hsuccess hsuccess'
    · rintro ⟨userId, hin⟩
      refine not_loggedInAs_append hpast (fun m hm ↦ ?_) hnone userId hin
      simp only [if_pos hsuccess, List.mem_cons, List.mem_append, List.not_mem_nil, or_false] at hm
      rcases hm with rfl | rfl | hm
      · simp [Mark.Succeeds, hsuccess]
      · simp [Mark.Succeeds]
      · exact not_succeeds_noticeMarks m hm

/-- One step: a right status stays right exactly when the step does not confirm a login. -/
theorem right_iff_not_confirms {s s' : Session} {input : Host × Event}
    (hout : s.client.loginStatus ≠ .kLoginOk) (hright : LoginStateRight s)
    (h : s.step input = .ok s') : LoginStateRight s' ↔ ¬ Confirms s input := by
  rw [loginStateRight_iff hout] at hright
  rw [loginStateRight_iff (step_loginStatus hout h), ← not_exists]
  by_cases hparsed : ∃ unread rsp, input.2 = .authRsp unread ∧
      input.1.authRsp.parseFromArray unread.contents = some rsp
  · obtain ⟨host, event⟩ := input
    obtain ⟨unread, rsp, rfl, hparse⟩ := hparsed
    rw [confirms_iff hout hright h hparse]
  · obtain ⟨ms, hpast, hms⟩ := step_past hout h fun unread rsp hevent hparse ↦
      hparsed ⟨unread, rsp, hevent, hparse⟩
    have hnone := not_loggedInAs_append hpast hms hright
    refine iff_of_true (not_exists.mpr hnone) ?_
    rintro ⟨unread, rsp, hevent, hparse, _⟩
    exact hparsed ⟨unread, rsp, hevent, hparse⟩

/-- The constructors make a session whose status says the right thing. -/
theorem fresh_right : LoginStateRight fresh := by
  refine (loginStateRight_iff (by decide)).mpr ?_
  intro userId h
  obtain ⟨before, rsp, after, hpast, _⟩ := h
  cases before <;> cases hpast

/-- From the constructors on, the login status always says what it means exactly in the runs in
which no step confirms a login. -/
theorem always_right_iff (inputs : List (Host × Event)) : ∃ start, init = .ok start ∧
    (Run.Always LoginStateRight step start inputs ↔
      Run.Along (fun s input ↦ ¬ Confirms s input) step start inputs) := by
  refine ⟨fresh, init_eq, ?_⟩
  exact Run.always_iff_along (fun s ↦ s.client.loginStatus ≠ .kLoginOk) (by decide)
    fresh_right (fun s x s' hout hs ↦ step_loginStatus hout hs)
    (fun s x s' hout hright hs ↦ right_iff_not_confirms hout hright hs)

/-- A login, the connection coming up, and the response that it succeeded. -/
def loginRun : List (Host × Event) :=
  [(.plain 0, .call (.login (.plain 0 true))), (.plain 1, .connection 1 .kConnectOk),
    (.plain 2, .authRsp successRsp)]

/-- Behind that response the session is still logging in, for no user. -/
theorem not_always_right : ¬ ∀ inputs, Run.Always LoginStateRight step fresh inputs := by
  intro h
  let rsp : CIMAuthRsp := { resultCode := 200, userInfo := some { userId := 7 } }
  obtain ⟨final, hrun, hview⟩ := Run.exec_of_view step
    (fun s ↦ (s.client.loginStatus, s.past)) fresh loginRun
    (v := (.kLogining, [.logout, .login, .authRsp rsp, .notice (.loginCb 1 rsp)]))
    (by decide +kernel)
  obtain ⟨hstatus, hpast⟩ := Prod.mk.inj hview
  have hin : LoggedInAs final.past 7 := by
    refine ⟨[.logout, .login], rsp, [.notice (.loginCb 1 rsp)], hpast, by decide, rfl, rfl, ?_⟩
    intro m hm
    exact ⟨_, List.mem_singleton.mp hm⟩
  have hok := ((h loginRun).last hrun).1.mpr ⟨7, hin⟩
  rw [hstatus] at hok
  cases hok

end Session

end CoffeeChat
