import CoffeeChat.Core.SessionLemmas
import CoffeeChat.Lib.Recorded

/-!
# What the client was asked for

The past of a session has a mark for every `login()` and none for what it was given. A `Record` is
a session with all that the client was asked for, in order: the calls of the public interface with
their arguments, those made by callbacks included, and the connections that came up, each of which
asks for a login request. Nothing reads the log: the runs of records are those of sessions
(`Record.exec_iff`).

Properties of what is said over the connection need not be looked at while there is none. `Said`
lists what a property of this kind must be kept by, and `Said.step` is its rule for a step.
-/

namespace CoffeeChat

open Lib

/-! ## The log -/

/-- Something the client was asked for. -/
inductive Asked where
  /-- A call of the public interface, in front of this environment. -/
  | call (env : Env) (call : ApiCall)
  /-- A login request, for a connection that came up. -/
  | greeting (conn : Nat)

/-- A callback that was invoked makes the calls of its script. -/
def Mark.asked (host : Host) : Mark → List Asked
  | .notice n => (host.script n).map (.call host.toEnv)
  | _ => []

/-- What an event asks for by itself. -/
def Event.asked (host : Host) : Event → List Asked
  | .call c => [.call host.toEnv c]
  | .connection conn .kConnectOk => [.greeting conn]
  | _ => []

namespace Session

/-- What was asked for in a step, in order: the callbacks are those the step has left marks of. -/
def asked (s : Session) (input : Host × Event) (s' : Session) : List Asked :=
  input.2.asked input.1 ++ (s'.past.drop s.past.length).flatMap (Mark.asked input.1)

end Session

/-- A session, and what the client was asked for on the way to it. -/
abbrev Record := Recorded Session Asked

namespace Record

/-- One step of a session, written down. -/
def step : Record → Host × Event → Result Record := Recorded.step Session.step Session.asked

/-- The session after the constructors. -/
def fresh : Record := ⟨Session.fresh, []⟩

/-- The runs of records are those of sessions. -/
theorem exec_iff {s : Session} {inputs : List (Host × Event)} :
    Run.exec Session.step Session.fresh inputs = .ok s ↔
      ∃ log, Run.exec step fresh inputs = .ok ⟨s, log⟩ :=
  Recorded.exec_iff (r := fresh)

end Record

/-- `args` are those of the last `login()`, and `after` is what has been asked for since. -/
def LastLogin (asked : List Asked) (args : LoginArgs) (after : List Asked) : Prop :=
  (∃ before env, asked = before ++ .call env (.login args) :: after) ∧
    ∀ env args', .call env (.login args') ∉ after

/-- One entry more that is no `login()`. -/
theorem LastLogin.concat {asked after : List Asked} {args : LoginArgs}
    (h : LastLogin asked args after) {a : Asked} (ha : ∀ env args', a ≠ .call env (.login args')) :
    LastLogin (asked ++ [a]) args (after ++ [a]) := by
  obtain ⟨⟨before, env, hasked⟩, hafter⟩ := h
  refine ⟨⟨before, env, by rw [hasked, List.append_assoc, List.cons_append]⟩, ?_⟩
  intro env' args' hmem
  rcases List.mem_append.mp hmem with hmem | hmem
  · exact hafter env' args' hmem
  · exact ha env' args' (List.mem_singleton.mp hmem).symm

/-- A `login()` is the last one behind itself. -/
theorem LastLogin.login (asked : List Asked) (env : Env) (args : LoginArgs) :
    LastLogin (asked ++ [.call env (.login args)]) args [] :=
  ⟨⟨asked, env, rfl⟩, fun _ _ ↦ List.not_mem_nil⟩

theorem LastLogin.mem {asked after : List Asked} {args : LoginArgs}
    (h : LastLogin asked args after) : ∃ env, .call env (.login args) ∈ asked := by
  obtain ⟨⟨before, env, rfl⟩, _⟩ := h
  exact ⟨env, List.mem_append_right _ List.mem_cons_self⟩

theorem LastLogin.subset {asked after : List Asked} {args : LoginArgs}
    (h : LastLogin asked args after) : after ⊆ asked := by
  obtain ⟨⟨before, env, rfl⟩, _⟩ := h
  exact fun a ha ↦ List.mem_append_right _ (List.mem_cons_of_mem _ ha)

/-! ## Calls that are allowed -/

/-- The calls in the log are allowed ones. -/
def Keeps (allowed : Env → ApiCall → Prop) (asked : List Asked) : Prop :=
  ∀ env call, .call env call ∈ asked → allowed env call

variable {allowed : Env → ApiCall → Prop}

theorem Keeps.append {xs ys : List Asked} (hx : Keeps allowed xs) (hy : Keeps allowed ys) :
    Keeps allowed (xs ++ ys) := by
  intro env call hmem
  rcases List.mem_append.mp hmem with hmem | hmem
  · exact hx env call hmem
  · exact hy env call hmem

theorem Keeps.left {xs ys : List Asked} (h : Keeps allowed (xs ++ ys)) : Keeps allowed xs :=
  fun env call hmem ↦ h env call (List.mem_append_left _ hmem)

theorem Keeps.right {xs ys : List Asked} (h : Keeps allowed (xs ++ ys)) : Keeps allowed ys :=
  fun env call hmem ↦ h env call (List.mem_append_right _ hmem)

theorem keeps_map {env : Env} {calls : List ApiCall} :
    Keeps allowed (calls.map (.call env)) ↔ ∀ call ∈ calls, allowed env call := by
  constructor
  · intro h call hmem
    exact h env call (List.mem_map_of_mem hmem)
  · intro h env' call hmem
    obtain ⟨call', hmem', heq⟩ := List.mem_map.mp hmem
    cases heq
    exact h call hmem'

/-- The calls the application makes in a step, by itself or in any of its callbacks, are allowed
ones. -/
def Allows (allowed : Env → ApiCall → Prop) (input : Host × Event) : Prop :=
  (∀ n, ∀ call ∈ input.1.script n, allowed input.1.toEnv call) ∧
    ∀ call, input.2 = .call call → allowed input.1.toEnv call

/-- Then so are those that were made. -/
theorem Allows.keeps {input : Host × Event} (h : Allows allowed input) (s s' : Session) :
    Keeps allowed (s.asked input s') := by
  obtain ⟨host, event⟩ := input
  refine .append ?_ ?_
  · intro env call hmem
    cases event with
    | call c =>
        cases List.mem_singleton.mp hmem
        exact h.2 _ rfl
    | connection conn status => cases status <;> simp [Event.asked] at hmem
    | authRsp => simp [Event.asked] at hmem
    | tick => simp [Event.asked] at hmem
  · intro env call hmem
    obtain ⟨m, _, hm⟩ := List.mem_flatMap.mp hmem
    cases m with
    | notice n => exact keeps_map.mpr (h.1 n) env call hm
    | login | logout | authRsp | disconnect => exact absurd hm List.not_mem_nil

/-- The callbacks of a plain host make no call. -/
theorem Allows.plain {now : UInt64} {event : Event}
    (hcall : ∀ call, event = .call call → allowed (Host.plain now).toEnv call) :
    Allows allowed (Host.plain now, event) :=
  ⟨fun _ _ hscript ↦ absurd hscript List.not_mem_nil, hcall⟩

namespace Session

/-! ## What a step asks for -/

variable {env : Env} {host : Host} {s s' : Session}

theorem asked_of_past {input : Host × Event} {marks : List Mark}
    (h : s'.past = s.past ++ marks) :
    s.asked input s' = input.2.asked input.1 ++ marks.flatMap (Mark.asked input.1) := by
  rw [asked, h, List.drop_left]

/-- A call leaves no mark of a callback. -/
theorem asked_marks (calls : List ApiCall) :
    (calls.flatMap ApiCall.marks).flatMap (Mark.asked host) = [] := by
  induction calls with
  | nil => rfl
  | cons call calls ih =>
      rw [List.flatMap_cons, List.flatMap_append, ih, List.append_nil]
      cases call <;> rfl

@[simp] theorem asked_noticeMarks_none : (noticeMarks host none).flatMap (Mark.asked host) = [] :=
  rfl

@[simp] theorem asked_noticeMarks_some (n : Notice) :
    (noticeMarks host (some n)).flatMap (Mark.asked host) =
      (host.script n).map (.call host.toEnv) := by
  rw [noticeMarks, List.flatMap_cons, asked_marks, List.append_nil]
  rfl

/-! ## Properties of a connection -/

/-- A property of what is said over the connection: it is kept by the allowed calls, holds without
a connection and with a new one, and is kept by the login request. -/
structure Said (allowed : Env → ApiCall → Prop) (p : List Asked → Session → Prop) : Prop where
  call : ∀ asked env (call : ApiCall) s s', allowed env call → call.marks = [] →
    s.client.userId = 0 → p asked s → call.run env s = .ok s' → p (asked ++ [.call env call]) s'
  logout : ∀ asked (s : Session), p asked s.loggedOut
  login : ∀ asked (env : Env) (s : Session) args md5, allowed env (.login args) →
    MD5.hash (MD5.zeroed .lp64) args.pwd.bytes = .ok md5 →
      p (asked ++ [.call env (.login args)]) (s.loggedIn args (asciiBytes md5))
  up : ∀ asked env (s : Session) conn r, p asked s →
    (s.reported conn .kConnectOk).client.send env kCIM_CID_LOGIN_AUTH_REQ s.authReq.toLite = .ok r →
      p (asked ++ [.greeting conn]) ((s.reported conn .kConnectOk).withClient r.2)
  notice : ∀ asked (s : Session) n, p asked s → p asked (s.mark (.notice n))
  took : ∀ asked (s : Session) rsp buffer, p asked s → p asked (s.took rsp buffer)
  buffer : ∀ asked (s : Session) buffer, p asked s →
    p asked { s with kit := s.kit.withBuffer buffer }

/-- The session is not logged in and has no user: nothing ever sets either. -/
structure Unset (s : Session) : Prop where
  out : s.client.loginStatus ≠ .kLoginOk
  userId : s.client.userId = 0

theorem stable_userId : Stable fun s ↦ s.client.userId = 0 where
  quiet _ _ h hquiet := hquiet.client.userId.trans h
  logout _ h := h
  login _ _ _ h := h
  notice _ _ h := h
  disconnect _ h := h
  reported _ _ _ h := h
  took _ _ _ h := h
  buffer _ _ h := h

theorem Unset.fresh : fresh.Unset := ⟨by decide, rfl⟩

theorem Unset.step (h : s.Unset) {input : Host × Event} (hstep : s.step input = .ok s') :
    s'.Unset :=
  ⟨step_loginStatus h.out hstep, stable_userId.step h.out h.userId hstep⟩

theorem Unset.notify (h : s.Unset) {n : Option Notice} (hn : s.notify host n = .ok s') :
    s'.Unset :=
  ⟨notify_loginStatus h.out hn, stable_userId.notify h.out h.userId hn⟩

theorem Unset.run (h : s.Unset) {call : ApiCall} (hrun : call.run env s = .ok s') : s'.Unset := by
  refine ⟨ApiCall.run_loginStatus h.out hrun, ?_⟩
  exact (runCalls_induction (stable_userId.kept [call]) h.out h.userId
    (bind_eq_ok.mpr ⟨s', hrun, rfl⟩)).1

variable {p : List Asked → Session → Prop} {asked : List Asked}

/-- `login` with the digest of the password. -/
theorem login_ok {args : LoginArgs} (hout : s.client.loginStatus ≠ .kLoginOk)
    (h : s.login env args = .ok s') : ∃ md5,
      MD5.hash (MD5.zeroed .lp64) args.pwd.bytes = .ok md5 ∧
        s' = s.loggedIn args (asciiBytes md5) := by
  obtain ⟨md5, hmd5⟩ : ∃ md5, MD5.hash (MD5.zeroed .lp64) args.pwd.bytes = .ok md5 :=
    ⟨_, MD5.hash_eq _ args.pwd.length_lt⟩
  refine ⟨md5, hmd5, ?_⟩
  simp only [login, logout_eq env hout, bind, Except.bind, pure, Except.pure, hmd5] at h
  exact (Except.ok.inj h).symm

theorem Said.calls (hp : Said allowed p) {calls : List ApiCall}
    (hallowed : ∀ call ∈ calls, allowed env call) (hout : s.Unset) (hs : p asked s)
    (h : runCalls env calls s = .ok s') : p (asked ++ calls.map (.call env)) s' := by
  induction calls generalizing s asked with
  | nil =>
      cases h
      rw [List.map_nil, List.append_nil]
      exact hs
  | cons call calls ih =>
      obtain ⟨s1, hs1, h⟩ := bind_eq_ok.mp h
      have hcall := hallowed call List.mem_cons_self
      rw [List.map_cons, ← List.singleton_append, ← List.append_assoc]
      refine ih (fun c hc ↦ hallowed c (List.mem_cons_of_mem _ hc)) (hout.run hs1) ?_ h
      rcases ApiCall.run_cases hout.out hs1 with ⟨args, _, rfl, _⟩ | ⟨rfl, rfl⟩ | ⟨hquiet, _⟩
      · obtain ⟨md5, hmd5, rfl⟩ := login_ok hout.out hs1
        exact hp.login asked env s args md5 hcall hmd5
      · exact hp.logout _ s
      · exact hp.call asked env call s s1 hcall hquiet hout.userId hs hs1

theorem Said.notify (hp : Said allowed p) {n : Option Notice}
    (hallowed : Keeps allowed ((noticeMarks host n).flatMap (Mark.asked host)))
    (hout : s.Unset) (hs : p asked s) (h : s.notify host n = .ok s') :
    p (asked ++ (noticeMarks host n).flatMap (Mark.asked host)) s' := by
  cases n with
  | none =>
      cases h
      rw [asked_noticeMarks_none, List.append_nil]
      exact hs
  | some m =>
      rw [asked_noticeMarks_some] at hallowed ⊢
      exact hp.calls (s := s.mark (.notice m)) (keeps_map.mp hallowed) ⟨hout.out, hout.userId⟩
        (hp.notice asked s m hs) h

/-- A connection that comes up asks for the login request, and then for what its callback does. -/
theorem Said.step_up (hp : Said allowed p) {conn : Nat} (hout : s.Unset) (hs : p asked s)
    (h : s.step (host, .connection conn .kConnectOk) = .ok s')
    (hallowed : Keeps allowed (s.asked (host, .connection conn .kConnectOk) s')) :
    p (asked ++ s.asked (host, .connection conn .kConnectOk) s') s' := by
  have hasked : s.asked (host, .connection conn .kConnectOk) s' = [.greeting conn] ++ _ :=
    asked_of_past (step_connection_up_past hout.out h)
  rw [hasked] at hallowed ⊢
  have hchanged : (s.reported conn .kConnectOk).onConnectionStatusChanged host conn
    .kConnectOk = .ok s' := h
  unfold onConnectionStatusChanged at hchanged
  obtain ⟨r, hr, hnotify⟩ := bind_eq_ok.mp hchanged
  have hquiet := Client.send_quiet hr
  rw [← List.append_assoc]
  refine hp.notify (s := (s.reported conn .kConnectOk).withClient r.2) hallowed.right ?_
    (hp.up asked _ s conn r hs hr) hnotify
  exact ⟨hquiet.loginStatus ▸ hout.out, hquiet.userId.trans hout.userId⟩

/-- A connection that is lost is let go behind the first callback. -/
theorem Said.step_lost (hp : Said allowed p) {conn : Nat} {status : ConnectionStatus}
    (hdown : status ≠ .kConnectOk) (hout : s.Unset)
    (h : s.step (host, .connection conn status) = .ok s')
    (hallowed : Keeps allowed (s.asked (host, .connection conn status) s')) :
    p (asked ++ s.asked (host, .connection conn status) s') s' := by
  obtain ⟨s1, h1, h2⟩ := step_connection_lost hout.out hdown h
  have hout1 : s1.Unset :=
    Unset.notify (s := (s.reported conn status).mark .disconnect) ⟨hout.out, hout.userId⟩ h1
  have hpast : s'.past = s.past ++ ((.disconnect :: (noticeMarks host s.lostNotice ++
      [.logout])) ++ noticeMarks host (s1.statusNotice conn status)) := by
    rw [notify_past (s := s1.loggedOut) (by simp) h2, past_loggedOut,
      notify_past (s := (s.reported conn status).mark .disconnect) hout.out h1]
    simp [Session.reported]
  rw [asked_of_past hpast, List.flatMap_append, ← List.append_assoc] at hallowed ⊢
  rw [← List.append_assoc]
  refine hp.notify (s := s1.loggedOut) hallowed.right ⟨?_, hout1.userId⟩ (hp.logout _ s1) h2
  simp

/-- A response asks for what the login callback does. -/
theorem Said.step_response (hp : Said allowed p) {unread : Buffer} (hout : s.Unset)
    (hs : p asked s) (h : s.step (host, .authRsp unread) = .ok s')
    (hallowed : Keeps allowed (s.asked (host, .authRsp unread) s')) :
    p (asked ++ s.asked (host, .authRsp unread) s') s' := by
  rw [asked_of_past (step_authRsp_past hout.out h)] at hallowed ⊢
  rcases step_authRsp hout.out h with ⟨hparse, rfl⟩ | ⟨rsp, buffer, hparse, h⟩
  · rw [hparse]
    show p (asked ++ []) _
    rw [List.append_nil]
    exact hp.buffer asked s unread hs
  · rw [hparse] at hallowed ⊢
    have hmarks : (Event.authRsp unread).asked host ++
        (Mark.authRsp rsp :: ((if rsp.resultCode ≠ kCIM_ERR_SUCCESS then [.logout] else []) ++
          noticeMarks host (s.rspNotice rsp))).flatMap (Mark.asked host) =
        (noticeMarks host (s.rspNotice rsp)).flatMap (Mark.asked host) := by
      rw [List.flatMap_cons, List.flatMap_append]
      split <;> rfl
    have hanswered : p asked (s.answered rsp buffer) ∧ (s.answered rsp buffer).Unset := by
      refine ⟨?_, answered_loginStatus hout.out rsp buffer, ?_⟩
      · unfold answered
        split
        · exact hp.logout asked _
        · exact hp.took asked s rsp buffer hs
      · unfold answered
        split <;> exact hout.userId
    exact hmarks ▸ hp.notify (hmarks ▸ hallowed) hanswered.2 hanswered.1 h

/-- Such a property is kept by every step in which only allowed calls are made. -/
theorem Said.step (hp : Said allowed p) {input : Host × Event} (hout : s.Unset)
    (hs : p asked s) (h : s.step input = .ok s') (hallowed : Keeps allowed (s.asked input s')) :
    p (asked ++ s.asked input s') s' := by
  obtain ⟨host, event⟩ := input
  cases event with
  | call call =>
      have hasked : s.asked (host, .call call) s' = [call].map (.call host.toEnv) := by
        rw [asked_of_past (step_call_past hout.out h), ← List.flatMap_singleton ApiCall.marks call,
          asked_marks]
        rfl
      rw [hasked] at hallowed ⊢
      exact hp.calls (keeps_map.mp hallowed) hout hs (bind_eq_ok.mpr ⟨s', h, rfl⟩)
  | connection conn status =>
      by_cases hup : status = .kConnectOk
      · subst hup
        exact hp.step_up hout hs h hallowed
      · exact hp.step_lost hup hout h hallowed
  | authRsp unread => exact hp.step_response hout hs h hallowed
  | tick =>
      have hasked : s.asked (host, .tick) s' = _ := asked_of_past (step_tick_past hout.out h)
      rw [hasked] at hallowed ⊢
      exact hp.notify hallowed hout hs (onTimer_eq hout.out h)

/-- Every call a step has made is allowed. -/
def Makes (allowed : Env → ApiCall → Prop) (s : Session) (input : Host × Event) : Prop :=
  ∀ s', s.step input = .ok s' → Keeps allowed (s.asked input s')

/-- The property holds in every state of a run in which only allowed calls are made. -/
theorem Said.always_of_along (hp : Said allowed p) (hfresh : p [] fresh)
    {inputs : List (Host × Event)}
    (hallowed : Run.Along (Makes allowed) Session.step fresh inputs) :
    Run.Always (fun r ↦ p r.log r.state) Record.step Record.fresh inputs := by
  have hgood : Run.Along (fun r : Record ↦ Makes allowed r.state) Record.step Record.fresh
      inputs := Recorded.along_state hallowed
  refine (Run.always_of_along (fun r : Record ↦ r.state.Unset ∧ p r.log r.state)
    (s := Record.fresh) ⟨.fresh, hfresh⟩ ?_ hgood).mono fun _ hr ↦ hr.2
  intro r input r' hr hmakes h
  obtain ⟨hstep, hlog⟩ := Recorded.step_eq_ok.mp h
  rw [hlog]
  exact ⟨hr.1.step hstep, hp.step hr.1 hr.2 hstep (hmakes _ hstep)⟩

theorem along_makes {inputs : List (Host × Event)}
    (hallowed : ∀ input ∈ inputs, Allows allowed input) (start : Session) :
    Run.Along (Makes allowed) Session.step start inputs := by
  induction inputs generalizing start with
  | nil => trivial
  | cons input inputs ih =>
      obtain ⟨hinput, hinputs⟩ := List.forall_mem_cons.mp hallowed
      exact fun s' _ ↦ ⟨fun s1 _ ↦ hinput.keeps start s1, ih hinputs s'⟩

theorem Said.always (hp : Said allowed p) (hfresh : p [] fresh) {inputs : List (Host × Event)}
    (hallowed : ∀ input ∈ inputs, Allows allowed input) :
    Run.Always (fun r ↦ p r.log r.state) Record.step Record.fresh inputs :=
  hp.always_of_along hfresh (along_makes hallowed fresh)

/-- Where every call keeps it, it holds in every state of every run. -/
theorem Said.always_of_any (hp : Said (fun _ _ ↦ True) p) (hfresh : p [] fresh)
    (inputs : List (Host × Event)) :
    Run.Always (fun r ↦ p r.log r.state) Record.step Record.fresh inputs :=
  hp.always hfresh fun _ _ ↦ ⟨fun _ _ _ ↦ trivial, fun _ _ ↦ trivial⟩

/-- All calls in the log are allowed when the application keeps to allowed calls. -/
theorem always_keeps {inputs : List (Host × Event)}
    (hallowed : ∀ input ∈ inputs, Allows allowed input) :
    Run.Always (fun r ↦ Keeps allowed r.log) Record.step Record.fresh inputs := by
  refine Run.always_of_along (fun r : Record ↦ Keeps allowed r.log) (s := Record.fresh)
    (fun _ _ hmem ↦ absurd hmem List.not_mem_nil) ?_
    (Recorded.along_state (r := Record.fresh) (along_makes hallowed fresh))
  intro r input r' hr hmakes h
  obtain ⟨hstep, hlog⟩ := Recorded.step_eq_ok.mp h
  rw [hlog]
  exact hr.append (hmakes _ hstep)

end Session

end CoffeeChat
