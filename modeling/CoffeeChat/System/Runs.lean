import CoffeeChat.System.Linked

/-!
# Runs of the system

Every step of the system is at most one step of the session, with the status of its own connection
if it is a status, and any number of steps of the connections (`Linked.step`). So a run of the
system is a run of each (`always_refines`), what holds of all of their runs holds here, and there is
never more than one socket, that of `tcp_client_` (`always_single`). The one thing that can take
its entry from it is the destructor of an object that was let go before
(`always_delivers_iff_late`).
-/

namespace CoffeeChat.ChatSystem

open Lib

variable {p p' : ChatSystem} {host : SystemHost}

/-! ## Callbacks of libuv -/

/-- The input is not the status of a connection, or it is that of the one `tcp_client_` has. -/
def Own (s : Session) (input : Host × CoffeeChat.Event) : Prop :=
  ∀ conn status, input.2 = .connection conn status →
    conn = s.made ∧ s.client.tcpClient.isSome = true

/-- The session takes one step, or none. -/
def Steps (s s' : Session) : Prop :=
  s' = s ∨ ∃ input, Own s input ∧ s.step input = .ok s'

theorem Called.frame {w w' : Net.World} (hcalled : Net.World.Called w w') :
    w'.made = w.made ∧ w'.alive = w.alive := by
  cases hcalled with
  | same hs => exact ⟨hs.made_eq, hs.alive_eq⟩
  | lost h d f w1 hs hfd hfound hpending hlost =>
      constructor
      · rw [hlost.made_eq, Net.World.close_made, hs.made_eq]
      · rw [hlost.alive_eq, Net.World.close_alive, hs.alive_eq]

/-- A callback of libuv, with a session that has heard of the status it leaves. -/
theorem Linked.called (hp : Linked p) {x : Net.Event} (hx : x.IsCallback) {net : Net.World}
    (hnet : p.net.step x = .ok net) {s' : Session}
    (hlogin : s'.client.loginStatus = p.session.client.loginStatus)
    (hmade : s'.made = p.session.made)
    (hcur : s'.client.tcpClient.isSome = p.session.client.tcpClient.isSome)
    (hstatus : ∀ tcp, s'.client.tcpClient = some tcp →
      (net.client (p.session.made - 1)).connectStatus = tcp.connectStatus) :
    Linked ⟨s', net, p.events ++ [x]⟩ := by
  have hcalled := Net.World.step_called hp.traced.coherent hx hnet
  obtain ⟨hnetMade, halive⟩ := Called.frame hcalled
  have hclient : tcpClient ⟨s', net, p.events ++ [x]⟩ = p.tcpClient := by
    unfold tcpClient
    show s'.client.tcpClient.map (fun _ ↦ s'.made - 1) = _
    rw [hmade]
    cases hs : p.session.client.tcpClient with
    | none =>
        rw [hs] at hcur
        rw [Option.isNone_iff_eq_none.mp (Option.isSome_eq_false_iff.mp hcur)]
    | some tcp =>
        rw [hs] at hcur
        obtain ⟨tcp', hs'⟩ := Option.isSome_iff_exists.mp hcur
        rw [hs']
        rfl
  refine ⟨hp.traced.concat hp.sole (fun hstale ↦ ?_) hnet, ?_, ?_, ?_, ?_, ?_⟩
  · exact absurd hstale (Net.World.not_stale (Net.World.closer_callback hx))
  · rw [hclient]
    exact hp.sole.called hcalled
  · show s'.client.loginStatus ≠ _
    rw [hlogin]
    exact hp.loggedOut
  · show s'.made = net.made
    rw [hmade, hnetMade]
    exact hp.made
  · intro c hc
    rw [hclient] at hc
    show net.alive c = true
    rw [halive]
    exact hp.alive c hc
  · intro tcp htcp
    show (net.client (s'.made - 1)).connectStatus = _
    rw [hmade]
    exact hstatus tcp htcp

/-- The client a callback finds is the one there is. -/
theorem Linked.found (hp : Linked p) {h : Nat} {r : Option Nat}
    (hfind : p.net.findTcpClient h = .ok r) {c : Nat} (hr : r = some c) : p.tcpClient = some c := by
  obtain ⟨f, _, hl⟩ := Net.World.findTcpClient_eq_ok hfind
  rw [hr] at hl
  exact hp.sole.eq_of_lookup hp.traced.coherent hl

/-- The client a callback has found tells the session. -/
theorem Linked.report (hp : Linked p) {x : Net.Event} (hx : x.IsCallback) {net : Net.World}
    (hnet : p.net.step x = .ok net) {h : Nat} {r : Option Nat} {status : ConnectionStatus}
    (hfind : p.net.findTcpClient h = .ok r) (hrep : Net.World.Reports p.net net r status)
    (h : ChatSystem.report host r status ⟨p.session, net, p.events ++ [x]⟩ = .ok p') :
    Linked p' ∧ Steps p.session p'.session := by
  cases r with
  | none =>
      cases h
      refine ⟨hp.called hx hnet rfl rfl rfl fun tcp htcp ↦ ?_, Or.inl rfl⟩
      rw [hrep, if_neg (Option.some_ne_none _).symm]
      exact hp.status tcp htcp
  | some c =>
      have hcur := hp.found hfind rfl
      have hmade := hp.made_eq hcur
      obtain ⟨⟨tcp, htcp⟩, _⟩ := tcpClient_eq_some.mp hcur
      have htold : (p.session.reported (c + 1) status).client.tcpClient =
          some { tcp with connectStatus := status } := by
        show (if c + 1 = p.session.made then _ else _) = _
        rw [if_pos hmade.symm, htcp]
        rfl
      have hlinked : Linked ⟨p.session.reported (c + 1) status, net, p.events ++ [x]⟩ := by
        refine hp.called hx hnet rfl rfl ?_ fun tcp' htcp' ↦ ?_
        · rw [htold, htcp]
          rfl
        · cases htold.symm.trans htcp'
          rw [hrep, hmade, Nat.add_sub_cancel, if_pos rfl]
      obtain ⟨hp', outcome, change, hstep⟩ := hlinked.statusChanged h
      refine ⟨hp', Or.inr ⟨(host.session outcome change, .connection (c + 1) status), ?_, hstep⟩⟩
      intro conn status' heq
      cases heq
      exact ⟨hmade.symm, by rw [htcp]; rfl⟩

/-- Starting to read changes no client. -/
theorem Linked.connectReturn (hp : Linked p) {h : Nat}
    (hemit : p.emit (.connectReturn h) = .ok p') : Linked p' ∧ p'.session = p.session := by
  obtain ⟨net, hnet, rfl⟩ := emit_ok hemit
  have hclient : net.client = p.net.client := by
    cases hnet
    split
    · unfold Net.World.uvReadStart
      split <;> rfl
    · rfl
  refine ⟨hp.called (x := .connectReturn h) trivial hnet rfl rfl rfl fun tcp htcp ↦ ?_, rfl⟩
  rw [hclient]
  exact hp.status tcp htcp

/-- `onConnect` of both. -/
theorem Linked.onConnect (hp : Linked p) {h : Nat} {status : Int}
    (hstep : p.onConnect host h status = .ok p') : Linked p' ∧ Steps p.session p'.session := by
  by_cases hpending : (p.net.handle h).pending = true
  · obtain ⟨r, hfind, hstep⟩ := bind_eq_ok.mp ((if_pos hpending).symm.trans hstep)
    obtain ⟨p1, hemit, hstep⟩ := bind_eq_ok.mp hstep
    obtain ⟨net, hnet, rfl⟩ := emit_ok hemit
    obtain ⟨r', hfind', hrep⟩ := Net.World.onConnect_reports hpending hnet
    cases hfind.symm.trans hfind'
    by_cases hup : (if (p.net.handle h).closing then Net.UV_ECANCELED else status) = 0
    · rw [if_pos hup] at hrep
      obtain ⟨p2, hreport, hreturn⟩ := bind_eq_ok.mp ((if_pos hup).symm.trans hstep)
      obtain ⟨hp2, hsteps⟩ := hp.report (x := .onConnect h status) trivial hnet hfind hrep hreport
      obtain ⟨hp', hsession⟩ := hp2.connectReturn hreturn
      rw [hsession]
      exact ⟨hp', hsteps⟩
    · rw [if_neg hup] at hrep
      exact hp.report (x := .onConnect h status) trivial hnet hfind hrep
        ((if_neg hup).symm.trans hstep)
  · cases (if_neg hpending).symm.trans hstep
    exact ⟨hp, Or.inl rfl⟩

/-- `onRead` of both. -/
theorem Linked.onRead (hp : Linked p) {h : Nat} {nread : Int}
    (hstep : p.onRead host h nread = .ok p') : Linked p' ∧ Steps p.session p'.session := by
  by_cases hlost : (p.net.handle h).reading = true ∧ nread < 0
  · obtain ⟨r, hfind, hstep⟩ := bind_eq_ok.mp ((if_pos hlost).symm.trans hstep)
    obtain ⟨p1, hemit, hstep⟩ := bind_eq_ok.mp hstep
    obtain ⟨net, hnet, rfl⟩ := emit_ok hemit
    obtain ⟨r', hfind', hrep⟩ := Net.World.onRead_reports hlost.1 hlost.2 hnet
    cases hfind.symm.trans hfind'
    exact hp.report (x := .onRead h nread) trivial hnet hfind hrep hstep
  · obtain ⟨net, hnet, rfl⟩ := emit_ok ((if_neg hlost).symm.trans hstep)
    have hsame := Net.World.onRead_quiet hlost hnet
    refine ⟨hp.called (x := .onRead h nread) trivial hnet rfl rfl rfl fun tcp htcp ↦ ?_, Or.inl rfl⟩
    rw [hsame]
    exact hp.status tcp htcp

/-! ## Steps -/

/-- `onHandleAuthRsp` of both. -/
theorem Linked.onHandleAuthRsp (hp : Linked p) (h : p.onHandleAuthRsp host = .ok p') :
    Linked p' ∧ ∃ outcome, p.session.onHandleAuthRsp (host.session outcome []) =
      .ok p'.session := by
  obtain ⟨parsed, hparse, h⟩ := bind_eq_ok.mp h
  cases parsed with
  | none =>
      cases h
      refine ⟨hp, [], ?_⟩
      rw [Session.onHandleAuthRsp_eq hp.loggedOut]
      exact bind_eq_ok.mpr ⟨none, hparse, rfl⟩
  | some r =>
      obtain ⟨rsp, buffer⟩ := r
      have htook : Linked (p.withSession (p.session.took rsp buffer)) := hp.calm ⟨rfl, rfl, rfl⟩
      obtain ⟨p1, hp1, hanswered, h⟩ : ∃ p1, Linked p1 ∧
          p1.session = p.session.answered rsp buffer ∧
          p1.notify host (p1.session.rspNotice rsp) = .ok p' := by
        unfold Session.answered
        by_cases hfail : rsp.resultCode ≠ kCIM_ERR_SUCCESS
        · obtain ⟨p1, hlogout, h⟩ := bind_eq_ok.mp ((if_pos hfail).symm.trans h)
          obtain ⟨hp1, hout⟩ := htook.logout hlogout
          rw [if_pos hfail]
          exact ⟨p1, hp1, hout, h⟩
        · obtain ⟨p1, hsame, h⟩ := bind_eq_ok.mp ((if_neg hfail).symm.trans h)
          cases hsame
          rw [if_neg hfail]
          exact ⟨_, htook, rfl, h⟩
      obtain ⟨hp', outcome, houtcome⟩ := hp1.notify h
      refine ⟨hp', outcome, ?_⟩
      rw [Session.onHandleAuthRsp_eq hp.loggedOut]
      refine bind_eq_ok.mpr ⟨_, hparse, ?_⟩
      have hnotice : p1.session.rspNotice rsp = p.session.rspNotice rsp := by
        rw [hanswered]
        unfold Session.answered
        split <;> rfl
      rw [hnotice, hanswered] at houtcome
      refine houtcome (host.session outcome []) rfl fun m hm ↦ ?_
      obtain ⟨id, _, rfl⟩ := Option.map_eq_some_iff.mp hm
      rfl

/-- `onTimer` of both. -/
theorem Linked.onTimer (hp : Linked p) (h : p.onTimer host = .ok p') :
    Linked p' ∧ ∃ outcome, p.session.onTimer (host.session outcome []) = .ok p'.session := by
  -- a session that is not logged in is not checked for its keep-alive
  have hrest {p1 : ChatSystem} (hp1 : Linked p1) (h : (if p1.session.client.loginStatus =
      .kLoginOk ∧ host.now - p1.session.lastRecvTime > Session.keepAliveTimeout host.config then do
        let p ← p1.logout host.toEnv host.last
        p.notify host (p.session.connectionCb.map (.connectionCb · none .kDisConnected))
      else return p1) = .ok p') : p' = p1 := by
    rw [if_neg fun hin ↦ hp1.loggedOut hin.1] at h
    exact (Except.ok.inj h).symm
  have hsession {outcome : List ApiCall} {s1 : Session}
      (hnotify : p.session.notify (host.session outcome [])
        (p.session.timeoutNotice (host.session outcome [])) = .ok s1)
      (hout : s1.client.loginStatus ≠ .kLoginOk) :
      p.session.onTimer (host.session outcome []) = .ok s1 := by
    rw [Session.onTimer_bind]
    refine bind_eq_ok.mpr ⟨s1, hnotify, ?_⟩
    rw [if_neg fun hin ↦ hout hin.1]
  unfold ChatSystem.onTimer at h
  by_cases hlate : p.session.client.loginStatus = .kLogining ∧
      host.now - p.session.lastLoginTime > Session.loginTimeout host.config
  · obtain ⟨p1, hnotify, h⟩ := bind_eq_ok.mp ((if_pos hlate).symm.trans h)
    obtain ⟨hp1, outcome, houtcome⟩ := hp.notify hnotify
    cases hrest hp1 h
    refine ⟨hp1, outcome, hsession ?_ hp1.loggedOut⟩
    have hnotice : p.session.timeoutNotice (host.session outcome []) =
        p.session.loginTimeoutCb.map .loginTimeoutCb := if_pos hlate
    rw [hnotice]
    refine houtcome (host.session outcome []) rfl fun m hm ↦ ?_
    obtain ⟨id, _, rfl⟩ := Option.map_eq_some_iff.mp hm
    rfl
  · obtain ⟨p1, hsame, h⟩ := bind_eq_ok.mp ((if_neg hlate).symm.trans h)
    cases hsame
    cases hrest hp h
    refine ⟨hp, [], hsession ?_ hp.loggedOut⟩
    have hnone : p.session.timeoutNotice (host.session [] []) = none := if_neg hlate
    rw [hnone]
    rfl

/-- One step of the system. -/
theorem Linked.step (hp : Linked p) {input : SystemHost × Event} (h : p.step input = .ok p') :
    Linked p' ∧ Steps p.session p'.session := by
  obtain ⟨host, event⟩ := input
  cases event with
  | action action =>
      obtain ⟨hp', hsteps⟩ := hp.action h
      refine ⟨hp', hsteps.imp_right fun hcall ↦ ?_⟩
      obtain ⟨call, hcall⟩ := hcall
      exact ⟨(host.session [] [], .call call), (fun _ _ heq ↦ by cases heq), hcall⟩
  | onConnect h' status => exact hp.onConnect h
  | onRead h' nread => exact hp.onRead h
  | authRsp unread =>
      have hunread : Linked (p.withSession { p.session with
          kit := p.session.kit.withBuffer unread }) := hp.calm ⟨rfl, rfl, rfl⟩
      obtain ⟨hp', outcome, hstep⟩ := hunread.onHandleAuthRsp h
      exact ⟨hp', Or.inr ⟨(host.session outcome [], .authRsp unread),
        (fun _ _ heq ↦ by cases heq), hstep⟩⟩
  | tick =>
      obtain ⟨hp', outcome, hstep⟩ := hp.onTimer h
      exact ⟨hp', Or.inr ⟨(host.session outcome [], .tick), (fun _ _ heq ↦ by cases heq), hstep⟩⟩

/-! ## Runs -/

theorem always_linked (inputs : List (SystemHost × Event)) :
    Run.Always Linked step fresh inputs :=
  Run.always_of_invariant step Linked .fresh (fun _ _ _ hp h ↦ (hp.step h).1) inputs

/-- The session has been reached by a run of its own as well. -/
theorem always_accompanied (inputs : List (SystemHost × Event)) :
    Run.Always (fun p ↦ Linked p ∧ ∃ inputs,
      Run.exec Session.step Session.fresh inputs = .ok p.session ∧
        Run.Along Own Session.step Session.fresh inputs) step fresh inputs := by
  refine Run.always_of_invariant step _ ⟨.fresh, [], rfl, trivial⟩ ?_ inputs
  intro p x p' hp h
  obtain ⟨hlinked, before, hrun, hown⟩ := hp
  obtain ⟨hlinked', hsteps⟩ := hlinked.step h
  refine ⟨hlinked', ?_⟩
  rcases hsteps with hsame | ⟨input, hinput, hstep⟩
  · rw [hsame]
    exact ⟨before, hrun, hown⟩
  · exact ⟨before ++ [input], (Run.exec_concat_eq_ok hrun).mpr hstep, hown.concat hrun hinput⟩

/-- The session has been reached by a run of the session alone, which heard of its own connection
only, and the connections by a run of theirs, and both see the same status. -/
structure Refines (p : ChatSystem) : Prop where
  session : ∃ inputs, Run.exec Session.step Session.fresh inputs = .ok p.session ∧
    Run.Along Own Session.step Session.fresh inputs
  net : Run.exec Net.World.step .init p.events = .ok p.net
  status : ∀ tcp, p.session.client.tcpClient = some tcp → ∃ c, p.tcpClient = some c ∧
    p.net.alive c = true ∧ (p.net.client c).connectStatus = tcp.connectStatus

/-- In every run of the system, the session does what some run of the session alone does, which
hears only of the status of the connection it has, the connections do what a run of theirs does,
and the status the session sees is that of the client. -/
theorem always_refines (inputs : List (SystemHost × Event)) :
    Run.Always Refines step fresh inputs := by
  refine (always_accompanied inputs).mono fun p hp ↦ ⟨hp.2, hp.1.traced.ran, fun tcp htcp ↦ ?_⟩
  have hcur := tcpClient_eq_some.mpr ⟨⟨tcp, htcp⟩, rfl⟩
  exact ⟨_, hcur, hp.1.alive _ hcur, hp.1.status tcp htcp⟩

/-- What always holds of a session on its own always holds of that of the system. -/
theorem always_of_session {good : Session → Prop}
    (h : ∀ inputs, Run.Always good Session.step Session.fresh inputs)
    (inputs : List (SystemHost × Event)) :
    Run.Always (fun p ↦ good p.session) step fresh inputs := by
  refine (always_accompanied inputs).mono fun p hp ↦ ?_
  obtain ⟨_, inputs', hrun, _⟩ := hp
  exact (h inputs').last hrun

/-- At most one socket is open and at most one entry is in `g_conn_map`, and they are those of
the object `tcp_client_` points to. -/
structure Single (p : ChatSystem) : Prop where
  socket : ∀ h f, (p.net.handle h).fd = some f →
    ∃ c, p.tcpClient = some c ∧ (p.net.client c).tcpHandle = some h
  entry : ∀ f c, p.net.gConnMap.lookup f = some c → p.tcpClient = some c ∧ p.net.Owns c f
  socket_unique : ∀ h h' f f', (p.net.handle h).fd = some f → (p.net.handle h').fd = some f' →
    h = h'
  entry_unique : ∀ f f' c d, p.net.gConnMap.lookup f = some c → p.net.gConnMap.lookup f' = some d →
    f = f'

theorem Linked.single (hp : Linked p) : Single p := by
  have hw := hp.traced.coherent
  obtain ⟨hsockets, hentries⟩ := hp.sole.unique hw
  exact ⟨fun h f hf ↦ hp.sole.eq_of_open hf,
    fun f c hl ↦ ⟨hp.sole.eq_of_lookup hw hl, hw.entry f c hl⟩, hsockets, hentries⟩

/-- No run of the system, whatever the application does and in which order libuv calls back,
leaves a socket open that `tcp_client_` does not point to. -/
theorem always_single (inputs : List (SystemHost × Event)) :
    Run.Always Single step fresh inputs :=
  (always_linked inputs).mono fun _ hp ↦ hp.single

/-- Every connection is found for its own events, in all states of the connections that a run of
the system leads through, exactly when the run destroys no object let go before whose `sock_fd_`
is the descriptor the connection of `tcp_client_` has. -/
theorem always_delivers_iff_late (inputs : List (SystemHost × Event)) :
    Run.Always (fun p ↦ Run.Always Net.World.Delivers Net.World.step .init p.events ↔
      Run.Along (fun w x ↦ ¬ w.Late x) Net.World.step .init p.events) step fresh inputs := by
  refine (always_linked inputs).mono fun p hp ↦ ?_
  have hiff : Run.Always Net.World.Delivers Net.World.step .init p.events ↔
      Run.Along (fun w x ↦ ¬ w.Stale x) Net.World.step .init p.events := by
    refine Run.always_iff_along Net.World.Coherent .init ?_ (fun w x w' hw h ↦ hw.step h)
      (fun w x w' hw hdel h ↦ Net.World.delivers_step hw hdel h)
    intro c h f hch
    cases hch
  rw [hiff]
  constructor
  · intro halong
    exact halong.imp₂ halong fun w x hx _ hlate ↦ hx hlate.stale
  · intro halong
    exact halong.imp₂ hp.traced.fair fun w x hlate hx hstale ↦ hlate (hx.2 hstale)

/-- No callback of libuv can fail an assertion, in any state of the connections that a run of the
system leads through, exactly when the run neither closes a client with its connect pending, be
it by a `logout` or by a second `login`, nor destroys an older object whose `sock_fd_` is the
descriptor of the pending connect. -/
theorem always_safe_iff_not_canceled (inputs : List (SystemHost × Event)) :
    Run.Always (fun p ↦ Run.Always Net.World.Safe Net.World.step .init p.events ↔
      Run.Along (fun w x ↦ ¬ w.Cancels x ∧ ¬ w.LatePending x) Net.World.step .init p.events)
      step fresh inputs := by
  refine (always_linked inputs).mono fun p hp ↦ ?_
  have hiff : Run.Always Net.World.Safe Net.World.step .init p.events ↔
      Run.Along (fun w x ↦ ¬ w.Breaks x) Net.World.step .init p.events := by
    refine Run.always_iff_along Net.World.Coherent .init ?_ (fun w x w' hw h ↦ hw.step h)
      (fun w x w' hw hsafe h ↦ Net.World.safe_step hw hsafe h)
    rw [Net.World.safe_iff .init]
    intro h hpending
    cases hpending
  have hkeep (w : Net.World) (x : Net.Event) (w' : Net.World) (hw : w.Coherent)
      (h : w.step x = .ok w') : w'.Coherent := hw.step h
  rw [hiff]
  constructor
  · intro halong
    have hboth := halong.imp₂ hp.traced.fair fun w x hbreaks hx ↦ And.intro hbreaks hx
    refine hboth.mono Net.World.Coherent .init hkeep fun w x hw hx ↦ ?_
    obtain ⟨hbreaks, ⟨cur, hs⟩, hfair⟩ := hx
    exact not_or.mp ((hs.breaks_iff hw hfair).not.mp hbreaks)
  · intro halong
    have hboth := halong.imp₂ hp.traced.fair fun w x hgood hx ↦ And.intro hgood hx
    refine hboth.mono Net.World.Coherent .init hkeep fun w x hw hx ↦ ?_
    obtain ⟨hgood, ⟨cur, hs⟩, hfair⟩ := hx
    exact (hs.breaks_iff hw hfair).not.mpr (not_or.mpr hgood)

end CoffeeChat.ChatSystem
