import CoffeeChat.Net.Single
import CoffeeChat.System.ChatSystem

/-!
# What holds between the session and its connections

`Linked` is what every step of the system keeps (`Linked.step`): the object that `tcp_client_`
points to is alive and has the status the session sees, no other has a handle, and whatever was
called or reported below took nothing away from it, the destruction of an older object excepted.
-/

namespace CoffeeChat.ChatSystem

open Lib

variable {p p' : ChatSystem} {env : Env} {host : SystemHost}

/-! ## The invariant -/

/-- There was one client at most, and if the event was stale it was a late one. -/
def Fair (w : Net.World) (x : Net.Event) : Prop := (∃ cur, w.Sole cur) ∧ (w.Stale x → w.Late x)

/-- The events have led from the start to the world, and all of them were fair. -/
structure Traced (events : List Net.Event) (net : Net.World) : Prop where
  ran : Run.exec Net.World.step .init events = .ok net
  fair : Run.Along Fair Net.World.step .init events
  coherent : net.Coherent

theorem Traced.init : Traced [] .init := ⟨rfl, trivial, .init⟩

theorem Traced.concat {events : List Net.Event} {net net' : Net.World} (ht : Traced events net)
    {x : Net.Event} {cur : Option Nat} (hs : net.Sole cur) (hx : net.Stale x → net.Late x)
    (h : net.step x = .ok net') : Traced (events ++ [x]) net' where
  ran := (Run.exec_concat_eq_ok ht.ran).mpr h
  fair := ht.fair.concat ht.ran ⟨⟨cur, hs⟩, hx⟩
  coherent := ht.coherent.step h

/-- The session and the world fit together. -/
structure Linked (p : ChatSystem) : Prop where
  traced : Traced p.events p.net
  sole : p.net.Sole p.tcpClient
  loggedOut : p.session.client.loginStatus ≠ .kLoginOk
  made : p.session.made = p.net.made
  alive : ∀ c, p.tcpClient = some c → p.net.alive c = true
  status : ∀ tcp, p.session.client.tcpClient = some tcp →
    (p.net.client (p.session.made - 1)).connectStatus = tcp.connectStatus

theorem Linked.fresh : Linked fresh where
  traced := .init
  sole := .init
  loggedOut := (by decide : Session.fresh.client.loginStatus ≠ .kLoginOk)
  made := rfl
  alive _ h := by cases h
  status _ h := by cases h

/-- The client there is has the last number. -/
theorem tcpClient_eq_some {c : Nat} : p.tcpClient = some c ↔
    (∃ tcp, p.session.client.tcpClient = some tcp) ∧ c = p.session.made - 1 := by
  unfold tcpClient
  cases p.session.client.tcpClient with
  | none => simp
  | some tcp => simp [eq_comm]

theorem Linked.made_eq (hp : Linked p) {c : Nat} (hc : p.tcpClient = some c) :
    p.session.made = c + 1 := by
  have hlt := hp.traced.coherent.alive_lt c (hp.alive c hc)
  obtain ⟨_, heq⟩ := tcpClient_eq_some.mp hc
  have hmade := hp.made
  omega

/-! ## Steps of the session alone -/

/-- The sessions have the same connection object, with the same status, and are logged in or
out alike. -/
structure Calm (s s' : Session) : Prop where
  loginStatus : s'.client.loginStatus = s.client.loginStatus
  made : s'.made = s.made
  connStatus : s'.client.tcpClient.map (·.connectStatus) =
    s.client.tcpClient.map (·.connectStatus)

theorem Calm.of_quiet {s s' : Session} (h : Session.Quiet s s') : Calm s s' :=
  ⟨h.client.loginStatus, h.made, h.client.connStatus⟩

theorem Calm.mark (s : Session) (m : Mark) : Calm s (s.mark m) := ⟨rfl, rfl, rfl⟩

theorem Linked.calm (hp : Linked p) {s' : Session} (h : Calm p.session s') :
    Linked (p.withSession s') := by
  have hcur : (p.withSession s').tcpClient = p.tcpClient := by
    have hmap := congrArg (Option.map fun _ ↦ p.session.made - 1) h.connStatus
    rw [Option.map_map, Option.map_map] at hmap
    unfold tcpClient
    show s'.client.tcpClient.map (fun _ ↦ s'.made - 1) = _
    rw [h.made]
    exact hmap
  refine ⟨hp.traced, ?_, ?_, ?_, ?_, ?_⟩
  · rw [hcur]
    exact hp.sole
  · show s'.client.loginStatus ≠ _
    rw [h.loginStatus]
    exact hp.loggedOut
  · show s'.made = _
    rw [h.made]
    exact hp.made
  · intro c hc
    rw [hcur] at hc
    exact hp.alive c hc
  · intro tcp htcp
    have hmap := h.connStatus
    have htcp' : s'.client.tcpClient = some tcp := htcp
    rw [htcp', Option.map_some] at hmap
    obtain ⟨tcp', hold, heq⟩ := Option.map_eq_some_iff.mp hmap.symm
    show (p.net.client (s'.made - 1)).connectStatus = _
    rw [h.made, ← heq]
    exact hp.status tcp' hold

/-! ## Letting the connection go -/

theorem emit_ok {x : Net.Event} (h : p.emit x = .ok p') :
    ∃ net, p.net.step x = .ok net ∧ p' = { p with net, events := p.events ++ [x] } := by
  obtain ⟨net, hnet, h⟩ := bind_eq_ok.mp h
  cases h
  exact ⟨net, hnet, rfl⟩

/-- Destroying a client changes nothing but that client. -/
theorem step_destroy {w w' : Net.World} {c : Nat} {cur : Option Nat} (hs : w.Sole cur)
    (h : w.step (.destroy c) = .ok w') :
    w'.Sole cur ∧ w'.made = w.made ∧
      ∀ d, d ≠ c → w'.alive d = w.alive d ∧ w'.client d = w.client d := by
  by_cases hgo : w.alive c = true ∧ ¬ w.Registered c
  · cases (if_pos hgo).symm.trans (Except.ok.inj h)
    refine ⟨hs.destruct c, Net.World.close_made w c, fun d hdc ↦ ⟨?_, ?_⟩⟩
    · exact Function.update_of_ne hdc ..
    · exact Net.World.close_client_of_ne hdc
  · cases (if_neg hgo).symm.trans (Except.ok.inj h)
    exact ⟨hs, rfl, fun _ _ ↦ ⟨rfl, rfl⟩⟩

/-- Behind it no client has a handle. -/
theorem Linked.letGo (hp : Linked p) {last : Bool} (h : p.letGo last = .ok p') :
    Traced p'.events p'.net ∧ p'.net.Sole none ∧ p'.net.made = p.net.made := by
  unfold ChatSystem.letGo at h
  have hsole := hp.sole
  cases hcur : p.tcpClient with
  | none =>
      rw [hcur] at h hsole
      cases h
      exact ⟨hp.traced, hsole, rfl⟩
  | some c =>
      rw [hcur] at h hsole
      obtain ⟨p1, hclose, h⟩ := bind_eq_ok.mp h
      obtain ⟨net, hnet, rfl⟩ := emit_ok hclose
      have halive := hp.alive c hcur
      obtain rfl : p.net.close c = net := (if_pos halive).symm.trans (Except.ok.inj hnet)
      have hfair : ¬ p.net.Stale (.close c) := by
        refine hsole.not_stale fun c' d hc' hd ↦ ?_
        cases (if_pos halive).symm.trans hc'
        exact (Option.some.inj hd).symm
      have htraced := hp.traced.concat hsole (fun hstale ↦ absurd hstale hfair) hnet
      have hnone : (p.net.close c).Sole none := hsole.close_self
      have hmade := Net.World.close_made p.net c
      cases last with
      | false =>
          cases h
          exact ⟨htraced, hnone, hmade⟩
      | true =>
          obtain ⟨net, hnet, rfl⟩ := emit_ok h
          obtain ⟨hsole', hmade', _⟩ := step_destroy hnone hnet
          refine ⟨htraced.concat hnone (fun hstale ↦ ?_) hnet, hsole', hmade'.trans hmade⟩
          exact absurd hstale (hnone.not_stale fun _ _ _ hd ↦ by cases hd)

/-- `logout` of both. -/
theorem Linked.logout (hp : Linked p) {last : Bool} (h : p.logout env last = .ok p') :
    Linked p' ∧ p'.session = p.session.loggedOut := by
  obtain ⟨session, hsession, h⟩ := bind_eq_ok.mp h
  obtain ⟨p1, hgo, h⟩ := bind_eq_ok.mp h
  cases h
  cases (Session.logout_eq env hp.loggedOut).symm.trans hsession
  obtain ⟨htraced, hsole, hmade⟩ := hp.letGo hgo
  refine ⟨⟨htraced, hsole, ?_, hp.made.trans hmade.symm, ?_, ?_⟩, rfl⟩
  · show (Session.loggedOut _).client.loginStatus ≠ _
    simp
  · intro c hc
    cases hc
  · intro tcp htcp
    cases htcp

/-- `login` of both. -/
theorem Linked.login (hp : Linked p) {args : LoginArgs} {os : Net.Outcome} {last : Bool}
    (h : p.login env args os last = .ok p') : Linked p' ∧ ∃ connected,
      p.session.login env { args with connected } = .ok p'.session := by
  obtain ⟨p1, hgo, h⟩ := bind_eq_ok.mp h
  obtain ⟨p2, hconstruct, h⟩ := bind_eq_ok.mp h
  obtain ⟨⟨connected, net⟩, hconnect, h⟩ := bind_eq_ok.mp h
  obtain ⟨session, hlogin, h⟩ := bind_eq_ok.mp h
  cases h
  obtain ⟨htraced, hsole, hmade⟩ := hp.letGo hgo
  obtain ⟨net1, hnet1, rfl⟩ := emit_ok hconstruct
  obtain rfl : p1.net.construct = net1 := Except.ok.inj hnet1
  -- the new client, in the place of none
  have halive : p1.net.construct.alive p1.net.made = true := Function.update_self ..
  have hsole1 : p1.net.construct.Sole none := hsole.construct
  have htraced1 := htraced.concat hsole
    (fun hstale ↦ absurd hstale (Net.World.not_stale rfl)) hnet1
  have hstep : p1.net.construct.step (.connect p1.net.made os) = .ok net :=
    (if_pos halive).trans (bind_eq_ok.mpr ⟨_, hconnect, rfl⟩)
  have htraced2 := htraced1.concat hsole1
    (fun hstale ↦ absurd hstale (hsole1.not_stale fun _ _ _ hd ↦ by cases hd)) hstep
  obtain ⟨t, hd, m, hnet, hopened, _, hstatus⟩ :=
    Net.World.connect_opened htraced1.coherent hconnect
  obtain ⟨md5, heq⟩ := Session.login_eq env { args with connected } hp.loggedOut
  obtain rfl : _ = session := Except.ok.inj (heq.symm.trans hlogin)
  have hlast : p.session.made + 1 - 1 = p1.net.made := by
    rw [hmade, Nat.add_sub_cancel, hp.made]
  refine ⟨⟨htraced2, ?_, ?_, ?_, ?_, ?_⟩, connected, hlogin⟩
  · have hcur : some (p.session.made + 1 - 1) = some p1.net.made := congrArg some hlast
    show net.Sole (some (p.session.made + 1 - 1))
    rw [hcur]
    exact hsole1.connect htraced1.coherent hconnect
  · simp
  · show p.session.made + 1 = net.made
    rw [hnet, hp.made, ← hmade]
    show _ = (p1.net.construct.close _).made
    rw [Net.World.close_made]
    rfl
  · intro c hc
    obtain rfl : p.session.made + 1 - 1 = c := Option.some.inj hc
    show net.alive _ = true
    rw [hlast, hnet]
    show (p1.net.construct.close _).alive _ = true
    rw [Net.World.close_alive]
    exact halive
  · intro tcp htcp
    obtain rfl : Session.LoginArgs.tcpClient { args with connected } = tcp := Option.some.inj htcp
    show (net.client (p.session.made + 1 - 1)).connectStatus = _
    rw [hlast, hnet, Net.World.attach_client_self, hstatus]
    rfl

/-! ## Actions -/

theorem Linked.release (hp : Linked p) {c : Nat} (hc : p.tcpClient ≠ some c)
    (h : p.emit (.destroy c) = .ok p') : Linked p' ∧ p'.session = p.session := by
  obtain ⟨net, hnet, rfl⟩ := emit_ok h
  obtain ⟨hsole, hmade, hother⟩ := step_destroy hp.sole hnet
  refine ⟨⟨hp.traced.concat hp.sole ?_ hnet, hsole, hp.loggedOut, hp.made.trans hmade.symm,
    ?_, ?_⟩, rfl⟩
  · intro hstale
    obtain ⟨c', d, hc', hdc, hown⟩ := hstale
    obtain ⟨_, heq⟩ := Option.ite_none_right_eq_some.mp hc'
    cases heq
    exact ⟨c, d, rfl, hc', hdc, hown⟩
  · intro d hd
    have hdc : d ≠ c := fun heq ↦ hc (heq ▸ hd)
    rw [(hother d hdc).1]
    exact hp.alive d hd
  · intro tcp htcp
    have hcur : p.tcpClient = some (p.session.made - 1) := tcpClient_eq_some.mpr ⟨⟨tcp, htcp⟩, rfl⟩
    have hdc : p.session.made - 1 ≠ c := fun heq ↦ hc (heq ▸ hcur)
    show (net.client _).connectStatus = _
    rw [(hother _ hdc).2]
    exact hp.status tcp htcp

/-- An action keeps the two together, and is a call of the session or none. -/
theorem Linked.action (hp : Linked p) {action : Action} (h : action.run env p = .ok p') :
    Linked p' ∧
      (p'.session = p.session ∨ ∃ call : ApiCall, call.run env p.session = .ok p'.session) := by
  cases action with
  | release c =>
      by_cases hc : p.tcpClient = some c
      · cases (if_pos hc).symm.trans h
        exact ⟨hp, Or.inl rfl⟩
      · obtain ⟨hlinked, hsession⟩ := hp.release hc ((if_neg hc).symm.trans h)
        exact ⟨hlinked, Or.inl hsession⟩
  | call api os last =>
      -- a call that neither logs in nor logs out is one of the session alone
      have hrest (hquiet : api.marks = []) (h : (do
          let session ← api.run env p.session
          return p.withSession session) = .ok p') : Linked p' ∧
          (p'.session = p.session ∨ ∃ call : ApiCall, call.run env p.session = .ok p'.session) := by
        obtain ⟨session, hrun, h⟩ := bind_eq_ok.mp h
        cases h
        refine ⟨hp.calm ?_, Or.inr ⟨api, hrun⟩⟩
        rcases ApiCall.run_cases hp.loggedOut hrun with ⟨args, md5, rfl, _⟩ | ⟨rfl, _⟩ | ⟨_, h⟩
        · cases hquiet
        · cases hquiet
        · exact .of_quiet h
      cases api with
      | login args =>
          obtain ⟨hlinked, connected, hlogin⟩ := hp.login h
          exact ⟨hlinked, Or.inr ⟨.login { args with connected }, hlogin⟩⟩
      | logout =>
          obtain ⟨hlinked, hsession⟩ := hp.logout h
          refine ⟨hlinked, Or.inr ⟨.logout, ?_⟩⟩
          rw [hsession]
          exact Session.logout_eq env hp.loggedOut
      | setConnectionCallback | setRecvMsgCallback | connStatus | sendData | send
      | sendMessage => exact hrest rfl h

/-- Several actions are several calls of the session. -/
theorem Linked.runActions (hp : Linked p) {actions : List Action}
    (h : runActions env actions p = .ok p') :
    Linked p' ∧ ∃ calls, runCalls env calls p.session = .ok p'.session := by
  induction actions generalizing p with
  | nil =>
      cases h
      exact ⟨hp, [], rfl⟩
  | cons action actions ih =>
      obtain ⟨p1, hrun, h⟩ := bind_eq_ok.mp h
      obtain ⟨hp1, hcall⟩ := hp.action hrun
      obtain ⟨hp', calls, hcalls⟩ := ih hp1 h
      rcases hcall with hsame | ⟨call, hcall⟩
      · rw [hsame] at hcalls
        exact ⟨hp', calls, hcalls⟩
      · exact ⟨hp', call :: calls, bind_eq_ok.mpr ⟨_, hcall, hcalls⟩⟩

/-! ## The handlers -/

/-- A callback of the system is one of the session, for a host that makes the right calls. -/
theorem Linked.notify (hp : Linked p) {n : Option Notice} (h : p.notify host n = .ok p') :
    Linked p' ∧ ∃ calls, ∀ host' : Host, host'.toEnv = host.toEnv →
      (∀ m, n = some m → host'.script m = calls) → p.session.notify host' n = .ok p'.session := by
  cases n with
  | none =>
      cases h
      exact ⟨hp, [], fun _ _ _ ↦ rfl⟩
  | some m =>
      have hmarked : Linked (p.withSession (p.session.mark (.notice m))) := hp.calm (.mark _ _)
      obtain ⟨hp', calls, hcalls⟩ := hmarked.runActions h
      refine ⟨hp', calls, fun host' henv hscript ↦ ?_⟩
      show runCalls host'.toEnv (host'.script m) _ = _
      rw [henv, hscript m rfl]
      exact hcalls

/-- A status `kConnectOk` sends the login request, and is reported. -/
theorem onConnectionStatusChanged_up {conn : Nat}
    (h : p.onConnectionStatusChanged host conn .kConnectOk = .ok p') :
    ∃ r, p.session.client.send host.toEnv kCIM_CID_LOGIN_AUTH_REQ p.session.authReq.toLite = .ok r ∧
      (p.withSession (p.session.withClient r.2)).notify host
        (p.session.statusNotice conn .kConnectOk) = .ok p' := by
  unfold onConnectionStatusChanged at h
  obtain ⟨r, hsend, h⟩ := bind_eq_ok.mp h
  exact ⟨r, hsend, h⟩

/-- Any other status ends a login, logs out, and is reported. -/
theorem onConnectionStatusChanged_lost {conn : Nat} {status : ConnectionStatus}
    (hstatus : status ≠ .kConnectOk)
    (h : p.onConnectionStatusChanged host conn status = .ok p') :
    ∃ p1 p2, (p.withSession (p.session.mark .disconnect)).notify host p.session.lostNotice =
        .ok p1 ∧ p1.logout host.toEnv host.last = .ok p2 ∧
      p2.notify host (p2.session.statusNotice conn status) = .ok p' := by
  unfold onConnectionStatusChanged at h
  rw [if_neg hstatus] at h
  unfold Session.lostNotice
  by_cases hin : p.session.client.loginStatus = .kLogining
  · rw [if_pos hin]
    obtain ⟨p1, hnotify, h⟩ := bind_eq_ok.mp ((if_pos hin).symm.trans h)
    obtain ⟨p2, hlogout, h⟩ := bind_eq_ok.mp h
    exact ⟨p1, p2, hnotify, hlogout, h⟩
  · rw [if_neg hin]
    obtain ⟨p1, hsame, h⟩ := bind_eq_ok.mp ((if_neg hin).symm.trans h)
    obtain ⟨p2, hlogout, h⟩ := bind_eq_ok.mp h
    exact ⟨p1, p2, hsame, hlogout, h⟩

/-- The converse for the session alone. -/
theorem session_of_lost {host : Host} {s s1 s' : Session} {conn : Nat} {status : ConnectionStatus}
    (hstatus : status ≠ .kConnectOk) (hnotify : (s.mark .disconnect).notify host s.lostNotice =
      .ok s1) (hout : s1.client.loginStatus ≠ .kLoginOk)
    (h : s1.loggedOut.notify host (s1.statusNotice conn status) = .ok s') :
    s.onConnectionStatusChanged host conn status = .ok s' := by
  have hlast : (s1.logout host.toEnv >>= fun s2 ↦ s2.notify host (s2.statusNotice conn status)) =
      .ok s' := bind_eq_ok.mpr ⟨_, Session.logout_eq _ hout, h⟩
  unfold Session.onConnectionStatusChanged
  rw [if_neg hstatus]
  unfold Session.lostNotice at hnotify
  by_cases hin : s.client.loginStatus = .kLogining
  · rw [if_pos hin] at hnotify
    exact (if_pos hin).trans (bind_eq_ok.mpr ⟨s1, hnotify, hlast⟩)
  · rw [if_neg hin] at hnotify
    cases hnotify
    exact (if_neg hin).trans hlast

/-- What is said of a connection is the body of the connection callback. -/
theorem script_status {s : Session} {outcome change : List ApiCall} {conn : Nat}
    {status : ConnectionStatus} {m : Notice} (hm : s.statusNotice conn status = some m) :
    (host.session outcome change).script m = change := by
  obtain ⟨id, _, rfl⟩ := Option.map_eq_some_iff.mp hm
  rfl

theorem script_lost {s : Session} {outcome change : List ApiCall} {m : Notice}
    (hm : s.lostNotice = some m) : (host.session outcome change).script m = outcome := by
  obtain ⟨_, hm⟩ := Option.ite_none_right_eq_some.mp hm
  obtain ⟨id, _, rfl⟩ := Option.map_eq_some_iff.mp hm
  rfl

/-- `onConnectionStatusChanged` of both. -/
theorem Linked.statusChanged (hp : Linked p) {conn : Nat} {status : ConnectionStatus}
    (h : p.onConnectionStatusChanged host conn status = .ok p') :
    Linked p' ∧ ∃ outcome change, p.session.onConnectionStatusChanged
      (host.session outcome change) conn status = .ok p'.session := by
  by_cases hup : status = .kConnectOk
  · subst hup
    obtain ⟨r, hsend, h⟩ := onConnectionStatusChanged_up h
    have hquiet := Session.quiet_withClient p.session (Client.send_quiet hsend)
    obtain ⟨hp', change, hchange⟩ := (hp.calm (.of_quiet hquiet)).notify h
    refine ⟨hp', [], change, bind_eq_ok.mpr ⟨r, hsend, ?_⟩⟩
    exact hchange (host.session [] change) rfl fun m hm ↦ script_status hm
  · obtain ⟨p1, p2, hlost, hlogout, h⟩ := onConnectionStatusChanged_lost hup h
    have hmarked : Linked (p.withSession (p.session.mark .disconnect)) := hp.calm (.mark _ _)
    obtain ⟨hp1, outcome, houtcome⟩ := hmarked.notify hlost
    obtain ⟨hp2, hout⟩ := hp1.logout hlogout
    obtain ⟨hp', change, hchange⟩ := hp2.notify h
    rw [hout] at hchange
    refine ⟨hp', outcome, change, session_of_lost hup ?_ hp1.loggedOut ?_⟩
    · exact houtcome (host.session outcome change) rfl fun m hm ↦ script_lost hm
    · exact hchange (host.session outcome change) rfl fun m hm ↦ script_status hm

end CoffeeChat.ChatSystem
