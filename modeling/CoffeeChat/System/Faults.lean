import CoffeeChat.Core.PublicCalls
import CoffeeChat.System.Reception

/-!
# What stops the program

`Survives` says, for every state and every event, that the step returns: the calls of the
application find the object they go through, libuv does not report a connect whose handle was
closed or whose descriptor has lost its entry, and every handler of a chunk that reaches the client
leaves what follows its packet. In a build with assertions and with callbacks that rely on no
connection it says so exactly, in every state the program reaches (`always_survives_iff`); in
particular the timer and a lost connection never stop it, and neither does a callback that logs in
or out in the middle of a chunk.
-/

namespace CoffeeChat.Desktop

open Lib ChatSystem

variable {p p' q start : ChatSystem} {host : DesktopHost} {u : Bytes} {env : Env}

/-! ## Actions -/

/-- `login` finds the event loop running, and the calls that go through `tcp_client_` find it
there, `send(data, len)` with the connection up. -/
def Supported (p : ChatSystem) : Action → Prop
  | .release _ => True
  | .call api os _ =>
    match api with
    | .login _ => os.loopIsRun = true
    | .logout | .setConnectionCallback _ | .setRecvMsgCallback _ => True
    | .connStatus | .send _ _ | .sendMessage _ _ _ => p.session.client.tcpClient.isSome = true
    | .sendData _ => Session.Connected p.session

/-- What is to be framed fits the header, as all that protobuf serializes does. -/
def Fitting (env : Env) (p : ChatSystem) : Action → Prop
  | .release _ => True
  | .call api _ _ => Session.Framed env p.session api

theorem letGo_returns (p : ChatSystem) (last : Bool) : ∃ p', p.letGo last = .ok p' := by
  unfold ChatSystem.letGo
  cases p.tcpClient with
  | none => exact ⟨p, rfl⟩
  | some c => cases last <;> exact ⟨_, rfl⟩

theorem logout_returns (env : Env) (hout : p.session.client.loginStatus ≠ .kLoginOk)
    (last : Bool) : ∃ p', p.logout env last = .ok p' := by
  obtain ⟨p1, hgo⟩ := letGo_returns p last
  exact ⟨_, bind_eq_ok.mpr ⟨_, Session.logout_eq env hout, bind_eq_ok.mpr ⟨p1, hgo, rfl⟩⟩⟩

theorem connect_returns (w : Net.World) (c : Nat) {os : Net.Outcome} (hrun : os.loopIsRun = true) :
    ∃ r, w.connect c os = .ok r := by
  simp only [Net.World.connect, hrun, check, if_true, bind, Except.bind]
  split
  · exact ⟨_, rfl⟩
  · split
    · exact ⟨_, rfl⟩
    · split <;> exact ⟨_, rfl⟩

theorem returns_bind_iff {α β : Type} {x : Result α} {f : α → β} :
    (∃ b, (x >>= fun a ↦ .ok (f a)) = .ok b) ↔ ∃ a, x = .ok a := by
  cases x <;> simp [bind, Except.bind]

theorem sendData_returns_iff {s : Session} {data : Bytes} :
    (∃ r, s.client.sendData env data = .ok r) ↔ Session.Connected s := by
  constructor
  · rintro ⟨r, hr⟩
    obtain ⟨tcp, htcp, hup, _⟩ := Client.sendData_ok hr
    exact ⟨tcp, htcp, hup⟩
  · intro hup
    obtain ⟨r, hr, _⟩ := Session.returns_sendData_iff.mpr hup
    exact ⟨r, hr⟩

theorem send_returns_iff {s : Session} {cmdId : CIMCmdID} {msg : MessageLite}
    (hsize : sizeofIMHeader + msg.byteSizeLong < 2 ^ 32) :
    (∃ r, s.client.send env cmdId msg = .ok r) ↔ s.client.tcpClient.isSome = true := by
  constructor
  · rintro ⟨r, hr⟩
    obtain ⟨_, _, hstatus, _⟩ := Client.send_ok hr
    obtain ⟨tcp, htcp, _⟩ := Client.connStatus_eq_ok.mp hstatus
    exact Option.isSome_iff_exists.mpr ⟨tcp, htcp⟩
  · intro hsome
    obtain ⟨r, hr, _⟩ := (Session.returns_send_iff hsize).mpr hsome
    exact ⟨r, hr⟩

theorem action_returns_iff {action : Action} (hout : p.session.client.loginStatus ≠ .kLoginOk)
    (hfits : Fitting env p action) :
    (∃ p', action.run env p = .ok p') ↔ Supported p action := by
  cases action with
  | release c =>
      refine iff_of_true ?_ trivial
      by_cases hc : p.tcpClient = some c
      · exact ⟨p, if_pos hc⟩
      · exact ⟨_, if_neg hc⟩
  | call api os last =>
      cases api with
      | login args =>
          obtain ⟨p1, hgo⟩ := letGo_returns p last
          constructor
          · rintro ⟨p', h⟩
            obtain ⟨p2, _, h⟩ := bind_eq_ok.mp h
            obtain ⟨p3, _, h⟩ := bind_eq_ok.mp h
            obtain ⟨_, hconnect, _⟩ := bind_eq_ok.mp h
            obtain ⟨_, hloop, _⟩ := bind_eq_ok.mp hconnect
            show os.loopIsRun = true
            exact check_eq_ok.mp hloop
          · intro hloop
            obtain ⟨⟨connected, net⟩, hconnect⟩ :=
              connect_returns p1.net.construct p1.net.made hloop
            obtain ⟨md5, hlogin⟩ := Session.login_eq env { args with connected } hout
            exact ⟨_, bind_eq_ok.mpr ⟨p1, hgo, bind_eq_ok.mpr ⟨_, rfl,
              bind_eq_ok.mpr ⟨_, hconnect, bind_eq_ok.mpr ⟨_, hlogin, rfl⟩⟩⟩⟩⟩
      | logout => exact iff_of_true (logout_returns env hout last) trivial
      | setConnectionCallback cb => exact iff_of_true ⟨_, rfl⟩ trivial
      | setRecvMsgCallback cb => exact iff_of_true ⟨_, rfl⟩ trivial
      | connStatus =>
          refine returns_bind_iff.trans (returns_bind_iff.trans ?_)
          show _ ↔ p.session.client.tcpClient.isSome = true
          rw [← Session.returns_connStatus_iff]
          simp [Returns]
      | sendData data => exact returns_bind_iff.trans (returns_bind_iff.trans sendData_returns_iff)
      | send cmdId msg =>
          exact returns_bind_iff.trans (returns_bind_iff.trans (send_returns_iff hfits))
      | sendMessage toId msg msgData =>
          exact returns_bind_iff.trans (returns_bind_iff.trans
            (returns_bind_iff.trans (send_returns_iff hfits)))

/-! ## Callbacks -/

/-- The action returns in every state, so it relies on no connection. -/
def Harmless (action : Action) : Prop := ∀ p, Supported p action

/-- The callbacks of the application do nothing but harmless actions. -/
structure HarmlessHost (host : DesktopHost) : Prop where
  script : ∀ n, ∀ action ∈ host.script n, Harmless action
  received : ∀ id data, ∀ action ∈ host.received id data, Harmless action

theorem Harmless.fitting {action : Action} (h : Harmless action) : Fitting env p action := by
  have hnone : ¬ Session.fresh.client.tcpClient.isSome = true := by decide
  cases action with
  | release c => trivial
  | call api os last =>
      cases api with
      | send cmdId msg => exact absurd (h ChatSystem.fresh) hnone
      | sendMessage toId msg msgData => exact absurd (h ChatSystem.fresh) hnone
      | login | logout | setConnectionCallback | setRecvMsgCallback | connStatus | sendData =>
          trivial

theorem Harmless.returns {action : Action} (h : Harmless action) (env : Env)
    (hout : p.session.client.loginStatus ≠ .kLoginOk) : ∃ p', action.run env p = .ok p' :=
  (action_returns_iff hout h.fitting).mpr (h p)

theorem runActions_returns {actions : List Action}
    (h : ∀ action ∈ actions, Harmless action)
    (hout : p.session.client.loginStatus ≠ .kLoginOk) :
    ∃ p', runActions env actions p = .ok p' := by
  induction actions generalizing p with
  | nil => exact ⟨p, rfl⟩
  | cons action actions ih =>
      obtain ⟨p1, hrun⟩ := (h action List.mem_cons_self).returns env hout
      have hout1 := (keepsBuffer_action hout hrun).loggedOut
      obtain ⟨p', hrest⟩ := ih (fun a ha ↦ h a (List.mem_cons_of_mem _ ha)) hout1
      exact ⟨p', bind_eq_ok.mpr ⟨p1, hrun, hrest⟩⟩

section

variable (hhost : HarmlessHost host)

include hhost

theorem notify_returns (hout : p.session.client.loginStatus ≠ .kLoginOk) (n : Option Notice) :
    ∃ p', p.notify host.toSystemHost n = .ok p' := by
  cases n with
  | none => exact ⟨p, rfl⟩
  | some m =>
      exact runActions_returns (p := p.withSession (p.session.mark (.notice m))) (hhost.script m)
        hout

theorem onHandleAuthRsp_returns (h : Unread start p u) :
    ∃ p', p.onHandleAuthRsp host.toSystemHost = .ok p' := by
  obtain ⟨r, hparse, -⟩ := parsePbAndCheck_spec host.authRsp h.holds.wf
  cases r with
  | none => exact ⟨p, bind_eq_ok.mpr ⟨none, hparse, rfl⟩⟩
  | some r =>
      obtain ⟨rsp, b⟩ := r
      have htook : (p.withSession (p.session.took rsp b)).session.client.loginStatus ≠ .kLoginOk :=
        h.loggedOut
      by_cases hfail : rsp.resultCode ≠ kCIM_ERR_SUCCESS
      · obtain ⟨p1, hlogout⟩ := logout_returns host.toEnv htook host.last
        obtain ⟨p', hnotify⟩ := notify_returns hhost (keepsBuffer_logout htook hlogout).loggedOut
          (p1.session.rspNotice rsp)
        exact ⟨p', bind_eq_ok.mpr ⟨_, hparse, (if_pos hfail).trans
          (bind_eq_ok.mpr ⟨p1, hlogout, hnotify⟩)⟩⟩
      · obtain ⟨p', hnotify⟩ := notify_returns hhost htook ((p.session.took rsp b).rspNotice rsp)
        exact ⟨p', bind_eq_ok.mpr ⟨_, hparse, (if_neg hfail).trans hnotify⟩⟩

theorem onHandleMsgData_returns (h : Unread start p u) (header : IMHeader) :
    ∃ p', onHandleMsgData host header p = .ok p' := by
  unfold Desktop.onHandleMsgData
  split
  case isFalse => exact ⟨p, rfl⟩
  case isTrue =>
    cases p.session.kit.chatManager.recvCb with
    | none => exact ⟨p, rfl⟩
    | some id =>
        simp only [h.length_eq, h.contents_eq, bind, Except.bind]
        cases host.msgData.parseFromArray u with
        | none => exact ⟨p, rfl⟩
        | some data => exact runActions_returns (hhost.received id data) h.loggedOut

theorem onHandleData_returns (h : Unread start p u) (header : IMHeader) :
    ∃ p', onHandleData host header p = .ok p' := by
  unfold Desktop.onHandleData
  split
  · exact onHandleAuthRsp_returns hhost h
  · split
    · exact onHandleMsgData_returns hhost h header
    · obtain ⟨b, hskip, -⟩ := Buffer.skip_spec h.holds.wf header.len.toNat
      exact ⟨_, bind_eq_ok.mpr ⟨b, hskip, rfl⟩⟩

theorem loopBody_alike (h : AtHead start p u) :
    Loop.Turn.Alike (AtHead start) (Unread start) (loopBody host p).2
      (walkTurn host.toEnv u).2 := by
  rcases loopBody_cases host h with ⟨q, fault, hq, herror, _⟩ | halike
  · obtain ⟨p', hrun⟩ := onHandleData_returns hhost hq (IMHeader.decode u)
    cases hrun.symm.trans herror
  · exact halike

theorem loop_alike (h : AtHead start p u) (fuel : Nat) :
    Loop.End.Alike (AtHead start) (Unread start) (Loop.run (loopBody host) fuel p).2
      (Loop.run (walkTurn host.toEnv) fuel u).2 := by
  refine (Loop.run_simulation id id ?_ fuel p u h).2
  intro q v hq
  exact ⟨hq.contents_eq.trans (walkTurn_fst _ _).symm, loopBody_alike hhost hq⟩

end

/-! ## When a chunk stops the program -/

/-- The handler of every packet of the chunk leaves as many bytes as follow its packet. -/
def Aligned (env : Env) (chunk : Chunk) : Prop :=
  ∀ u ∈ headsOf env chunk, Accepts u →
    (consume env (IMHeader.decode u) (u.drop sizeofIMHeader)).length =
      u.length - (IMHeader.decode u).len.toNat

theorem walkTurn_fails_iff {env : Env} (hasserts : env.ndebug = false) :
    (∃ fault, (walkTurn env u).2 = .fail fault) ↔
      ¬ (Accepts u → (consume env (IMHeader.decode u) (u.drop sizeofIMHeader)).length =
        u.length - (IMHeader.decode u).len.toNat) := by
  by_cases hacc : Accepts u
  · rw [walkTurn_accepts hacc rfl]
    split
    case isTrue hkept =>
      refine iff_of_false ?_ (not_not.mpr fun _ ↦ hkept.resolve_left ?_)
      · rintro ⟨fault, hfail⟩
        split at hfail <;> cases hfail
      · rw [hasserts]
        exact Bool.false_ne_true
    case isFalse hlost => exact iff_of_true ⟨_, rfl⟩ fun h ↦ hlost (Or.inr (h hacc))
  · refine iff_of_false ?_ (not_not.mpr fun h ↦ absurd h hacc)
    rintro ⟨fault, hfail⟩
    rw [walkTurn, if_neg hacc] at hfail
    cases hfail

/-- The walk over a chunk fails exactly when the chunk is not aligned. -/
theorem walk_fails_iff {env : Env} (hasserts : env.ndebug = false) {chunk : Chunk}
    (hlong : sizeofIMHeader < chunk.bytes.length) :
    (∃ fault, (Loop.run (walkTurn env) chunk.bytes.length chunk.bytes).2 = .failed fault) ↔
      ¬ Aligned env chunk := by
  have hheads : headsOf env chunk =
      (Loop.run (walkTurn env) chunk.bytes.length chunk.bytes).1 :=
    if_neg (Nat.not_le.mpr hlong)
  rw [Aligned, hheads]
  constructor
  · rintro ⟨fault, hfail⟩ haligned
    obtain ⟨u, hu, hturn⟩ := (Loop.run_failed_iff (walkTurn_fst env) _ _).mp hfail
    exact (walkTurn_fails_iff hasserts).mp ⟨fault, hturn⟩ (haligned u hu)
  · intro hnot
    obtain ⟨u, hnot⟩ := not_forall.mp hnot
    obtain ⟨hu, hlost⟩ := Classical.not_imp.mp hnot
    obtain ⟨fault, hturn⟩ := (walkTurn_fails_iff hasserts).mpr hlost
    exact ⟨fault, (Loop.run_failed_iff (walkTurn_fst env) _ _).mpr ⟨u, hu, hturn⟩⟩

theorem onMessage_returns_iff (hasserts : host.ndebug = false) (hhost : HarmlessHost host)
    (h : Ready start p) (chunk : Chunk) :
    (∃ p', onMessage host chunk p = .ok p') ↔ Aligned host.toEnv chunk := by
  unfold Desktop.onMessage
  by_cases hshort : chunk.bytes.length ≤ sizeofIMHeader
  · refine iff_of_true ⟨p, if_pos hshort⟩ fun u hu ↦ ?_
    rw [headsOf, if_pos hshort] at hu
    cases hu
  · have hlong := Nat.not_le.mp hshort
    obtain ⟨b, hwrite, htop⟩ := h.write hlong
    have hend := loop_alike hhost htop chunk.bytes.length
    have hfails := walk_fails_iff hasserts hlong
    have hruns (q : ChatSystem) := htop.not_running (q := q) host
    rw [if_neg hshort]
    simp only [hwrite, bind, Except.bind]
    generalize (Loop.run (loopBody host) chunk.bytes.length (p.withBuffer b)).2 = e at *
    generalize (Loop.run (walkTurn host.toEnv) chunk.bytes.length chunk.bytes).2 = w at *
    cases hend with
    | left hafter =>
        refine iff_of_true ⟨_, rfl⟩ (not_not.mp fun hnot ↦ ?_)
        obtain ⟨fault, hfail⟩ := hfails.mpr hnot
        cases hfail
    | failed =>
        refine iff_of_false ?_ (hfails.mp ⟨_, rfl⟩)
        rintro ⟨p', hrun⟩
        cases hrun
    | running _ => exact absurd rfl (hruns _)

theorem emit_returns (hw : p.net.Coherent) (i : Nat) (nread : Int) :
    ∃ p', p.emit (.onRead i nread) = .ok p' := by
  obtain ⟨net, hnet⟩ : ∃ net, p.net.step (.onRead i nread) = .ok net := by
    by_cases hread : (p.net.handle i).reading = true
    · obtain ⟨f, hfd⟩ := hw.due i (Or.inr (Or.inr hread)) (hw.reading_open i hread)
      obtain ⟨net, hnet⟩ := Net.World.onRead_returns hfd (hw.reading_open i hread) nread
      exact ⟨net, (if_pos hread).trans hnet⟩
    · exact ⟨_, if_neg hread⟩
  exact ⟨_, bind_eq_ok.mpr ⟨net, hnet, rfl⟩⟩

theorem onRead_returns_iff (hasserts : host.ndebug = false) (hhost : HarmlessHost host)
    (h : Ready start p) (hw : p.net.Coherent) (i : Nat) (chunk : Chunk) :
    (∃ p', onRead host i chunk p = .ok p') ↔ (Delivered p i → Aligned host.toEnv chunk) := by
  obtain ⟨p1, hemit⟩ := emit_returns hw i chunk.bytes.length
  have hready : Ready start p1 :=
    h.keeps (leads_emit i (Int.natCast_nonneg _) hemit) (keepsBuffer_emit h.loggedOut hemit)
  unfold Desktop.onRead
  by_cases hread : (p.net.handle i).reading = true ∧ (chunk.bytes.length : Int) > 0
  · rw [if_pos hread]
    obtain ⟨f, hfd⟩ := hw.due i (Or.inr (Or.inr hread.1)) (hw.reading_open i hread.1)
    have hfind := Net.World.findTcpClient_eq hfd (hw.reading_open i hread.1)
    simp only [hfind, hemit, bind, Except.bind]
    cases hl : p.net.gConnMap.lookup f with
    | none =>
        refine iff_of_true ⟨p1, rfl⟩ ?_
        rintro ⟨_, c, hfound⟩
        cases (hfind.symm.trans hfound).symm.trans (congrArg Except.ok hl)
    | some c =>
        have hdelivered : Delivered p i := ⟨hread.1, c, hfind.trans (congrArg Except.ok hl)⟩
        simp only [Option.isSome_some, if_true]
        rw [onMessage_returns_iff hasserts hhost hready]
        exact ⟨fun haligned _ ↦ haligned, fun haligned ↦ haligned hdelivered⟩
  · rw [if_neg hread]
    refine iff_of_true ⟨p1, hemit⟩ fun hdelivered u hu ↦ ?_
    have hempty : chunk.bytes.length ≤ sizeofIMHeader := by
      have hnone : ¬ (chunk.bytes.length : Int) > 0 := fun hpos ↦ hread ⟨hdelivered.1, hpos⟩
      rw [sizeofIMHeader]
      omega
    rw [headsOf, if_pos hempty] at hu
    cases hu

/-! ## The other events -/

/-- libuv can report how a connect ended exactly when the handle was not closed and, if the connect
succeeded, the map has its descriptor. -/
theorem netOnConnect_returns_iff {w : Net.World} (hw : w.Coherent) {i : Nat} (status : Int)
    (hpending : (w.handle i).pending = true) :
    (∃ w', w.step (.onConnect i status) = .ok w') ↔
      (w.handle i).closing = false ∧ (status = 0 → ∃ c, w.findTcpClient i = .ok (some c)) := by
  have hcalled : w.step (.onConnect i status) =
      (w.setHandle i { w.handle i with pending := false }).onConnect i
        (if (w.handle i).closing then Net.UV_ECANCELED else status) := if_pos hpending
  rw [hcalled]
  constructor
  · rintro ⟨w', h⟩
    obtain ⟨f, hfd, hopen, hfound⟩ := Net.World.found_of_onConnect h
    simp only [Net.World.setHandle_handle_self] at hfd hopen
    refine ⟨hopen, fun hzero ↦ ?_⟩
    obtain ⟨d, hl⟩ := hfound (by rw [hopen]; exact hzero)
    exact ⟨d, (Net.World.findTcpClient_eq hfd hopen).trans (congrArg Except.ok hl)⟩
  · rintro ⟨hopen, hfound⟩
    obtain ⟨f, hfd⟩ := hw.due i (Or.inl hpending) hopen
    have hfd' : ((w.setHandle i { w.handle i with pending := false }).handle i).fd = some f := by
      rw [Net.World.setHandle_handle_self]
      exact hfd
    have hopen' : ((w.setHandle i { w.handle i with pending := false }).handle i).closing =
        false := by
      rw [Net.World.setHandle_handle_self]
      exact hopen
    rw [hopen]
    by_cases hzero : status = 0
    · obtain ⟨c, hfind⟩ := hfound hzero
      have hl := Except.ok.inj ((Net.World.findTcpClient_eq hfd hopen).symm.trans hfind)
      exact Net.World.onConnect_returns hfd' hopen' hl status
    · exact ⟨_, (if_neg hzero).trans
        (bind_eq_ok.mpr ⟨_, Net.World.findTcpClient_eq hfd' hopen', rfl⟩)⟩

section

variable (hhost : HarmlessHost host)

include hhost

/-- A status that is `kConnectOk` sends the login request, which needs the connection. -/
theorem statusChanged_returns {conn : Nat} {status : ConnectionStatus}
    (hout : p.session.client.loginStatus ≠ .kLoginOk)
    (hup : status = .kConnectOk →
      p.session.client.tcpClient.isSome = true ∧ p.session.authReq.toLite.Fits) :
    ∃ p', p.onConnectionStatusChanged host.toSystemHost conn status = .ok p' := by
  unfold ChatSystem.onConnectionStatusChanged
  by_cases hstatus : status = .kConnectOk
  · obtain ⟨hsome, hfits⟩ := hup hstatus
    have hsent : ∃ r, p.session.client.send host.toEnv kCIM_CID_LOGIN_AUTH_REQ
        p.session.authReq.toLite = .ok r := (send_returns_iff hfits).mpr hsome
    obtain ⟨r, hsend⟩ := hsent
    have hout' : (p.withSession (p.session.withClient r.2)).session.client.loginStatus ≠
        .kLoginOk := (Client.send_quiet hsend).loginStatus ▸ hout
    obtain ⟨p', hnotify⟩ := notify_returns hhost hout' (p.session.statusNotice conn status)
    rw [if_pos hstatus]
    exact ⟨p', bind_eq_ok.mpr ⟨r, hsend, hnotify⟩⟩
  · have hlast {p1 : ChatSystem} (hout : p1.session.client.loginStatus ≠ .kLoginOk) :
        ∃ p', (do
          let p2 ← p1.logout host.toEnv host.last
          p2.notify host.toSystemHost (p2.session.statusNotice conn status)) = .ok p' := by
      obtain ⟨p2, hlogout⟩ := logout_returns host.toEnv hout host.last
      obtain ⟨p', hnotify⟩ := notify_returns hhost (keepsBuffer_logout hout hlogout).loggedOut
        (p2.session.statusNotice conn status)
      exact ⟨p', bind_eq_ok.mpr ⟨p2, hlogout, hnotify⟩⟩
    rw [if_neg hstatus]
    have hmarked : (p.withSession (p.session.mark .disconnect)).session.client.loginStatus ≠
        .kLoginOk := hout
    by_cases hin : p.session.client.loginStatus = .kLogining
    · obtain ⟨p1, hnotify⟩ := notify_returns hhost hmarked
        (p.session.client.loginCb.map (.loginCb · Session.lostRsp))
      obtain ⟨p', hrest⟩ := hlast (keepsBuffer_notify hmarked hnotify).loggedOut
      exact ⟨p', (if_pos hin).trans (bind_eq_ok.mpr ⟨p1, hnotify, hrest⟩)⟩
    · obtain ⟨p', hrest⟩ := hlast hmarked
      exact ⟨p', (if_neg hin).trans hrest⟩

theorem report_returns (r : Option Nat) (status : ConnectionStatus)
    (hout : p.session.client.loginStatus ≠ .kLoginOk)
    (hup : status = .kConnectOk → ∀ c, r = some c →
      p.session.client.tcpClient.isSome = true ∧ p.session.authReq.toLite.Fits) :
    ∃ p', p.report host.toSystemHost r status = .ok p' := by
  cases r with
  | none => exact ⟨p, rfl⟩
  | some c =>
      refine statusChanged_returns (p := p.withSession (p.session.reported (c + 1) status)) hhost
        hout fun hstatus ↦ ?_
      obtain ⟨hsome, hfits⟩ := hup hstatus c rfl
      refine ⟨?_, hfits⟩
      show (if c + 1 = p.session.made then _ else _ : Option TcpClient).isSome = true
      split
      · rw [Option.isSome_map]
        exact hsome
      · exact hsome

theorem onConnect_returns_iff (hp : Linked p) (hfits : p.session.authReq.toLite.Fits) {i : Nat}
    {status : Int} :
    (∃ p', p.onConnect host.toSystemHost i status = .ok p') ↔
      ((p.net.handle i).pending = true → (p.net.handle i).closing = false ∧
        (status = 0 → ∃ c, p.net.findTcpClient i = .ok (some c))) := by
  by_cases hpending : (p.net.handle i).pending = true
  · have hnet := netOnConnect_returns_iff hp.traced.coherent status hpending
    unfold ChatSystem.onConnect
    rw [if_pos hpending]
    constructor
    · rintro ⟨p', h⟩ _
      obtain ⟨_, _, h⟩ := bind_eq_ok.mp h
      obtain ⟨_, hemit, _⟩ := bind_eq_ok.mp h
      obtain ⟨net, hstep, _⟩ := emit_ok hemit
      exact hnet.mp ⟨net, hstep⟩
    · intro hdue
      obtain ⟨hopen, hfound⟩ := hdue hpending
      obtain ⟨net, hstep⟩ := hnet.mpr (hdue hpending)
      obtain ⟨f, hfd⟩ := hp.traced.coherent.due i (Or.inl hpending) hopen
      have hfind := Net.World.findTcpClient_eq hfd hopen
      have hemit : p.emit (.onConnect i status) =
          .ok ⟨p.session, net, p.events ++ [.onConnect i status]⟩ :=
        bind_eq_ok.mpr ⟨net, hstep, rfl⟩
      have hreport (st : ConnectionStatus) := report_returns hhost
        (p := ⟨p.session, net, p.events ++ [.onConnect i status]⟩) (p.net.gConnMap.lookup f) st
        hp.loggedOut fun _ c hc ↦ by
          obtain ⟨⟨tcp, htcp⟩, _⟩ := tcpClient_eq_some.mp (hp.found hfind hc)
          exact ⟨Option.isSome_iff_exists.mpr ⟨tcp, htcp⟩, hfits⟩
      simp only [hfind, hemit, hopen, bind, Except.bind]
      by_cases hzero : status = 0
      · obtain ⟨p1, h1⟩ := hreport .kConnectOk
        simp only [hzero, Bool.false_eq_true, if_false, if_true] at h1 ⊢
        simp only [h1]
        exact ⟨_, rfl⟩
      · simp only [hzero, Bool.false_eq_true, if_false]
        exact hreport .kDisConnected
  · exact iff_of_true ⟨p, if_neg hpending⟩ fun h ↦ absurd h hpending

theorem onReadError_returns (hp : Linked p) (i : Nat) {nread : Int} :
    ∃ p', p.onRead host.toSystemHost i nread = .ok p' := by
  obtain ⟨p1, hemit⟩ := emit_returns hp.traced.coherent i nread
  by_cases hlost : (p.net.handle i).reading = true ∧ nread < 0
  · have hopen := hp.traced.coherent.reading_open i hlost.1
    obtain ⟨f, hfd⟩ := hp.traced.coherent.due i (Or.inr (Or.inr hlost.1)) hopen
    obtain ⟨p', hreport⟩ := report_returns hhost (p.net.gConnMap.lookup f) .kDisConnected
      (keepsBuffer_emit hp.loggedOut hemit).loggedOut (fun hup ↦ by cases hup)
    exact ⟨p', (if_pos hlost).trans (bind_eq_ok.mpr
      ⟨_, Net.World.findTcpClient_eq hfd hopen, bind_eq_ok.mpr ⟨p1, hemit, hreport⟩⟩)⟩
  · exact ⟨p1, (if_neg hlost).trans hemit⟩

theorem onTimer_returns (hout : p.session.client.loginStatus ≠ .kLoginOk) :
    ∃ p', p.onTimer host.toSystemHost = .ok p' := by
  unfold ChatSystem.onTimer
  by_cases hlate : p.session.client.loginStatus = .kLogining ∧
      host.now - p.session.lastLoginTime > Session.loginTimeout host.config
  · obtain ⟨p1, hnotify⟩ := notify_returns hhost hout
      (p.session.loginTimeoutCb.map .loginTimeoutCb)
    have hout1 := (keepsBuffer_notify hout hnotify).loggedOut
    exact ⟨p1, (if_pos hlate).trans (bind_eq_ok.mpr
      ⟨p1, hnotify, if_neg fun hin ↦ hout1 hin.1⟩)⟩
  · exact ⟨p, (if_neg hlate).trans (if_neg fun hin ↦ hout hin.1)⟩

end

/-! ## Runs -/

/-- What is framed in the step fits the header. -/
def FittingEvent (env : Env) (p : ChatSystem) : Event → Prop
  | .action action => Fitting env p action
  | .onConnect _ _ => p.session.authReq.toLite.Fits
  | .onRead _ _ | .onReadError _ _ | .tick => True

/-- The step returns: see the head of the module. -/
def Survives (env : Env) (p : ChatSystem) : Event → Prop
  | .action action => Supported p action
  | .onConnect i status =>
    (p.net.handle i).pending = true → (p.net.handle i).closing = false ∧
      (status = 0 → ∃ c, p.net.findTcpClient i = .ok (some c))
  | .onRead i chunk => Delivered p i → Aligned env chunk
  | .onReadError _ _ | .tick => True

end CoffeeChat.Desktop
