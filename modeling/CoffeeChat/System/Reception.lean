import CoffeeChat.Core.Greeting
import CoffeeChat.System.Desktop
import CoffeeChat.System.Runs

/-!
# Bytes from the network, in the program

A turn of the receive loop makes the turn of `walkTurn`, whatever the callbacks it runs do, or one
of these callbacks stops it (`loopBody_cases`), and all it does is done by a run of `ChatSystem`
too. So between two events every state of the program is one that `ChatSystem` reaches, with an
empty receive buffer (`always_reached`), and the invariants of its runs hold whatever bytes arrive
(`always_sound`).
-/

namespace CoffeeChat.Desktop

open Lib ChatSystem

variable {p p' q start : ChatSystem} {host : DesktopHost} {u v : Bytes}

/-! ## Runs of the system below -/

/-- A run of `ChatSystem` goes from the one state to the other. -/
def Leads (p p' : ChatSystem) : Prop := ∃ inputs, Run.exec ChatSystem.step p inputs = .ok p'

theorem Leads.refl (p : ChatSystem) : Leads p p := ⟨[], rfl⟩

theorem Leads.trans (h : Leads p p') (h' : Leads p' q) : Leads p q := by
  obtain ⟨xs, hxs⟩ := h
  obtain ⟨ys, hys⟩ := h'
  exact ⟨xs ++ ys, Run.exec_append hxs hys⟩

theorem Leads.step (input : SystemHost × ChatSystem.Event) (h : p.step input = .ok p') :
    Leads p p' :=
  ⟨[input], Run.exec_cons_eq_ok.mpr ⟨p', h, rfl⟩⟩

theorem leads_runActions (host : SystemHost) {actions : List Action}
    (h : runActions host.toEnv actions p = .ok p') : Leads p p' := by
  induction actions generalizing p with
  | nil =>
      cases h
      exact .refl _
  | cons action actions ih =>
      obtain ⟨p1, hrun, h⟩ := bind_eq_ok.mp h
      have hfirst : Leads p p1 := .step (host, .action action) hrun
      exact hfirst.trans (ih h)

/-- A host whose login responses are never parsed. -/
def deaf : SystemHost where
  toEnv := { Env.generated true with authRsp := { CIMAuthRsp.codec with parseFromArray _ := none } }
  config := {}
  script _ := []
  last := true

/-- A response that is not parsed leaves its bytes behind. -/
theorem leads_withBuffer (p : ChatSystem) {b : Buffer} (hb : b.WF) : Leads p (p.withBuffer b) := by
  obtain ⟨r, hparse, hnone⟩ := parsePbAndCheck_spec deaf.authRsp hb
  cases (hnone : r = none)
  exact .step (deaf, .authRsp b) (bind_eq_ok.mpr ⟨none, hparse, rfl⟩)

/-! ## Between two statements of the loop -/

/-- What is unread in the receive buffer while the program, started from `start`, runs the loop,
and no session is logged in. -/
structure Unread (start p : ChatSystem) (u : Bytes) : Prop where
  leads : Leads start p
  holds : Holds p.session.kit u
  loggedOut : p.session.client.loginStatus ≠ .kLoginOk

theorem Unread.contents_eq (h : Unread start p u) : p.recvBuffer.contents = u := h.holds.contents_eq

theorem Unread.length_eq (h : Unread start p u) : p.recvBuffer.length = .ok u.length := by
  have hlength := Buffer.length_eq h.holds.wf
  rw [h.holds.contents_eq] at hlength
  exact hlength

/-- Whatever a handler does, what it leaves of the buffer is what is unread next. -/
theorem Unread.next (h : Unread start p u) (hleads : Leads p p') {b : Buffer}
    (hb : Buffer.Leaves p.recvBuffer v b) (hkeeps : KeepsBuffer (p.withBuffer b) p') :
    Unread start p' v := by
  obtain ⟨hwf, hcont, hcap, hres⟩ := hb
  have hbuffer : p'.session.kit.client.recvBuffer = b := hkeeps.recvBuffer
  refine ⟨h.leads.trans hleads, ⟨?_, ?_, ?_, ?_, fun hin ↦ absurd hin hkeeps.loggedOut⟩,
    hkeeps.loggedOut⟩
  · rw [hbuffer]
    exact hwf
  · rw [hbuffer]
    exact hcont
  · rw [hbuffer]
    exact hcap ▸ h.holds.capacity_lt
  · rw [hbuffer]
    exact hres.trans h.holds.reserved_eq

theorem Unread.keeps (h : Unread start p u) (hleads : Leads p p') (hkeeps : KeepsBuffer p p') :
    Unread start p' u :=
  h.next hleads ⟨h.holds.wf, h.holds.contents_eq, rfl, rfl⟩ hkeeps

theorem Unread.withBuffer (h : Unread start p u) {b : Buffer}
    (hb : Buffer.Leaves p.recvBuffer v b) : Unread start (p.withBuffer b) v :=
  h.next (leads_withBuffer p hb.1) hb ⟨h.loggedOut, rfl⟩

/-! ## The handlers -/

theorem Unread.onHandleAuthRsp (h : Unread start p u)
    (hrun : p.onHandleAuthRsp host.toSystemHost = .ok p') :
    Unread start p' (match host.authRsp.parseFromArray u with
      | some rsp => u.drop (host.authRsp.byteSizeLong rsp)
      | none => u) := by
  have hleads : Leads p p' :=
    .step (host.toSystemHost, .authRsp p.recvBuffer) hrun
  obtain ⟨r, hparse, hr⟩ := parsePbAndCheck_spec host.authRsp h.holds.wf
  rw [h.holds.contents_eq] at hr
  obtain ⟨r', hparse', hrun⟩ := bind_eq_ok.mp hrun
  cases hparse.symm.trans hparse'
  cases hrsp : host.authRsp.parseFromArray u with
  | none =>
      simp only [hrsp] at hr
      subst hr
      cases hrun
      exact h
  | some rsp =>
      simp only [hrsp] at hr
      obtain ⟨b, rfl, hb⟩ := hr
      refine h.next hleads hb ?_
      have htook : KeepsBuffer (p.withBuffer b) (p.withSession (p.session.took rsp b)) :=
        ⟨h.loggedOut, rfl⟩
      obtain ⟨p1, hfirst, hnotify⟩ : ∃ p1, KeepsBuffer (p.withSession (p.session.took rsp b)) p1 ∧
          p1.notify host.toSystemHost (p1.session.rspNotice rsp) = .ok p' := by
        by_cases hfail : rsp.resultCode ≠ kCIM_ERR_SUCCESS
        · obtain ⟨p1, hlogout, hnotify⟩ := bind_eq_ok.mp ((if_pos hfail).symm.trans hrun)
          exact ⟨p1, keepsBuffer_logout htook.loggedOut hlogout, hnotify⟩
        · obtain ⟨p1, hsame, hnotify⟩ := bind_eq_ok.mp ((if_neg hfail).symm.trans hrun)
          cases hsame
          exact ⟨_, ⟨htook.loggedOut, rfl⟩, hnotify⟩
      exact (htook.trans hfirst).trans (keepsBuffer_notify hfirst.loggedOut hnotify)

theorem Unread.onHandleMsgData (h : Unread start p u) {header : IMHeader}
    (hrun : onHandleMsgData host header p = .ok p') : Unread start p' u := by
  unfold Desktop.onHandleMsgData at hrun
  split at hrun
  case isFalse =>
    cases hrun
    exact h
  case isTrue =>
    cases hcb : p.session.kit.chatManager.recvCb with
    | none =>
        rw [hcb] at hrun
        cases hrun
        exact h
    | some id =>
        rw [hcb] at hrun
        obtain ⟨_, _, hrun⟩ := bind_eq_ok.mp hrun
        cases hdata : host.msgData.parseFromArray p.recvBuffer.contents with
        | none =>
            rw [hdata] at hrun
            cases hrun
            exact h
        | some data =>
            rw [hdata] at hrun
            exact h.keeps (leads_runActions host.toSystemHost hrun)
              (keepsBuffer_runActions h.loggedOut hrun)

/-- A handler that returns leaves `consume` unread. -/
theorem Unread.onHandleData (h : Unread start p u) {header : IMHeader}
    (hrun : onHandleData host header p = .ok p') :
    Unread start p' (consume host.toEnv header u) := by
  unfold Desktop.onHandleData at hrun
  by_cases hauth : header.cmdId = kCIM_CID_LOGIN_AUTH_RSP
  · simp only [consume, hauth, if_true] at hrun ⊢
    exact h.onHandleAuthRsp hrun
  · by_cases hdata : header.cmdId = kCIM_CID_MSG_DATA
    · simp only [consume, hdata, msgData_ne_authRsp, if_true, if_false] at hrun ⊢
      exact h.onHandleMsgData hrun
    · simp only [consume, hauth, hdata, if_false] at hrun ⊢
      obtain ⟨b, hskip, hb⟩ := Buffer.skip_spec h.holds.wf header.len.toNat
      obtain ⟨b', hskip', hrun⟩ := bind_eq_ok.mp hrun
      cases hskip.symm.trans hskip'
      cases hrun
      rw [h.holds.contents_eq] at hb
      exact h.withBuffer hb

/-! ## The turn -/

/-- At the top of the loop at least a header is unread, and at most one chunk. -/
structure AtHead (start p : ChatSystem) (u : Bytes) : Prop extends Unread start p u where
  hasHeader : HasHeader u
  length_lt : u.length < 2 ^ 31

theorem walkTurn_accepts {env : Env} (hacc : Accepts u) {left : Bytes}
    (hleft : consume env (IMHeader.decode u) (u.drop sizeofIMHeader) = left) :
    (walkTurn env u).2 =
      if env.ndebug = true ∨ left.length = u.length - (IMHeader.decode u).len.toNat then
        if left.length < sizeofIMHeader then .leave left else .again left
      else .fail .assertFailed := by
  subst hleft
  unfold walkTurn
  rw [if_pos hacc]
  cases env.ndebug <;> grind

/-- The turn from the call of `onHandleData` on, where that returns. -/
theorem dispatch_alike (h : Unread start p (u.drop sizeofIMHeader)) (hacc : Accepts u)
    (hmax : u.length < 2 ^ 31) (hrun : onHandleData host (IMHeader.decode u) p = .ok p') :
    Loop.Turn.Alike (AtHead start) (Unread start)
      (ended (dispatch host (IMHeader.decode u)
        ((u.length : Int) - (IMHeader.decode u).len.toNat) p))
      (walkTurn host.toEnv u).2 := by
  have hafter := h.onHandleData hrun
  have hsmall := length_consume_le host.toEnv (IMHeader.decode u) (u.drop sizeofIMHeader)
  have hreset := resetLenHolds_iff (d := frameOf host.toEnv u) hacc hmax rfl
  simp only [Dispatch.ResetLenHolds, frameOf] at hreset
  generalize hleft : consume host.toEnv (IMHeader.decode u) (u.drop sizeofIMHeader) = left at *
  simp only [dispatch, hrun, hafter.length_eq, hreset, bind, Except.bind, check,
    walkTurn_accepts hacc hleft]
  by_cases hkept : host.ndebug = true ∨ left.length = u.length - (IMHeader.decode u).len.toNat
  · rw [if_pos hkept, if_pos hkept]
    by_cases hshort : left.length < sizeofIMHeader
    · rw [if_pos hshort, if_pos hshort, ite_self]
      exact .leave hafter
    · have hlong : ¬ left.length ≤ 0 := by
        simp only [sizeofIMHeader] at hshort
        omega
      rw [List.length_drop] at hsmall
      rw [if_neg hshort, if_neg hlong, if_neg hshort]
      exact .again ⟨hafter, Nat.le_of_not_lt hshort, by omega⟩
  · rw [if_neg hkept, if_neg hkept]
    exact .fail

/-- The test on the declared length, with its wrap-around below four. -/
theorem exceeds_iff {n len : Nat} (hmin : 16 ≤ n) (hmax : n < 2 ^ 31) (hlen : len < 2 ^ 32) :
    sizeT (len + 2 ^ 64 - 4) > n - 4 ↔ ¬ (4 ≤ len ∧ len ≤ n) := by
  unfold sizeT
  omega

/-- A turn is that of `walkTurn`, or a handler stops the program in it. -/
theorem loopBody_cases (host : DesktopHost) (h : AtHead start p u) :
    (∃ q fault, Unread start q (u.drop sizeofIMHeader) ∧
        onHandleData host (IMHeader.decode u) q = .error fault ∧
        (loopBody host p).2 = .fail fault) ∨
      Loop.Turn.Alike (AtHead start) (Unread start) (loopBody host p).2
        (walkTurn host.toEnv u).2 := by
  have hmin : 16 ≤ u.length := h.hasHeader
  have hread := Buffer.readInt32_spec h.holds.wf (by rw [h.holds.contents_eq]; omega)
  rw [h.holds.contents_eq] at hread
  obtain ⟨⟨word, b⟩, hread, hword, hb⟩ := hread
  simp only at hword hb
  have hlen : word.toUInt32 = (IMHeader.decode u).len := hword
  have hrest : b.contents.length = u.length - 4 := by rw [hb.2.1, List.length_drop]
  have htest := exceeds_iff hmin h.length_lt (IMHeader.decode u).len.toNat_lt
  have hstart : p.recvBuffer.readInt32 = .ok (word, b) := hread
  simp only [loopBody, turn, hstart, Buffer.length_eq hb.1, Buffer.size_eq hb.1, hrest, hlen, htest,
    bind, Except.bind]
  by_cases hfits : 4 ≤ (IMHeader.decode u).len.toNat ∧ (IMHeader.decode u).len.toNat ≤ u.length
  · by_cases hsmall : (IMHeader.decode u).len < kMaxBufferLen
    · have hacc : Accepts u := ⟨hfits.1, hfits.2, hsmall⟩
      obtain ⟨⟨header, buffers, b'⟩, hheader, rfl, -, hb'⟩ :=
        readHeader_spec hb h.hasHeader hlen
      simp only at hb'
      rw [hlen] at hheader
      have hbody := h.toUnread.withBuffer hb'
      simp only [hfits, and_self, not_true, if_false, hsmall, if_true, hheader,
        resetLen_eq hfits.1 hfits.2 h.length_lt]
      cases hrun : onHandleData host (IMHeader.decode u) (p.withBuffer b') with
      | error fault =>
          refine Or.inl ⟨_, fault, hbody, hrun, ?_⟩
          simp only [dispatch, hrun, bind, Except.bind, ended]
      | ok p' => exact Or.inr (dispatch_alike hbody hacc h.length_lt hrun)
    · have hacc : ¬ Accepts u := fun hacc ↦ hsmall hacc.2.2
      simp only [hfits, and_self, not_true, if_false, hsmall, walkTurn, hacc]
      exact Or.inr (.leave (h.toUnread.withBuffer hb))
  · have hacc : ¬ Accepts u := fun hacc ↦ hfits ⟨hacc.1, hacc.2.1⟩
    simp only [hfits, not_false_iff, if_true, walkTurn, hacc, if_false]
    exact Or.inr (.leave (h.toUnread.withBuffer hb))

theorem AtHead.again (h : AtHead start p u) (hturn : (loopBody host p).2 = .again q) :
    ∃ v, AtHead start q v ∧ v.length + sizeofIMHeader ≤ u.length := by
  rcases loopBody_cases host h with ⟨_, _, _, _, hfail⟩ | halike
  · cases hturn.symm.trans hfail
  · rw [hturn] at halike
    generalize hwalk : (walkTurn host.toEnv u).2 = t at halike
    cases halike with
    | again hnext => exact ⟨_, hnext, (walkTurn_again hwalk).2⟩

theorem AtHead.leave (h : AtHead start p u) (hturn : (loopBody host p).2 = .leave q) :
    ∃ v, Unread start q v := by
  rcases loopBody_cases host h with ⟨_, _, _, _, hfail⟩ | halike
  · cases hturn.symm.trans hfail
  · rw [hturn] at halike
    generalize (walkTurn host.toEnv u).2 = t at halike
    cases halike with
    | leave hafter => exact ⟨_, hafter⟩

/-! ## Calls of `onMessage` -/

/-- Between two events of the program nothing is unread. -/
structure Ready (start p : ChatSystem) : Prop where
  leads : Leads start p
  idle : Idle p.session.kit
  loggedOut : p.session.client.loginStatus ≠ .kLoginOk

theorem Ready.fresh : Ready fresh fresh where
  leads := .refl _
  idle := fresh_idle none none
  loggedOut := (by decide : Session.fresh.client.loginStatus ≠ .kLoginOk)

theorem Ready.keeps (h : Ready start p) (hleads : Leads p p') (hkeeps : KeepsBuffer p p') :
    Ready start p' := by
  have hunread : Unread start p [] := ⟨h.leads, h.idle.toHolds, h.loggedOut⟩
  have hbuffer : p'.session.kit.client.recvBuffer = p.session.kit.client.recvBuffer :=
    hkeeps.recvBuffer
  refine ⟨h.leads.trans hleads, ⟨(hunread.keeps hleads hkeeps).holds, ?_, ?_⟩, hkeeps.loggedOut⟩
  · rw [hbuffer]
    exact h.idle.read_eq
  · rw [hbuffer]
    exact h.idle.write_eq

/-- `Reset` behind the loop. -/
theorem Unread.reset (h : Unread start p u) : Ready start (p.withBuffer p.recvBuffer.reset) where
  leads := (h.withBuffer (Buffer.reset_leaves h.holds.wf)).leads
  idle := h.holds.reset_idle
  loggedOut := h.loggedOut

/-- A chunk that is longer than a header is what is unread at the top of the loop. -/
theorem Ready.write (h : Ready start p) {chunk : Chunk}
    (hlong : sizeofIMHeader < chunk.bytes.length) :
    ∃ b, p.recvBuffer.write chunk.bytes = .ok b ∧ AtHead start (p.withBuffer b) chunk.bytes := by
  obtain ⟨b, hwrite, hholds, hmin, hmax⟩ := h.idle.write_spec chunk hlong
  have hleads := h.leads.trans (leads_withBuffer p hholds.wf)
  exact ⟨b, hwrite, ⟨hleads, hholds, h.loggedOut⟩, hmin, hmax⟩

/-- The loop comes to an end. -/
theorem AtHead.not_running (h : AtHead start p u) (host : DesktopHost) :
    (Loop.run (loopBody host) u.length p).2 ≠ .running q := by
  have hmin : 16 ≤ u.length := h.hasHeader
  have hagain (s next : ChatSystem) (hs : ∃ v, AtHead start s v)
      (hturn : (loopBody host s).2 = .again next) : (∃ v, AtHead start next v) ∧
        next.recvBuffer.contents.length + sizeofIMHeader ≤ s.recvBuffer.contents.length := by
    obtain ⟨v, hv⟩ := hs
    obtain ⟨w, hw, hless⟩ := hv.again hturn
    rw [hw.contents_eq, hv.contents_eq]
    exact ⟨⟨w, hw⟩, hless⟩
  refine (Loop.run_fuel (fun s ↦ ∃ v, AtHead start s v)
    (fun s ↦ s.recvBuffer.contents.length) hagain u.length 0 p ⟨u, h⟩ ?_).2 q
  rw [h.contents_eq, sizeofIMHeader]
  omega

theorem Ready.onMessage (h : Ready start p) {chunk : Chunk}
    (hrun : onMessage host chunk p = .ok p') : Ready start p' := by
  unfold Desktop.onMessage at hrun
  by_cases hshort : chunk.bytes.length ≤ sizeofIMHeader
  · cases (if_pos hshort).symm.trans hrun
    exact h
  · obtain ⟨b, hwrite, htop⟩ := h.write (Nat.not_le.mp hshort)
    obtain ⟨b', hwrite', hrun⟩ := bind_eq_ok.mp ((if_neg hshort).symm.trans hrun)
    cases hwrite.symm.trans hwrite'
    cases hend : (Loop.run (loopBody host) chunk.bytes.length (p.withBuffer b)).2 with
    | failed fault =>
        rw [hend] at hrun
        cases hrun
    | running q => exact absurd hend (htop.not_running host)
    | left q =>
        rw [hend] at hrun
        cases hrun
        have hafter : ∃ v, Unread start q v := Loop.run_left_post (fun s ↦ ∃ v, AtHead start s v)
          (fun s next hs hturn ↦ (hs.choose_spec.again hturn).imp fun _ hv ↦ hv.1)
          (fun s next hs hturn ↦ hs.choose_spec.leave hturn) ⟨_, htop⟩ hend
        obtain ⟨v, hv⟩ := hafter
        exact hv.reset

/-! ## Steps -/

theorem leads_emit (h : Nat) {nread : Int} (hpos : 0 ≤ nread)
    (hemit : p.emit (.onRead h nread) = .ok p') : Leads p p' := by
  refine .step (deaf, .onRead h nread) ?_
  exact (if_neg fun hlost ↦ Int.not_lt.mpr hpos hlost.2).trans hemit

theorem Ready.onRead (h : Ready start p) {i : Nat} {chunk : Chunk}
    (hrun : onRead host i chunk p = .ok p') : Ready start p' := by
  have hemitted {p1 : ChatSystem} (hemit : p.emit (.onRead i chunk.bytes.length) = .ok p1) :
      Ready start p1 :=
    h.keeps (leads_emit i (Int.natCast_nonneg _) hemit) (keepsBuffer_emit h.loggedOut hemit)
  unfold Desktop.onRead at hrun
  by_cases hread : (p.net.handle i).reading = true ∧ (chunk.bytes.length : Int) > 0
  · obtain ⟨tcpClient, _, hrun⟩ := bind_eq_ok.mp ((if_pos hread).symm.trans hrun)
    obtain ⟨p1, hemit, hrun⟩ := bind_eq_ok.mp hrun
    by_cases hfound : tcpClient.isSome = true
    · exact (hemitted hemit).onMessage ((if_pos hfound).symm.trans hrun)
    · cases (if_neg hfound).symm.trans hrun
      exact hemitted hemit
  · exact hemitted ((if_neg hread).symm.trans hrun)

/-- Every step of the program is a run of `ChatSystem`, and leaves the receive buffer empty. -/
theorem Ready.step (h : Ready start p) {input : DesktopHost × Event}
    (hrun : step p input = .ok p') : Ready start p' := by
  obtain ⟨host, event⟩ := input
  cases event with
  | action action =>
      exact h.keeps (.step (host.toSystemHost, .action action) hrun)
        (keepsBuffer_action h.loggedOut hrun)
  | onConnect i status =>
      exact h.keeps (.step (host.toSystemHost, .onConnect i status) hrun)
        (keepsBuffer_onConnect h.loggedOut hrun)
  | onRead i chunk => exact h.onRead hrun
  | onReadError i error =>
      exact h.keeps (.step (host.toSystemHost, .onRead i (Int.negSucc error)) hrun)
        (keepsBuffer_onRead h.loggedOut hrun)
  | tick =>
      exact h.keeps (.step (host.toSystemHost, .tick) hrun)
        (keepsBuffer_onTimer h.loggedOut hrun)

theorem always_ready (inputs : List (DesktopHost × Event)) :
    Run.Always (Ready fresh) step fresh inputs :=
  Run.always_of_invariant step (Ready fresh) .fresh (fun _ _ _ h hrun ↦ h.step hrun) inputs

/-- What always holds of `ChatSystem` always holds of the program. -/
theorem always_of_system {good : ChatSystem → Prop}
    (h : ∀ inputs, Run.Always good ChatSystem.step fresh inputs)
    (inputs : List (DesktopHost × Event)) : Run.Always good step fresh inputs := by
  refine (always_ready inputs).mono fun p hp ↦ ?_
  obtain ⟨inputs', hrun⟩ := hp.leads
  exact (h inputs').last hrun

/-- A run of `ChatSystem` reaches the state, and nothing is unread in it. -/
structure Reached (p : ChatSystem) : Prop where
  run : ∃ inputs, Run.exec ChatSystem.step fresh inputs = .ok p
  unread : p.recvBuffer.contents = []
  readIndex : p.recvBuffer.readIndex = kCheapPrependSize
  writeIndex : p.recvBuffer.writeIndex = kCheapPrependSize

/-- Whatever bytes arrive in whatever chunks, and whatever the callbacks do between two packets
of a chunk, every state of the program between two events is reached by a run of `ChatSystem`,
with an empty receive buffer. -/
theorem always_reached (inputs : List (DesktopHost × Event)) :
    Run.Always Reached step fresh inputs :=
  (always_ready inputs).mono fun _ hp ↦
    ⟨hp.leads, hp.idle.contents_eq, hp.idle.read_eq, hp.idle.write_eq⟩

/-- What is read from the handle reaches the receive loop: the handle is read, and the map has its
descriptor. -/
def Delivered (p : ChatSystem) (i : Nat) : Prop :=
  (p.net.handle i).reading = true ∧ ∃ c, p.net.findTcpClient i = .ok (some c)

theorem own_of_delivered (hp : Linked p) {i : Nat} (h : Delivered p i) :
    ∃ c, p.tcpClient = some c ∧ (p.net.client c).tcpHandle = some i := by
  obtain ⟨_, c, hfind⟩ := h
  obtain ⟨f, hf, hl⟩ := Net.World.findTcpClient_eq_ok hfind
  obtain ⟨h, hch, hhf⟩ := hp.traced.coherent.entry f c hl
  have heq := hp.traced.coherent.fd_inj h i f hhf (Net.World.uvFileno_eq_ok.mp hf).1
  exact ⟨c, hp.found hfind rfl, heq ▸ hch⟩

/-- The client hears of no chunk that is read from another handle than that of `tcp_client_`. -/
theorem session_of_other (hp : Linked p) {i : Nat} {chunk : Chunk}
    (hother : ∀ c, p.tcpClient = some c → (p.net.client c).tcpHandle ≠ some i)
    (h : onRead host i chunk p = .ok p') : p'.session = p.session := by
  unfold Desktop.onRead at h
  by_cases hread : (p.net.handle i).reading = true ∧ (chunk.bytes.length : Int) > 0
  · obtain ⟨tcpClient, hfind, h⟩ := bind_eq_ok.mp ((if_pos hread).symm.trans h)
    obtain ⟨p1, hemit, h⟩ := bind_eq_ok.mp h
    cases tcpClient with
    | none =>
        cases h
        exact emit_session hemit
    | some c =>
        obtain ⟨d, hcur, hown⟩ := own_of_delivered hp ⟨hread.1, c, hfind⟩
        exact absurd hown (hother d hcur)
  · exact emit_session ((if_neg hread).symm.trans h)

/-- At most one socket is open, that of `tcp_client_`. A chunk that is read from the handle of
another connection leaves the client and the chat manager as they are, the receive buffer included,
and nothing is sent over a connection that is not up. -/
structure Sound (p : ChatSystem) : Prop where
  single : Single p
  own : ∀ host i chunk p', (∀ c, p.tcpClient = some c → (p.net.client c).tcpHandle ≠ some i) →
    step p (host, .onRead i chunk) = .ok p' → p'.session = p.session
  silent : ∀ tcp, p.session.client.tcpClient = some tcp → tcp.connectStatus ≠ .kConnectOk →
    tcp.sent = []

theorem always_silent (inputs : List (Host × CoffeeChat.Event)) :
    Run.Always (fun s ↦ ∀ tcp, s.client.tcpClient = some tcp → tcp.connectStatus ≠ .kConnectOk →
      tcp.sent = []) Session.step Session.fresh inputs := by
  have hgreeted := Session.Greeted.said.always_of_any (.of_none rfl) inputs
  refine Recorded.always_state_iff.mp (hgreeted.mono fun r hr ↦ ?_)
  intro tcp htcp hdown
  obtain ⟨args, after, _, hof⟩ := hr tcp htcp
  exact (hof.silent hdown).1

/-- Whatever bytes arrive, and whatever the callbacks do with them, the program stays sound. -/
theorem always_sound (inputs : List (DesktopHost × Event)) :
    Run.Always Sound step fresh inputs := by
  have hlinked := always_of_system always_linked inputs
  have hsilent := always_of_system (always_of_session always_silent) inputs
  refine (hlinked.and hsilent).mono fun p hp ↦ ?_
  exact ⟨hp.1.single, fun _ _ _ _ hother h ↦ session_of_other hp.1 hother h, hp.2⟩

end CoffeeChat.Desktop
