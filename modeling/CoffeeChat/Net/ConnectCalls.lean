import CoffeeChat.Net.Steps

/-!
# What `connect` does when it fails

`connect` makes a handle and gives it up again when it fails, at three places that test for failure
in three ways: the first two compare with -1, and leave the handle behind, and only the third closes
it. A `Traced` world notes the calls of `uv_tcp_init` and `uv_close` and how the calls of `connect`
went. They all go as they are meant to, and each handle is closed at most once and only if it was
initialized, exactly when `uv_tcp_init` always succeeds and a failing `uv_ip4_addr` goes unnoticed
until `uv_tcp_connect` fails, too (`always_sound_iff`).
-/

namespace CoffeeChat.Net

open Lib

/-! ## Traces -/

/-- A call of libuv that makes or closes a handle, the former with its result. -/
inductive Call where
  | tcpInit (h : Nat) (ret : Int)
  | close (h : Nat)
  deriving DecidableEq, Repr

/-- The handle the call is about. -/
def Call.handle : Call → Nat
  | .tcpInit h _ => h
  | .close h => h

/-- A call of `connect`: the results it got, its own, and whether the client was closed behind
it. -/
structure Attempt where
  tcpInit : Int
  ip4Addr : Int
  tcpConnect : Int
  returned : Bool
  closed : Bool
  deriving DecidableEq, Repr

/-- The attempt was all or nothing. -/
def Attempt.Met (a : Attempt) : Prop :=
  (a.returned = true ↔ a.tcpInit = 0 ∧ a.ip4Addr = 0 ∧ a.tcpConnect = 0) ∧
    (a.returned = false → a.closed = true)

/-- Of the calls, newest first, each `uv_close` is the only one for a handle that was initialized
before. -/
def Disciplined : List Call → Prop
  | [] => True
  | .tcpInit _ _ :: past => Disciplined past
  | .close h :: past => .tcpInit h 0 ∈ past ∧ .close h ∉ past ∧ Disciplined past

namespace World

/-- The client is as `close` leaves it. -/
def Closed (w : World) (c : Nat) : Prop :=
  (w.client c).tcpHandle = none ∧ (w.client c).connectStatus = .kDisConnected ∧ ¬ w.Registered c

instance (w : World) (c : Nat) : Decidable (w.Closed c) := inferInstanceAs (Decidable (_ ∧ _ ∧ _))

/-- The calls of libuv in `close()`. -/
def closeCalls (w : World) (c : Nat) : List Call :=
  match (w.client c).tcpHandle with
  | some h => [.close h]
  | none => []

/-- `connect`, with the attempt and the calls of libuv, newest first. -/
def connectTraced (w : World) (c : Nat) (os : Outcome) :
    Result ((Attempt × List Call) × World) := do
  let calls := w.closeCalls c
  let w := w.close c
  check (os.loopIsRun = true)
  let h := w.opened
  let w := w.openHandle c
  let calls := .tcpInit h os.tcpInit :: calls
  if os.tcpInit = kInvalidSocket then
    return ((⟨os.tcpInit, os.ip4Addr, os.tcpConnect, false, w.Closed c⟩, calls), w)
  else if os.ip4Addr = kInvalidSocket then
    return ((⟨os.tcpInit, os.ip4Addr, os.tcpConnect, false, w.Closed c⟩, calls), w)
  else
    let w := w.setConnectionStatus c .kConnecting
    let (ret, w) := w.uvTcpConnect h os
    if ret = 0 then
      let w := w.register c h
      return ((⟨os.tcpInit, os.ip4Addr, ret, true, w.Closed c⟩, calls), w)
    else
      let calls := w.closeCalls c ++ calls
      let w := w.close c
      return ((⟨os.tcpInit, os.ip4Addr, ret, false, w.Closed c⟩, calls), w)

/-- Without what it notes, it is `connect`. -/
theorem connectTraced_erase (w : World) (c : Nat) (os : Outcome) :
    (w.connectTraced c os).map (fun r ↦ (r.1.1.returned, r.2)) = w.connect c os := by
  unfold connectTraced connect
  cases os.loopIsRun with
  | false => rfl
  | true =>
      by_cases hinit : os.tcpInit = kInvalidSocket
      · simp [check, hinit, bind, Except.bind, pure, Except.pure, Except.map]
      · by_cases haddr : os.ip4Addr = kInvalidSocket
        · simp [check, hinit, haddr, bind, Except.bind, pure, Except.pure, Except.map]
        · simp only [check, hinit, haddr, if_true, if_false, bind, Except.bind, pure, Except.pure]
          split <;> rfl

/-- What `uv_tcp_connect` returns inside `connect`, where it is reached. -/
def connectRet (w : World) (c : Nat) (os : Outcome) : Int :=
  ((((w.close c).openHandle c).setConnectionStatus c .kConnecting).uvTcpConnect w.opened os).1

/-- How a call of `connect` can go: the attempt, the calls of libuv and the handle the client is
left with. -/
inductive Went (w : World) (c : Nat) (os : Outcome) : Attempt → List Call → Option Nat → Prop where
  | kept (hfailed : os.tcpInit = kInvalidSocket ∨ os.ip4Addr = kInvalidSocket) :
      Went w c os ⟨os.tcpInit, os.ip4Addr, os.tcpConnect, false, false⟩
        (.tcpInit w.opened os.tcpInit :: w.closeCalls c) (some w.opened)
  | up (haddr : os.ip4Addr ≠ kInvalidSocket) (hret : w.connectRet c os = 0) (closed : Bool) :
      Went w c os ⟨os.tcpInit, os.ip4Addr, 0, true, closed⟩
        (.tcpInit w.opened os.tcpInit :: w.closeCalls c) (some w.opened)
  | refused (haddr : os.ip4Addr ≠ kInvalidSocket) (hret : w.connectRet c os ≠ 0) :
      Went w c os ⟨os.tcpInit, os.ip4Addr, w.connectRet c os, false, true⟩
        (.close w.opened :: .tcpInit w.opened os.tcpInit :: w.closeCalls c) none

variable {w w' : World} {c : Nat} {os : Outcome} {a : Attempt} {calls : List Call}

/-- A client without a handle is not in the map. -/
theorem Coherent.not_registered (hw : w.Coherent) (hc : (w.client c).tcpHandle = none) :
    ¬ w.Registered c := by
  rintro ⟨⟨f, d⟩, hentry, hd⟩
  cases hd
  exact hw.lookup_ne hc (AList.mem_lookup_iff.mpr hentry)

theorem connect_of_traced (h : w.connectTraced c os = .ok ((a, calls), w')) :
    w.connect c os = .ok (a.returned, w') := by
  rw [← connectTraced_erase, h]
  rfl

theorem connectTraced_went (hw : w.Coherent) (halive : w.alive c = true)
    (h : w.connectTraced c os = .ok ((a, calls), w')) :
    Went w c os a calls (w'.client c).tcpHandle := by
  have hcoherent : w'.Coherent := by
    have hstep : w.step (.connect c os) = .ok w' := by
      rw [step, if_pos halive, connect_of_traced h]
      rfl
    exact hw.step hstep
  have hopened : (w.close c).opened = w.opened := close_opened w c
  have hheld : (((w.close c).openHandle c).client c).tcpHandle = some w.opened := by
    rw [openHandle_eq, attach_client_self, hopened]
  have hkept : ((w.close c).openHandle c).Closed c ↔ False :=
    iff_false_intro fun hclosed ↦ nomatch hheld.symm.trans hclosed.1
  unfold connectTraced at h
  obtain ⟨_, _, h⟩ := bind_eq_ok.mp h
  rw [hopened] at h
  simp only [hkept, decide_false] at h
  by_cases hinit : os.tcpInit = kInvalidSocket
  · rw [if_pos hinit] at h
    cases h
    rw [hheld]
    exact .kept (.inl hinit)
  · rw [if_neg hinit] at h
    by_cases haddr : os.ip4Addr = kInvalidSocket
    · rw [if_pos haddr] at h
      cases h
      rw [hheld]
      exact .kept (.inr haddr)
    · rw [if_neg haddr] at h
      -- the world in which `uv_tcp_connect` is called
      have hconnecting : ((((w.close c).openHandle c).setConnectionStatus c .kConnecting).client
          c).tcpHandle = some w.opened := by
        rw [setConnectionStatus, setClient_client_self]
        exact hheld
      have hret : w.connectRet c os = ((((w.close c).openHandle c).setConnectionStatus c
          .kConnecting).uvTcpConnect w.opened os).1 := rfl
      have hup := connecting_eq (w.close c) c os.fd
      generalize ((w.close c).openHandle c).setConnectionStatus c .kConnecting = w₂ at *
      rcases uvTcpConnect_cases w₂ w.opened os with ⟨_, _, heq⟩ | ⟨ret, hne, heq⟩
      · rw [heq] at h hret
        cases h
        rw [hopened] at hup
        rw [hup, attach_client_self]
        exact .up haddr hret _
      · rw [heq] at h hret
        have hres := Except.ok.inj ((if_neg hne).symm.trans h)
        cases hres
        have hnone : ((w₂.close c).client c).tcpHandle = none := by rw [close_client_self]
        have hclosed : (w₂.close c).Closed c := by
          refine ⟨hnone, ?_, hcoherent.not_registered hnone⟩
          rw [close_client_self]
        have hcalls : w₂.closeCalls c = [.close w.opened] := by rw [closeCalls, hconnecting]
        rw [hnone, hcalls, decide_eq_true hclosed]
        have hret' : w.connectRet c os = ret := hret
        rw [← hret'] at hne ⊢
        exact .refused haddr hne

/-! ## The calls of one step -/

/-- The client that a callback closes. -/
def lostClient (w : World) : Event → Option Nat
  | .onConnect h status =>
    if (w.handle h).pending then
      let status := if (w.handle h).closing then UV_ECANCELED else status
      if status = 0 then none
      else match (w.setHandle h { w.handle h with pending := false }).findTcpClient h with
        | .ok tcpClient => tcpClient
        | .error _ => none
    else none
  | .onRead h nread =>
    if (w.handle h).reading ∧ nread < 0 then
      match w.findTcpClient h with
      | .ok tcpClient => tcpClient
      | .error _ => none
    else none
  | _ => none

/-- The client whose `close()` an event other than a `connect` runs. -/
def closedBy (w : World) (x : Event) : Option Nat := (w.closer x).or (w.lostClient x)

/-- What an event other than a `connect` does to the handles the clients hold: it makes none, and
takes that of the client it closes. -/
structure Holds (w : World) (lost : Option Nat) (w' : World) : Prop where
  opened_eq : w'.opened = w.opened
  held : ∀ d k, (w'.client d).tcpHandle = some k → (w.client d).tcpHandle = some k ∧ lost ≠ some d

namespace Holds

variable {w'' : World} {lost : Option Nat}

theorem refl (w : World) : Holds w none w :=
  ⟨rfl, fun _ _ hd ↦ ⟨hd, nofun⟩⟩

theorem trans_left (hh : Holds w none w') (hh' : Holds w' lost w'') : Holds w lost w'' where
  opened_eq := hh'.opened_eq.trans hh.opened_eq
  held d k hd := by
    obtain ⟨hd, hlost⟩ := hh'.held d k hd
    exact ⟨(hh.held d k hd).1, hlost⟩

theorem trans_right (hh : Holds w lost w') (hh' : Holds w' none w'') : Holds w lost w'' where
  opened_eq := hh'.opened_eq.trans hh.opened_eq
  held d k hd := hh.held d k (hh'.held d k hd).1

theorem of_tcpHandle_eq (hopened : w'.opened = w.opened)
    (heq : ∀ d, (w'.client d).tcpHandle = (w.client d).tcpHandle) : Holds w none w' where
  opened_eq := hopened
  held d k hd := by
    rw [heq] at hd
    exact ⟨hd, nofun⟩

theorem setHandle (w : World) (h : Nat) (hd : Handle) : Holds w none (w.setHandle h hd) :=
  of_tcpHandle_eq rfl fun _ ↦ rfl

theorem setConnectionStatus (w : World) (c : Nat) (status : ConnectionStatus) :
    Holds w none (w.setConnectionStatus c status) :=
  of_tcpHandle_eq rfl ((Same.refl w).setConnectionStatus c status).tcpHandle_eq

theorem close (w : World) (c : Nat) : Holds w (some c) (w.close c) where
  opened_eq := close_opened w c
  held d k hd := by
    by_cases hdc : d = c
    · rw [hdc, close_client_self] at hd
      cases hd
    · rw [close_client_of_ne hdc] at hd
      exact ⟨hd, fun hsome ↦ hdc (Option.some.inj hsome).symm⟩

/-- The client that is found is closed. -/
theorem lose (w : World) (tcpClient : Option Nat) : Holds w tcpClient (w.lose tcpClient) := by
  cases tcpClient with
  | none => exact refl w
  | some c => exact (close w c).trans_right (setConnectionStatus (w.close c) c .kDisConnected)

theorem construct (w : World) : Holds w none w.construct where
  opened_eq := rfl
  held d k hd := by
    by_cases hmade : d = w.made
    · rw [hmade, show w.construct.client w.made = {} from setClient_client_self _] at hd
      cases hd
    · rw [show w.construct.client d = w.client d from setClient_client_of_ne _ hmade] at hd
      exact ⟨hd, nofun⟩

theorem uvReadStart (w : World) (h : Nat) : Holds w none (w.uvReadStart h) := by
  unfold World.uvReadStart
  split
  · exact refl w
  · exact setHandle w h _

/-- The connect callback closes the client it finds, if the connect has failed. -/
theorem onConnect {h : Nat} {status : Int} (h' : w.onConnect h status = .ok w') :
    ∃ tcpClient, w.findTcpClient h = .ok tcpClient ∧
      Holds w (if status = 0 then none else tcpClient) w' := by
  unfold World.onConnect at h'
  by_cases hup : status = 0
  · rw [if_pos hup] at h'
    obtain ⟨tcpClient, hfind, h'⟩ := bind_eq_ok.mp h'
    obtain ⟨_, _, h'⟩ := bind_eq_ok.mp h'
    cases h'
    refine ⟨tcpClient, hfind, ?_⟩
    rw [if_pos hup]
    cases tcpClient with
    | none => exact setHandle w h _
    | some c => exact (setConnectionStatus w c .kConnectOk).trans_left (setHandle _ h _)
  · rw [if_neg hup] at h'
    obtain ⟨tcpClient, hfind, h'⟩ := bind_eq_ok.mp h'
    cases h'
    refine ⟨tcpClient, hfind, ?_⟩
    rw [if_neg hup]
    exact lose w tcpClient

/-- The read callback closes the client it finds, if the connection has ended. -/
theorem onRead {h : Nat} {nread : Int} (h' : w.onRead h nread = .ok w') :
    Holds w (if nread < 0 then (match w.findTcpClient h with
      | .ok tcpClient => tcpClient
      | .error _ => none) else none) w' := by
  unfold World.onRead at h'
  by_cases hdata : nread > 0
  · rw [if_pos hdata] at h'
    obtain ⟨_, _, h'⟩ := bind_eq_ok.mp h'
    cases h'
    rw [if_neg (by omega)]
    exact refl w
  · rw [if_neg hdata] at h'
    by_cases hend : nread < 0
    · rw [if_pos hend] at h' ⊢
      obtain ⟨tcpClient, hfind, h'⟩ := bind_eq_ok.mp h'
      cases h'
      rw [hfind]
      exact lose w tcpClient
    · rw [if_neg hend] at h' ⊢
      cases h'
      exact refl w

end Holds

theorem step_holds {x : Event} (hx : ∀ c os, x ≠ .connect c os) (h' : w.step x = .ok w') :
    Holds w (w.closedBy x) w' := by
  cases x with
  | connect c os => exact absurd rfl (hx c os)
  | construct =>
      cases h'
      exact .construct w
  | close c =>
      cases h'
      by_cases halive : w.alive c = true
      · simp only [closedBy, closer, halive, if_true, Option.some_or]
        exact .close w c
      · simp only [closedBy, closer, halive, lostClient]
        exact .refl w
  | destroy c =>
      cases h'
      by_cases hfree : w.alive c = true ∧ ¬ w.Registered c
      · simp only [closedBy, closer, if_pos hfree, Option.some_or]
        exact (Holds.close w c).trans_right (.of_tcpHandle_eq rfl fun _ ↦ rfl)
      · simp only [closedBy, closer, if_neg hfree, lostClient, Option.or_self]
        exact .refl w
  | onConnect h status =>
      by_cases hp : (w.handle h).pending = true
      · have hstep := (if_pos hp).symm.trans h'
        obtain ⟨tcpClient, hfind, hholds⟩ := Holds.onConnect hstep
        simp only [closedBy, closer, lostClient, if_pos hp, hfind, Option.none_or]
        exact (Holds.setHandle w h _).trans_left hholds
      · cases (if_neg hp).symm.trans h'
        simp only [closedBy, closer, lostClient, if_neg hp, Option.or_self]
        exact .refl w
  | connectReturn h =>
      by_cases hstart : (w.handle h).starting = true
      · cases (if_pos hstart).symm.trans (Except.ok.inj h')
        exact (Holds.setHandle w h _).trans_left (Holds.uvReadStart _ h)
      · cases (if_neg hstart).symm.trans (Except.ok.inj h')
        exact .refl w
  | onRead h nread =>
      by_cases hr : (w.handle h).reading = true
      · have hstep := (if_pos hr).symm.trans h'
        have hholds := Holds.onRead hstep
        simp only [closedBy, closer, lostClient, hr, true_and, Option.none_or]
        exact hholds
      · cases (if_neg hr).symm.trans h'
        have hquiet : ¬ ((w.handle h).reading = true ∧ nread < 0) := fun hboth ↦ hr hboth.1
        simp only [closedBy, closer, lostClient, if_neg hquiet, Option.or_self]
        exact .refl w

end World

/-- A world, the calls of libuv so far and the attempts to connect, newest first. -/
structure Traced where
  world : World
  calls : List Call
  attempts : List Attempt

namespace Traced

def init : Traced := ⟨World.init, [], []⟩

/-- One event. -/
def step (s : Traced) (x : Event) : Result Traced :=
  match x with
  | .connect c os =>
    if s.world.alive c then do
      let ((attempt, calls), world) ← s.world.connectTraced c os
      return ⟨world, calls ++ s.calls, attempt :: s.attempts⟩
    else .ok s
  | x => do
    let calls := match s.world.closedBy x with
      | some c => s.world.closeCalls c
      | none => []
    let world ← s.world.step x
    return { s with world, calls := calls ++ s.calls }

/-- All attempts were all or nothing, and each handle was closed at most once and only if it was
initialized. -/
def Sound (s : Traced) : Prop := (∀ a ∈ s.attempts, a.Met) ∧ Disciplined s.calls

/-- If the event is a `connect`, `uv_tcp_init` succeeds, and so does `uv_ip4_addr`, or it fails with
another code than -1 and `uv_tcp_connect` fails, too. -/
def Conducive (s : Traced) : Event → Prop
  | .connect c os => s.world.alive c = true → os.tcpInit = 0 ∧
    (os.ip4Addr = 0 ∨ os.ip4Addr ≠ kInvalidSocket ∧ s.world.connectRet c os ≠ 0)
  | _ => True

/-- The calls that the trace has, for handles that were made; and a handle that a client holds is
not closed, and initialized unless an attempt went wrong. -/
structure Inv (s : Traced) : Prop where
  coherent : s.world.Coherent
  bounded : ∀ call ∈ s.calls, call.handle < s.world.opened
  held : ∀ c h, (s.world.client c).tcpHandle = some h →
    .close h ∉ s.calls ∧ (.tcpInit h 0 ∈ s.calls ∨ ∃ a ∈ s.attempts, ¬ a.Met)

theorem Inv.init : Inv init where
  coherent := .init
  bounded _ h := absurd h List.not_mem_nil
  held _ _ h := nomatch h

variable {s s' : Traced} {c h : Nat}

theorem mem_closeCalls {w : World} {call : Call} :
    call ∈ w.closeCalls c ↔ ∃ h, (w.client c).tcpHandle = some h ∧ call = .close h := by
  unfold World.closeCalls
  cases (w.client c).tcpHandle with
  | none => simp
  | some h => simp

/-- What `close` calls is about a handle made before. -/
theorem Inv.closeCalls_bounded (hs : s.Inv) {call : Call} (hcall : call ∈ s.world.closeCalls c) :
    call.handle < s.world.opened := by
  obtain ⟨h, hheld, rfl⟩ := mem_closeCalls.mp hcall
  exact hs.coherent.handle_lt c h hheld

/-- What another client holds is not closed by it. -/
theorem Inv.notMem_closeCalls (hs : s.Inv) {d : Nat} (hdc : d ≠ c)
    (hd : (s.world.client d).tcpHandle = some h) : .close h ∉ s.world.closeCalls c := by
  intro hmem
  obtain ⟨k, hc, hk⟩ := mem_closeCalls.mp hmem
  cases hk
  exact hdc (hs.coherent.handle_inj d c h hd hc)

/-- Closing a client keeps the calls disciplined. -/
theorem Inv.disciplined_close (hs : s.Inv) (hsound : s.Sound) (c : Nat) :
    Disciplined (s.world.closeCalls c ++ s.calls) := by
  unfold World.closeCalls
  cases hheld : (s.world.client c).tcpHandle with
  | none => exact hsound.2
  | some h =>
      obtain ⟨hopen, hinit | ⟨a, ha, hunmet⟩⟩ := hs.held c h hheld
      · exact ⟨hinit, hopen, hsound.2⟩
      · exact absurd (hsound.1 a ha) hunmet

/-! ## Steps -/

/-- What a step that is a `connect` of a living client has done. -/
theorem step_connect {os : Outcome} (halive : s.world.alive c = true)
    (h : s.step (.connect c os) = .ok s') : ∃ a calls, s'.attempts = a :: s.attempts ∧
      s'.calls = calls ++ s.calls ∧ s.world.connectTraced c os = .ok ((a, calls), s'.world) := by
  have hstep := (if_pos halive).symm.trans h
  obtain ⟨⟨⟨a, calls⟩, w'⟩, hconnect, hstep⟩ := bind_eq_ok.mp hstep
  cases hstep
  exact ⟨a, calls, rfl, rfl, hconnect⟩

/-- The calls of an event other than a `connect`. -/
def otherCalls (s : Traced) (x : Event) : List Call :=
  match s.world.closedBy x with
  | some c => s.world.closeCalls c
  | none => []

theorem step_other {x : Event} (hx : ∀ c os, x ≠ .connect c os) (h : s.step x = .ok s') :
    s'.attempts = s.attempts ∧ s'.calls = s.otherCalls x ++ s.calls ∧
      s.world.step x = .ok s'.world := by
  cases x with
  | connect c os => exact absurd rfl (hx c os)
  | construct | close | destroy | onConnect | connectReturn | onRead =>
      obtain ⟨w', hw', h⟩ := bind_eq_ok.mp h
      cases h
      exact ⟨rfl, rfl, hw'⟩

/-- The world takes the step as if nothing was noted. -/
theorem step_world {x : Event} (h : s.step x = .ok s') : s.world.step x = .ok s'.world := by
  cases x with
  | connect c os =>
      by_cases halive : s.world.alive c = true
      · obtain ⟨a, calls, _, _, hconnect⟩ := step_connect halive h
        rw [World.step, if_pos halive, World.connect_of_traced hconnect]
        rfl
      · cases (if_neg halive).symm.trans h
        exact if_neg halive
  | construct | close | destroy | onConnect | connectReturn | onRead =>
      exact (step_other (fun _ _ heq ↦ by cases heq) h).2.2

/-- A step other than a `connect` keeps the trace. -/
theorem Inv.step_other (hs : s.Inv) {x : Event} (hx : ∀ c os, x ≠ .connect c os)
    (h : s.step x = .ok s') : s'.Inv := by
  obtain ⟨hattempts, hcalls, hstep⟩ := Traced.step_other hx h
  obtain ⟨hopened, hheld⟩ := World.step_holds hx hstep
  have hother {call : Call} (hcall : call ∈ s.otherCalls x) :
      ∃ c, s.world.closedBy x = some c ∧ call ∈ s.world.closeCalls c := by
    unfold otherCalls at hcall
    cases hclosed : s.world.closedBy x with
    | none =>
        rw [hclosed] at hcall
        exact absurd hcall List.not_mem_nil
    | some c =>
        rw [hclosed] at hcall
        exact ⟨c, rfl, hcall⟩
  refine ⟨hs.coherent.step (step_world h), fun call hcall ↦ ?_, fun d k hd ↦ ?_⟩
  · rw [hopened]
    rw [hcalls] at hcall
    rcases List.mem_append.mp hcall with hnew | hold
    · obtain ⟨c, _, hcall⟩ := hother hnew
      exact hs.closeCalls_bounded hcall
    · exact hs.bounded call hold
  · obtain ⟨hd, hlost⟩ := hheld d k hd
    obtain ⟨hopen, hinit⟩ := hs.held d k hd
    rw [hcalls, hattempts]
    refine ⟨fun hmem ↦ ?_, hinit.imp_left (List.mem_append_right _)⟩
    rcases List.mem_append.mp hmem with hnew | hold
    · obtain ⟨c, hclosed, hcall⟩ := hother hnew
      refine hs.notMem_closeCalls (fun hdc ↦ ?_) hd hcall
      exact hlost (hdc ▸ hclosed)
    · exact hopen hold

/-- What a `connect` leaves of the other clients. -/
theorem connect_world {w w' : World} (hw : w.Coherent) {os : Outcome} {a : Attempt}
    {calls : List Call} (h : w.connectTraced c os = .ok ((a, calls), w')) :
    w'.opened = w.opened + 1 ∧
      ∀ d, d ≠ c → (w'.client d).tcpHandle = (w.client d).tcpHandle := by
  obtain ⟨t, hd, m, rfl, -⟩ := World.connect_opened hw (World.connect_of_traced h)
  refine ⟨?_, fun d hdc ↦ ?_⟩
  · show (w.close c).opened + 1 = _
    rw [World.close_opened]
  · rw [World.attach_client_of_ne hdc, World.close_client_of_ne hdc]

/-- The calls of a `connect` are about the handle it makes or that it closes first. -/
theorem mem_of_went {w : World} {os : Outcome} {a : Attempt} {calls : List Call}
    {held : Option Nat} (hwent : w.Went c os a calls held) {call : Call} (hcall : call ∈ calls) :
    call.handle = w.opened ∨ call ∈ w.closeCalls c := by
  cases hwent with
  | kept | up =>
      rcases List.mem_cons.mp hcall with rfl | hcall
      · exact .inl rfl
      · exact .inr hcall
  | refused =>
      rcases List.mem_cons.mp hcall with rfl | hcall
      · exact .inl rfl
      · rcases List.mem_cons.mp hcall with rfl | hcall
        · exact .inl rfl
        · exact .inr hcall

/-- The handle that a `connect` leaves its client with is the one it made; it is not closed, and
initialized unless the attempt went wrong. -/
theorem Inv.held_of_went (hs : s.Inv) {os : Outcome} {a : Attempt} {calls : List Call}
    (hwent : s.world.Went c os a calls (some h)) : h = s.world.opened ∧ .close h ∉ calls ∧
      (.tcpInit h 0 ∈ calls ∨ ¬ a.Met) := by
  have hopen (r : Int) : .close s.world.opened ∉ .tcpInit s.world.opened r ::
      s.world.closeCalls c := by
    intro hmem
    rcases List.mem_cons.mp hmem with heq | hmem
    · cases heq
    · exact Nat.lt_irrefl _ (hs.closeCalls_bounded hmem)
  cases hwent with
  | kept hfailed => exact ⟨rfl, hopen _, .inr fun hmet ↦ nomatch hmet.2 rfl⟩
  | up haddr hret closed =>
      refine ⟨rfl, hopen _, ?_⟩
      by_cases hinit : os.tcpInit = 0
      · rw [hinit]
        exact .inl List.mem_cons_self
      · exact .inr fun hmet ↦ hinit (hmet.1.mp rfl).1

theorem Inv.step_connect (hs : s.Inv) {os : Outcome} (halive : s.world.alive c = true)
    (h : s.step (.connect c os) = .ok s') : s'.Inv := by
  obtain ⟨a, calls, hattempts, hcalls, hconnect⟩ := Traced.step_connect halive h
  obtain ⟨hopened, hother⟩ := connect_world hs.coherent hconnect
  have hwent := World.connectTraced_went hs.coherent halive hconnect
  refine ⟨hs.coherent.step (step_world h), fun call hcall ↦ ?_, fun d k hd ↦ ?_⟩
  · rw [hopened]
    rw [hcalls] at hcall
    rcases List.mem_append.mp hcall with hnew | hold
    · rcases mem_of_went hwent hnew with heq | hclose
      · exact heq ▸ Nat.lt_succ_self _
      · exact Nat.lt_succ_of_lt (hs.closeCalls_bounded hclose)
    · exact Nat.lt_succ_of_lt (hs.bounded call hold)
  · rw [hcalls, hattempts]
    by_cases hdc : d = c
    · subst d
      rw [hd] at hwent
      obtain ⟨rfl, hopen, hinit⟩ := hs.held_of_went hwent
      refine ⟨fun hmem ↦ ?_, ?_⟩
      · rcases List.mem_append.mp hmem with hnew | hold
        · exact hopen hnew
        · exact Nat.lt_irrefl _ (hs.bounded _ hold)
      · rcases hinit with hinit | hunmet
        · exact .inl (List.mem_append_left _ hinit)
        · exact .inr ⟨a, List.mem_cons_self, hunmet⟩
    · rw [hother d hdc] at hd
      obtain ⟨hopen, hinit⟩ := hs.held d k hd
      refine ⟨fun hmem ↦ ?_, ?_⟩
      · rcases List.mem_append.mp hmem with hnew | hold
        · rcases mem_of_went hwent hnew with heq | hclose
          · have hlt := hs.coherent.handle_lt d k hd
            exact absurd (show k = s.world.opened from heq) (Nat.ne_of_lt hlt)
          · exact hs.notMem_closeCalls hdc hd hclose
        · exact hopen hold
      · rcases hinit with hinit | ⟨b, hb, hunmet⟩
        · exact .inl (List.mem_append_right _ hinit)
        · exact .inr ⟨b, List.mem_cons_of_mem _ hb, hunmet⟩

/-- Every step keeps the trace. -/
theorem Inv.step (hs : s.Inv) {x : Event} (h : s.step x = .ok s') : s'.Inv := by
  cases x with
  | connect c os =>
      by_cases halive : s.world.alive c = true
      · exact hs.step_connect halive h
      · cases (if_neg halive).symm.trans h
        exact hs
  | construct | close | destroy | onConnect | connectReturn | onRead =>
      exact hs.step_other (fun _ _ heq ↦ by cases heq) h

/-- A `connect` is all or nothing exactly when the results are conducive to it. -/
theorem Inv.sound_connect (hs : s.Inv) (hsound : s.Sound) {os : Outcome}
    (halive : s.world.alive c = true) (h : s.step (.connect c os) = .ok s') :
    s'.Sound ↔ s.Conducive (.connect c os) := by
  obtain ⟨a, calls, hattempts, hcalls, hconnect⟩ := Traced.step_connect halive h
  have hwent := World.connectTraced_went hs.coherent halive hconnect
  have hclosed := hs.disciplined_close hsound c
  have hall : s'.Sound ↔ a.Met ∧ Disciplined (calls ++ s.calls) := by
    rw [Sound, hattempts, hcalls, List.forall_mem_cons, and_assoc]
    exact and_congr_right fun _ ↦ and_iff_right hsound.1
  have hconducive : s.Conducive (.connect c os) ↔ os.tcpInit = 0 ∧
      (os.ip4Addr = 0 ∨ os.ip4Addr ≠ kInvalidSocket ∧ s.world.connectRet c os ≠ 0) :=
    forall_prop_of_true halive
  rw [hall, hconducive]
  have hbounded {call : Call} (hmem : call ∈ s.world.closeCalls c ++ s.calls) :
      call.handle < s.world.opened := by
    rcases List.mem_append.mp hmem with hnew | hold
    · exact hs.closeCalls_bounded hnew
    · exact hs.bounded call hold
  generalize (s'.world.client c).tcpHandle = held at hwent
  cases hwent with
  | kept hfailed =>
      refine iff_of_false (fun hboth ↦ nomatch hboth.1.2 rfl) ?_
      rintro ⟨hinit, haddr⟩
      rcases hfailed with hfailed | hfailed
      · rw [hinit] at hfailed
        cases hfailed
      · rcases haddr with haddr | haddr
        · rw [haddr] at hfailed
          cases hfailed
        · exact haddr.1 hfailed
  | up haddr hret closed =>
      constructor
      · rintro ⟨hmet, _⟩
        obtain ⟨hinit, haddr, _⟩ := hmet.1.mp rfl
        exact ⟨hinit, .inl haddr⟩
      · rintro ⟨hinit, hrest⟩
        have haddr : os.ip4Addr = 0 := hrest.resolve_right fun hfails ↦ hfails.2 hret
        exact ⟨⟨iff_of_true rfl ⟨hinit, haddr, rfl⟩, nofun⟩, hclosed⟩
  | refused haddr hret =>
      have hmet : Attempt.Met ⟨os.tcpInit, os.ip4Addr, s.world.connectRet c os, false, true⟩ :=
        ⟨iff_of_false nofun fun hall ↦ hret hall.2.2, fun _ ↦ rfl⟩
      constructor
      · rintro ⟨_, hinit, _⟩
        rcases List.mem_cons.mp hinit with heq | hmem
        · obtain ⟨_, hzero⟩ := Call.tcpInit.inj heq
          exact ⟨hzero.symm, .inr ⟨haddr, hret⟩⟩
        · exact absurd (hbounded hmem) (Nat.lt_irrefl _)
      · rintro ⟨hinit, _⟩
        refine ⟨hmet, ?_, ?_, hclosed⟩
        · rw [hinit]
          exact List.mem_cons_self
        · intro hmem
          rcases List.mem_cons.mp hmem with heq | hmem
          · cases heq
          · exact Nat.lt_irrefl _ (hbounded hmem)

/-- The other events keep the trace sound. -/
theorem Inv.sound_other (hs : s.Inv) (hsound : s.Sound) {x : Event}
    (hx : ∀ c os, x ≠ .connect c os) (h : s.step x = .ok s') : s'.Sound := by
  obtain ⟨hattempts, hcalls, _⟩ := Traced.step_other hx h
  refine ⟨fun a ha ↦ hsound.1 a (hattempts ▸ ha), ?_⟩
  rw [hcalls, otherCalls]
  cases s.world.closedBy x with
  | none => exact hsound.2
  | some c => exact hs.disciplined_close hsound c

theorem Inv.sound_step (hs : s.Inv) (hsound : s.Sound) {x : Event} (h : s.step x = .ok s') :
    s'.Sound ↔ s.Conducive x := by
  cases x with
  | connect c os =>
      by_cases halive : s.world.alive c = true
      · exact hs.sound_connect hsound halive h
      · cases (if_neg halive).symm.trans h
        exact iff_of_true hsound fun halive' ↦ absurd halive' halive
  | construct | close | destroy | onConnect | connectReturn | onRead =>
      exact iff_of_true (hs.sound_other hsound (fun _ _ heq ↦ by cases heq) h) trivial

/-- In every run, all calls of `connect` are all or nothing and every handle is closed at most once
and only if it was initialized, in all states, exactly when the results that libuv gives the calls
of the run are conducive to it. -/
theorem always_sound_iff (events : List Event) :
    Run.Always Sound step init events ↔ Run.Along Conducive step init events :=
  Run.always_iff_along Inv .init ⟨fun _ ha ↦ absurd ha List.not_mem_nil, trivial⟩
    (fun _ _ _ hs h ↦ hs.step h) (fun _ _ _ hs hsound h ↦ hs.sound_step hsound h)

/-- `uv_ip4_addr` rejects the address with `UV_EINVAL`, and `uv_tcp_connect` takes what is there. -/
theorem not_always_sound : ∃ s, Run.exec step init
    [.construct, .connect 0 { ip4Addr := -22, fd := 5 }] = .ok s ∧
      s.attempts = [⟨0, -22, 0, true, false⟩] ∧ ¬ s.Sound := by
  refine ⟨_, rfl, rfl, fun hsound ↦ ?_⟩
  have hmet := hsound.1 ⟨0, -22, 0, true, false⟩ List.mem_cons_self
  exact absurd (hmet.1.mp rfl).2.1 (by decide)

end Traced

end CoffeeChat.Net
