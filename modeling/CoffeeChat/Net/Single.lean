import CoffeeChat.Net.Owner
import CoffeeChat.Net.PendingConnect

/-!
# One client at a time

A program that closes its client before it constructs the next has at most one handle at a time.
`Sole cur` says so: no client other than `cur` has a handle, and every socket is open at the handle
of a client. Then all entries of `g_conn_map` and all callbacks are those of `cur`, and the one
call that can take its entry away is the destruction of a client let go before (`Late`).
-/

namespace CoffeeChat.Net.World

open Lib

variable {w w' : World} {c d h : Nat} {f : Int} {cur cur' : Option Nat}

/-- No client but `cur` has a handle, and no socket is open without a client. -/
structure Sole (w : World) (cur : Option Nat) : Prop where
  idle : ∀ c, cur ≠ some c → (w.client c).tcpHandle = none
  held : ∀ h f, (w.handle h).fd = some f → ∃ c, (w.client c).tcpHandle = some h

namespace Sole

theorem init : World.init.Sole none where
  idle _ _ := rfl
  held _ _ hf := by cases hf

/-- A client with a handle is the one there is. -/
theorem eq_of_handle (hs : w.Sole cur) (hc : (w.client c).tcpHandle = some h) : cur = some c := by
  by_contra hne
  rw [hs.idle c hne] at hc
  cases hc

/-- An open socket is that of the client there is. -/
theorem eq_of_open (hs : w.Sole cur) (hf : (w.handle h).fd = some f) :
    ∃ c, cur = some c ∧ (w.client c).tcpHandle = some h := by
  obtain ⟨c, hc⟩ := hs.held h f hf
  exact ⟨c, hs.eq_of_handle hc, hc⟩

theorem eq_of_owns (hs : w.Sole cur) (hc : w.Owns c f) : cur = some c := by
  obtain ⟨h, hch, _⟩ := hc
  exact hs.eq_of_handle hch

/-- An entry is that of the client there is. -/
theorem eq_of_lookup (hs : w.Sole cur) (hw : w.Coherent) (hl : w.gConnMap.lookup f = some c) :
    cur = some c :=
  hs.eq_of_owns (hw.entry f c hl)

/-- No two sockets are open, and no two entries are there. -/
theorem unique (hs : w.Sole cur) (hw : w.Coherent) :
    (∀ h h' f f', (w.handle h).fd = some f → (w.handle h').fd = some f' → h = h') ∧
      ∀ f f' c d, w.gConnMap.lookup f = some c → w.gConnMap.lookup f' = some d → f = f' := by
  have hopen (h h' : Nat) (f f' : Int) (hf : (w.handle h).fd = some f)
      (hf' : (w.handle h').fd = some f') : h = h' := by
    obtain ⟨c, hc, hch⟩ := hs.eq_of_open hf
    obtain ⟨d, hd, hdh⟩ := hs.eq_of_open hf'
    cases hc.symm.trans hd
    exact Option.some.inj (hch.symm.trans hdh)
  refine ⟨hopen, fun f f' c d hl hl' ↦ ?_⟩
  obtain ⟨h, _, hf⟩ := hw.entry f c hl
  obtain ⟨h', _, hf'⟩ := hw.entry f' d hl'
  cases hopen h h' f f' hf hf'
  exact Option.some.inj (hf.symm.trans hf')

/-- Closing a client takes its handle; the others need not be looked at again. -/
theorem close (hs : w.Sole cur) (hcur : ∀ d, cur' ≠ some d → d = c ∨ cur ≠ some d) :
    (w.close c).Sole cur' where
  idle d hd := by
    rcases hcur d hd with rfl | hne
    · rw [close_client_self]
    · by_cases hdc : d = c
      · rw [hdc, close_client_self]
      · rw [close_client_of_ne hdc]
        exact hs.idle d hne
  held h f hf := by
    obtain ⟨hch, hf⟩ := fd_of_close hf
    obtain ⟨d, hdh⟩ := hs.held h f hf
    have hdc : d ≠ c := by
      intro heq
      rw [heq] at hdh
      exact hch hdh
    refine ⟨d, ?_⟩
    rw [close_client_of_ne hdc]
    exact hdh

/-- Behind `close` of the client there is, there is none. -/
theorem close_self (hs : w.Sole (some c)) : (w.close c).Sole none := by
  refine hs.close fun d _ ↦ ?_
  by_cases hdc : d = c
  · exact Or.inl hdc
  · exact Or.inr fun heq ↦ hdc (Option.some.inj heq).symm

theorem close_any (hs : w.Sole cur) (c : Nat) : (w.close c).Sole cur :=
  hs.close fun _ hd ↦ Or.inr hd

theorem destruct (hs : w.Sole cur) (c : Nat) : (w.destruct c).Sole cur :=
  ⟨(hs.close_any c).idle, (hs.close_any c).held⟩

theorem same (hs : w.Sole cur) (hsame : Same w w') : w'.Sole cur where
  idle c hc := by
    rw [hsame.tcpHandle_eq]
    exact hs.idle c hc
  held h f hf := by
    rw [hsame.fd_eq] at hf
    obtain ⟨c, hc⟩ := hs.held h f hf
    refine ⟨c, ?_⟩
    rw [hsame.tcpHandle_eq]
    exact hc

theorem construct (hs : w.Sole none) : w.construct.Sole none where
  idle c _ := by
    by_cases hc : c = w.made
    · have hnew : w.construct.client c = {} := by
        rw [hc]
        exact setClient_client_self _
      rw [hnew]
    · have hold : w.construct.client c = w.client c := setClient_client_of_ne _ hc
      rw [hold]
      exact hs.idle c (Option.some_ne_none _).symm
  held h f hf := by
    obtain ⟨c, hc⟩ := hs.held h f hf
    rw [hs.idle c (Option.some_ne_none _).symm] at hc
    cases hc

/-- Behind a `connect`, whatever it returns, the client is the one there is. -/
theorem connect (hs : w.Sole none) (hw : w.Coherent) {os : Outcome} {r : Bool}
    (h : w.connect c os = .ok (r, w')) : w'.Sole (some c) := by
  obtain ⟨t, hd, m, rfl, hopened, _, _⟩ := connect_opened hw h
  have hclosed : (w.close c).Sole none := hs.close_any c
  constructor
  · intro d hd'
    have hdc : d ≠ c := fun heq ↦ hd' (congrArg some heq.symm)
    rw [attach_client_of_ne hdc]
    exact hclosed.idle d (Option.some_ne_none _).symm
  · intro h' f hf
    rcases attach_handle_cases (w.close c) c t hd m h' with ⟨heq, hself⟩ | ⟨_, hother⟩
    · refine ⟨c, ?_⟩
      rw [attach_client_self, heq]
      rw [hself] at hf
      cases hopened with
      | idle hfd =>
          rw [hfd] at hf
          cases hf
      | connecting _ hhandle => exact hhandle
    · rw [hother] at hf
      obtain ⟨d, hdh⟩ := hclosed.held h' f hf
      rw [hclosed.idle d (Option.some_ne_none _).symm] at hdh
      cases hdh

/-- A callback leaves the client there is. -/
theorem called (hs : w.Sole cur) (hcalled : Called w w') : w'.Sole cur := by
  cases hcalled with
  | same hsame => exact hs.same hsame
  | lost h d f w1 hsame hfd hfound hpending hlost =>
      exact ((hs.same hsame).close_any d).same hlost

end Sole

/-! ## Callbacks -/

theorem setConnectionStatus_client (w : World) (c d : Nat) (status : ConnectionStatus) :
    ((w.setConnectionStatus c status).client d).connectStatus =
      if c = d then status else (w.client d).connectStatus := by
  by_cases hdc : d = c
  · subst d
    rw [if_pos rfl]
    exact congrArg TcpClient.connectStatus (setClient_client_self _)
  · rw [if_neg fun heq ↦ hdc heq.symm]
    exact congrArg TcpClient.connectStatus (setClient_client_of_ne _ hdc)

/-- The statuses behind a callback that has found `r` and reports `status`. -/
def Reports (w w' : World) (r : Option Nat) (status : ConnectionStatus) : Prop :=
  ∀ d, (w'.client d).connectStatus = if r = some d then status else (w.client d).connectStatus

theorem lose_reports (w : World) (r : Option Nat) : Reports w (w.lose r) r .kDisConnected := by
  intro d
  cases r with
  | none => rfl
  | some c =>
      show (((w.close c).setConnectionStatus c .kDisConnected).client d).connectStatus = _
      rw [setConnectionStatus_client]
      by_cases hcd : c = d
      · rw [if_pos hcd, if_pos (congrArg some hcd)]
      · rw [if_neg hcd, if_neg (fun heq ↦ hcd (Option.some.inj heq)),
          close_client_of_ne (Ne.symm hcd)]

/-- A connect callback reports the status libuv gives it to the client it finds. -/
theorem onConnect_reports {status : Int} (hp : (w.handle h).pending = true)
    (h' : w.step (.onConnect h status) = .ok w') :
    ∃ r, w.findTcpClient h = .ok r ∧ Reports w w' r
      (if (if (w.handle h).closing then UV_ECANCELED else status) = 0 then .kConnectOk
        else .kDisConnected) := by
  have hstep := (if_pos hp).symm.trans h'
  dsimp only at hstep
  -- what is due has no part in finding the client
  have hfind : (w.setHandle h { w.handle h with pending := false }).findTcpClient h =
      w.findTcpClient h := by
    have hfileno : (w.setHandle h { w.handle h with pending := false }).uvFileno h =
        w.uvFileno h := by
      unfold uvFileno
      rw [setHandle_handle_self]
    unfold findTcpClient
    rw [hfileno]
    rfl
  generalize hw1 : w.setHandle h { w.handle h with pending := false } = w1 at hstep hfind
  have hclient : w1.client = w.client := by
    rw [← hw1]
    rfl
  generalize (if (w.handle h).closing = true then UV_ECANCELED else status) = status' at hstep ⊢
  by_cases hup : status' = 0
  · replace hstep := (if_pos hup).symm.trans hstep
    obtain ⟨r, hr, hstep⟩ := bind_eq_ok.mp hstep
    obtain ⟨_, _, hstep⟩ := bind_eq_ok.mp hstep
    refine ⟨r, hfind.symm.trans hr, fun d ↦ ?_⟩
    rw [if_pos hup]
    cases r with
    | none =>
        cases hstep
        exact congrArg TcpClient.connectStatus (congrFun hclient d)
    | some c =>
        cases hstep
        show ((w1.setConnectionStatus c .kConnectOk).client d).connectStatus = _
        rw [setConnectionStatus_client, hclient]
        simp
  · replace hstep := (if_neg hup).symm.trans hstep
    obtain ⟨r, hr, hstep⟩ := bind_eq_ok.mp hstep
    cases hstep
    refine ⟨r, hfind.symm.trans hr, fun d ↦ ?_⟩
    rw [if_neg hup, lose_reports w1 r d, hclient]

/-- A read callback with an error reports it to the client it finds. -/
theorem onRead_reports {nread : Int} (hr : (w.handle h).reading = true) (hneg : nread < 0)
    (h' : w.step (.onRead h nread) = .ok w') :
    ∃ r, w.findTcpClient h = .ok r ∧ Reports w w' r .kDisConnected := by
  have hstep := (if_pos hr).symm.trans h'
  unfold onRead at hstep
  rw [if_neg (by omega), if_pos hneg] at hstep
  obtain ⟨r, hfind, hstep⟩ := bind_eq_ok.mp hstep
  cases hstep
  exact ⟨r, hfind, lose_reports w r⟩

/-- The other read callbacks change nothing. -/
theorem onRead_quiet {nread : Int} (hquiet : ¬ ((w.handle h).reading = true ∧ nread < 0))
    (h' : w.step (.onRead h nread) = .ok w') : w' = w := by
  by_cases hr : (w.handle h).reading = true
  · have hstep := (if_pos hr).symm.trans h'
    unfold onRead at hstep
    split at hstep
    · obtain ⟨_, _, hstep⟩ := bind_eq_ok.mp hstep
      exact (Except.ok.inj hstep).symm
    · rw [if_neg fun hneg ↦ hquiet ⟨hr, hneg⟩] at hstep
      exact (Except.ok.inj hstep).symm
  · exact (Except.ok.inj ((if_neg hr).symm.trans h')).symm

/-! ## Closing -/

/-- The event destroys a client whose `sock_fd_` is the descriptor another client has open. -/
def Late (w : World) (x : Event) : Prop :=
  ∃ c d, x = .destroy c ∧ w.closer x = some c ∧ d ≠ c ∧ w.Owns d (w.client c).sockFd

/-- A call that closes the client there is, if any, takes no entry of another. -/
theorem Sole.not_stale (hs : w.Sole cur) {x : Event}
    (hcur : ∀ c d, w.closer x = some c → cur = some d → d = c) : ¬ w.Stale x := by
  intro hstale
  obtain ⟨c, d, hc, hdc, hown⟩ := hstale
  exact hdc (hcur c d hc (hs.eq_of_owns hown))

theorem Late.stale {x : Event} (hlate : w.Late x) : w.Stale x := by
  obtain ⟨c, d, _, hc, hdc, hown⟩ := hlate
  exact ⟨c, d, hc, hdc, hown⟩

/-- The event closes a client with its own connect pending. -/
def Cancels (w : World) (x : Event) : Prop :=
  ∃ c h f, w.closer x = some c ∧ (w.client c).tcpHandle = some h ∧ (w.handle h).fd = some f ∧
    (w.handle h).pending

/-- The event destroys a client whose `sock_fd_` is the descriptor of a pending connect of
another. -/
def LatePending (w : World) (x : Event) : Prop :=
  ∃ c d h, x = .destroy c ∧ w.closer x = some c ∧ d ≠ c ∧ (w.client d).tcpHandle = some h ∧
    (w.handle h).fd = some (w.client c).sockFd ∧ (w.handle h).pending

/-- With one client at a time, and none but late events stale, an event breaks a pending connect
in one of two ways. -/
theorem Sole.breaks_iff (hs : w.Sole cur) (hw : w.Coherent) {x : Event}
    (hfair : w.Stale x → w.Late x) : w.Breaks x ↔ w.Cancels x ∨ w.LatePending x := by
  constructor
  · intro hbreaks
    obtain ⟨c, h, hc, hp, hfd⟩ := hbreaks
    obtain ⟨d, _, hdh⟩ := hs.eq_of_open hfd
    by_cases hdc : d = c
    · subst d
      exact Or.inl ⟨c, h, _, hc, hdh, hfd, hp⟩
    · obtain ⟨c', _, hx, hc', _, _⟩ := hfair ⟨c, d, hc, hdc, h, hdh, hfd⟩
      cases hc.symm.trans hc'
      exact Or.inr ⟨c, d, h, hx, hc, hdc, hdh, hfd, hp⟩
  · intro hcases
    rcases hcases with ⟨c, h, f, hc, hch, hfd, hp⟩ | ⟨c, d, h, _, hc, _, _, hfd, hp⟩
    · obtain rfl := hw.sockFd_eq c f ⟨h, hch, hfd⟩
      exact ⟨c, h, hc, hp, hfd⟩
    · exact ⟨c, h, hc, hp, hfd⟩

end CoffeeChat.Net.World
