import CoffeeChat.Net.Connect

/-!
# What a step does

A step closes a client in a call of the application (`step_after`), or is a callback
(`step_called`), or constructs a client, or does nothing (`step_rest`). A callback only changes
what is due for a handle, which `Same` states, or closes the client it finds by its socket. Every
step keeps the world `Coherent`.
-/

namespace CoffeeChat.Net.World

open Lib

variable {w w' : World} {c d h : Nat} {f : Int}

/-! ## Calls -/

theorem closer_eq_some {x : Event} (hc : w.closer x = some c) : w.alive c = true ∧
    ((∃ os, x = .connect c os) ∨ x = .close c ∨ x = .destroy c ∧ ¬ w.Registered c) := by
  cases x with
  | connect d os =>
      obtain ⟨halive, hd⟩ := Option.ite_none_right_eq_some.mp hc
      cases hd
      exact ⟨halive, Or.inl ⟨os, rfl⟩⟩
  | close d =>
      obtain ⟨halive, hd⟩ := Option.ite_none_right_eq_some.mp hc
      cases hd
      exact ⟨halive, Or.inr (Or.inl rfl)⟩
  | destroy d =>
      obtain ⟨⟨halive, hfree⟩, hd⟩ := Option.ite_none_right_eq_some.mp hc
      cases hd
      exact ⟨halive, Or.inr (Or.inr ⟨rfl, hfree⟩)⟩
  | construct | onConnect | connectReturn | onRead => cases hc

/-- A call that closes a client closes it first, and then touches nothing of the others. -/
theorem step_after (hw : w.Coherent) {x : Event} (hc : w.closer x = some c)
    (h : w.step x = .ok w') : After c (w.close c) w' := by
  obtain ⟨halive, hx⟩ := closer_eq_some hc
  rcases hx with ⟨os, rfl⟩ | rfl | ⟨rfl, hfree⟩
  · have hstep := (if_pos halive).symm.trans h
    obtain ⟨⟨r, w1⟩, hconnect, hw'⟩ := bind_eq_ok.mp hstep
    cases hw'
    obtain ⟨t, hd, m, rfl, hopened, hsock, _⟩ := connect_opened hw hconnect
    have halive' : (w.close c).alive c = true := by rwa [close_alive]
    have hnone : ((w.close c).client c).tcpHandle = none := by rw [close_client_self]
    exact hopened.after (hw.close c) halive' hnone hsock
  · have hstep : w.close c = w' := (if_pos halive).symm.trans (Except.ok.inj h)
    rw [← hstep]
    exact close_after hw c
  · have hstep : w.destruct c = w' :=
      (if_pos (And.intro halive hfree)).symm.trans (Except.ok.inj h)
    rw [← hstep]
    exact destruct_after hw c

/-! ## Callbacks -/

/-- Two worlds that differ in the status of clients and in what is due for a handle at most, with
nothing new that is due. -/
structure Same (w w' : World) : Prop where
  tcpHandle_eq : ∀ c, (w'.client c).tcpHandle = (w.client c).tcpHandle
  sockFd_eq : ∀ c, (w'.client c).sockFd = (w.client c).sockFd
  alive_eq : w'.alive = w.alive
  made_eq : w'.made = w.made
  opened_eq : w'.opened = w.opened
  gConnMap_eq : w'.gConnMap = w.gConnMap
  fd_eq : ∀ h, (w'.handle h).fd = (w.handle h).fd
  closing_eq : ∀ h, (w'.handle h).closing = (w.handle h).closing
  due : ∀ h, (w'.handle h).pending ∨ (w'.handle h).starting ∨ (w'.handle h).reading →
    (w.handle h).pending ∨ (w.handle h).starting ∨ (w.handle h).reading
  pending : ∀ h, (w'.handle h).pending → w'.handle h = w.handle h
  reading : ∀ h, (w'.handle h).reading → (w.handle h).reading ∨ (w'.handle h).closing = false
  fresh : ∀ h, w.handle h = {} → w'.handle h = {}

namespace Same

theorem refl (w : World) : Same w w where
  tcpHandle_eq _ := rfl
  sockFd_eq _ := rfl
  alive_eq := rfl
  made_eq := rfl
  opened_eq := rfl
  gConnMap_eq := rfl
  fd_eq _ := rfl
  closing_eq _ := rfl
  due _ h := h
  pending _ _ := rfl
  reading _ h := Or.inl h
  fresh _ h := h

theorem owns_iff (hs : Same w w') : w'.Owns c f ↔ w.Owns c f := by
  unfold Owns
  simp only [hs.tcpHandle_eq, hs.fd_eq]

theorem coherent (hs : Same w w') (hw : w.Coherent) : w'.Coherent where
  sockFd_nonneg c := by
    rw [hs.sockFd_eq]
    exact hw.sockFd_nonneg c
  alive_lt c hc := by
    rw [hs.alive_eq] at hc
    rw [hs.made_eq]
    exact hw.alive_lt c hc
  dead c hc := by
    rw [hs.alive_eq] at hc
    rw [hs.tcpHandle_eq]
    exact hw.dead c hc
  sockFd_eq c f hown := by
    rw [hs.sockFd_eq]
    exact hw.sockFd_eq c f (hs.owns_iff.mp hown)
  handle_lt c h hch := by
    rw [hs.tcpHandle_eq] at hch
    rw [hs.opened_eq]
    exact hw.handle_lt c h hch
  handle_inj c d h hch hdh := by
    rw [hs.tcpHandle_eq] at hch hdh
    exact hw.handle_inj c d h hch hdh
  fd_lt h f hf := by
    rw [hs.fd_eq] at hf
    rw [hs.opened_eq]
    exact hw.fd_lt h f hf
  fd_inj h h' f hf hf' := by
    rw [hs.fd_eq] at hf hf'
    exact hw.fd_inj h h' f hf hf'
  fd_open h f hf := by
    rw [hs.fd_eq] at hf
    rw [hs.closing_eq]
    exact hw.fd_open h f hf
  entry f d hl := by
    rw [hs.gConnMap_eq] at hl
    exact hs.owns_iff.mpr (hw.entry f d hl)
  due h hdue hopen := by
    rw [hs.closing_eq] at hopen
    rw [hs.fd_eq]
    exact hw.due h (hs.due h hdue) hopen
  pending_only h hp := by
    have heq := hs.pending h hp
    rw [heq] at hp ⊢
    exact hw.pending_only h hp
  reading_open h hr := by
    rcases hs.reading h hr with hbefore | hopen
    · rw [hs.closing_eq]
      exact hw.reading_open h hbefore
    · exact hopen
  fresh h hle := by
    rw [hs.opened_eq] at hle
    exact hs.fresh h (hw.fresh h hle)

/-- A status changes. -/
theorem setConnectionStatus (hs : Same w w') (c : Nat) (status : ConnectionStatus) :
    Same w (w'.setConnectionStatus c status) := by
  have hclient (d : Nat) :
      ((w'.setConnectionStatus c status).client d).tcpHandle = (w'.client d).tcpHandle ∧
        ((w'.setConnectionStatus c status).client d).sockFd = (w'.client d).sockFd := by
    by_cases hdc : d = c
    · subst d
      have heq : (w'.setConnectionStatus c status).client c = _ := setClient_client_self _
      rw [heq]
      exact ⟨rfl, rfl⟩
    · have heq : (w'.setConnectionStatus c status).client d = _ := setClient_client_of_ne _ hdc
      rw [heq]
      exact ⟨rfl, rfl⟩
  exact { hs with
    tcpHandle_eq := fun d ↦ (hclient d).1.trans (hs.tcpHandle_eq d)
    sockFd_eq := fun d ↦ (hclient d).2.trans (hs.sockFd_eq d) }

/-- What is due for a handle changes; the connect callback is not, and what is was before in one
way or another. -/
theorem setHandle {hd : Handle} (hs : Same w w') (hfd : hd.fd = (w'.handle h).fd)
    (hclosing : hd.closing = (w'.handle h).closing) (hpending : hd.pending = false)
    (hreading : hd.reading → (w'.handle h).reading ∨ hd.closing = false)
    (hdue : (w.handle h).pending ∨ (w.handle h).starting ∨ (w.handle h).reading) :
    Same w (w'.setHandle h hd) := by
  have hcases (h' : Nat) : h' = h ∧ (w'.setHandle h hd).handle h' = hd ∨
      h' ≠ h ∧ (w'.setHandle h hd).handle h' = w'.handle h' := by
    by_cases heq : h' = h
    · rw [heq]
      exact Or.inl ⟨rfl, setHandle_handle_self hd⟩
    · exact Or.inr ⟨heq, setHandle_handle_of_ne hd heq⟩
  refine { hs with
    fd_eq := ?_, closing_eq := ?_, due := ?_, pending := ?_, reading := ?_, fresh := ?_ }
  · intro h'
    rcases hcases h' with ⟨rfl, heq⟩ | ⟨_, heq⟩
    · rw [heq, hfd, hs.fd_eq]
    · rw [heq, hs.fd_eq]
  · intro h'
    rcases hcases h' with ⟨rfl, heq⟩ | ⟨_, heq⟩
    · rw [heq, hclosing, hs.closing_eq]
    · rw [heq, hs.closing_eq]
  · intro h' hdue'
    rcases hcases h' with ⟨rfl, heq⟩ | ⟨_, heq⟩
    · exact hdue
    · rw [heq] at hdue'
      exact hs.due h' hdue'
  · intro h' hp
    rcases hcases h' with ⟨rfl, heq⟩ | ⟨_, heq⟩
    · rw [heq, hpending] at hp
      cases hp
    · rw [heq] at hp ⊢
      exact hs.pending h' hp
  · intro h' hr
    rcases hcases h' with ⟨rfl, heq⟩ | ⟨_, heq⟩
    · rw [heq] at hr ⊢
      rcases hreading hr with hr | hopen
      · rw [hclosing]
        exact hs.reading h' hr
      · exact Or.inr hopen
    · rw [heq] at hr ⊢
      exact hs.reading h' hr
  · intro h' hfresh
    rcases hcases h' with ⟨rfl, heq⟩ | ⟨_, heq⟩
    · rw [hfresh] at hdue
      simp at hdue
    · rw [heq]
      exact hs.fresh h' hfresh

end Same

theorem findTcpClient_eq_ok {r : Option Nat} (h' : w.findTcpClient h = .ok r) :
    ∃ f, w.uvFileno h = .ok f ∧ w.gConnMap.lookup f = r := by
  unfold findTcpClient at h'
  cases hf : w.uvFileno h with
  | ok f =>
      rw [hf] at h'
      exact ⟨f, rfl, Except.ok.inj h'⟩
  | error e =>
      rw [hf] at h'
      cases h'

theorem uvFileno_eq_ok : w.uvFileno h = .ok f ↔
    (w.handle h).fd = some f ∧ (w.handle h).closing = false := by
  unfold uvFileno
  cases hf : (w.handle h).fd with
  | none => simp
  | some f' =>
      cases hclosing : (w.handle h).closing <;> simp

/-- What a callback does: it finds a client by a socket for which no connect is outstanding, and
closes it; or it only changes what is due. -/
inductive Called (w w' : World) : Prop where
  | same (hs : Same w w')
  | lost (h d : Nat) (f : Int) (w1 : World) (hs : Same w w1) (hfd : (w1.handle h).fd = some f)
      (hfound : w1.gConnMap.lookup f = some d) (hpending : (w1.handle h).pending = false)
      (hlost : Same (w1.close d) w')

/-- The client of a lost connection. -/
theorem Called.of_lose {w1 : World} {r : Option Nat} (hs : Same w w1)
    (hpending : (w1.handle h).pending = false) (hfind : w1.findTcpClient h = .ok r) :
    Called w (w1.lose r) := by
  obtain ⟨f, hf, hl⟩ := findTcpClient_eq_ok hfind
  obtain ⟨hfd, _⟩ := uvFileno_eq_ok.mp hf
  cases r with
  | none => exact .same hs
  | some d => exact .lost h d f w1 hs hfd hl hpending ((Same.refl _).setConnectionStatus d _)

/-- The connect callback, with the status libuv gives it. -/
theorem onConnect_called {status : Int} (h' : w.step (.onConnect h status) = .ok w') :
    Called w w' := by
  by_cases hp : (w.handle h).pending = true
  · have hs : Same w (w.setHandle h { w.handle h with pending := false }) :=
      (Same.refl w).setHandle rfl rfl rfl Or.inl (Or.inl hp)
    have hstep := (if_pos hp).symm.trans h'
    dsimp only at hstep
    generalize hw1 : w.setHandle h { w.handle h with pending := false } = w1 at hstep hs
    have hpending : (w1.handle h).pending = false := by
      rw [← hw1, setHandle_handle_self]
    generalize (if (w.handle h).closing = true then UV_ECANCELED else status) = status' at hstep
    by_cases hup : status' = 0
    · replace hstep := (if_pos hup).symm.trans hstep
      obtain ⟨r, _, hstep⟩ := bind_eq_ok.mp hstep
      obtain ⟨_, _, hstep⟩ := bind_eq_ok.mp hstep
      cases r with
      | none =>
          cases hstep
          exact .same (hs.setHandle rfl rfl hpending Or.inl (Or.inl hp))
      | some c =>
          cases hstep
          have hs' := hs.setConnectionStatus c .kConnectOk
          exact .same (hs'.setHandle rfl rfl hpending Or.inl (Or.inl hp))
    · replace hstep := (if_neg hup).symm.trans hstep
      obtain ⟨r, hfind, hstep⟩ := bind_eq_ok.mp hstep
      cases hstep
      exact .of_lose hs hpending hfind
  · cases (if_neg hp).symm.trans h'
    exact .same (Same.refl w)

/-- What `onConnect` does behind the connection callback. -/
theorem connectReturn_called (hw : w.Coherent) (h' : w.step (.connectReturn h) = .ok w') :
    Called w w' := by
  by_cases hstart : (w.handle h).starting = true
  · cases (if_pos hstart).symm.trans (Except.ok.inj h')
    have hpending := hw.not_pending (Or.inl hstart)
    have hs : Same w (w.setHandle h { w.handle h with starting := false }) :=
      (Same.refl w).setHandle rfl rfl hpending Or.inl (Or.inr (Or.inl hstart))
    unfold uvReadStart
    split
    · exact .same hs
    · rename_i hopen
      rw [Bool.not_eq_true] at hopen
      refine .same (hs.setHandle ?_ ?_ ?_ (fun _ ↦ Or.inr hopen) (Or.inr (Or.inl hstart)))
      · rw [setHandle_handle_self]
      · rw [setHandle_handle_self]
      · rw [setHandle_handle_self]
        exact hpending
  · cases (if_neg hstart).symm.trans (Except.ok.inj h')
    exact .same (Same.refl w)

/-- The read callback. -/
theorem onRead_called (hw : w.Coherent) {nread : Int} (h' : w.step (.onRead h nread) = .ok w') :
    Called w w' := by
  by_cases hr : (w.handle h).reading = true
  · have hstep := (if_pos hr).symm.trans h'
    have hpending := hw.not_pending (Or.inr hr)
    unfold onRead at hstep
    split at hstep
    · obtain ⟨_, _, hstep⟩ := bind_eq_ok.mp hstep
      cases hstep
      exact .same (Same.refl w)
    · split at hstep
      · obtain ⟨r, hfind, hstep⟩ := bind_eq_ok.mp hstep
        cases hstep
        exact .of_lose (Same.refl w) hpending hfind
      · cases hstep
        exact .same (Same.refl w)
  · cases (if_neg hr).symm.trans h'
    exact .same (Same.refl w)

/-- A callback on a coherent world. -/
theorem step_called (hw : w.Coherent) {x : Event} (hx : x.IsCallback) (h : w.step x = .ok w') :
    Called w w' := by
  cases x with
  | onConnect => exact onConnect_called h
  | connectReturn => exact connectReturn_called hw h
  | onRead => exact onRead_called hw h
  | construct | connect | close | destroy => exact hx.elim

/-! ## All steps -/

theorem construct_owns_iff (hw : w.Coherent) : w.construct.Owns c f ↔ w.Owns c f := by
  by_cases hc : c = w.made
  · have hdead : w.alive w.made = false := by
      by_contra halive
      exact Nat.lt_irrefl _ (hw.alive_lt _ (Bool.eq_true_of_not_eq_false halive))
    have hnew : w.construct.client w.made = {} := setClient_client_self _
    unfold Owns
    rw [hc, hnew, hw.dead _ hdead]
    simp
  · have hold : w.construct.client c = w.client c := setClient_client_of_ne _ hc
    exact owns_congr hold fun _ _ ↦ rfl

theorem Coherent.construct (hw : w.Coherent) : w.construct.Coherent := by
  have hcases (c : Nat) : w.construct.client c = {} ∨ w.construct.client c = w.client c := by
    by_cases hc : c = w.made
    · rw [hc]
      exact Or.inl (setClient_client_self _)
    · exact Or.inr (setClient_client_of_ne _ hc)
  -- a client that has a handle had it before
  have hhandle (c h : Nat) (hch : (w.construct.client c).tcpHandle = some h) :
      (w.client c).tcpHandle = some h := by
    rcases hcases c with heq | heq
    · rw [heq] at hch
      cases hch
    · rwa [heq] at hch
  refine { hw with
    sockFd_nonneg := ?_, alive_lt := ?_, dead := ?_, sockFd_eq := ?_, entry := ?_
    handle_lt := fun c h hch ↦ hw.handle_lt c h (hhandle c h hch)
    handle_inj := fun c d h hch hdh ↦ hw.handle_inj c d h (hhandle c h hch) (hhandle d h hdh) }
  · intro c
    rcases hcases c with heq | heq
    · rw [heq]
    · rw [heq]
      exact hw.sockFd_nonneg c
  · intro c hc
    show c < w.made + 1
    by_cases hmade : c = w.made
    · rw [hmade]
      exact Nat.lt_succ_self _
    · have hold : w.construct.alive c = w.alive c := Function.update_of_ne hmade ..
      rw [hold] at hc
      exact Nat.lt_succ_of_lt (hw.alive_lt c hc)
  · intro c hc
    rcases hcases c with heq | heq
    · rw [heq]
    · by_cases hmade : c = w.made
      · have hnew : w.construct.alive c = true := by
          rw [hmade]
          exact Function.update_self ..
        exact absurd (hnew.symm.trans hc) (by decide)
      · have hold : w.construct.alive c = w.alive c := Function.update_of_ne hmade ..
        rw [hold] at hc
        rw [heq]
        exact hw.dead c hc
  · intro c f hown
    have hbefore := (construct_owns_iff hw).mp hown
    rcases hcases c with heq | heq
    · obtain ⟨h, hch, _⟩ := hown
      rw [heq] at hch
      cases hch
    · rw [heq]
      exact hw.sockFd_eq c f hbefore
  · intro f d hl
    exact (construct_owns_iff hw).mpr (hw.entry f d hl)

theorem not_of_closer {p : Prop} [Decidable p] (hc : (if p then some c else none) = none) :
    ¬ p := by
  intro hp
  rw [if_pos hp] at hc
  cases hc

/-- A callback closes no client on its own account. -/
theorem closer_callback {x : Event} (hx : x.IsCallback) : w.closer x = none := by
  cases x with
  | onConnect | connectReturn | onRead => rfl
  | construct | connect | close | destroy => exact hx.elim

/-- The events that neither close a client nor are callbacks. -/
theorem step_rest {x : Event} (hc : w.closer x = none) (hx : ¬ x.IsCallback)
    (h : w.step x = .ok w') : w' = w ∨ w' = w.construct := by
  cases x with
  | construct => exact Or.inr (Except.ok.inj h).symm
  | connect c os =>
      have hdead : ¬ w.alive c = true := not_of_closer hc
      exact Or.inl (Except.ok.inj ((if_neg hdead).symm.trans h)).symm
  | close c =>
      have hdead : ¬ w.alive c = true := not_of_closer hc
      exact Or.inl ((if_neg hdead).symm.trans (Except.ok.inj h)).symm
  | destroy c =>
      have hheld : ¬ (w.alive c = true ∧ ¬ w.Registered c) := not_of_closer hc
      exact Or.inl ((if_neg hheld).symm.trans (Except.ok.inj h)).symm
  | onConnect | connectReturn | onRead => exact absurd trivial hx

theorem Called.coherent (hcalled : Called w w') (hw : w.Coherent) : w'.Coherent := by
  cases hcalled with
  | same hs => exact hs.coherent hw
  | lost h d f w1 hs hfd hfound hpending hlost => exact hlost.coherent ((hs.coherent hw).close d)

/-- Every step keeps the world coherent. -/
theorem Coherent.step (hw : w.Coherent) {x : Event} (h : w.step x = .ok w') : w'.Coherent := by
  by_cases hx : x.IsCallback
  · exact (step_called hw hx h).coherent hw
  · cases hc : w.closer x with
    | some c => exact (step_after hw hc h).coherent
    | none =>
        rcases step_rest hc hx h with rfl | rfl
        · exact hw
        · exact hw.construct

end CoffeeChat.Net.World
