import CoffeeChat.Net.Steps

/-!
# Closing while a connect is pending

A handle that is closed while its connect is pending still has its callback called, with
`UV_ECANCELED`, and `onConnect` looks its client up: `uv_fileno` fails on the closing handle, and
with it the assertion in `findTcpClient`. The same callback fails its own assertion if another
client has erased the entry meanwhile. Both happen to a connect whose descriptor is in `sock_fd_`
of a client that is closed, and otherwise no callback ever fails (`always_safe_iff`).
-/

namespace CoffeeChat.Net.World

open Lib

variable {w w' : World} {c d h : Nat} {f : Int}

/-- No callback libuv can make fails an assertion. -/
def Safe (w : World) : Prop := ∀ x : Event, x.IsCallback → ∃ w', w.step x = .ok w'

/-- The event closes a client whose `sock_fd_` is the descriptor of a socket with a connect
pending, be it that of the client itself or of another. -/
def Breaks (w : World) (x : Event) : Prop :=
  ∃ c h, w.closer x = some c ∧ (w.handle h).pending ∧
    (w.handle h).fd = some (w.client c).sockFd

/-- The socket of every pending connect has its entry in the map. -/
def PendingFound (w : World) : Prop :=
  ∀ h, (w.handle h).pending → ∃ f d, (w.handle h).fd = some f ∧ w.gConnMap.lookup f = some d

/-! ## The callbacks -/

/-- A client is looked for by the socket of an open handle. -/
theorem findTcpClient_eq (hf : (w.handle h).fd = some f) (hopen : (w.handle h).closing = false) :
    w.findTcpClient h = .ok (w.gConnMap.lookup f) := by
  rw [findTcpClient, uvFileno_eq_ok.mpr ⟨hf, hopen⟩]

/-- A connect callback that does not fail has found its socket, and if the connect succeeded its
client. -/
theorem found_of_onConnect {status : Int} (h' : w.onConnect h status = .ok w') :
    ∃ f, (w.handle h).fd = some f ∧ (w.handle h).closing = false ∧
      (status = 0 → ∃ d, w.gConnMap.lookup f = some d) := by
  unfold onConnect at h'
  split at h'
  · obtain ⟨r, hfind, h'⟩ := bind_eq_ok.mp h'
    obtain ⟨u, hsome, _⟩ := bind_eq_ok.mp h'
    obtain ⟨f, hf, hl⟩ := findTcpClient_eq_ok hfind
    obtain ⟨hfd, hopen⟩ := uvFileno_eq_ok.mp hf
    refine ⟨f, hfd, hopen, fun _ ↦ ?_⟩
    cases r with
    | none => cases hsome
    | some d => exact ⟨d, hl⟩
  · rename_i hstatus
    obtain ⟨r, hfind, _⟩ := bind_eq_ok.mp h'
    obtain ⟨f, hf, hl⟩ := findTcpClient_eq_ok hfind
    obtain ⟨hfd, hopen⟩ := uvFileno_eq_ok.mp hf
    exact ⟨f, hfd, hopen, fun hzero ↦ absurd hzero hstatus⟩

theorem onConnect_returns (hfd : (w.handle h).fd = some f) (hopen : (w.handle h).closing = false)
    (hl : w.gConnMap.lookup f = some d) (status : Int) : ∃ w', w.onConnect h status = .ok w' := by
  have hfind : w.findTcpClient h = .ok (some d) := by rw [findTcpClient_eq hfd hopen, hl]
  unfold onConnect
  split
  · exact ⟨_, bind_eq_ok.mpr ⟨_, hfind, bind_eq_ok.mpr ⟨(), rfl, rfl⟩⟩⟩
  · exact ⟨_, bind_eq_ok.mpr ⟨_, hfind, rfl⟩⟩

theorem onRead_returns (hfd : (w.handle h).fd = some f) (hopen : (w.handle h).closing = false)
    (nread : Int) : ∃ w', w.onRead h nread = .ok w' := by
  have hfind := findTcpClient_eq hfd hopen
  unfold onRead
  split
  · exact ⟨_, bind_eq_ok.mpr ⟨_, hfind, rfl⟩⟩
  · split
    · exact ⟨_, bind_eq_ok.mpr ⟨_, hfind, rfl⟩⟩
    · exact ⟨_, rfl⟩

/-- No callback can fail exactly when the socket of every pending connect has its entry. -/
theorem safe_iff (hw : w.Coherent) : w.Safe ↔ w.PendingFound := by
  constructor
  · intro hsafe h hp
    obtain ⟨w', h'⟩ := hsafe (.onConnect h 0) trivial
    replace h' := (if_pos hp).symm.trans h'
    obtain ⟨f, hfd, hopen, hfound⟩ := found_of_onConnect h'
    rw [setHandle_handle_self] at hfd hopen
    have hopen' : (w.handle h).closing = false := hopen
    obtain ⟨d, hl⟩ := hfound (by simp [hopen'])
    exact ⟨f, d, hfd, hl⟩
  · intro hfound x hx
    cases x with
    | onConnect h status =>
        by_cases hp : (w.handle h).pending = true
        · obtain ⟨f, d, hfd, hl⟩ := hfound h hp
          let w1 := w.setHandle h { w.handle h with pending := false }
          have hfd1 : (w1.handle h).fd = some f := by
            show ((w.setHandle h _).handle h).fd = some f
            rw [setHandle_handle_self]
            exact hfd
          have hopen1 : (w1.handle h).closing = false := by
            show ((w.setHandle h _).handle h).closing = false
            rw [setHandle_handle_self]
            exact hw.fd_open h f hfd
          obtain ⟨w', h'⟩ := onConnect_returns hfd1 hopen1 hl
            (if (w.handle h).closing then UV_ECANCELED else status)
          exact ⟨w', (if_pos hp).trans h'⟩
        · exact ⟨w, if_neg hp⟩
    | connectReturn h => exact ⟨_, rfl⟩
    | onRead h nread =>
        by_cases hr : (w.handle h).reading = true
        · have hopen := hw.reading_open h hr
          obtain ⟨f, hfd⟩ := hw.due h (Or.inr (Or.inr hr)) hopen
          obtain ⟨w', h'⟩ := onRead_returns hfd hopen nread
          exact ⟨w', (if_pos hr).trans h'⟩
        · exact ⟨w, if_neg hr⟩
    | construct | connect | close | destroy => exact hx.elim

/-! ## Steps -/

/-- Behind a call that closes `c`, the connect of a socket whose descriptor `c` remembers is
pending without its entry. -/
theorem After.not_found (hw : w.Coherent) (hfound : w.PendingFound)
    (ha : After c (w.close c) w') (hp : (w.handle h).pending)
    (hfd : (w.handle h).fd = some (w.client c).sockFd) : ¬ w'.PendingFound := by
  intro hfound'
  obtain ⟨f, d, hf, hl⟩ := hfound h hp
  obtain rfl : (w.client c).sockFd = f := Option.some.inj (hfd.symm.trans hf)
  -- the client with the entry has the handle
  obtain ⟨h', hdh, hhf⟩ := hw.entry _ d hl
  obtain rfl : h' = h := hw.fd_inj h' h _ hhf hfd
  have hlt : h' < (w.close c).opened := by
    rw [close_opened]
    exact hw.handle_lt d h' hdh
  have hsame := ha.handle_eq h' hlt
  by_cases hdc : d = c
  · -- its own connect: the handle is closing, without a socket
    subst d
    rw [close_handle_self hdh] at hsame
    obtain ⟨f', _, hf', _⟩ := hfound' h' (by rw [hsame]; exact hp)
    rw [hsame] at hf'
    cases hf'
  · -- that of another: the entry is erased
    have hother : (w.client c).tcpHandle ≠ some h' :=
      fun hch ↦ hdc (hw.handle_inj d c h' hdh hch)
    rw [close_handle_of_ne hother] at hsame
    obtain ⟨f', e, hf', hl'⟩ := hfound' h' (by rw [hsame]; exact hp)
    rw [hsame, hfd] at hf'
    cases hf'
    by_cases hec : e = c
    · subst e
      have hd : w'.Owns d (w.client c).sockFd :=
        (ha.owns_iff (hw.close c) hdc).mpr ((close_owns_of_ne hw hdc).mpr ⟨h', hdh, hfd⟩)
      exact hdc (ha.coherent.owner_unique hd (ha.coherent.entry _ c hl'))
    · rw [ha.lookup_iff _ e hec, lookup_close_self hw] at hl'
      cases hl'

/-- Behind a call that closes `c`, the connects of all other sockets have their entries. -/
theorem After.found (hw : w.Coherent) (hfound : w.PendingFound) (ha : After c (w.close c) w')
    (hfree : ∀ h, (w.handle h).pending → (w.handle h).fd ≠ some (w.client c).sockFd) :
    w'.PendingFound := by
  intro h hp
  by_cases hlt : h < (w.close c).opened
  · have hsame := ha.handle_eq h hlt
    rw [hsame] at hp ⊢
    by_cases hch : (w.client c).tcpHandle = some h
    · -- the connect of `c` itself would be one whose descriptor it remembers
      rw [close_handle_self hch] at hp
      obtain ⟨f, _, hf, _⟩ := hfound h hp
      have hsock := hw.sockFd_eq c f ⟨h, hch, hf⟩
      exact absurd (hsock ▸ hf) (hfree h hp)
    · rw [close_handle_of_ne hch] at hp ⊢
      obtain ⟨f, d, hf, hl⟩ := hfound h hp
      have hne : f ≠ (w.client c).sockFd := by
        rintro rfl
        exact hfree h hp hf
      have hdc : d ≠ c := by
        rintro rfl
        exact hne (hw.sockFd_eq d f (hw.entry f d hl)).symm
      exact ⟨f, d, hf, ha.lookup_of_ne hw hdc hne hl⟩
  · obtain ⟨f, hf, hown⟩ := ha.fresh h (Nat.le_of_not_lt hlt) hp
    exact ⟨f, c, hf, ha.own f hown⟩

theorem Same.found (hs : Same w w') (hfound : w.PendingFound) : w'.PendingFound := by
  intro h hp
  have heq := hs.pending h hp
  rw [heq] at hp ⊢
  rw [hs.gConnMap_eq]
  exact hfound h hp

/-- A callback closes a client whose own connect is not pending. -/
theorem Called.found (hcalled : Called w w') (hw : w.Coherent) (hfound : w.PendingFound) :
    w'.PendingFound := by
  cases hcalled with
  | same hs => exact hs.found hfound
  | lost h d f w1 hs hfd hlookup hpending hlost =>
      have hw1 := hs.coherent hw
      have hsock := hw1.sockFd_eq d f (hw1.entry f d hlookup)
      refine hlost.found ((close_after hw1 d).found hw1 (hs.found hfound) fun h' hp hf ↦ ?_)
      rw [hsock] at hf
      rw [hw1.fd_inj h' h f hf hfd, hpending] at hp
      cases hp

/-- One step: no callback can fail behind it exactly when the event closes no client whose
`sock_fd_` is the descriptor of a pending connect. -/
theorem safe_step (hw : w.Coherent) (hsafe : w.Safe) {x : Event} (h : w.step x = .ok w') :
    w'.Safe ↔ ¬ w.Breaks x := by
  have hfound := (safe_iff hw).mp hsafe
  have hnot (hc : w.closer x = none) : ¬ w.Breaks x := by
    rintro ⟨c, _, hsome, _⟩
    rw [hc] at hsome
    cases hsome
  rw [safe_iff (hw.step h)]
  by_cases hx : x.IsCallback
  · exact iff_of_true ((step_called hw hx h).found hw hfound) (hnot (closer_callback hx))
  · cases hc : w.closer x with
    | none =>
        have hfound' : w'.PendingFound := by
          rcases step_rest hc hx h with rfl | rfl
          · exact hfound
          · exact hfound
        exact iff_of_true hfound' (hnot hc)
    | some c =>
        have ha := step_after hw hc h
        constructor
        · rintro hfound' ⟨c', h', hc', hp, hfd⟩
          cases hc.symm.trans hc'
          exact ha.not_found hw hfound hp hfd hfound'
        · intro hbreaks
          exact ha.found hw hfound fun h' hp hfd ↦ hbreaks ⟨c, h', hc, hp, hfd⟩

/-! ## Runs -/

/-- In every run, in every state, no callback libuv can make fails an assertion exactly when no
event of the run closes a client whose `sock_fd_` is the descriptor of a socket with a connect
pending. -/
theorem always_safe_iff (events : List Event) :
    Run.Always Safe step init events ↔ Run.Along (fun w x ↦ ¬ w.Breaks x) step init events := by
  refine Run.always_iff_along Coherent Coherent.init ?_ (fun w x w' hw h ↦ hw.step h)
    (fun w x w' hw hsafe h ↦ safe_step hw hsafe h)
  rw [safe_iff Coherent.init]
  intro h hp
  cases hp

/-- A connect, closed before its callback. -/
def canceledRun : List Event := [.construct, .connect 0 { fd := 5 }, .close 0]

/-- The callback with `UV_ECANCELED` fails the assertion on `uv_fileno`. -/
theorem not_always_safe : ¬ ∀ events, Run.Always Safe step init events := by
  intro h
  obtain ⟨w, hrun, hview⟩ := Run.exec_of_view step (fun w ↦ w.handle 0) init canceledRun
    (v := { closing := true, pending := true }) (by decide +kernel)
  obtain ⟨w', h'⟩ := (h canceledRun).last hrun (.onConnect 0 0) trivial
  replace h' := (if_pos (by rw [hview])).symm.trans h'
  obtain ⟨_, hfd, _⟩ := found_of_onConnect h'
  rw [setHandle_handle_self, hview] at hfd
  cases hfd

end CoffeeChat.Net.World
