import CoffeeChat.Net.Steps

/-!
# Whose events they are

`findTcpClient` looks a handle's descriptor up in `g_conn_map`. A client keeps its `sock_fd_` when
it is closed, and every later `close()`, the one in `connect()` and in the destructor included,
erases the entry under it once more; by then the system may have given the number to another
client. The map has every client that has a socket open, in every state of a run, exactly when no
call closes a client whose `sock_fd_` is the descriptor of another (`always_delivers_iff`).
-/

namespace CoffeeChat.Net.World

open Lib

variable {w w' : World} {c d h : Nat} {f : Int}

/-- Every client with a socket open is the one under its descriptor in the map, and the one that
is found for an event on its handle. -/
def Delivers (w : World) : Prop :=
  ∀ c h f, (w.client c).tcpHandle = some h → (w.handle h).fd = some f →
    w.gConnMap.lookup f = some c ∧ w.findTcpClient h = .ok (some c)

/-- The event closes a client whose `sock_fd_` is the descriptor another client has open. -/
def Stale (w : World) (x : Event) : Prop :=
  ∃ c d, w.closer x = some c ∧ d ≠ c ∧ w.Owns d (w.client c).sockFd

/-- The event, if it closes a client, removes the entry of no other. -/
def Keeps (w : World) (x : Event) : Prop :=
  ∀ c w', w.closer x = some c → w.step x = .ok w' →
    ∀ f d, d ≠ c → w.gConnMap.lookup f = some d → w'.gConnMap.lookup f = some d

theorem delivers_iff (hw : w.Coherent) :
    w.Delivers ↔ ∀ c f, w.Owns c f → w.gConnMap.lookup f = some c := by
  constructor
  · rintro hdel c f ⟨h, hch, hhf⟩
    exact (hdel c h f hch hhf).1
  · intro hlookup c h f hch hhf
    have hl := hlookup c f ⟨h, hch, hhf⟩
    refine ⟨hl, ?_⟩
    rw [findTcpClient, hw.uvFileno_eq hhf]
    exact congrArg Except.ok hl

/-! ## Steps -/

/-- Behind a call that closes `c`, the others are found exactly when none of them has the
descriptor that `c` remembers. -/
theorem After.delivers_iff (hw : w.Coherent) (hdel : w.Delivers) (ha : After c (w.close c) w') :
    w'.Delivers ↔ ∀ d, d ≠ c → ¬ w.Owns d (w.client c).sockFd := by
  have hlookup := (World.delivers_iff hw).mp hdel
  have howns (d : Nat) (f : Int) (hdc : d ≠ c) : w'.Owns d f ↔ w.Owns d f :=
    (ha.owns_iff (hw.close c) hdc).trans (close_owns_of_ne hw hdc)
  rw [World.delivers_iff ha.coherent]
  constructor
  · intro hall d hdc hown
    have hl := hall d _ ((howns d _ hdc).mpr hown)
    rw [ha.lookup_iff _ d hdc, lookup_close_self hw] at hl
    cases hl
  · intro hfree d f hown
    by_cases hdc : d = c
    · subst d
      exact ha.own f hown
    · have hbefore := (howns d f hdc).mp hown
      refine ha.lookup_of_ne hw hdc ?_ (hlookup d f hbefore)
      rintro rfl
      exact hfree d hdc hbefore

theorem Same.delivers (hs : Same w w') (hw : w.Coherent) (hdel : w.Delivers) : w'.Delivers := by
  rw [delivers_iff (hs.coherent hw)]
  intro c f hown
  rw [hs.gConnMap_eq]
  exact (delivers_iff hw).mp hdel c f (hs.owns_iff.mp hown)

/-- A callback closes the client it finds, which has the descriptor itself. -/
theorem Called.delivers (hcalled : Called w w') (hw : w.Coherent) (hdel : w.Delivers) :
    w'.Delivers := by
  cases hcalled with
  | same hs => exact hs.delivers hw hdel
  | lost h d f w1 hs hfd hfound hpending hlost =>
      have hw1 := hs.coherent hw
      have hown : w1.Owns d f := hw1.entry f d hfound
      refine hlost.delivers (hw1.close d) ?_
      rw [(close_after hw1 d).delivers_iff hw1 (hs.delivers hw hdel), hw1.sockFd_eq d f hown]
      intro e hed heown
      exact hed (hw1.owner_unique heown hown)

theorem construct_delivers (hw : w.Coherent) (hdel : w.Delivers) : w.construct.Delivers := by
  rw [delivers_iff hw.construct]
  intro c f hown
  exact (delivers_iff hw).mp hdel c f ((construct_owns_iff hw).mp hown)

/-- An event that closes no client is not stale. -/
theorem not_stale {x : Event} (hc : w.closer x = none) : ¬ w.Stale x := by
  rintro ⟨c, _, hsome, _⟩
  rw [hc] at hsome
  cases hsome

/-- One step: every client stays found exactly when the event is not stale. -/
theorem delivers_step (hw : w.Coherent) (hdel : w.Delivers) {x : Event}
    (h : w.step x = .ok w') : w'.Delivers ↔ ¬ w.Stale x := by
  by_cases hx : x.IsCallback
  · exact iff_of_true ((step_called hw hx h).delivers hw hdel) (not_stale (closer_callback hx))
  · cases hc : w.closer x with
    | none =>
        have hdel' : w'.Delivers := by
          rcases step_rest hc hx h with rfl | rfl
          · exact hdel
          · exact construct_delivers hw hdel
        exact iff_of_true hdel' (not_stale hc)
    | some c =>
        rw [(step_after hw hc h).delivers_iff hw hdel]
        constructor
        · rintro hfree ⟨c', d, hc', hdc, hown⟩
          cases hc.symm.trans hc'
          exact hfree d hdc hown
        · intro hfresh d hdc hown
          exact hfresh ⟨c, d, hc, hdc, hown⟩

theorem keeps_of_not_stale (hw : w.Coherent) {x : Event} (hx : ¬ w.Stale x) : w.Keeps x := by
  intro c w' hc h f d hdc hl
  refine (step_after hw hc h).lookup_of_ne hw hdc ?_ hl
  rintro rfl
  exact hx ⟨c, d, hc, hdc, hw.entry _ d hl⟩

/-! ## Runs -/

/-- In every run, every client with a socket open is the one that is found for its events, in all
states, exactly when no event of the run closes a client whose `sock_fd_` is the descriptor
another client has open; and then no event that closes a client removes the entry of another. -/
theorem always_delivers_iff (events : List Event) :
    (Run.Always Delivers step init events ↔
      Run.Along (fun w x ↦ ¬ w.Stale x) step init events) ∧
    (Run.Along (fun w x ↦ ¬ w.Stale x) step init events → Run.Along Keeps step init events) := by
  constructor
  · refine Run.always_iff_along Coherent Coherent.init ?_ (fun w x w' hw h ↦ hw.step h)
      (fun w x w' hw hdel h ↦ delivers_step hw hdel h)
    intro c h f hch
    cases hch
  · exact Run.Along.mono Coherent Coherent.init (fun w x w' hw h ↦ hw.step h)
      (fun w x hw hx ↦ keeps_of_not_stale hw hx)

/-- A client whose connection ends, another that connects and is given the same descriptor, and
the destruction of the first. -/
def reusedRun : List Event :=
  [.construct, .connect 0 { fd := 5 }, .onConnect 0 0, .connectReturn 0, .onRead 0 (-1),
    .construct, .connect 1 { fd := 5 }, .destroy 0]

/-- The destructor removes the entry of the second client. -/
theorem not_always_delivers : ¬ ∀ events, Run.Always Delivers step init events := by
  intro h
  obtain ⟨w, hrun, hview⟩ := Run.exec_of_view step
    (fun w ↦ ((w.client 1).tcpHandle, (w.handle 1).fd, w.gConnMap.lookup 5)) init reusedRun
    (v := (some 1, some 5, none)) (by decide +kernel)
  simp only [Prod.mk.injEq] at hview
  obtain ⟨hhandle, hfd, hnone⟩ := hview
  have hfound := ((h reusedRun).last hrun 1 1 5 hhandle hfd).1
  rw [hnone] at hfound
  cases hfound

end CoffeeChat.Net.World
