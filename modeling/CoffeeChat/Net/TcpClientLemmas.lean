import CoffeeChat.Net.TcpClient

/-!
# The clients, their handles and the map

`Coherent` is what holds of the world in every run, however the calls are interleaved: a client
that has a handle has it alone and open, descriptors of open sockets differ, and every entry of
`g_conn_map` names a client by the descriptor it has open. The converse, that every open
descriptor has its entry, is not among it.
-/

namespace CoffeeChat.Net.World

open Lib

variable {w w' : World} {c d h : Nat} {f : Int}

/-- The client has the descriptor open. -/
def Owns (w : World) (c : Nat) (f : Int) : Prop :=
  ∃ h, (w.client c).tcpHandle = some h ∧ (w.handle h).fd = some f

/-- A client whose handle is as it was owns what it did. -/
theorem owns_congr (hclient : w'.client d = w.client d)
    (hhandle : ∀ h, (w.client d).tcpHandle = some h → w'.handle h = w.handle h) :
    w'.Owns d f ↔ w.Owns d f := by
  unfold Owns
  rw [hclient]
  constructor
  · rintro ⟨h, hdh, hhf⟩
    rw [hhandle h hdh] at hhf
    exact ⟨h, hdh, hhf⟩
  · rintro ⟨h, hdh, hhf⟩
    refine ⟨h, hdh, ?_⟩
    rwa [hhandle h hdh]

/-! ## `close` -/

@[simp] theorem setClient_client_self (t : TcpClient) : (w.setClient c t).client c = t :=
  Function.update_self ..

theorem setClient_client_of_ne (t : TcpClient) (hd : d ≠ c) :
    (w.setClient c t).client d = w.client d :=
  Function.update_of_ne hd ..

@[simp] theorem setHandle_handle_self (hd : Handle) : (w.setHandle h hd).handle h = hd :=
  Function.update_self ..

theorem setHandle_handle_of_ne {h' : Nat} (hd : Handle) (hh : h' ≠ h) :
    (w.setHandle h hd).handle h' = w.handle h' :=
  Function.update_of_ne hh ..

/-- `close` by the members of the world. -/
theorem close_eq (w : World) (c : Nat) : w.close c =
    { w with
      client := Function.update w.client c
        { w.client c with tcpHandle := none, connectStatus := .kDisConnected }
      handle := match (w.client c).tcpHandle with
        | some h => Function.update w.handle h
            { w.handle h with fd := none, closing := true, reading := false }
        | none => w.handle
      gConnMap := if (w.client c).sockFd ≠ kInvalidSocket then
          w.gConnMap.erase (w.client c).sockFd
        else w.gConnMap } := by
  cases hc : (w.client c).tcpHandle with
  | none =>
      simp only [close, hc]
      split <;> rfl
  | some h =>
      simp only [close, hc]
      split <;> rfl

@[simp] theorem close_client_self (w : World) (c : Nat) : (w.close c).client c =
    { w.client c with tcpHandle := none, connectStatus := .kDisConnected } := by
  rw [close_eq]
  exact Function.update_self ..

theorem close_client_of_ne (hd : d ≠ c) : (w.close c).client d = w.client d := by
  rw [close_eq]
  exact Function.update_of_ne hd ..

theorem close_handle_self (hc : (w.client c).tcpHandle = some h) : (w.close c).handle h =
    { w.handle h with fd := none, closing := true, reading := false } := by
  rw [close_eq, hc]
  exact Function.update_self ..

theorem close_handle_of_ne (hc : (w.client c).tcpHandle ≠ some h) :
    (w.close c).handle h = w.handle h := by
  rw [close_eq]
  cases hc' : (w.client c).tcpHandle with
  | none => rfl
  | some h' =>
      have hne : h ≠ h' := by
        rintro rfl
        exact hc hc'
      exact Function.update_of_ne hne ..

@[simp] theorem close_opened (w : World) (c : Nat) : (w.close c).opened = w.opened := by
  rw [close_eq]

@[simp] theorem close_made (w : World) (c : Nat) : (w.close c).made = w.made := by
  rw [close_eq]

@[simp] theorem close_alive (w : World) (c : Nat) : (w.close c).alive = w.alive := by
  rw [close_eq]

theorem close_gConnMap (hfd : 0 ≤ (w.client c).sockFd) :
    (w.close c).gConnMap = w.gConnMap.erase (w.client c).sockFd := by
  have hne : (w.client c).sockFd ≠ kInvalidSocket := by
    rw [kInvalidSocket]
    omega
  rw [close_eq]
  exact if_pos hne

/-! ## What always holds -/

/-- The clients, the handles and the map fit together. -/
structure Coherent (w : World) : Prop where
  sockFd_nonneg : ∀ c, 0 ≤ (w.client c).sockFd
  alive_lt : ∀ c, w.alive c = true → c < w.made
  dead : ∀ c, w.alive c = false → (w.client c).tcpHandle = none
  sockFd_eq : ∀ c f, w.Owns c f → (w.client c).sockFd = f
  handle_lt : ∀ c h, (w.client c).tcpHandle = some h → h < w.opened
  handle_inj : ∀ c d h, (w.client c).tcpHandle = some h → (w.client d).tcpHandle = some h → c = d
  fd_lt : ∀ h f, (w.handle h).fd = some f → h < w.opened
  fd_inj : ∀ h h' f, (w.handle h).fd = some f → (w.handle h').fd = some f → h = h'
  fd_open : ∀ h f, (w.handle h).fd = some f → (w.handle h).closing = false
  entry : ∀ f d, w.gConnMap.lookup f = some d → w.Owns d f
  due : ∀ h, (w.handle h).pending ∨ (w.handle h).starting ∨ (w.handle h).reading →
    (w.handle h).closing = false → ∃ f, (w.handle h).fd = some f
  pending_only : ∀ h, (w.handle h).pending → (w.handle h).starting = false ∧
    (w.handle h).reading = false
  reading_open : ∀ h, (w.handle h).reading → (w.handle h).closing = false
  fresh : ∀ h, w.opened ≤ h → w.handle h = {}

namespace Coherent

theorem uvFileno_eq (hw : w.Coherent) (hf : (w.handle h).fd = some f) : w.uvFileno h = .ok f := by
  simp [uvFileno, hf, hw.fd_open h f hf]

/-- A descriptor has one owner. -/
theorem owner_unique (hw : w.Coherent) (hc : w.Owns c f) (hd : w.Owns d f) : c = d := by
  obtain ⟨h, hch, hhf⟩ := hc
  obtain ⟨h', hdh, hhf'⟩ := hd
  have heq : h = h' := hw.fd_inj h h' f hhf hhf'
  subst heq
  exact hw.handle_inj c d h hch hdh

/-- The connect callback of a handle that is to be read, or is read, has been made. -/
theorem not_pending (hw : w.Coherent)
    (hread : (w.handle h).starting = true ∨ (w.handle h).reading = true) :
    (w.handle h).pending = false := by
  by_contra hp
  obtain ⟨hstarting, hreading⟩ := hw.pending_only h (Bool.eq_true_of_not_eq_false hp)
  rw [hstarting, hreading] at hread
  simp at hread

theorem init : World.init.Coherent where
  sockFd_nonneg _ := le_rfl
  alive_lt _ h := by cases h
  dead _ _ := rfl
  sockFd_eq c f h := by
    obtain ⟨_, h, _⟩ := h
    cases h
  handle_lt _ _ h := by cases h
  handle_inj _ _ _ h := by cases h
  fd_lt _ _ h := by cases h
  fd_inj _ _ _ h := by cases h
  fd_open _ _ h := by cases h
  entry _ _ h := by cases h
  due _ h := by simp [World.init] at h
  pending_only _ _ := ⟨rfl, rfl⟩
  reading_open _ _ := rfl
  fresh _ _ := rfl

end Coherent

/-! ## Closing -/

/-- What a client owns behind a `close` of another it owned before, and conversely. -/
theorem close_owns_of_ne (hw : w.Coherent) (hd : d ≠ c) : (w.close c).Owns d f ↔ w.Owns d f := by
  refine owns_congr (close_client_of_ne hd) fun h hdh ↦ ?_
  exact close_handle_of_ne fun hch ↦ hd (hw.handle_inj d c h hdh hch)

theorem not_close_owns_self : ¬ (w.close c).Owns c f := by
  rintro ⟨h, hch, _⟩
  rw [close_client_self] at hch
  cases hch

/-- A socket that is open behind a `close` was open before. -/
theorem fd_of_close (hf : ((w.close c).handle h).fd = some f) :
    (w.client c).tcpHandle ≠ some h ∧ (w.handle h).fd = some f := by
  by_cases hc : (w.client c).tcpHandle = some h
  · rw [close_handle_self hc] at hf
    cases hf
  · rw [close_handle_of_ne hc] at hf
    exact ⟨hc, hf⟩

theorem lookup_close_of_ne (hw : w.Coherent) (hf : f ≠ (w.client c).sockFd) :
    (w.close c).gConnMap.lookup f = w.gConnMap.lookup f := by
  rw [close_gConnMap (hw.sockFd_nonneg c), AList.lookup_erase_ne hf]

theorem lookup_close_self (hw : w.Coherent) :
    (w.close c).gConnMap.lookup (w.client c).sockFd = none := by
  rw [close_gConnMap (hw.sockFd_nonneg c), AList.lookup_erase]

/-- An entry behind a `close` was there before, under another descriptor than the one closed. -/
theorem lookup_of_close (hw : w.Coherent) (hl : (w.close c).gConnMap.lookup f = some d) :
    f ≠ (w.client c).sockFd ∧ w.gConnMap.lookup f = some d := by
  by_cases hf : f = (w.client c).sockFd
  · rw [hf, lookup_close_self hw] at hl
    cases hl
  · rw [lookup_close_of_ne hw hf] at hl
    exact ⟨hf, hl⟩

theorem Coherent.close (hw : w.Coherent) (c : Nat) : (w.close c).Coherent where
  sockFd_nonneg d := by
    by_cases hd : d = c
    · subst d
      rw [close_client_self]
      exact hw.sockFd_nonneg c
    · rw [close_client_of_ne hd]
      exact hw.sockFd_nonneg d
  alive_lt d hd := by
    rw [close_made]
    exact hw.alive_lt d (by rwa [close_alive] at hd)
  dead d hd := by
    rw [close_alive] at hd
    by_cases hdc : d = c
    · rw [hdc, close_client_self]
    · rw [close_client_of_ne hdc]
      exact hw.dead d hd
  sockFd_eq d f hd := by
    by_cases hdc : d = c
    · exact absurd (hdc ▸ hd) not_close_owns_self
    · rw [close_client_of_ne hdc]
      exact hw.sockFd_eq d f ((close_owns_of_ne hw hdc).mp hd)
  handle_lt d h hd := by
    rw [close_opened]
    by_cases hdc : d = c
    · rw [hdc, close_client_self] at hd
      cases hd
    · rw [close_client_of_ne hdc] at hd
      exact hw.handle_lt d h hd
  handle_inj d e h hd he := by
    have hne (a : Nat) (ha : ((w.close c).client a).tcpHandle = some h) : a ≠ c := by
      rintro rfl
      rw [close_client_self] at ha
      cases ha
    rw [close_client_of_ne (hne d hd)] at hd
    rw [close_client_of_ne (hne e he)] at he
    exact hw.handle_inj d e h hd he
  fd_lt h f hf := by
    rw [close_opened]
    exact hw.fd_lt h f (fd_of_close hf).2
  fd_inj h h' f hf hf' := hw.fd_inj h h' f (fd_of_close hf).2 (fd_of_close hf').2
  fd_open h f hf := by
    obtain ⟨hc, hf⟩ := fd_of_close hf
    rw [close_handle_of_ne hc]
    exact hw.fd_open h f hf
  entry f d hl := by
    obtain ⟨hf, hl⟩ := lookup_of_close hw hl
    have hown := hw.entry f d hl
    have hdc : d ≠ c := by
      rintro rfl
      exact hf (hw.sockFd_eq d f hown).symm
    exact (close_owns_of_ne hw hdc).mpr hown
  due h hdue hopen := by
    by_cases hc : (w.client c).tcpHandle = some h
    · rw [close_handle_self hc] at hopen
      cases hopen
    · rw [close_handle_of_ne hc] at hdue hopen ⊢
      exact hw.due h hdue hopen
  pending_only h hp := by
    by_cases hc : (w.client c).tcpHandle = some h
    · rw [close_handle_self hc] at hp ⊢
      exact ⟨(hw.pending_only h hp).1, rfl⟩
    · rw [close_handle_of_ne hc] at hp ⊢
      exact hw.pending_only h hp
  reading_open h hr := by
    by_cases hc : (w.client c).tcpHandle = some h
    · rw [close_handle_self hc] at hr
      cases hr
    · rw [close_handle_of_ne hc] at hr ⊢
      exact hw.reading_open h hr
  fresh h hle := by
    rw [close_opened] at hle
    have hc : (w.client c).tcpHandle ≠ some h := fun hc ↦ by
      have := hw.handle_lt c h hc
      omega
    rw [close_handle_of_ne hc]
    exact hw.fresh h hle

end CoffeeChat.Net.World
