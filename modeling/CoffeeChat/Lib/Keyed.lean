import Mathlib.Data.List.Nodup
import Mathlib.Logic.Function.Basic

/-!
# Rows under a key

A list of rows, each with a key. Where no two rows share a key the list is a partial map from keys
to rows, and `find` looks a row up in it; changing the row of one key (`modify`) and appending a row
with a new key are `Function.update` on that map.

A fold in which only the elements with some property touch a part of the state leaves there what
the last of these wrote (`view_foldl`). So a scan of rows with distinct keys reads each key once
(`view_foldl_rows`), and a map answers with what was last written to the key
(`foldl_update_apply`).
-/

namespace Lib.Keyed

variable {ρ κ ν σ τ : Type} [DecidableEq κ] {key : ρ → κ}

/-- The first row with the key `k`. -/
def find (key : ρ → κ) (rows : List ρ) (k : κ) : Option ρ :=
  rows.find? fun r ↦ key r = k

/-- Change the rows with the key `k`. -/
def modify (key : ρ → κ) (k : κ) (f : ρ → ρ) (rows : List ρ) : List ρ :=
  rows.map fun r ↦ if key r = k then f r else r

/-! ## The partial map -/

theorem find_cons (r : ρ) (rows : List ρ) (k : κ) :
    find key (r :: rows) k = if key r = k then some r else find key rows k := by
  by_cases h : key r = k
  · simp [find, h]
  · simp [find, h]

theorem find_eq_none {rows : List ρ} {k : κ} : find key rows k = none ↔ k ∉ rows.map key := by
  simp [find]

/-- Changing the row of one key. -/
theorem find_modify (f : ρ → ρ) (hf : ∀ r, key (f r) = key r) (rows : List ρ) (k : κ) :
    find key (modify key k f rows) =
      Function.update (find key rows) k ((find key rows k).map f) := by
  funext k'
  induction rows with
  | nil =>
      by_cases hk : k' = k
      · subst hk
        simp [find, modify]
      · simp [find, modify, hk]
  | cons r rows ih =>
      have hcons : modify key k f (r :: rows) =
          (if key r = k then f r else r) :: modify key k f rows := rfl
      rw [hcons, find_cons, ih]
      by_cases hr : key r = k
      · rw [if_pos hr, hf, hr]
        by_cases hk : k' = k
        · subst hk
          simp [find_cons, hr]
        · simp [find_cons, hr, hk, Ne.symm hk]
      · rw [if_neg hr]
        by_cases hk : k' = k
        · subst hk
          simp [find_cons, hr]
        · simp [find_cons, hk]

/-- Changing rows does not change the keys. -/
theorem map_key_modify (f : ρ → ρ) (hf : ∀ r, key (f r) = key r) (rows : List ρ) (k : κ) :
    (modify key k f rows).map key = rows.map key := by
  rw [modify, List.map_map]
  refine List.map_congr_left ?_
  intro r _
  show key (if key r = k then f r else r) = key r
  split
  · exact hf r
  · rfl

/-- A row with a new key. -/
theorem find_append {rows : List ρ} {r : ρ} (h : key r ∉ rows.map key) :
    find key (rows ++ [r]) = Function.update (find key rows) (key r) (some r) := by
  funext k
  rw [find, List.find?_append]
  show (find key rows k).or (find key [r] k) = _
  by_cases hk : k = key r
  · subst hk
    rw [find_eq_none.mpr h, Function.update_self, Option.none_or, find_cons, if_pos rfl]
  · rw [Function.update_of_ne hk, find_cons, if_neg (Ne.symm hk)]
    exact Option.or_none

omit [DecidableEq κ] in
/-- A row with a new key leaves the keys distinct. -/
theorem nodup_append {rows : List ρ} {r : ρ} (hrows : (rows.map key).Nodup)
    (h : key r ∉ rows.map key) : ((rows ++ [r]).map key).Nodup := by
  rw [List.map_append]
  exact hrows.append (List.nodup_singleton _) (by simpa using h)

/-- Where the keys are distinct, the row found is the only one with its key. -/
theorem filter_eq {rows : List ρ} (h : (rows.map key).Nodup) (k : κ) :
    rows.filter (fun r ↦ key r = k) = (find key rows k).toList := by
  induction rows with
  | nil => rfl
  | cons r rows ih =>
      rw [List.map_cons, List.nodup_cons] at h
      rw [find_cons]
      by_cases hr : key r = k
      · have hnone : find key rows k = none := find_eq_none.mpr (hr ▸ h.1)
        rw [if_pos hr, List.filter_cons_of_pos (by simpa using hr), ih h.2, hnone]
        rfl
      · rw [if_neg hr, List.filter_cons_of_neg (by simpa using hr), ih h.2]

/-! ## The last write -/

/-- If the elements with `p` set the part `view` of the state and the others leave it alone, a fold
leaves there what the last element with `p` wrote. -/
theorem view_foldl {step : σ → ρ → σ} (view : σ → τ) (p : ρ → Bool) (g : ρ → τ)
    (hhit : ∀ s x, p x = true → view (step s x) = g x)
    (hmiss : ∀ s x, p x = false → view (step s x) = view s) (s : σ) (xs : List ρ) :
    view (xs.foldl step s) = (((xs.filter p).getLast?).map g).getD (view s) := by
  induction xs generalizing s with
  | nil => rfl
  | cons x xs ih =>
      rw [List.foldl_cons, ih]
      cases hx : p x with
      | true =>
          rw [hhit s x hx, List.filter_cons_of_pos hx, List.getLast?_cons]
          cases (xs.filter p).getLast? with
          | none => rfl
          | some y => rfl
      | false =>
          rw [hmiss s x hx, List.filter_cons_of_neg (by rw [hx]; exact Bool.false_ne_true)]

/-- A fold over rows with distinct keys, of which those with the key `k` set the part `view` of the
state, leaves there what the row found under `k` has. -/
theorem view_foldl_rows {step : σ → ρ → σ} (view : σ → τ) {k : κ} (g : ρ → τ)
    (hhit : ∀ s r, key r = k → view (step s r) = g r)
    (hmiss : ∀ s r, key r ≠ k → view (step s r) = view s) {rows : List ρ}
    (h : (rows.map key).Nodup) (s : σ) :
    view (rows.foldl step s) = ((find key rows k).map g).getD (view s) := by
  rw [view_foldl view (fun r ↦ key r = k) g (fun s r hr ↦ hhit s r (by simpa using hr))
    (fun s r hr ↦ hmiss s r (by simpa using hr)), filter_eq h]
  cases find key rows k with
  | none => rfl
  | some r => rfl

/-- A map that is written one entry after another answers with the last entry for the key. -/
theorem foldl_update_apply (entry : ρ → κ × ν) (m : κ → Option ν) (xs : List ρ) (k : κ) :
    xs.foldl (fun m x ↦ Function.update m (entry x).1 (some (entry x).2)) m k =
      (((xs.filter fun x ↦ (entry x).1 = k).getLast?).map fun x ↦ (entry x).2).or (m k) := by
  let step (m : κ → Option ν) (x : ρ) := Function.update m (entry x).1 (some (entry x).2)
  have hhit (m : κ → Option ν) (x : ρ) (hx : decide ((entry x).1 = k) = true) :
      step m x k = some (entry x).2 := by
    have hk : (entry x).1 = k := by simpa using hx
    rw [← hk]
    exact Function.update_self ..
  have hmiss (m : κ → Option ν) (x : ρ) (hx : decide ((entry x).1 = k) = false) :
      step m x k = m k := by
    have hk : (entry x).1 ≠ k := by simpa using hx
    exact Function.update_of_ne (Ne.symm hk) ..
  have hview := view_foldl (fun m : κ → Option ν ↦ m k) (fun x ↦ (entry x).1 = k)
    (fun x ↦ some (entry x).2) hhit hmiss m xs
  show xs.foldl step m k = _
  rw [hview]
  cases (xs.filter fun x ↦ (entry x).1 = k).getLast? with
  | none => rfl
  | some x => rfl

end Lib.Keyed
