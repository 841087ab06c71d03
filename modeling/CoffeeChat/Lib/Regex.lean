import Mathlib.Computability.RegularExpressions

/-!
# Words in regular expressions

The pieces that patterns for names and addresses are put together from, over Mathlib's regular
expressions: a character of a class (`oneOf`), one or more of what a pattern matches
(`oneOrMore`), and the words these match. A sequence of words, each behind a separator that is not
in the class, is matched in one way only (`separated_inj`).
-/

namespace Lib.Regex

open RegularExpression

variable {α : Type}

/-- A character of the class, `[...]`. -/
def oneOf (cs : List α) : RegularExpression α := cs.foldr (fun c r ↦ char c + r) 0

/-- One or more of what the pattern matches, `r+`. -/
def oneOrMore (r : RegularExpression α) : RegularExpression α := r * star r

/-- A word of one or more characters of the class. -/
def IsWord (cs w : List α) : Prop := w ≠ [] ∧ ∀ c ∈ w, c ∈ cs

instance [DecidableEq α] (cs w : List α) : Decidable (IsWord cs w) :=
  inferInstanceAs (Decidable (w ≠ [] ∧ ∀ c ∈ w, c ∈ cs))

theorem mem_oneOf {cs w : List α} : w ∈ (oneOf cs).matches' ↔ ∃ c ∈ cs, w = [c] := by
  induction cs with
  | nil => simp [oneOf]
  | cons c cs ih =>
      have hsplit : (oneOf (c :: cs)).matches' = {[c]} + (oneOf cs).matches' := rfl
      rw [hsplit, Language.mem_add, ih, List.exists_mem_cons_iff]
      exact Iff.rfl

/-- The rest of what `r+` matches is what `r*` does. -/
theorem mem_oneOrMore {r : RegularExpression α} {w : List α} :
    w ∈ (oneOrMore r).matches' ↔
      ∃ ws : List (List α), ws ≠ [] ∧ (∀ v ∈ ws, v ∈ r.matches') ∧ w = ws.flatten := by
  rw [oneOrMore, matches'_mul, matches'_star, Language.mem_mul]
  constructor
  · rintro ⟨v, hv, rest, hrest, rfl⟩
    obtain ⟨ws, rfl, hws⟩ := Language.mem_kstar.mp hrest
    exact ⟨v :: ws, List.cons_ne_nil v ws, List.forall_mem_cons.mpr ⟨hv, hws⟩, rfl⟩
  · rintro ⟨ws, hne, hws, rfl⟩
    obtain ⟨v, rest, rfl⟩ := List.exists_cons_of_ne_nil hne
    obtain ⟨hv, hrest⟩ := List.forall_mem_cons.mp hws
    exact ⟨v, hv, rest.flatten, Language.mem_kstar.mpr ⟨rest, rfl, hrest⟩, rfl⟩

/-- `[...]+` matches the words. -/
theorem mem_word {cs w : List α} : w ∈ (oneOrMore (oneOf cs)).matches' ↔ IsWord cs w := by
  rw [mem_oneOrMore]
  constructor
  · rintro ⟨ws, hne, hws, rfl⟩
    have hone : ∀ v ∈ ws, ∃ c ∈ cs, v = [c] := fun v hv ↦ mem_oneOf.mp (hws v hv)
    refine ⟨fun hnil ↦ ?_, fun c hc ↦ ?_⟩
    · obtain ⟨v, rest, rfl⟩ := List.exists_cons_of_ne_nil hne
      obtain ⟨c, _, rfl⟩ := hone v List.mem_cons_self
      cases hnil
    · obtain ⟨v, hv, hcv⟩ := List.mem_flatten.mp hc
      obtain ⟨d, hd, rfl⟩ := hone v hv
      exact List.mem_singleton.mp hcv ▸ hd
  · rintro ⟨hne, hmem⟩
    refine ⟨w.map (fun c ↦ [c]), ?_, ?_, ?_⟩
    · exact fun hnil ↦ hne (List.map_eq_nil_iff.mp hnil)
    · intro v hv
      obtain ⟨c, hc, rfl⟩ := List.mem_map.mp hv
      exact mem_oneOf.mpr ⟨c, hmem c hc, rfl⟩
    · exact (List.flatMap_singleton' w).symm

/-- `(s[...]+)+` matches one or more words, each behind the separator. -/
theorem mem_separated {cs w : List α} {sep : α} :
    w ∈ (oneOrMore (char sep * oneOrMore (oneOf cs))).matches' ↔
      ∃ ws : List (List α), ws ≠ [] ∧ (∀ v ∈ ws, IsWord cs v) ∧ w = ws.flatMap (sep :: ·) := by
  have hone (v : List α) : v ∈ (char sep * oneOrMore (oneOf cs)).matches' ↔
      ∃ u, IsWord cs u ∧ sep :: u = v := by
    rw [matches'_mul, matches'_char, Language.mem_mul]
    constructor
    · rintro ⟨a, rfl, u, hu, rfl⟩
      exact ⟨u, mem_word.mp hu, rfl⟩
    · rintro ⟨u, hu, rfl⟩
      exact ⟨[sep], rfl, u, mem_word.mpr hu, rfl⟩
  rw [mem_oneOrMore]
  constructor
  · rintro ⟨vs, hne, hvs, rfl⟩
    obtain ⟨ws, hws, rfl⟩ : ∃ ws : List (List α), (∀ u ∈ ws, IsWord cs u) ∧
        ws.map (sep :: ·) = vs := by
      have hall := fun v hv ↦ (hone v).mp (hvs v hv)
      choose! u hu using hall
      refine ⟨vs.map u, fun x hx ↦ ?_, ?_⟩
      · obtain ⟨v, hv, rfl⟩ := List.mem_map.mp hx
        exact (hu v hv).1
      · rw [List.map_map]
        exact (List.map_congr_left fun v hv ↦ (hu v hv).2).trans (List.map_id vs)
    exact ⟨ws, fun hnil ↦ hne (List.map_eq_nil_iff.mpr hnil), hws, List.flatMap_def.symm⟩
  · rintro ⟨ws, hne, hws, rfl⟩
    refine ⟨ws.map (sep :: ·), fun hnil ↦ hne (List.map_eq_nil_iff.mp hnil), fun v hv ↦ ?_,
      List.flatMap_def⟩
    obtain ⟨u, hu, rfl⟩ := List.mem_map.mp hv
    exact (hone (sep :: u)).mpr ⟨u, hws u hu, rfl⟩

/-- Up to the first separator there is one word only. -/
theorem append_sep_inj {sep : α} {w w' t t' : List α} (hw : sep ∉ w) (hw' : sep ∉ w')
    (h : w ++ sep :: t = w' ++ sep :: t') : w = w' ∧ t = t' := by
  induction w generalizing w' with
  | nil =>
      cases w' with
      | nil => exact ⟨rfl, (List.cons.inj h).2⟩
      | cons c w' => exact absurd ((List.cons.inj h).1 ▸ List.mem_cons_self) hw'
  | cons c w ih =>
      cases w' with
      | nil => exact absurd ((List.cons.inj h).1 ▸ List.mem_cons_self) hw
      | cons c' w' =>
          obtain ⟨rfl, hrest⟩ := List.cons.inj h
          obtain ⟨rfl, rfl⟩ := ih (fun hc ↦ hw (List.mem_cons_of_mem c hc))
            (fun hc ↦ hw' (List.mem_cons_of_mem c hc)) hrest
          exact ⟨rfl, rfl⟩

/-- A word and the words behind it, each behind a separator, are determined by their text. -/
theorem separated_inj {sep : α} {w w' : List α} {ws ws' : List (List α)} (hw : sep ∉ w)
    (hw' : sep ∉ w') (hws : ∀ v ∈ ws, sep ∉ v) (hws' : ∀ v ∈ ws', sep ∉ v)
    (h : w ++ ws.flatMap (sep :: ·) = w' ++ ws'.flatMap (sep :: ·)) : w = w' ∧ ws = ws' := by
  induction ws generalizing w w' ws' with
  | nil =>
      cases ws' with
      | nil =>
          rw [List.flatMap_nil, List.append_nil, List.append_nil] at h
          exact ⟨h, rfl⟩
      | cons v' ws' =>
          rw [List.flatMap_nil, List.append_nil] at h
          refine absurd ?_ hw
          rw [h]
          simp
  | cons v ws ih =>
      cases ws' with
      | nil =>
          rw [List.flatMap_nil, List.append_nil] at h
          refine absurd ?_ hw'
          rw [← h]
          simp
      | cons v' ws' =>
          obtain ⟨hv, hws⟩ := List.forall_mem_cons.mp hws
          obtain ⟨hv', hws'⟩ := List.forall_mem_cons.mp hws'
          obtain ⟨rfl, hrest⟩ := append_sep_inj hw hw' h
          obtain ⟨rfl, rfl⟩ := ih hv hv' hws hws' hrest
          exact ⟨rfl, rfl⟩

end Lib.Regex
