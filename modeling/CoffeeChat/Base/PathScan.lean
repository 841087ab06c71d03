import CoffeeChat.Base.FileUtil
import Mathlib.Data.List.TakeWhile

/-!
# The path scanner

`ParsePathComponentsT` cuts a path that ends in a separator into its components (`parse_cut`). A
component that ends at the NUL takes the scanner past it: `turn_past_terminator` says that it then
reads the byte behind the NUL, whatever lies there. So the scanner stops at the terminator exactly
for paths that are empty or end in a separator (`stops_at_terminator_iff`).
-/

namespace CoffeeChat

open Lib Lib.Seek

namespace FileUtil

/-- The path is empty or ends in a separator. -/
def Terminated (seperators : CString) (path : Bytes) : Prop :=
  ∀ b ∈ path.getLast?, isSeparator seperators b = true

/-- The path as a sequence of components, each a word and the separators behind it. Of these a
component keeps one, the first of `seperators`. -/
inductive Cut (seperators : CString) : Bytes → List Bytes → Prop where
  | nil : Cut seperators [] []
  | cons {word : Bytes} {b : UInt8} {more path : Bytes} {components : List Bytes} :
      (∀ a ∈ word, isSeparator seperators a = false) → isSeparator seperators b = true →
      (∀ a ∈ more, isSeparator seperators a = true) →
      (∀ a ∈ path.head?, isSeparator seperators a = false) →
      Cut seperators path components →
      Cut seperators (word ++ b :: (more ++ path))
        ((word ++ [seperators.bytes.headD 0]) :: components)

variable {seperators : CString}

/-! ## Cutting a path -/

theorem isSeparator_zero : isSeparator seperators 0 = false := by
  rw [isSeparator, decide_eq_false_iff_not]
  exact seperators.noNul

/-- Every path is a sequence of components and a last word without a separator. -/
theorem exists_cut (seperators : CString) (path : Bytes) :
    ∃ front last components, path = front ++ last ∧
      Cut seperators front components ∧ ∀ a ∈ last, isSeparator seperators a = false := by
  cases hfind : path.find? (isSeparator seperators) with
  | none =>
      refine ⟨[], path, [], rfl, .nil, ?_⟩
      intro a ha
      simpa using List.find?_eq_none.mp hfind a ha
  | some b =>
      obtain ⟨hb, word, rest, rfl, hword⟩ := List.find?_eq_some_iff_append.mp hfind
      let more := rest.takeWhile (isSeparator seperators)
      have hrest : more ++ rest.dropWhile (isSeparator seperators) = rest :=
        List.takeWhile_append_dropWhile
      have hlength : (rest.dropWhile (isSeparator seperators)).length <
          (word ++ b :: rest).length := by
        have hle := (List.dropWhile_suffix (l := rest) (isSeparator seperators)).length_le
        rw [List.length_append, List.length_cons]
        omega
      obtain ⟨front, last, components, hsplit, hcut, hlast⟩ :=
        exists_cut seperators (rest.dropWhile (isSeparator seperators))
      refine ⟨word ++ b :: (more ++ front), last, _, ?_, .cons ?_ hb ?_ ?_ hcut, hlast⟩
      · rw [List.append_assoc, List.cons_append, List.append_assoc, ← hsplit, hrest]
      · intro a ha
        simpa using hword a ha
      · intro a ha
        exact List.mem_takeWhile_imp ha
      · intro a ha
        cases front with
        | nil => cases ha
        | cons c front =>
            cases ha
            have hhead := List.head?_dropWhile_not (isSeparator seperators) rest
            rw [hsplit] at hhead
            simpa using hhead
termination_by path.length

/-- A path that ends in a separator has no last word. -/
theorem Cut.getLast? {path : Bytes} {components : List Bytes}
    (h : Cut seperators path components) : Terminated seperators path := by
  induction h with
  | nil => exact fun b hb ↦ by cases hb
  | @cons word c more path components hword hc hmore hpath hcut ih =>
      intro b hb
      rw [List.getLast?_append, List.getLast?_cons, Option.some_or, List.getLast?_append] at hb
      cases hlast : path.getLast? with
      | some a =>
          rw [hlast] at hb
          cases hb
          exact ih a hlast
      | none =>
          rw [hlast, Option.none_or] at hb
          cases hmoreLast : more.getLast? with
          | none =>
              rw [hmoreLast] at hb
              cases hb
              exact hc
          | some a =>
              rw [hmoreLast] at hb
              cases hb
              exact hmore a (List.mem_of_getLast? hmoreLast)

/-- Where the last word is not empty the path does not end in a separator. -/
theorem not_terminated {front last : Bytes} (hne : last ≠ [])
    (hlast : ∀ a ∈ last, isSeparator seperators a = false) :
    ¬ Terminated seperators (front ++ last) := by
  intro h
  have hend : (front ++ last).getLast? = some (last.getLast hne) := by
    rw [List.getLast?_append, List.getLast?_eq_some_getLast hne, Option.some_or]
  have hsep := h _ hend
  rw [hlast _ (List.getLast_mem hne)] at hsep
  cases hsep

/-! ## A turn -/

/-- A turn that finds a separator or the NUL behind a word. -/
theorem turn_find {n : Nat} {word rest : Bytes} {b : UInt8} {components : List Bytes}
    (hword : ∀ a ∈ word, isSeparator seperators a = false ∧ a ≠ 0)
    (hb : isSeparator seperators b = true ∨ b = 0) (hfirst : b = 0 → word ≠ []) :
    let skip := seek (fun b ↦ !isSeparator seperators b) (n + word.length + 1) rest
    turn seperators ⟨n, word ++ b :: rest, components⟩ =
      (n :: List.range' n (word.length + 1) ++ skip.1,
        match skip.2 with
        | none => .fail .outOfBounds
        | some next => .again ⟨next.address, next.memory, components ++
            [word ++ if b ≠ 0 then [seperators.bytes.headD 0] else []]⟩) := by
  intro skip
  have hfind : seek (fun b ↦ isSeparator seperators b || b = 0) n (word ++ b :: rest) =
      (List.range' n (word.length + 1), some ⟨n + word.length, b :: rest⟩) := by
    refine seek_append ?_ ?_ rest
    · intro a ha
      simpa using hword a ha
    · simpa using hb
  obtain ⟨a, memory, hmemory⟩ := List.exists_cons_of_ne_nil
    (show word ++ b :: rest ≠ [] from List.append_ne_nil_of_right_ne_nil _ (List.cons_ne_nil _ _))
  have ha : a ≠ 0 := by
    cases word with
    | nil =>
        cases hmemory
        exact fun hzero ↦ hfirst hzero rfl
    | cons c word =>
        cases hmemory
        exact (hword a List.mem_cons_self).2
  have hcomponent : component seperators ⟨n, word ++ b :: rest, components⟩
      ⟨n + word.length, b :: rest⟩ =
        word ++ if b ≠ 0 then [seperators.bytes.headD 0] else [] := by
    rw [component, Nat.add_sub_cancel_left, List.take_left]
    rfl
  rw [turn]
  simp only [hmemory, ha, if_false]
  rw [← hmemory, hfind]
  simp only [hcomponent, List.tail_cons]
  show (match skip.2 with
    | none => (_, _)
    | some next => (_, _)) = _
  cases skip.2 with
  | none => rfl
  | some next => rfl

/-- A turn over a component and the separators behind it. -/
theorem turn_component (n : Nat) {word more : Bytes} {b e : UInt8} (rest : Bytes)
    (components : List Bytes)
    (hword : ∀ a ∈ word, isSeparator seperators a = false ∧ a ≠ 0)
    (hb : isSeparator seperators b = true) (hmore : ∀ a ∈ more, isSeparator seperators a = true)
    (he : isSeparator seperators e = false) :
    turn seperators ⟨n, word ++ b :: (more ++ e :: rest), components⟩ =
      (n :: List.range' n (word.length + 1) ++
          List.range' (n + word.length + 1) (more.length + 1),
        .again ⟨n + word.length + 1 + more.length, e :: rest,
          components ++ [word ++ [seperators.bytes.headD 0]]⟩) := by
  have hzero : b ≠ 0 := by
    intro heq
    rw [heq, isSeparator_zero] at hb
    cases hb
  have hskip : seek (fun b ↦ !isSeparator seperators b) (n + word.length + 1) (more ++ e :: rest) =
      (List.range' (n + word.length + 1) (more.length + 1),
        some ⟨n + word.length + 1 + more.length, e :: rest⟩) := by
    refine seek_append ?_ ?_ rest
    · intro a ha
      rw [hmore a ha]
      rfl
    · rw [he]
      rfl
  rw [turn_find hword (Or.inl hb) fun h ↦ absurd h hzero, hskip, if_pos hzero]

/-- A turn over a component that ends at the NUL goes on behind it. -/
theorem turn_last (n : Nat) {word : Bytes} {e : UInt8} (rest : Bytes) (components : List Bytes)
    (hne : word ≠ []) (hword : ∀ a ∈ word, isSeparator seperators a = false ∧ a ≠ 0)
    (he : isSeparator seperators e = false) :
    turn seperators ⟨n, word ++ 0 :: e :: rest, components⟩ =
      (n :: List.range' n (word.length + 1) ++ [n + word.length + 1],
        .again ⟨n + word.length + 1, e :: rest, components ++ [word]⟩) := by
  have hskip : seek (fun b ↦ !isSeparator seperators b) (n + word.length + 1) (e :: rest) =
      ([n + word.length + 1], some ⟨n + word.length + 1, e :: rest⟩) := by
    rw [seek, if_pos]
    rw [he]
    rfl
  rw [turn_find hword (Or.inr rfl) fun _ ↦ hne, hskip, if_neg (not_not_intro rfl), List.append_nil]

/-- Such a turn reads the byte behind the NUL, whatever lies there. -/
theorem turn_past_terminator (n : Nat) {word : Bytes} (components : List Bytes) (hne : word ≠ [])
    (hword : ∀ a ∈ word, isSeparator seperators a = false ∧ a ≠ 0) (behind : Bytes) :
    n + word.length + 1 ∈ (turn seperators ⟨n, word ++ 0 :: behind, components⟩).1 := by
  rw [turn_find hword (Or.inr rfl) fun _ ↦ hne]
  exact List.mem_append_right _ (address_mem_seek behind)

/-- A turn at the NUL. -/
theorem turn_nul (n : Nat) (behind : Bytes) (components : List Bytes) :
    turn seperators ⟨n, 0 :: behind, components⟩ =
      ([n], .leave ⟨n, 0 :: behind, components⟩) := rfl

/-! ## The loop -/

/-- The turns over a path that is cut into components, with the reads they add and the components
they find. None of them reads further than the byte behind the path, which is not a separator. -/
theorem run_cut {path : Bytes} {found : List Bytes} (h : Cut seperators path found)
    (hpath : 0 ∉ path) {e : UInt8} (he : isSeparator seperators e = false) (rest : Bytes) (n : Nat)
    (components : List Bytes) :
    ∃ reads, (∀ i ∈ reads.flatten, i ≤ n + path.length) ∧ ∀ fuel,
      Loop.run (turn seperators) (found.length + fuel) ⟨n, path ++ e :: rest, components⟩ =
        (reads ++ (Loop.run (turn seperators) fuel
            ⟨n + path.length, e :: rest, components ++ found⟩).1,
          (Loop.run (turn seperators) fuel
            ⟨n + path.length, e :: rest, components ++ found⟩).2) := by
  induction h generalizing n components with
  | nil =>
      refine ⟨[], fun i hi ↦ (by cases hi), fun fuel ↦ ?_⟩
      rw [List.append_nil, List.length_nil, Nat.zero_add]
      rfl
  | @cons word b more path found hword hb hmore hhead hcut ih =>
      have hzero : ∀ a ∈ word ++ b :: (more ++ path), a ≠ 0 := fun a ha hzero ↦ hpath (hzero ▸ ha)
      -- what is read behind the separators is the next component or the byte behind the path
      obtain ⟨c, memory, hmemory, hc⟩ : ∃ c memory, path ++ e :: rest = c :: memory ∧
          isSeparator seperators c = false := by
        cases path with
        | nil => exact ⟨e, rest, rfl, he⟩
        | cons c path => exact ⟨c, path ++ e :: rest, rfl, hhead c rfl⟩
      have hturn := turn_component n memory components
        (fun a ha ↦ ⟨hword a ha, hzero a (List.mem_append_left _ ha)⟩) hb hmore hc
      rw [← hmemory] at hturn
      obtain ⟨reads, hreads, hrun⟩ := ih
        (fun h ↦ hpath (by simp [h])) (n + word.length + 1 + more.length)
        (components ++ [word ++ [seperators.bytes.headD 0]])
      have hlength : n + word.length + 1 + more.length + path.length =
          n + (word ++ b :: (more ++ path)).length := by
        simp only [List.length_append, List.length_cons]
        omega
      refine ⟨(n :: List.range' n (word.length + 1) ++
        List.range' (n + word.length + 1) (more.length + 1)) :: reads, ?_, fun fuel ↦ ?_⟩
      · intro i hi
        rw [← hlength]
        rw [List.flatten_cons, List.mem_append] at hi
        rcases hi with hi | hi
        · simp only [List.cons_append, List.mem_cons, List.mem_append, List.mem_range'_1] at hi
          omega
        · exact hreads i hi
      · have hfuel : (found.length + 1) + fuel = (found.length + fuel) + 1 := by omega
        rw [List.length_cons, hfuel, List.append_assoc, List.cons_append, List.append_assoc,
          Loop.run_again hturn, hrun, hlength, List.append_assoc]
        rfl

/-! ## The scan -/

/-- There are no more components than bytes. -/
theorem Cut.length_le {path : Bytes} {found : List Bytes} (h : Cut seperators path found) :
    found.length ≤ path.length := by
  induction h with
  | nil => exact Nat.le_refl 0
  | cons _ _ _ _ _ ih =>
      simp only [List.length_cons, List.length_append]
      omega

/-- The scan goes on, behind the components of a path, from the last word or the NUL. -/
theorem parse_front {front last : Bytes} {found : List Bytes} (h : Cut seperators front found)
    {path : CString} (hpath : path.bytes = front ++ last)
    (hlast : ∀ a ∈ last, isSeparator seperators a = false) (behind : Bytes) :
    ∃ reads, (∀ i ∈ reads, i ≤ front.length) ∧ ∃ fuel, last.length + behind.length + 2 ≤ fuel ∧
      ParsePathComponentsT (path.inMemory behind) seperators =
        (reads ++ (Loop.run (turn seperators) fuel
            ⟨front.length, last ++ 0 :: behind, found⟩).1.flatten,
          scanned (Loop.run (turn seperators) fuel
            ⟨front.length, last ++ 0 :: behind, found⟩).2) := by
  obtain ⟨e, rest, hmemory, he⟩ : ∃ e rest, last ++ 0 :: behind = e :: rest ∧
      isSeparator seperators e = false := by
    cases last with
    | nil => exact ⟨0, behind, rfl, isSeparator_zero⟩
    | cons c last => exact ⟨c, last ++ 0 :: behind, rfl, hlast c List.mem_cons_self⟩
  have hfront : 0 ∉ front := fun h ↦ path.noNul (hpath ▸ List.mem_append_left last h)
  obtain ⟨reads, hreads, hrun⟩ := run_cut h hfront he rest 0 []
  have hlength : (path.bytes ++ 0 :: behind).length =
      front.length + (last.length + behind.length + 1) := by
    rw [hpath, List.length_append, List.length_append, List.length_cons]
    omega
  have hfuel : (path.bytes ++ 0 :: behind).length + 1 = found.length +
      (front.length - found.length + (last.length + behind.length + 2)) := by
    have hle := h.length_le
    omega
  refine ⟨reads.flatten, fun i hi ↦ by simpa using hreads i hi,
    front.length - found.length + (last.length + behind.length + 2), Nat.le_add_left _ _, ?_⟩
  rw [CString.inMemory, ParsePathComponentsT]
  simp only [hfuel]
  rw [hpath, List.append_assoc, hmemory, hrun, List.flatten_append, Nat.zero_add, List.nil_append]

/-- The last word of a path has no separator and no NUL. -/
theorem lastWord_ne {front last : Bytes} {path : CString} (hpath : path.bytes = front ++ last)
    (hlast : ∀ a ∈ last, isSeparator seperators a = false) :
    ∀ a ∈ last, isSeparator seperators a = false ∧ a ≠ 0 := by
  intro a ha
  refine ⟨hlast a ha, ?_⟩
  intro hzero
  have hmem : a ∈ path.bytes := by
    rw [hpath]
    exact List.mem_append_right front ha
  rw [hzero] at hmem
  exact path.noNul hmem

/-- A path that ends in a separator is cut into its components, whatever lies behind it, and
nothing behind its NUL is read. -/
theorem parse_cut {path : CString} {found : List Bytes} (h : Cut seperators path.bytes found)
    (behind : Bytes) :
    ∃ reads, ParsePathComponentsT (path.inMemory behind) seperators = (reads, .ok (true, found)) ∧
      ∀ i ∈ reads, i ≤ path.bytes.length := by
  obtain ⟨reads, hreads, fuel, hfuel, hparse⟩ := parse_front h
    (List.append_nil path.bytes).symm (fun a ha ↦ by cases ha) behind
  obtain ⟨fuel, rfl⟩ := Nat.exists_eq_add_of_le' (Nat.le_trans (Nat.le_add_left 1 _) hfuel)
  rw [List.nil_append, Loop.run_leave (turn_nul path.bytes.length behind found)] at hparse
  refine ⟨_, hparse, ?_⟩
  intro i hi
  rw [List.flatten_singleton, List.mem_append, List.mem_singleton] at hi
  rcases hi with hi | hi
  · exact hreads i hi
  · exact Nat.le_of_eq hi

/-- A path that does not end in a separator: the byte behind its NUL is read. -/
theorem parse_past_terminator {front last : Bytes} {found : List Bytes}
    (h : Cut seperators front found) {path : CString} (hpath : path.bytes = front ++ last)
    (hne : last ≠ []) (hlast : ∀ a ∈ last, isSeparator seperators a = false) (behind : Bytes) :
    path.bytes.length + 1 ∈ (ParsePathComponentsT (path.inMemory behind) seperators).1 := by
  obtain ⟨reads, -, fuel, hfuel, hparse⟩ := parse_front h hpath hlast behind
  obtain ⟨fuel, rfl⟩ := Nat.exists_eq_add_of_le' (Nat.le_trans (Nat.le_add_left 1 _) hfuel)
  have hword := lastWord_ne hpath hlast
  have hturn := turn_past_terminator front.length found hne hword behind
  have hfirst : (Loop.run (turn seperators) (fuel + 1)
      ⟨front.length, last ++ 0 :: behind, found⟩).1.head? = some _ := Loop.run_head fuel _
  rw [hparse, hpath, List.length_append]
  exact List.mem_append_right _ (List.mem_flatten.mpr ⟨_, List.mem_of_head? hfirst, hturn⟩)

/-- What such a path is cut into depends on what lies behind it. -/
theorem parse_depends {front last : Bytes} {found : List Bytes}
    (h : Cut seperators front found) {path : CString} (hpath : path.bytes = front ++ last)
    (hne : last ≠ []) (hlast : ∀ a ∈ last, isSeparator seperators a = false) :
    ∃ behind behind' found found', found ≠ found' ∧
      (ParsePathComponentsT (path.inMemory behind) seperators).2 = .ok (true, found) ∧
      (ParsePathComponentsT (path.inMemory behind') seperators).2 = .ok (true, found') := by
  have hword := lastWord_ne hpath hlast
  -- behind the path an empty string, or a second copy of its last word
  refine ⟨[0], last ++ [0, 0], found ++ [last], found ++ [last] ++ [last], ?_, ?_, ?_⟩
  · intro heq
    have hlength := congrArg List.length heq
    simp at hlength
  · obtain ⟨reads, -, fuel, hfuel, hparse⟩ := parse_front h hpath hlast [0]
    obtain ⟨fuel, rfl⟩ := Nat.exists_eq_add_of_le' (Nat.le_trans (Nat.le_add_left 2 _) hfuel)
    rw [hparse, Loop.run_again (turn_last _ _ _ hne hword isSeparator_zero),
      Loop.run_leave (turn_nul _ _ _)]
    rfl
  · obtain ⟨reads, -, fuel, hfuel, hparse⟩ := parse_front h hpath hlast (last ++ [0, 0])
    have hpos : 0 < last.length := List.length_pos_iff.mpr hne
    have hthree : 3 ≤ fuel := by
      rw [List.length_append] at hfuel
      omega
    obtain ⟨fuel, rfl⟩ := Nat.exists_eq_add_of_le' hthree
    obtain ⟨c, tail, htail, hc⟩ : ∃ c tail, last ++ [0, 0] = c :: tail ∧
        isSeparator seperators c = false := by
      obtain ⟨c, rest, rfl⟩ := List.exists_cons_of_ne_nil hne
      exact ⟨c, rest ++ [0, 0], rfl, hlast c List.mem_cons_self⟩
    rw [hparse, htail, Loop.run_again (turn_last _ _ _ hne hword hc), ← htail]
    rw [Loop.run_again (turn_last _ [] _ hne hword isSeparator_zero)]
    rw [Loop.run_leave (turn_nul _ _ _)]
    rfl

/-- For every path and all separators: whatever lies in memory behind the NUL, the scanner reads
nothing of it exactly when the path is empty or ends in a separator, and exactly then the components
are the same for all memory. -/
theorem stops_at_terminator_iff (seperators path : CString) :
    (∀ behind, (∀ i ∈ (ParsePathComponentsT (path.inMemory behind) seperators).1,
        i ≤ path.bytes.length) ↔ Terminated seperators path.bytes) ∧
      ((∀ behind behind', (ParsePathComponentsT (path.inMemory behind) seperators).2 =
        (ParsePathComponentsT (path.inMemory behind') seperators).2) ↔
          Terminated seperators path.bytes) := by
  obtain ⟨front, last, found, hpath, hcut, hlast⟩ := exists_cut seperators path.bytes
  by_cases hne : last = []
  · have hcut' : Cut seperators path.bytes found := by
      rw [hpath, hne, List.append_nil]
      exact hcut
    have hparse := parse_cut hcut'
    refine ⟨fun behind ↦ iff_of_true ?_ hcut'.getLast?, iff_of_true ?_ hcut'.getLast?⟩
    · obtain ⟨reads, hrun, hreads⟩ := hparse behind
      rw [hrun]
      exact hreads
    · intro behind behind'
      obtain ⟨reads, hrun, -⟩ := hparse behind
      obtain ⟨reads', hrun', -⟩ := hparse behind'
      rw [hrun, hrun']
  · have hnot : ¬ Terminated seperators path.bytes := by
      rw [hpath]
      exact not_terminated hne hlast
    refine ⟨fun behind ↦ iff_of_false ?_ hnot, iff_of_false ?_ hnot⟩
    · intro hreads
      have hlt := hreads _ (parse_past_terminator hcut hpath hne hlast behind)
      exact absurd hlt (Nat.not_succ_le_self _)
    · intro hsame
      obtain ⟨behind, behind', found, found', hdiffer, hrun, hrun'⟩ :=
        parse_depends hcut hpath hne hlast
      have heq := hsame behind behind'
      rw [hrun, hrun'] at heq
      cases heq
      exact hdiffer rfl

/-- The path `a`: the byte behind its NUL is read. -/
theorem not_stops_at_terminator :
    ¬ ∀ (path : CString) (behind : Bytes), ∀ i ∈ (ParsePathComponents (path.inMemory behind)).1,
      i ≤ path.bytes.length := by
  intro h
  have hread : 2 ∈ (ParsePathComponents (CString.inMemory ⟨[97], by decide⟩ [])).1 := by decide
  have hle : 2 ≤ 1 := h ⟨[97], by decide⟩ [] 2 hread
  exact absurd hle (by decide)

end FileUtil

end CoffeeChat
