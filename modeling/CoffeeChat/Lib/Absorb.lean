import Mathlib.Data.List.Basic

/-!
# Absorbing a stream in blocks

An iterated construction, a hash function for one, keeps a state `σ` that a compression function
updates with every full block of its input, and the tail that does not fill a block yet. `feed`
takes one element and `absorb` a list of them. Since `absorb` is a fold, how the input is cut
does not matter (`absorb_append`), and a whole input amounts to a fold over its full blocks
(`absorb_eq`). An implementation that copies and compresses several blocks at a time is compared
with it by `absorb_short` and `absorb_fill`.
-/

namespace Lib.Absorb

variable {σ α : Type}

/-- A state, and the elements that wait for their block to fill up. -/
structure Absorber (σ α : Type) where
  state : σ
  tail : List α

/-- Take one element. -/
def feed (n : Nat) (compress : σ → List α → σ) (a : Absorber σ α) (x : α) : Absorber σ α :=
  if a.tail.length + 1 < n then ⟨a.state, a.tail ++ [x]⟩
  else ⟨compress a.state (a.tail ++ [x]), []⟩

/-- Take a list of elements. -/
def absorb (n : Nat) (compress : σ → List α → σ) (a : Absorber σ α) (xs : List α) :
    Absorber σ α :=
  xs.foldl (feed n compress) a

/-- The full blocks of an input. -/
def fullBlocks (n : Nat) (xs : List α) : List (List α) :=
  (List.range (xs.length / n)).map fun i ↦ (xs.drop (n * i)).take n

variable {n : Nat} {compress : σ → List α → σ} {a : Absorber σ α}

theorem absorb_append (xs ys : List α) :
    absorb n compress a (xs ++ ys) = absorb n compress (absorb n compress a xs) ys :=
  List.foldl_append

/-- Elements that do not fill the block wait. -/
theorem absorb_short {xs : List α} (h : a.tail.length + xs.length < n) :
    absorb n compress a xs = ⟨a.state, a.tail ++ xs⟩ := by
  induction xs generalizing a with
  | nil =>
      rw [List.append_nil]
      rfl
  | cons x xs ih =>
      rw [List.length_cons] at h
      have hfeed : feed n compress a x = ⟨a.state, a.tail ++ [x]⟩ := if_pos (by omega)
      have hrest := ih (a := ⟨a.state, a.tail ++ [x]⟩) (by
        rw [List.length_append, List.length_singleton]
        omega)
      show absorb n compress (feed n compress a x) xs = _
      rw [hfeed, hrest, List.append_assoc, List.singleton_append]

/-- Elements that fill the block just so are compressed with what was waiting. -/
theorem absorb_block {xs : List α} (hne : xs ≠ []) (h : a.tail.length + xs.length = n) :
    absorb n compress a xs = ⟨compress a.state (a.tail ++ xs), []⟩ := by
  obtain ⟨ys, y, rfl⟩ : ∃ ys y, xs = ys ++ [y] :=
    ⟨xs.dropLast, xs.getLast hne, (List.dropLast_append_getLast hne).symm⟩
  rw [List.length_append, List.length_singleton] at h
  have hfull : ¬ (a.tail ++ ys).length + 1 < n := by
    rw [List.length_append]
    omega
  have hwait : absorb n compress a ys = ⟨a.state, a.tail ++ ys⟩ := absorb_short (by omega)
  rw [absorb_append, hwait]
  show feed n compress ⟨a.state, a.tail ++ ys⟩ y = _
  rw [feed, if_neg hfull, List.append_assoc]

/-- An input that fills the block is compressed up to there, and the rest of it is absorbed. -/
theorem absorb_fill {xs : List α} (ha : a.tail.length < n) (h : n ≤ a.tail.length + xs.length) :
    absorb n compress a xs =
      absorb n compress ⟨compress a.state (a.tail ++ xs.take (n - a.tail.length)), []⟩
        (xs.drop (n - a.tail.length)) := by
  have hlen : (xs.take (n - a.tail.length)).length = n - a.tail.length := by
    rw [List.length_take]
    omega
  have hne : xs.take (n - a.tail.length) ≠ [] := by
    intro hnil
    rw [hnil, List.length_nil] at hlen
    omega
  conv_lhs => rw [← List.take_append_drop (n - a.tail.length) xs]
  rw [absorb_append, absorb_block hne (by omega)]

/-- The blocks of an input that starts with a full block. -/
theorem fullBlocks_cons (hn : 0 < n) {xs : List α} (h : n ≤ xs.length) :
    fullBlocks n xs = xs.take n :: fullBlocks n (xs.drop n) := by
  have hcount : xs.length / n = (xs.drop n).length / n + 1 := by
    rw [List.length_drop, ← Nat.add_div_right _ hn, Nat.sub_add_cancel h]
  rw [fullBlocks, hcount, List.range_succ_eq_map, List.map_cons, List.map_map, fullBlocks,
    Nat.mul_zero, List.drop_zero]
  congr 1
  refine List.map_congr_left fun i _ ↦ ?_
  show (xs.drop (n * (i + 1))).take n = ((xs.drop n).drop (n * i)).take n
  rw [List.drop_drop, Nat.mul_succ, Nat.add_comm]

/-- A whole input: the full blocks are compressed one after the other, the rest waits. -/
theorem absorb_eq (hn : 0 < n) (s : σ) (xs : List α) :
    absorb n compress ⟨s, []⟩ xs =
      ⟨(fullBlocks n xs).foldl compress s, xs.drop (n * (xs.length / n))⟩ := by
  induction hlen : xs.length using Nat.strongRecOn generalizing s xs with
  | ind len ih =>
      subst hlen
      by_cases hshort : xs.length < n
      · have hzero : xs.length / n = 0 := Nat.div_eq_of_lt hshort
        rw [absorb_short (by simpa using hshort), fullBlocks, hzero]
        simp
      · have hle : n ≤ xs.length := Nat.le_of_not_lt hshort
        have hcount : xs.length / n = (xs.drop n).length / n + 1 := by
          rw [List.length_drop, ← Nat.add_div_right _ hn, Nat.sub_add_cancel hle]
        have hrest := ih (xs.drop n).length (by rw [List.length_drop]; omega)
          (compress s (xs.take n)) (xs.drop n) rfl
        rw [absorb_fill hn (by simpa using hle), fullBlocks_cons hn hle, List.foldl_cons, hcount]
        show absorb n compress ⟨compress s (xs.take n), []⟩ (xs.drop n) = _
        rw [hrest, List.drop_drop, Nat.mul_succ, Nat.add_comm]

end Lib.Absorb
