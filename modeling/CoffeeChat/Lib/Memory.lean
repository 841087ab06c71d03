import Mathlib.Data.List.Basic

/-!
# Programs that may stop early, over checked byte memory

A C++ statement either completes or does not: an `assert` fails, a pointer is dereferenced
outside its allocation or is null, or a loop has not ended when its fuel has. `Result` is the type
of such statements and `Returns` their total-correctness judgement: `Returns r post` says `r`
completes with a value that satisfies `post`. The rule `Returns.bind` follows the shape of a `do`
block, so the specification of a sequence is assembled from those of its steps.

`load` and `store` are `memcpy` out of and into one allocation, with the bounds checked.
-/

namespace Lib

/-- Why a statement does not complete. -/
inductive Fault where
  /-- An `assert` whose condition is false. -/
  | assertFailed
  /-- An access outside the allocation the pointer points into. -/
  | outOfBounds
  /-- A member access through a null pointer. -/
  | nullPointer
  /-- A loop that has not ended within its fuel. -/
  | notTerminated
  deriving DecidableEq, Repr

/-- The outcome of a statement: a value, or the fault that stopped the process. -/
abbrev Result := Except Fault

variable {α β : Type}

/-- `assert(cond)`. -/
def check (cond : Prop) [Decidable cond] : Result Unit :=
  if cond then .ok () else .error .assertFailed

/-- `Returns r post` says that `r` completes, with a value that satisfies `post`. -/
def Returns (r : Result α) (post : α → Prop) : Prop :=
  ∃ a, r = .ok a ∧ post a

namespace Returns

/-- A value on its own completes. -/
theorem ok {a : α} {post : α → Prop} (h : post a) : Returns (.ok a) post :=
  ⟨a, rfl, h⟩

/-- The sequence rule: what the first statement establishes is what the second may assume. -/
theorem bind {r : Result α} {f : α → Result β} {mid : α → Prop} {post : β → Prop}
    (hr : Returns r mid) (hf : ∀ a, mid a → Returns (f a) post) :
    Returns (r >>= f) post := by
  obtain ⟨a, rfl, ha⟩ := hr
  exact hf a ha

/-- A postcondition may be weakened. -/
theorem mono {r : Result α} {post post' : α → Prop} (h : Returns r post)
    (himp : ∀ a, post a → post' a) : Returns r post' := by
  obtain ⟨a, ha, hpost⟩ := h
  exact ⟨a, ha, himp a hpost⟩

/-- A statement has one outcome: what it is known to return satisfies every postcondition. -/
theorem of_eq {r : Result α} {post : α → Prop} {a : α} (h : Returns r post)
    (hr : r = .ok a) : post a := by
  obtain ⟨a', ha', hpost⟩ := h
  cases ha'.symm.trans hr
  exact hpost

end Returns

/-- A sequence completes when its first statement does and the rest completes behind it. -/
theorem bind_eq_ok {ε : Type} {r : Except ε α} {f : α → Except ε β} {b : β} :
    r >>= f = .ok b ↔ ∃ a, r = .ok a ∧ f a = .ok b := by
  cases r with
  | error fault => simp [bind, Except.bind]
  | ok a => simp [bind, Except.bind]

/-- An assertion lets pass what holds. -/
theorem check_eq_ok {cond : Prop} [Decidable cond] {u : Unit} : check cond = .ok u ↔ cond := by
  unfold check
  split
  case isTrue h => exact iff_of_true rfl h
  case isFalse h => exact iff_of_false (fun heq ↦ by cases heq) h

/-! ## One allocation -/

/-- `load mem pos n` reads the `n` elements of the allocation `mem` that start at `pos`. -/
def load (mem : List α) (pos n : Nat) : Result (List α) :=
  if pos + n ≤ mem.length then .ok ((mem.drop pos).take n) else .error .outOfBounds

/-- `store mem pos xs` overwrites the elements of `mem` from `pos` on with `xs`. -/
def store (mem : List α) (pos : Nat) (xs : List α) : Result (List α) :=
  if pos + xs.length ≤ mem.length then
    .ok (mem.take pos ++ xs ++ mem.drop (pos + xs.length))
  else .error .outOfBounds

/-- A load inside the allocation returns the elements there. -/
theorem load_eq {mem : List α} {pos n : Nat} (h : pos + n ≤ mem.length) :
    load mem pos n = .ok ((mem.drop pos).take n) := by
  simp [load, h]

/-- A store inside the allocation returns the overwritten allocation. -/
theorem store_eq {mem xs : List α} {pos : Nat} (h : pos + xs.length ≤ mem.length) :
    store mem pos xs = .ok (mem.take pos ++ xs ++ mem.drop (pos + xs.length)) := by
  simp [store, h]

/-- A store does not change the size of the allocation. -/
theorem length_overwrite {mem xs : List α} {pos : Nat} (h : pos + xs.length ≤ mem.length) :
    (mem.take pos ++ xs ++ mem.drop (pos + xs.length)).length = mem.length := by
  simp only [List.length_append, List.length_take, List.length_drop]
  omega

/-- A range that ends where the store ends reads as its old part followed by what was written. -/
theorem slice_overwrite (mem xs : List α) {start pos : Nat} (hs : start ≤ pos)
    (h : pos + xs.length ≤ mem.length) :
    ((mem.take pos ++ xs ++ mem.drop (pos + xs.length)).drop start).take
        (pos + xs.length - start) =
      (mem.drop start).take (pos - start) ++ xs := by
  have hlen : (mem.take pos).length = pos := by simp; omega
  have hdrop : (mem.take pos ++ xs).length = pos + xs.length := by simp; omega
  rw [List.drop_append_of_le_length (by simp; omega),
    List.drop_append_of_le_length (by omega), List.drop_take]
  have htake : (((mem.drop start).take (pos - start)) ++ xs).length = pos + xs.length - start := by
    simp only [List.length_append, List.length_take, List.length_drop]
    omega
  rw [← htake, List.take_left]

end Lib
