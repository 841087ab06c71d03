import Mathlib.Data.List.Basic

/-!
# Scans that stop at an element

The loop `for (;; p++) if (stop(*p)) break;` over memory. A `Pointer` is an address with the memory
from there to the end of the allocation. `seek` gives the addresses the loop reads and the pointer
it ends with, if it ends before the allocation does; `seek_append` says what these are where the
element is found.
-/

namespace Lib.Seek

variable {α : Type}

/-- An address, and the memory from there on. -/
structure Pointer (α : Type) where
  address : Nat
  memory : List α

/-- Advance the pointer to the first element that `stop` accepts. -/
def seek (stop : α → Bool) (address : Nat) : List α → List Nat × Option (Pointer α)
  | [] => ([address], none)
  | a :: memory =>
    if stop a then ([address], some ⟨address, a :: memory⟩)
    else (address :: (seek stop (address + 1) memory).1, (seek stop (address + 1) memory).2)

variable {stop : α → Bool} {address : Nat} {word : List α}

/-- The element the loop starts at is read in any case. -/
theorem address_mem_seek (memory : List α) : address ∈ (seek stop address memory).1 := by
  cases memory with
  | nil => exact List.mem_singleton_self address
  | cons a memory =>
      rw [seek]
      split
      · exact List.mem_singleton_self address
      · exact List.mem_cons_self

/-- The loop reads up to the first element that is accepted, and stops there. -/
theorem seek_append (hword : ∀ a ∈ word, stop a = false) {a : α} (ha : stop a = true)
    (rest : List α) :
    seek stop address (word ++ a :: rest) =
      (List.range' address (word.length + 1), some ⟨address + word.length, a :: rest⟩) := by
  induction word generalizing address with
  | nil =>
      rw [List.nil_append, seek, if_pos ha]
      rfl
  | cons b word ih =>
      have hb : ¬ stop b = true := by
        rw [hword b List.mem_cons_self]
        exact Bool.false_ne_true
      have hnext : address + 1 + word.length = address + (b :: word).length := by
        rw [List.length_cons]
        omega
      rw [List.cons_append, seek, if_neg hb, ih fun a ha ↦ hword a (List.mem_cons_of_mem b ha),
        hnext]
      rfl

end Lib.Seek
