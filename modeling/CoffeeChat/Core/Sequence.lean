import CoffeeChat.Core.Client
import CoffeeChat.Lib.Run
import Mathlib.Data.List.Nodup

/-!
# Concurrent calls of `getSeq`

`seq_` is atomic, and `getSeq` makes two accesses to it: `++seq_`, whose value it drops, and the
read that it returns. Callers on several threads take these steps in any order (`Callers.step`). The
numbers they get are distinct exactly when each read comes behind an increment that no other read
has seen (`always_distinct_iff`).
-/

namespace CoffeeChat

open Lib Lib.Run

/-- Where a caller is in `getSeq`. -/
inductive Position where
  | outside
  /-- Between the increment and the read. -/
  | incremented
  deriving DecidableEq

/-- A call that has returned: how many increments there had been, and the number it returned. -/
structure Returned where
  increments : Nat
  value : UInt16
  deriving DecidableEq

/-- The client, where each caller is, and a record of what has happened. -/
structure Callers (ι : Type) where
  client : Client
  position : ι → Position
  increments : Nat
  /-- The calls that have returned, oldest first. -/
  returned : List Returned

/-- `++seq_`. -/
def Client.incrementSeq (c : Client) : Client := { c with seq := c.seq + 1 }

namespace Callers

variable {ι : Type} [DecidableEq ι]

/-- Nobody has called yet. -/
def initial (ι : Type) (c : Client) : Callers ι := ⟨c, fun _ ↦ .outside, 0, []⟩

/-- The state after `++seq_` of caller `i`. -/
def increment (s : Callers ι) (i : ι) : Callers ι where
  client := s.client.incrementSeq
  position := Function.update s.position i .incremented
  increments := s.increments + 1
  returned := s.returned

/-- The state after `return seq_` of caller `i`. -/
def read (s : Callers ι) (i : ι) : Callers ι where
  client := s.client
  position := Function.update s.position i .outside
  increments := s.increments
  returned := s.returned ++ [⟨s.increments, s.client.seq⟩]

/-- The next atomic step of caller `i`. A caller that has returned calls again. -/
def step (s : Callers ι) (i : ι) : Result (Callers ι) :=
  match s.position i with
  | .outside => .ok (s.increment i)
  | .incremented => .ok (s.read i)

/-- The numbers returned while there had been fewer than 65536 increments. -/
def early (s : Callers ι) : List UInt16 :=
  (s.returned.filter (·.increments < 65536)).map (·.value)

/-- No two of them are the same. -/
def Distinct (s : Callers ι) : Prop := s.early.Nodup

/-- No call has returned since the last increment. -/
def Unread (s : Callers ι) : Prop := ∀ r ∈ s.returned, r.increments ≠ s.increments

/-- If the step of caller `i` is one of the early reads, the last increment is unread. -/
def InTurn (s : Callers ι) (i : ι) : Prop :=
  s.position i = .incremented → s.increments < 65536 → s.Unread

theorem step_outside {s : Callers ι} {i : ι} (h : s.position i = .outside) :
    s.step i = .ok (s.increment i) := by
  rw [step, h]

theorem step_incremented {s : Callers ι} {i : ι} (h : s.position i = .incremented) :
    s.step i = .ok (s.read i) := by
  rw [step, h]

/-- Two steps of one caller without a step of another in between are the sequential `getSeq`. -/
theorem getSeq_alone {s : Callers ι} {i : ι} (h : s.position i = .outside) :
    exec step s [i, i] = .ok { s with
      client := s.client.getSeq.2
      increments := s.increments + 1
      returned := s.returned ++ [⟨s.increments + 1, s.client.getSeq.1⟩] } := by
  have hbetween : (s.increment i).position i = .incremented := Function.update_self ..
  have hback : ((s.increment i).read i).position = s.position := by
    show Function.update (Function.update s.position i .incremented) i .outside = _
    rw [Function.update_idem, ← h, Function.update_eq_self]
  rw [exec, step_outside h]
  show exec step (s.increment i) [i] = _
  rw [exec, step_incremented hbetween, ← hback]
  rfl

/-! ## Distinct numbers -/

/-- The counter counts, and each number returned is what it had counted by then. -/
structure Numbered (first : UInt16) (s : Callers ι) : Prop where
  seq : s.client.seq = first + UInt16.ofNat s.increments
  returned : ∀ r ∈ s.returned,
    r.increments ≤ s.increments ∧ r.value = first + UInt16.ofNat r.increments

theorem Numbered.step {first : UInt16} {s s' : Callers ι} {i : ι} (h : Numbered first s)
    (hstep : s.step i = .ok s') : Numbered first s' := by
  cases hposition : s.position i with
  | outside =>
      cases (step_outside hposition).symm.trans hstep
      refine ⟨?_, fun r hr ↦ ⟨Nat.le_succ_of_le (h.returned r hr).1, (h.returned r hr).2⟩⟩
      show s.client.seq + 1 = first + UInt16.ofNat (s.increments + 1)
      rw [h.seq, UInt16.ofNat_add, ← UInt16.add_assoc]
      rfl
  | incremented =>
      cases (step_incremented hposition).symm.trans hstep
      refine ⟨h.seq, fun r hr ↦ ?_⟩
      rcases List.mem_append.mp hr with hr | hr
      · exact h.returned r hr
      · cases List.mem_singleton.mp hr
        exact ⟨Nat.le_refl _, h.seq⟩

/-- Below 65536 increments, different counts are different numbers. -/
theorem offset_inj {first : UInt16} {a b : Nat} (ha : a < 65536) (hb : b < 65536) :
    first + UInt16.ofNat a = first + UInt16.ofNat b ↔ a = b := by
  constructor
  · intro h
    have hnat := congrArg UInt16.toNat h
    rw [UInt16.toNat_add, UInt16.toNat_add, UInt16.toNat_ofNat', UInt16.toNat_ofNat'] at hnat
    omega
  · intro h
    rw [h]

omit [DecidableEq ι] in
/-- The number about to be returned is new exactly when the last increment is unread. -/
theorem Numbered.notMem_early {first : UInt16} {s : Callers ι} (h : Numbered first s)
    (hfew : s.increments < 65536) : s.client.seq ∉ s.early ↔ s.Unread := by
  constructor
  · intro hnew r hr heq
    refine hnew (List.mem_map.mpr ⟨r, ?_, ?_⟩)
    · rw [List.mem_filter, heq]
      exact ⟨hr, decide_eq_true hfew⟩
    · rw [(h.returned r hr).2, heq, h.seq]
  · intro hunread hmem
    obtain ⟨r, hr, hvalue⟩ := List.mem_map.mp hmem
    obtain ⟨hr, _⟩ := List.mem_filter.mp hr
    obtain ⟨hle, hr'⟩ := h.returned r hr
    rw [hr', h.seq, offset_inj (by omega) hfew] at hvalue
    exact hunread r hr hvalue

/-- A step keeps the numbers distinct exactly when it is in turn. -/
theorem Numbered.distinct_step {first : UInt16} {s s' : Callers ι} {i : ι} (h : Numbered first s)
    (hdistinct : s.Distinct) (hstep : s.step i = .ok s') : s'.Distinct ↔ s.InTurn i := by
  cases hposition : s.position i with
  | outside =>
      cases (step_outside hposition).symm.trans hstep
      refine iff_of_true hdistinct ?_
      intro hbetween
      cases hposition.symm.trans hbetween
  | incremented =>
      cases (step_incremented hposition).symm.trans hstep
      by_cases hfew : s.increments < 65536
      · have hearly : (s.read i).early = s.early ++ [s.client.seq] := by
          show ((s.returned ++ [_]).filter _).map _ = _
          rw [List.filter_append, List.map_append, List.filter_singleton, decide_eq_true hfew]
          rfl
        have hnodup : (s.read i).Distinct ↔ s.client.seq ∉ s.early := by
          rw [Distinct, hearly, List.nodup_middle, List.append_nil, List.nodup_cons]
          exact and_iff_left hdistinct
        rw [hnodup, h.notMem_early hfew]
        exact ⟨fun hunread _ _ ↦ hunread, fun hturn ↦ hturn hposition hfew⟩
      · have hearly : (s.read i).early = s.early := by
          show ((s.returned ++ [_]).filter _).map _ = _
          rw [List.filter_append, List.map_append, List.filter_singleton, decide_eq_false hfew]
          exact List.append_nil _
        have hsame : (s.read i).Distinct := by
          rw [Distinct, hearly]
          exact hdistinct
        exact iff_of_true hsame fun _ hless ↦ absurd hless hfew

omit [DecidableEq ι] in
theorem numbered_initial (c : Client) : Numbered c.seq (initial ι c) where
  seq := (UInt16.add_zero c.seq).symm
  returned := fun _ hr ↦ absurd hr List.not_mem_nil

/-- In every interleaving of any number of callers, the numbers returned early are always distinct
exactly when every read of the run is in turn. -/
theorem always_distinct_iff (c : Client) (schedule : List ι) :
    Always Distinct step (initial ι c) schedule ↔ Along InTurn step (initial ι c) schedule :=
  always_iff_along (Numbered c.seq) (numbered_initial c) List.nodup_nil
    (fun _ _ _ h hstep ↦ h.step hstep)
    (fun _ _ _ h hdistinct hstep ↦ h.distinct_step hdistinct hstep)

/-- Two callers of a new client increment, and then both read the second number. -/
theorem not_distinct_pair : ∃ kit s, ChatKit.init = .ok kit ∧
    exec step (initial Bool kit.client) [true, false, true, false] = .ok s ∧
    s.increments = 2 ∧ s.early = [2, 2] ∧ ¬ s.Distinct := by
  refine ⟨_, _, rfl, rfl, rfl, rfl, ?_⟩
  show ¬ ([2, 2] : List UInt16).Nodup
  decide

end Callers

end CoffeeChat
