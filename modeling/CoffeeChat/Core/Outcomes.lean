import CoffeeChat.Core.SessionLemmas
import Mathlib.Data.List.Induction

/-!
# The outcomes of a login attempt

`outcomes` counts, over the past of a session, the callbacks that reported how the latest
`login()` ended: the login callback and the timeout callback. A step adds at most one of them,
and it adds one exactly when it `Answers`: it handles a response, loses the connection of a
pending login, or is a tick past the deadline of a pending login. So each attempt has at most one
outcome exactly in the runs in which no such step follows an outcome of the same attempt
(`always_atMostOne_iff`).
-/

namespace CoffeeChat

open Lib

/-- The callback told the application how a login attempt ended. -/
def Mark.IsOutcome : Mark → Prop
  | .notice (.loginCb _ _) => True
  | .notice (.loginTimeoutCb _) => True
  | _ => False

instance (m : Mark) : Decidable m.IsOutcome := by
  unfold Mark.IsOutcome
  split <;> infer_instance

/-- One more mark. -/
def countOutcome (n : Option Nat) (m : Mark) : Option Nat :=
  if m = .login then some 0 else if m.IsOutcome then n.map (· + 1) else n

/-- The outcomes reported since the latest `login()`, if there was one. -/
def outcomes (past : List Mark) : Option Nat := past.foldl countOutcome none

/-- At no moment had a `login()` led to more than one outcome. -/
def AtMostOne (past : List Mark) : Prop :=
  ∀ before, before <+: past → ∀ n, outcomes before = some n → n ≤ 1

/-! ## Counting -/

theorem outcomes_concat (past : List Mark) (m : Mark) :
    outcomes (past ++ [m]) = countOutcome (outcomes past) m := by
  simp [outcomes]

theorem AtMostOne.outcomes_le {past : List Mark} (h : AtMostOne past) {n : Nat}
    (hn : outcomes past = some n) : n ≤ 1 :=
  h past (List.prefix_refl past) n hn

theorem atMostOne_concat {past : List Mark} {m : Mark} : AtMostOne (past ++ [m]) ↔
    AtMostOne past ∧ ∀ n, outcomes (past ++ [m]) = some n → n ≤ 1 := by
  constructor
  · intro h
    refine ⟨fun before hbefore ↦ h before ?_, fun n hn ↦ h.outcomes_le hn⟩
    exact hbefore.trans (List.prefix_append past [m])
  · rintro ⟨hpast, hlast⟩ before hbefore n hn
    rcases List.prefix_concat_iff.mp hbefore with rfl | hbefore
    · exact hlast n hn
    · exact hpast before hbefore n hn

/-- Marks that report no outcome do not matter. -/
theorem atMostOne_append {past ms : List Mark} (h : ∀ m ∈ ms, ¬ m.IsOutcome) :
    AtMostOne (past ++ ms) ↔ AtMostOne past := by
  induction ms using List.reverseRecOn with
  | nil => rw [List.append_nil]
  | append_singleton ms m ih =>
      have hms := ih fun m hm ↦ h m (List.mem_append_left _ hm)
      have hm : ¬ m.IsOutcome := h m (by simp)
      rw [← List.append_assoc, atMostOne_concat, hms]
      refine and_iff_left_of_imp ?_
      intro hpast n hn
      rw [outcomes_concat, countOutcome, if_neg hm] at hn
      split at hn
      · cases hn
        exact Nat.zero_le 1
      · exact (hms.mpr hpast).outcomes_le hn

/-- Marks that are neither a login nor an outcome leave the count alone. -/
theorem outcomes_append {past ms : List Mark} (h : ∀ m ∈ ms, m ≠ .login ∧ ¬ m.IsOutcome) :
    outcomes (past ++ ms) = outcomes past := by
  induction ms using List.reverseRecOn with
  | nil => rw [List.append_nil]
  | append_singleton ms m ih =>
      obtain ⟨hlogin, hm⟩ := h m (by simp)
      rw [← List.append_assoc, outcomes_concat, countOutcome, if_neg hlogin, if_neg hm]
      exact ih fun m hm ↦ h m (List.mem_append_left _ hm)

/-- An outcome of the latest attempt has been reported. -/
def Reported (past : List Mark) : Prop := ∃ n, outcomes past = some n ∧ 0 < n

/-- One more outcome is one too many exactly when one was reported. -/
theorem atMostOne_outcome {past before after : List Mark} {m : Mark} (hm : m.IsOutcome)
    (hbefore : ∀ m ∈ before, m ≠ .login ∧ ¬ m.IsOutcome) (hafter : ∀ m ∈ after, ¬ m.IsOutcome) :
    AtMostOne (past ++ (before ++ m :: after)) ↔ AtMostOne past ∧ ¬ Reported past := by
  have hsplit : past ++ (before ++ m :: after) = past ++ before ++ [m] ++ after := by simp
  have hlogin : m ≠ .login := by
    rintro rfl
    exact hm
  rw [hsplit, atMostOne_append hafter, atMostOne_concat,
    atMostOne_append fun m hm ↦ (hbefore m hm).2, outcomes_concat, outcomes_append hbefore,
    countOutcome, if_neg hlogin, if_pos hm]
  refine and_congr_right ?_
  intro _
  cases hcount : outcomes past with
  | none => simp [Reported, hcount]
  | some n => simp [Reported, hcount]

namespace Session

/-! ## Steps -/

/-- The step reports how a login attempt ended: a response while there is a login callback, a
connection that is not up while a login is pending, or a tick that finds the login overdue. -/
def Answers (s : Session) (input : Host × Event) : Prop :=
  match input.2 with
  | .call _ => False
  | .connection _ status =>
    status ≠ .kConnectOk ∧ s.client.loginStatus = .kLogining ∧ s.client.loginCb.isSome
  | .authRsp unread =>
    (input.1.authRsp.parseFromArray unread.contents).isSome ∧ s.client.loginCb.isSome
  | .tick =>
    s.client.loginStatus = .kLogining ∧
      input.1.now - s.lastLoginTime > loginTimeout input.1.config ∧ s.loginTimeoutCb.isSome

theorem not_isOutcome_marks {calls : List ApiCall} :
    ∀ m ∈ calls.flatMap ApiCall.marks, ¬ m.IsOutcome := by
  intro m hm
  obtain ⟨call, _, hm⟩ := List.mem_flatMap.mp hm
  have hcases : m = .login ∨ m = .logout := by
    cases call <;> simp [ApiCall.marks] at hm <;> tauto
  rcases hcases with rfl | rfl <;> simp [Mark.IsOutcome]

theorem not_isOutcome_statusNotice {host : Host} {s : Session} {conn : Nat}
    {status : ConnectionStatus} :
    ∀ m ∈ noticeMarks host (s.statusNotice conn status), ¬ m.IsOutcome := by
  intro m hm
  cases hcb : s.connectionCb with
  | none => simp [statusNotice, hcb, noticeMarks] at hm
  | some id =>
      simp only [statusNotice, hcb, Option.map_some, noticeMarks] at hm
      rcases List.mem_cons.mp hm with rfl | hm
      · simp [Mark.IsOutcome]
      · exact not_isOutcome_marks m hm

/-- What a step adds to the past: one outcome when it answers, otherwise none. -/
inductive Adds (s : Session) (input : Host × Event) : List Mark → Prop where
  | silent {ms} : ¬ Answers s input → (∀ m ∈ ms, ¬ m.IsOutcome) → Adds s input ms
  | outcome {before m after} : Answers s input → (∀ m ∈ before, m ≠ .login ∧ ¬ m.IsOutcome) →
      m.IsOutcome → (∀ m ∈ after, ¬ m.IsOutcome) → Adds s input (before ++ m :: after)

/-- A callback that reports an outcome, among marks that report none. -/
theorem Adds.of_notice (s : Session) (input : Host × Event) (before rest : List Mark)
    (n : Option Notice) (hiff : Answers s input ↔ n.isSome)
    (hn : ∀ m, n = some m → (Mark.notice m).IsOutcome)
    (hbefore : ∀ m ∈ before, m ≠ .login ∧ ¬ m.IsOutcome) (hrest : ∀ m ∈ rest, ¬ m.IsOutcome) :
    Adds s input (before ++ (noticeMarks input.1 n ++ rest)) := by
  cases n with
  | none =>
      refine .silent (fun h ↦ by simpa using hiff.mp h) ?_
      intro m hm
      rcases List.mem_append.mp hm with hm | hm
      · exact (hbefore m hm).2
      · exact hrest m hm
  | some n =>
      refine .outcome (hiff.mpr rfl) hbefore (hn n rfl) ?_
      intro m hm
      rcases List.mem_append.mp hm with hm | hm
      · exact not_isOutcome_marks m hm
      · exact hrest m hm

theorem step_adds {s s' : Session} {input : Host × Event}
    (hout : s.client.loginStatus ≠ .kLoginOk) (h : s.step input = .ok s') :
    ∃ ms, s'.past = s.past ++ ms ∧ Adds s input ms := by
  obtain ⟨host, event⟩ := input
  cases event with
  | call call =>
      refine ⟨_, step_call_past hout h, .silent (fun h ↦ h) fun m hm ↦ ?_⟩
      refine not_isOutcome_marks m (?_ : m ∈ [call].flatMap ApiCall.marks)
      simpa using hm
  | connection conn status =>
      by_cases hstatus : status = .kConnectOk
      · subst hstatus
        exact ⟨_, step_connection_up_past hout h, .silent (fun h ↦ h.1 rfl)
          not_isOutcome_statusNotice⟩
      · obtain ⟨s1, hpast⟩ := step_connection_lost_past hout hstatus h
        refine ⟨_, hpast, ?_⟩
        simp only [List.append_assoc]
        refine Adds.of_notice s (host, .connection conn status) _ _ _ ?_ ?_ ?_ ?_
        · simp only [Answers, lostNotice]
          split <;> simp_all
        · intro m hm
          unfold lostNotice at hm
          split at hm
          · obtain ⟨id, _, rfl⟩ := Option.map_eq_some_iff.mp hm
            trivial
          · cases hm
        · simp [Mark.IsOutcome]
        · intro m hm
          rcases List.mem_append.mp hm with hm | hm
          · rw [List.mem_singleton.mp hm]
            exact id
          · exact not_isOutcome_statusNotice m hm
  | authRsp unread =>
      refine ⟨_, step_authRsp_past hout h, ?_⟩
      cases hparse : host.authRsp.parseFromArray unread.contents with
      | none => exact .silent (fun h ↦ by simp [Answers, hparse] at h) (by simp)
      | some rsp =>
          have hbefore : ∀ m ∈ Mark.authRsp rsp ::
              (if rsp.resultCode ≠ kCIM_ERR_SUCCESS then [Mark.logout] else []),
              m ≠ .login ∧ ¬ m.IsOutcome := by
            split <;> simp [Mark.IsOutcome]
          have hadds := Adds.of_notice s (host, .authRsp unread) _ [] (s.rspNotice rsp)
            (by simp [Answers, hparse, rspNotice]) (fun m hm ↦ ?_) hbefore (by simp)
          · simpa using hadds
          · obtain ⟨id, _, rfl⟩ := Option.map_eq_some_iff.mp hm
            trivial
  | tick =>
      refine ⟨_, step_tick_past hout h, ?_⟩
      have hadds := Adds.of_notice s (host, .tick) [] [] (s.timeoutNotice host) ?_
        (fun m hm ↦ ?_) (by simp) (by simp)
      · simpa using hadds
      · simp only [Answers, timeoutNotice]
        split <;> simp_all
      · unfold timeoutNotice at hm
        split at hm
        · obtain ⟨id, _, rfl⟩ := Option.map_eq_some_iff.mp hm
          trivial
        · cases hm

/-- One step: attempts with at most one outcome stay so exactly when the step does not report
one again. -/
theorem atMostOne_step {s s' : Session} {input : Host × Event}
    (hout : s.client.loginStatus ≠ .kLoginOk) (hone : AtMostOne s.past)
    (h : s.step input = .ok s') :
    AtMostOne s'.past ↔ ¬ (Reported s.past ∧ Answers s input) := by
  obtain ⟨ms, hpast, hadds⟩ := step_adds hout h
  rw [hpast]
  cases hadds with
  | silent hanswers hms =>
      exact iff_of_true ((atMostOne_append hms).mpr hone) fun h ↦ hanswers h.2
  | outcome hanswers hbefore hm hafter =>
      rw [atMostOne_outcome hm hbefore hafter]
      exact ⟨fun h hboth ↦ h.2 hboth.1, fun h ↦ ⟨hone, fun hrep ↦ h ⟨hrep, hanswers⟩⟩⟩

/-- From the constructors on, every login attempt has at most one outcome exactly in the runs in
which no step reports one after an outcome of the same attempt. -/
theorem always_atMostOne_iff (inputs : List (Host × Event)) : ∃ start, init = .ok start ∧
    (Run.Always (fun s ↦ AtMostOne s.past) step start inputs ↔
      Run.Along (fun s input ↦ ¬ (Reported s.past ∧ Answers s input)) step start inputs) := by
  refine ⟨fresh, init_eq, ?_⟩
  refine Run.always_iff_along (fun s ↦ s.client.loginStatus ≠ .kLoginOk) (by decide) ?_
    (fun s x s' hout hs ↦ step_loginStatus hout hs)
    (fun s x s' hout hone hs ↦ atMostOne_step hout hone hs)
  intro before hbefore n hn
  obtain rfl : before = [] := List.prefix_nil.mp hbefore
  cases hn

/-- A login that is never answered, and two ticks past its deadline. -/
def overdueRun : List (Host × Event) :=
  [(.plain 0, .call (.login (.plain 0 true))), (.plain 10001, .tick), (.plain 10002, .tick)]

/-- The timeout is reported again at the second tick. -/
theorem not_always_atMostOne : ¬ ∀ inputs : List (Host × Event),
    inputs.Pairwise (fun i j ↦ i.1.now ≤ j.1.now) →
      Run.Always (fun s ↦ AtMostOne s.past) step fresh inputs := by
  intro h
  have hclock : overdueRun.Pairwise (fun i j ↦ i.1.now ≤ j.1.now) := by
    simp [overdueRun, Host.plain]
  obtain ⟨final, hrun, hpast⟩ := Run.exec_of_view step (·.past) fresh overdueRun
    (v := [.logout, .login, .notice (.loginTimeoutCb 2), .notice (.loginTimeoutCb 2)])
    (by decide +kernel)
  have hone := (h overdueRun hclock).last hrun
  have htwo : outcomes final.past = some 2 := by
    rw [hpast]
    decide
  exact absurd (hone.outcomes_le htwo) (by decide)

end Session

end CoffeeChat
