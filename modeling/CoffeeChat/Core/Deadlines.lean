import CoffeeChat.Core.KeepAlive

/-!
# Deadlines

The configuration gives its timeouts in milliseconds, and `onTimer` compares their lower 16 bits
with a number of seconds. `inStep_iff` says for which readings of the clock that comes out as meant
(`InStep`), and `timer_exact` what it means for the two checks.
-/

namespace CoffeeChat

open Lib

/-! ## Comparing -/

/-- More than `timeout` milliseconds have passed between two readings of a clock in seconds. -/
def Due (now last : UInt64) (timeout : UInt32) : Prop :=
  last.toNat ≤ now.toNat ∧ timeout.toNat < (now.toNat - last.toNat) * 1000

/-- The comparison of `onTimer`. -/
def Fires (now last : UInt64) (timeout : UInt32) : Prop :=
  now - last > timeout.toUInt16.toUInt64

/-- The seconds that have passed exceed both the timeout in seconds and the lower 16 bits of the
timeout, or neither. Where the clock was set back, the difference modulo 2 ^ 64 does not exceed
these bits. -/
def InStep (now last : UInt64) (timeout : UInt32) : Prop :=
  if last.toNat ≤ now.toNat then
    now.toNat - last.toNat ≤ min (timeout.toNat / 1000) (timeout.toNat % 2 ^ 16) ∨
      max (timeout.toNat / 1000) (timeout.toNat % 2 ^ 16) < now.toNat - last.toNat
  else 2 ^ 64 - (last.toNat - now.toNat) ≤ timeout.toNat % 2 ^ 16

theorem fires_iff (now last : UInt64) (timeout : UInt32) :
    Fires now last timeout ↔
      timeout.toNat % 2 ^ 16 < (2 ^ 64 - last.toNat + now.toNat) % 2 ^ 64 := by
  rw [Fires, gt_iff_lt, UInt64.lt_iff_toNat_lt, UInt64.toNat_sub, UInt16.toNat_toUInt64,
    UInt32.toNat_toUInt16]

/-- The code compares as it is meant to exactly when the readings are in step with the timeout. -/
theorem inStep_iff (now last : UInt64) (timeout : UInt32) :
    (Fires now last timeout ↔ Due now last timeout) ↔ InStep now last timeout := by
  have hnow := now.toNat_lt
  have hlast := last.toNat_lt
  rw [fires_iff, Due, InStep]
  generalize now.toNat = now at hnow ⊢
  generalize last.toNat = last at hlast ⊢
  by_cases hle : last ≤ now
  · have hpassed : (2 ^ 64 - last + now) % 2 ^ 64 = now - last := by omega
    rw [hpassed, if_pos hle]
    omega
  · have hback : (2 ^ 64 - last + now) % 2 ^ 64 = 2 ^ 64 - (last - now) := by omega
    rw [hback, if_neg hle]
    omega

namespace Session

/-! ## The checks of the timer -/

/-- `onTimer` calls `login_timeout_cb_` before all else: whatever it returns with has that in its
past. It does not return when the callback itself stops the process. -/
def TimesOut (host : Host) (s : Session) : Prop :=
  ∀ s', s.onTimer host = .ok s' →
    ∃ id rest, s'.past = s.past ++ .notice (.loginTimeoutCb id) :: rest

/-- `onTimer` calls `logout` before all else. -/
def LogsOut (host : Host) (s : Session) : Prop :=
  ∀ s', s.onTimer host = .ok s' → ∃ rest, s'.past = s.past ++ .logout :: rest

theorem past_ne_cons (s : Session) (m : Mark) (rest : List Mark) :
    s.past ≠ s.past ++ m :: rest := by
  intro h
  have hlength := congrArg List.length h
  rw [List.length_append, List.length_cons] at hlength
  omega

/-- While a login is in progress, the callback is called when the comparison says so. -/
theorem timesOut_iff {host : Host} {s : Session} {id : CallbackId}
    (hlogining : s.client.loginStatus = .kLogining) (hcb : s.loginTimeoutCb = some id) :
    TimesOut host s ↔ Fires host.now s.lastLoginTime host.config.loginTimeOut := by
  have hout : s.client.loginStatus ≠ .kLoginOk := by
    rw [hlogining]
    decide
  by_cases hfires : Fires host.now s.lastLoginTime host.config.loginTimeOut
  · have hnotice : s.timeoutNotice host = some (.loginTimeoutCb id) := by
      rw [timeoutNotice, if_pos ⟨hlogining, hfires⟩, hcb]
      rfl
    refine iff_of_true (fun s' h ↦ ?_) hfires
    have hpast := notify_past hout (onTimer_eq hout h)
    rw [hnotice] at hpast
    exact ⟨id, _, hpast⟩
  · have hnotice : s.timeoutNotice host = none := if_neg fun h ↦ hfires h.2
    have htick : s.onTimer host = .ok s := by
      rw [onTimer_bind, hnotice]
      exact if_neg fun h ↦ hout h.1
    refine iff_of_false (fun h ↦ ?_) hfires
    obtain ⟨_, rest, hpast⟩ := h s htick
    exact past_ne_cons s _ rest hpast

/-- While the session is logged in, it is logged out when the comparison says so. -/
theorem logsOut_iff {host : Host} {s : Session} (hin : s.client.loginStatus = .kLoginOk) :
    LogsOut host s ↔ Fires host.now s.lastRecvTime host.config.keepAliveTimeOut := by
  by_cases hfires : Fires host.now s.lastRecvTime host.config.keepAliveTimeOut
  · refine iff_of_true (fun s' h ↦ ?_) hfires
    have hlate : host.now - s.lastRecvTime > keepAliveTimeout host.config := hfires
    rw [onTimer_loggedIn host hin, if_pos hlate] at h
    obtain ⟨s₂, hlogout, h⟩ := bind_eq_ok.mp h
    obtain ⟨client, hclient, hlogout⟩ := bind_eq_ok.mp hlogout
    cases hlogout
    have hout : client.loginStatus ≠ .kLoginOk := by
      rw [logout_loginStatus hclient]
      decide
    have hpast := notify_past (s := (s.withClient client).mark .logout) hout h
    rw [past_mark, List.append_assoc] at hpast
    exact ⟨_, hpast⟩
  · have htick : s.onTimer host = .ok s := by
      rw [onTimer_loggedIn host hin]
      exact if_neg hfires
    refine iff_of_false (fun h ↦ ?_) hfires
    obtain ⟨rest, hpast⟩ := h s htick
    exact past_ne_cons s _ rest hpast

/-- A check does what it is meant to exactly when the readings of the clock are in step with its
timeout. -/
theorem timer_exact (host : Host) (s : Session) :
    (∀ id, s.client.loginStatus = .kLogining → s.loginTimeoutCb = some id →
      ((TimesOut host s ↔ Due host.now s.lastLoginTime host.config.loginTimeOut) ↔
        InStep host.now s.lastLoginTime host.config.loginTimeOut)) ∧
    (s.client.loginStatus = .kLoginOk →
      ((LogsOut host s ↔ Due host.now s.lastRecvTime host.config.keepAliveTimeOut) ↔
        InStep host.now s.lastRecvTime host.config.keepAliveTimeOut)) := by
  refine ⟨fun id hlogining hcb ↦ ?_, fun hin ↦ ?_⟩
  · rw [timesOut_iff hlogining hcb]
    exact inStep_iff _ _ _
  · rw [logsOut_iff hin]
    exact inStep_iff _ _ _

/-- A login in progress since the clock read zero. -/
def loginInProgress : Session := fresh.loggedIn (.plain 0 true) []

theorem timer_exact_plain :
    ((TimesOut (.plain 5) loginInProgress ↔ Due 5 0 10000) ↔ InStep 5 0 10000) ∧
    ((LogsOut (.plain 95) loggedInSession ↔ Due 95 0 90000) ↔ InStep 95 0 90000) :=
  ⟨(timer_exact (.plain 5) loginInProgress).1 2 rfl rfl,
    (timer_exact (.plain 95) loggedInSession).2 rfl⟩

/-- After eleven seconds, the default ten have passed, and the callback is not called. -/
theorem not_timer_exact_plain :
    Due 11 0 10000 ∧ ¬ TimesOut (.plain 11) loginInProgress := by
  refine ⟨⟨by decide, by decide⟩, ?_⟩
  have hcb : loginInProgress.loginTimeoutCb = some 2 := rfl
  rw [timesOut_iff rfl hcb]
  show ¬ (11 : UInt64) - 0 > (10000 : UInt32).toUInt16.toUInt64
  decide

end Session

end CoffeeChat
