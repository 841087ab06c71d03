import CoffeeChat.Core.SessionLemmas

/-!
# The keep-alive check

`onTimer` logs a session out when `last_recv_time_` lies too far back, and `onMessage` is where
that time would be recorded. It never is: no step of the receive path or of the timer writes it
(`step_lastRecvTime`), so a tick measures the time since the run began, whatever has been
received. `neverDropped_iff` says when that does no harm.
-/

namespace CoffeeChat

open Lib

/-! ## `onMessage` on the whole session -/

/-- What lies outside the code while a chunk is received. The callbacks run may log in or out;
`others` is what that leaves of the members that are not in `ChatKit`. No public call writes
`last_recv_time_` (`runCalls_lastRecvTime`). -/
structure Receiver where
  env : Env
  others : List Call → Session → Session
  others_lastRecvTime : ∀ calls s, (others calls s).lastRecvTime = s.lastRecvTime

namespace Session

/-- `Client::onMessage(conn, buf, len)`, which itself sets no member outside `ChatKit`. -/
def onMessage (r : Receiver) (chunk : Chunk) (s : Session) : Result Session :=
  let received := Client.onMessage r.env s.kit chunk
  match received.outcome with
  | .left kit => .ok { r.others received.calls s with kit }
  | .failed fault => .error fault
  | .running _ => .error .notTerminated

/-! ## Nothing writes `last_recv_time_` -/

theorem logout_lastRecvTime {env : Env} {s s' : Session} (h : s.logout env = .ok s') :
    s'.lastRecvTime = s.lastRecvTime := by
  obtain ⟨client, _, h⟩ := bind_eq_ok.mp h
  cases h
  rfl

end Session

theorem ApiCall.run_lastRecvTime {env : Env} {call : ApiCall} {s s' : Session}
    (h : call.run env s = .ok s') : s'.lastRecvTime = s.lastRecvTime := by
  cases call with
  | login args =>
      obtain ⟨s1, hs1, h⟩ := bind_eq_ok.mp h
      obtain ⟨md5, _, h⟩ := bind_eq_ok.mp h
      rw [← Session.logout_lastRecvTime hs1]
      cases htcp : s1.client.tcpClient <;> simp only [htcp] at h <;> cases h <;> rfl
  | logout => exact Session.logout_lastRecvTime h
  | setConnectionCallback cb =>
      cases h
      rfl
  | setRecvMsgCallback cb =>
      cases h
      rfl
  | connStatus | sendData | send | sendMessage =>
      obtain ⟨_, _, h⟩ := bind_eq_ok.mp h
      cases h
      rfl

theorem runCalls_lastRecvTime {env : Env} {calls : List ApiCall} {s s' : Session}
    (h : runCalls env calls s = .ok s') : s'.lastRecvTime = s.lastRecvTime := by
  induction calls generalizing s with
  | nil =>
      cases h
      rfl
  | cons call calls ih =>
      obtain ⟨s1, hs1, h⟩ := bind_eq_ok.mp h
      rw [ih h, ApiCall.run_lastRecvTime hs1]

namespace Session

theorem notify_lastRecvTime {host : Host} {n : Option Notice} {s s' : Session}
    (h : s.notify host n = .ok s') : s'.lastRecvTime = s.lastRecvTime := by
  cases n with
  | none =>
      cases h
      rfl
  | some m => exact runCalls_lastRecvTime (s := s.mark (.notice m)) h

end Session

/-- What the keep-alive check is about: a chunk that arrives, and a tick. -/
inductive Beat where
  | message (r : Receiver) (chunk : Chunk)
  | tick (host : Host)

/-- The clock when it happens. -/
def Beat.time : Beat → UInt64
  | .message r _ => r.env.now
  | .tick host => host.now

namespace Session

/-- One step of receiving and ticking. -/
def beat (s : Session) : Beat → Result Session
  | .message r chunk => s.onMessage r chunk
  | .tick host => s.onTimer host

/-- No chunk and no tick changes the time the check measures from. -/
theorem beat_lastRecvTime {s s' : Session} {b : Beat} (h : s.beat b = .ok s') :
    s'.lastRecvTime = s.lastRecvTime := by
  cases b with
  | message r chunk =>
      simp only [beat, onMessage] at h
      split at h
      · cases h
        exact r.others_lastRecvTime _ s
      · cases h
      · cases h
  | tick host =>
      obtain ⟨s1, hs1, h⟩ := bind_eq_ok.mp ((onTimer_bind host s).symm.trans h)
      have hfirst := notify_lastRecvTime hs1
      split at h
      · obtain ⟨s2, hs2, h⟩ := bind_eq_ok.mp h
        rw [notify_lastRecvTime h, logout_lastRecvTime hs2, hfirst]
      · cases h
        exact hfirst

/-- Nor does a run of them. -/
theorem exec_lastRecvTime {s s' : Session} {beats : List Beat}
    (h : Run.exec beat s beats = .ok s') : s'.lastRecvTime = s.lastRecvTime := by
  have halways := Run.always_of_invariant beat (fun t ↦ t.lastRecvTime = s.lastRecvTime) rfl
    (fun t b t' ht hb ↦ (beat_lastRecvTime hb).trans ht) beats
  exact halways.last h

/-! ## The check -/

/-- A client that has logged out is not logged in. -/
theorem logout_loginStatus {env : Env} {c c' : Client} (h : c.logout env = .ok c') :
    c'.loginStatus = .kDefault := by
  unfold Client.logout at h
  by_cases hin : c.loginStatus = .kLoginOk
  · rw [if_pos hin] at h
    obtain ⟨r, _, h⟩ := bind_eq_ok.mp h
    cases h
    rfl
  · rw [if_neg hin] at h
    cases h
    rfl

/-- The tick leaves a session that is logged in logged in. -/
def KeptAlive (s : Session) (host : Host) : Prop :=
  Returns (s.onTimer host) fun s' => s'.client.loginStatus = .kLoginOk

/-- It does so exactly when `last_recv_time_` is recent enough. -/
theorem keptAlive_iff {s : Session} (host : Host) (hin : s.client.loginStatus = .kLoginOk) :
    KeptAlive s host ↔ host.now - s.lastRecvTime ≤ keepAliveTimeout host.config := by
  rw [KeptAlive, onTimer_loggedIn host hin]
  by_cases hlate : host.now - s.lastRecvTime > keepAliveTimeout host.config
  · rw [if_pos hlate]
    refine iff_of_false ?_ (UInt64.not_le.mpr hlate)
    rintro ⟨s', hs', hstatus⟩
    obtain ⟨s2, hs2, hs'⟩ := bind_eq_ok.mp hs'
    obtain ⟨c, hc, hs2⟩ := bind_eq_ok.mp hs2
    cases hs2
    have hout : c.loginStatus ≠ .kLoginOk := by
      rw [logout_loginStatus hc]
      decide
    exact notify_loginStatus (s := (s.withClient c).mark .logout) hout hs' hstatus
  · rw [if_neg hlate]
    exact iff_of_true ⟨s, rfl, hin⟩ (UInt64.not_lt.mp hlate)

/-- Some chunk has arrived no longer before the tick than the timeout. -/
def Recent (before : List Beat) (host : Host) : Prop :=
  ∃ r chunk, .message r chunk ∈ before ∧ r.env.now ≤ host.now ∧
    host.now - r.env.now ≤ keepAliveTimeout host.config

/-- A tick of the run that finds the session logged in and something received recently. -/
def ActiveTick (start : Session) (beats : List Beat) (s : Session) (host : Host) : Prop :=
  ∃ before after, beats = before ++ .tick host :: after ∧
    Run.exec beat start before = .ok s ∧ s.client.loginStatus = .kLoginOk ∧ Recent before host

/-- In every run of chunks and ticks, from whatever session, no tick that finds the connection
active logs out exactly when each of them comes no later than the timeout behind the
`last_recv_time_` the run began with. -/
theorem neverDropped_iff (start : Session) (beats : List Beat) :
    (∀ s host, ActiveTick start beats s host → KeptAlive s host) ↔
      ∀ s host, ActiveTick start beats s host →
        host.now - start.lastRecvTime ≤ keepAliveTimeout host.config := by
  have hstep (s : Session) (host : Host) (h : ActiveTick start beats s host) :
      KeptAlive s host ↔ host.now - start.lastRecvTime ≤ keepAliveTimeout host.config := by
    obtain ⟨before, after, _, hrun, hin, _⟩ := h
    rw [keptAlive_iff host hin, exec_lastRecvTime hrun]
  constructor
  · intro h s host hactive
    exact (hstep s host hactive).mp (h s host hactive)
  · intro h s host hactive
    exact (hstep s host hactive).mpr (h s host hactive)

/-- A session that is logged in over a connection, as the check expects it. -/
def loggedInSession : Session :=
  fresh.withClient { fresh.client with
    loginStatus := .kLoginOk
    tcpClient := some ⟨.kConnectOk, []⟩ }

/-- A chunk that arrives in a second, before an application that only listens. -/
def plainReceiver (now : UInt64) : Receiver where
  env := { Env.generated false with now }
  others _ s := s
  others_lastRecvTime _ _ := rfl

/-- Two bytes, and a tick in the same second. -/
def activeRun : List Beat :=
  [.message (plainReceiver 30000) ⟨[1, 2], by decide⟩, .tick (.plain 30000)]

/-- The tick logs the session out. -/
theorem not_neverDropped : ¬ ∀ (start : Session) (beats : List Beat),
    start.client.loginStatus = .kLoginOk →
      beats.Pairwise (fun b b' ↦ b.time ≤ b'.time) →
        ∀ s host, ActiveTick start beats s host → KeptAlive s host := by
  intro h
  have hclock : activeRun.Pairwise (fun b b' ↦ b.time ≤ b'.time) := by
    simp [activeRun, Beat.time, plainReceiver, Host.plain]
  obtain ⟨s, hrun, hstatus⟩ := Run.exec_of_view beat (·.client.loginStatus) loggedInSession
    [.message (plainReceiver 30000) ⟨[1, 2], by decide⟩] (v := .kLoginOk) (by decide +kernel)
  have hactive : ActiveTick loggedInSession activeRun s (.plain 30000) := by
    refine ⟨_, [], rfl, hrun, hstatus, plainReceiver 30000, ⟨[1, 2], by decide⟩, ?_, ?_, ?_⟩
    · exact List.mem_singleton_self _
    · show (30000 : UInt64) ≤ 30000
      decide
    · show (30000 : UInt64) - 30000 ≤ keepAliveTimeout {}
      decide
  have hkept := h loggedInSession activeRun rfl hclock s (.plain 30000) hactive
  rw [keptAlive_iff _ hstatus, exec_lastRecvTime hrun] at hkept
  exact absurd hkept (by decide)

end Session

end CoffeeChat
