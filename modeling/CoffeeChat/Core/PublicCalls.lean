import CoffeeChat.Core.EndToEnd
import CoffeeChat.Core.SessionLemmas

/-!
# Public calls in every state

`connStatus`, both forms of `send` and `sendMessage` go through `tcp_client_`, which is null
except between a `login()` and the next `logout()` (`Reachable.tcpClient_isSome`). None of them
looks first, so each is safe exactly where there is a connection object; `send(data, len)` needs
it to be connected as well (`public_call_safe_iff`).
-/

namespace CoffeeChat

open Lib

/-- There has been a `login()` and no `logout()` since, whoever called it. -/
def Held (past : List Mark) : Prop :=
  ∃ before after, past = before ++ .login :: after ∧ .logout ∉ after

theorem held_concat_login (past : List Mark) : Held (past ++ [.login]) :=
  ⟨past, [], rfl, by simp⟩

/-- Another mark than a login keeps what is held, unless it is a logout. -/
theorem held_concat {past : List Mark} {m : Mark} (hm : m ≠ .login) :
    Held (past ++ [m]) ↔ Held past ∧ m ≠ .logout := by
  constructor
  · rintro ⟨before, after, hpast, hafter⟩
    rcases List.eq_nil_or_concat' after with rfl | ⟨rest, last, rfl⟩
    · have hlast := (List.append_inj' hpast rfl).2
      exact absurd (List.cons.inj hlast).1 hm
    · have hsplit : past ++ [m] = (before ++ .login :: rest) ++ [last] := by simpa using hpast
      obtain ⟨hinit, hlast⟩ := List.append_inj' hsplit rfl
      obtain rfl : m = last := (List.cons.inj hlast).1
      refine ⟨⟨before, rest, hinit, fun h ↦ hafter (by simp [h])⟩, ?_⟩
      rintro rfl
      exact hafter (by simp)
  · rintro ⟨⟨before, after, rfl, hafter⟩, hlogout⟩
    exact ⟨before, after ++ [m], by simp, by simp [hafter, hlogout.symm]⟩

namespace Session

/-- There is a connection object exactly while a login is held. -/
def TracksConn (s : Session) : Prop := s.client.tcpClient.isSome ↔ Held s.past

theorem TracksConn.mark {s : Session} (hs : TracksConn s) {m : Mark} (hlogin : m ≠ .login)
    (hlogout : m ≠ .logout) : TracksConn (s.mark m) := by
  show s.client.tcpClient.isSome ↔ Held (s.past ++ [m])
  rw [held_concat hlogin, and_iff_left hlogout]
  exact hs

theorem stable_tracksConn : Stable TracksConn where
  quiet s s' hs hq := by
    have hmap := congrArg Option.isSome hq.client.connStatus
    simp only [Option.isSome_map] at hmap
    rw [TracksConn, hmap, hq.past]
    exact hs
  logout s _ := by
    have hnot : ¬ Held (s.past ++ [.logout]) := fun h ↦ ((held_concat (by simp)).mp h).2 rfl
    exact iff_of_false (by simp) hnot
  login s args md5 _ := iff_of_true (by simp) (by
    rw [past_loggedIn, show [Mark.logout, .login] = [.logout] ++ [.login] from rfl,
      ← List.append_assoc]
    exact held_concat_login _)
  notice s n hs := hs.mark (by simp) (by simp)
  disconnect s hs := hs.mark (by simp) (by simp)
  reported s conn status hs := by
    unfold TracksConn at hs
    unfold TracksConn Session.reported
    split <;> simpa using hs
  took s rsp buffer hs :=
    TracksConn.mark (s := { s with kit := s.kit.withBuffer buffer }) hs (by simp) (by simp)
  buffer s buffer hs := hs

/-- In every reachable session `tcp_client_` is not null exactly while a login is held. -/
theorem Reachable.tcpClient_isSome {s : Session} (h : Reachable s) :
    s.client.tcpClient.isSome ↔ Held s.past := by
  refine h.induction stable_tracksConn (iff_of_false (by decide) ?_)
  rintro ⟨before, after, hpast, _⟩
  cases before <;> cases hpast

/-! ## The calls -/

/-- The connection is up. -/
def Connected (s : Session) : Prop :=
  ∃ tcp, s.client.tcpClient = some tcp ∧ tcp.connectStatus = .kConnectOk

/-- The length of the frame fits the header, as it does for every message that protobuf
serializes. -/
def Framed (env : Env) (s : Session) : ApiCall → Prop
  | .send _ msg => sizeofIMHeader + msg.byteSizeLong < 2 ^ 32
  | .sendMessage toId msg msgData =>
    sizeofIMHeader + (env.msgData.toLite (s.kit.outData toId msg msgData)).byteSizeLong < 2 ^ 32
  | _ => True

/-- The call dereferences no null pointer and fails no assertion, and a `send` without a
connection returns an error. -/
def Safe (env : Env) (s : Session) : ApiCall → Prop
  | .connStatus => Returns s.client.connStatus fun _ => True
  | .sendData data => Returns (s.client.sendData env data) fun r => ¬ Connected s → r.1 < 0
  | .send cmdId msg => Returns (s.client.send env cmdId msg) fun r => ¬ Connected s → r.1 < 0
  | .sendMessage toId msg msgData =>
    Returns (ChatManager.sendMessage env s.kit toId msg msgData) fun _ => True
  | _ => True

/-- What each call takes for granted: the object it calls through, and for `send(data, len)`
that it is connected. -/
def Ready (s : Session) : ApiCall → Prop
  | .connStatus => Held s.past
  | .sendData _ => Held s.past ∧ Connected s
  | .send _ _ => Held s.past
  | .sendMessage _ _ _ => Held s.past
  | _ => True

theorem returns_connStatus_iff {c : Client} :
    Returns c.connStatus (fun _ ↦ True) ↔ c.tcpClient.isSome := by
  cases h : c.tcpClient <;> simp [Returns, Client.connStatus, h]

theorem returns_sendData_iff {env : Env} {s : Session} {data : Bytes} :
    Returns (s.client.sendData env data) (fun r ↦ ¬ Connected s → r.1 < 0) ↔ Connected s := by
  constructor
  · rintro ⟨r, hr, _⟩
    cases htcp : s.client.tcpClient with
    | none => simp [Client.sendData, htcp] at hr
    | some tcp =>
        simp only [Client.sendData, htcp, TcpClient.send, check] at hr
        by_cases hup : tcp.connectStatus = .kConnectOk
        · exact ⟨tcp, htcp, hup⟩
        · simp [hup, bind, Except.bind] at hr
  · rintro ⟨tcp, htcp, hup⟩
    have hsend : s.client.sendData env data = .ok (env.kernelSend tcp.sent data,
        { s.client with
          lastSendTime := env.now
          tcpClient := some
            { tcp with sent := tcp.sent ++ [(data, env.kernelSend tcp.sent data)] } }) := by
      simp [Client.sendData, htcp, TcpClient.send, check, hup, bind, Except.bind, pure,
        Except.pure]
    exact ⟨_, hsend, fun hnot ↦ absurd ⟨tcp, htcp, hup⟩ hnot⟩

theorem returns_send_iff {env : Env} {s : Session} {cmdId : CIMCmdID} {msg : MessageLite}
    (hsize : sizeofIMHeader + msg.byteSizeLong < 2 ^ 32) :
    Returns (s.client.send env cmdId msg) (fun r ↦ ¬ Connected s → r.1 < 0) ↔
      s.client.tcpClient.isSome := by
  constructor
  · rintro ⟨r, hr, _⟩
    obtain ⟨status, _, hstatus, _⟩ := Client.send_ok hr
    obtain ⟨tcp, htcp, _⟩ := Client.connStatus_eq_ok.mp hstatus
    simp [htcp]
  · intro hsome
    obtain ⟨tcp, htcp⟩ := Option.isSome_iff_exists.mp hsome
    refine ⟨_, Client.send_eq env s.client cmdId msg htcp hsize, fun hnot ↦ ?_⟩
    have hdown : tcp.connectStatus ≠ .kConnectOk := fun hup ↦ hnot ⟨tcp, htcp, hup⟩
    rw [Client.afterSend, if_neg hdown]
    show kError < 0
    decide

theorem returns_sendMessage_iff {env : Env} {s : Session} {toId : UInt64} {msg : Int32}
    {msgData : Bytes} (hsize : sizeofIMHeader +
      (env.msgData.toLite (s.kit.outData toId msg msgData)).byteSizeLong < 2 ^ 32) :
    Returns (ChatManager.sendMessage env s.kit toId msg msgData) (fun _ ↦ True) ↔
      s.client.tcpClient.isSome := by
  have hsend : Returns (s.client.send env kCIM_CID_MSG_DATA _) _ ↔ _ := returns_send_iff hsize
  rw [← hsend]
  constructor
  · rintro ⟨kit, hkit, _⟩
    obtain ⟨r, hr, _⟩ := bind_eq_ok.mp hkit
    obtain ⟨_, _, hstatus, _⟩ := Client.send_ok hr
    obtain ⟨tcp, htcp, _⟩ := Client.connStatus_eq_ok.mp hstatus
    exact (returns_send_iff hsize).mpr (Option.isSome_iff_exists.mpr ⟨tcp, htcp⟩)
  · rintro ⟨r, hr, _⟩
    exact ⟨_, bind_eq_ok.mpr ⟨r, hr, rfl⟩, trivial⟩

/-- In every reachable session, for every environment and every message that can be framed, a
public call is safe exactly when a login is held, and for `send(data, len)` the connection is
up. -/
theorem public_call_safe_iff {s : Session} (hs : Reachable s) (env : Env) (call : ApiCall)
    (hframed : Framed env s call) : Safe env s call ↔ Ready s call := by
  have hheld := hs.tcpClient_isSome
  cases call with
  | connStatus => exact returns_connStatus_iff.trans hheld
  | sendData data =>
      have himp : Connected s → Held s.past := by
        rintro ⟨tcp, htcp, _⟩
        exact hheld.mp (by simp [htcp])
      exact returns_sendData_iff.trans (and_iff_right_of_imp himp).symm
  | send cmdId msg => exact (returns_send_iff hframed).trans hheld
  | sendMessage toId msg msgData => exact (returns_sendMessage_iff hframed).trans hheld
  | _ => exact Iff.rfl

/-- After a login the connection status can be asked for. -/
theorem connStatus_safe_pending : ∃ s, Run.exec step fresh
    [(.plain 0, .call (.login (.plain 0 true)))] = .ok s ∧
      Safe (Env.generated false) s .connStatus := by
  obtain ⟨s, hrun, hpast⟩ := Run.exec_of_view step (·.past) fresh
    [(.plain 0, .call (.login (.plain 0 true)))] (v := [.logout, .login]) (by decide +kernel)
  refine ⟨s, hrun, ?_⟩
  have hheld : Held s.past := hpast ▸ ⟨[.logout], [], rfl, by simp⟩
  exact (public_call_safe_iff ⟨fresh, _, init_eq, hrun⟩ _ .connStatus trivial).mpr hheld

/-- Before the first login `connStatus` dereferences the null pointer. -/
theorem not_public_call_safe : ¬ ∀ s, Reachable s → ∀ env call, Framed env s call →
    Safe env s call := by
  intro h
  have hsafe := h fresh ⟨fresh, [], init_eq, rfl⟩ (Env.generated false) .connStatus trivial
  exact absurd (returns_connStatus_iff.mp hsafe) (by decide)

end Session

end CoffeeChat
