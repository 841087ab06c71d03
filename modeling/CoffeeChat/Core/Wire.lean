import CoffeeChat.Core.EndToEnd
import CoffeeChat.Core.SendLemmas
import CoffeeChat.Lib.Pieces

/-!
# What arrives at the peer

`::send` on a non-blocking socket may take only part of a frame. `TcpClient::send` and
`Client::send` pass the count up and nobody acts on it, so the next frame follows whatever was
taken of the last. `sendAll` is a sequence of `Client::send` calls on one connection, and
`TcpClient.pieces` what the kernel took of each, as pieces of `CoffeeChat.Lib.Pieces`. The peer
sees whole frames exactly when nothing is taken behind a frame that was cut short
(`sent_untorn_iff`).
-/

namespace CoffeeChat

open Lib Lib.Pieces

/-! ## Calls and pieces -/

/-- A call of `Client::send(cmd_id, msg)` and what the kernel answers to its `::send`: the number
of bytes it takes, at least one and at most all of the frame, or `-1`. The length of the frame is
an `int`. -/
structure SendCall where
  env : Env
  cmdId : CIMCmdID
  msg : MessageLite
  accepted : Int32
  length_lt : sizeofIMHeader + msg.byteSizeLong < 2 ^ 31
  accepted_cases : accepted = -1 ∨
    (1 ≤ accepted.toInt ∧ accepted.toInt ≤ (sizeofIMHeader + msg.byteSizeLong : Nat))

namespace SendCall

/-- What surrounds the call. -/
def host (call : SendCall) : Env := { call.env with kernelSend := fun _ _ ↦ call.accepted }

/-- Only part of the frame is taken. -/
def Short (call : SendCall) : Prop :=
  0 < call.accepted.toInt ∧ call.accepted.toInt < (sizeofIMHeader + call.msg.byteSizeLong : Nat)

instance (call : SendCall) : Decidable call.Short := inferInstanceAs (Decidable (_ ∧ _))

end SendCall

/-- Calls of `Client::send`, one after another, and what they return. -/
def Client.sendAll (c : Client) : List SendCall → Result (List Int32 × Client)
  | [] => .ok ([], c)
  | call :: calls => do
    let (result, c') ← c.send call.host call.cmdId call.msg
    let (results, c'') ← c'.sendAll calls
    return (result :: results, c'')

/-- What the kernel took of a buffer: nothing, when `::send` failed. -/
def pieceOf (sent : (Bytes × Int32) × Nat) : Piece Nat UInt8 where
  tag := sent.2
  frame := sent.1.1
  taken := min sent.1.2.toInt.toNat sent.1.1.length
  taken_le := Nat.min_le_right _ _

/-- What the kernel took of each buffer handed over, in order. A buffer is tagged with its
number, so that two equal frames stay apart. -/
def TcpClient.pieces (tcp : TcpClient) : List (Piece Nat UInt8) := tcp.sent.zipIdx.map pieceOf

/-! ## The pieces of a call -/

theorem nodup_tags_zipIdx (sent : List (Bytes × Int32)) :
    ((sent.zipIdx.map pieceOf).map Piece.tag).Nodup := by
  have htags : (sent.zipIdx.map pieceOf).map Piece.tag = List.range' 0 sent.length := by
    rw [List.map_map]
    exact List.zipIdx_map_snd 0 sent
  rw [htags]
  exact List.nodup_range'

theorem length_frame (c : Client) (cmdId : CIMCmdID) (msg : MessageLite) :
    (c.frame cmdId msg).length = sizeofIMHeader + msg.byteSizeLong := by
  simp [Client.frame, MessageLite.byteSizeLong, sizeofIMHeader]

/-- `sent` is what is handed over by `calls`. -/
inductive Hands : List SendCall → List (Bytes × Int32) → Prop
  | nil : Hands [] []
  | cons {call : SendCall} {calls : List SendCall} {frame : Bytes} {sent : List (Bytes × Int32)}
      (hlen : frame.length = sizeofIMHeader + call.msg.byteSizeLong) (hrest : Hands calls sent) :
      Hands (call :: calls) ((frame, call.accepted) :: sent)

variable {call : SendCall} {frame : Bytes}

/-- The piece is cut exactly when the call falls short. -/
theorem cut_pieceOf_iff (hlen : frame.length = sizeofIMHeader + call.msg.byteSizeLong) (n : Nat) :
    (pieceOf ((frame, call.accepted), n)).Cut ↔ call.Short := by
  simp only [Piece.Cut, pieceOf, SendCall.Short, hlen]
  rcases call.accepted_cases with hfail | ⟨hpos, hle⟩
  · rw [hfail, show (-1 : Int32).toInt = -1 from rfl]
    omega
  · omega

/-- Nothing is taken exactly when the call fails. -/
theorem taken_pieceOf_iff (hlen : frame.length = sizeofIMHeader + call.msg.byteSizeLong)
    (n : Nat) : (pieceOf ((frame, call.accepted), n)).taken = 0 ↔ call.accepted = -1 := by
  simp only [pieceOf, hlen]
  rcases call.accepted_cases with hfail | ⟨hpos, hle⟩
  · rw [hfail, show (-1 : Int32).toInt = -1 from rfl]
    simp
  · have hne : call.accepted ≠ -1 := by
      intro heq
      rw [heq, show (-1 : Int32).toInt = -1 from rfl] at hpos
      omega
    have hpieces : min call.accepted.toInt.toNat (sizeofIMHeader + call.msg.byteSizeLong) ≠ 0 := by
      omega
    exact iff_of_false hpieces hne

/-- A property of every piece is one of every call, where the two agree. -/
theorem forall_pieces_iff {calls : List SendCall} {sent : List (Bytes × Int32)}
    (hands : Hands calls sent) (n : Nat) :
    (∀ q ∈ (sent.zipIdx n).map pieceOf, q.taken = 0) ↔ ∀ call ∈ calls, call.accepted = -1 := by
  induction hands generalizing n with
  | nil => simp
  | cons hlen _ ih =>
      rw [List.zipIdx_cons, List.map_cons, List.forall_mem_cons, List.forall_mem_cons,
        ih (n + 1), taken_pieceOf_iff hlen n]

/-- No piece is taken behind a cut one exactly when every call behind a short one fails. -/
theorem pairwise_pieces_iff {calls : List SendCall} {sent : List (Bytes × Int32)}
    (hands : Hands calls sent) (n : Nat) :
    ((sent.zipIdx n).map pieceOf).Pairwise (fun p q ↦ p.Cut → q.taken = 0) ↔
      calls.Pairwise fun call call' ↦ call.Short → call'.accepted = -1 := by
  induction hands generalizing n with
  | nil => simp
  | cons hlen hrest ih =>
      rw [List.zipIdx_cons, List.map_cons, List.pairwise_cons, List.pairwise_cons, ih (n + 1)]
      refine and_congr_left fun _ ↦ ?_
      have hcut := cut_pieceOf_iff hlen n
      have hall := forall_pieces_iff hrest (n + 1)
      constructor
      · intro h call' hcall' hshort
        exact hall.mp (fun q hq ↦ h q hq (hcut.mpr hshort)) call' hcall'
      · intro h q hq hcutp
        exact hall.mpr (fun call' hcall' ↦ h call' hcall' (hcut.mp hcutp)) q hq

/-- What was handed over is answered as the calls report. -/
theorem Hands.map_snd {calls : List SendCall} {sent : List (Bytes × Int32)}
    (hands : Hands calls sent) : sent.map Prod.snd = calls.map SendCall.accepted := by
  induction hands with
  | nil => rfl
  | cons _ _ ih => rw [List.map_cons, List.map_cons, ih]

theorem Hands.untorn_iff {calls : List SendCall} {sent : List (Bytes × Int32)}
    (hands : Hands calls sent) :
    Untorn (sent.zipIdx.map pieceOf) ↔
      calls.Pairwise fun call call' ↦ call.Short → call'.accepted = -1 := by
  rw [Pieces.untorn_iff (nodup_tags_zipIdx sent)]
  exact pairwise_pieces_iff hands 0

/-! ## Runs -/

/-- Over a connection that is up every call returns what the kernel answers, and hands over its
frame behind those before. -/
theorem Client.sendAll_spec {c : Client} {tcp : TcpClient} (htcp : c.tcpClient = some tcp)
    (hup : tcp.connectStatus = .kConnectOk) (calls : List SendCall) :
    ∃ sent c', c.sendAll calls = .ok (calls.map SendCall.accepted, c') ∧ Hands calls sent ∧
      c'.tcpClient = some { tcp with sent := tcp.sent ++ sent } := by
  induction calls generalizing c tcp with
  | nil => exact ⟨[], c, rfl, Hands.nil, by simpa using htcp⟩
  | cons call calls ih =>
      have hsize : sizeofIMHeader + call.msg.byteSizeLong < 2 ^ 32 :=
        call.length_lt.trans (by decide)
      have hsend := send_eq call.host c call.cmdId call.msg htcp hsize
      rw [afterSend, if_pos hup] at hsend
      let entry := (c.frame call.cmdId call.msg, call.accepted)
      let c' := { c with
        seq := c.seq + 1
        lastSendTime := call.env.now
        tcpClient := some { tcp with sent := tcp.sent ++ [entry] } }
      have hc' : c'.tcpClient = some { tcp with sent := tcp.sent ++ [entry] } := rfl
      obtain ⟨sent, c'', hrest, hands, htcp'⟩ := ih hc' hup
      refine ⟨entry :: sent, c'', ?_, Hands.cons (length_frame ..) hands, ?_⟩
      · exact bind_eq_ok.mpr ⟨_, hsend, bind_eq_ok.mpr ⟨_, hrest, rfl⟩⟩
      · rw [htcp', List.append_assoc]
        rfl

/-- For every sequence of `Client::send` calls on a new connection and every answer of the
kernel: what arrives is a concatenation of complete frames of calls that reported success, in
order, with at most one incomplete frame behind them, exactly when the kernel takes nothing of
any frame behind one that it took in part. -/
theorem sent_untorn_iff {c : Client} {tcp : TcpClient} (htcp : c.tcpClient = some tcp)
    (hup : tcp.connectStatus = .kConnectOk) (hnew : tcp.sent = []) (calls : List SendCall) :
    ∃ results c' tcp', c.sendAll calls = .ok (results, c') ∧ c'.tcpClient = some tcp' ∧
      tcp'.sent.map Prod.snd = results ∧
      (Untorn tcp'.pieces ↔ calls.Pairwise fun a b ↦ a.Short → b.accepted = -1) := by
  obtain ⟨sent, c', hall, hands, htcp'⟩ := c.sendAll_spec htcp hup calls
  rw [hnew, List.nil_append] at htcp'
  exact ⟨_, c', _, hall, htcp', hands.map_snd, hands.untorn_iff⟩

/-- Sending an empty body, of whose frame of sixteen bytes the kernel takes `n`. -/
def sendTaking (n : Fin 17) : SendCall where
  env := Env.generated false
  cmdId := kCIM_CID_MSG_DATA
  msg := ⟨[]⟩
  accepted := if n = 0 then -1 else Int32.ofNat n
  length_lt := by decide
  accepted_cases := by revert n; decide

/-- Two frames, the second of them cut short. -/
theorem sent_untorn_last_short : ∃ results c' tcp',
    connectedClient.sendAll [sendTaking 16, sendTaking 5] = .ok (results, c') ∧
      c'.tcpClient = some tcp' ∧ tcp'.sent.map Prod.snd = results ∧
      (Untorn tcp'.pieces ↔
        [sendTaking 16, sendTaking 5].Pairwise fun a b ↦ a.Short → b.accepted = -1) :=
  sent_untorn_iff rfl rfl rfl _

/-- A frame cut short, and one behind it. -/
theorem not_sent_untorn : ¬ ∀ (c : Client) (tcp : TcpClient) (calls : List SendCall),
    c.tcpClient = some tcp → tcp.connectStatus = .kConnectOk → tcp.sent = [] →
      ∃ results c' tcp', c.sendAll calls = .ok (results, c') ∧ c'.tcpClient = some tcp' ∧
        Untorn tcp'.pieces := by
  intro h
  let calls := [sendTaking 5, sendTaking 16]
  obtain ⟨results, c', tcp', hall, htcp', huntorn⟩ := h connectedClient _ calls rfl rfl rfl
  obtain ⟨sent, c'', hspec, hands, htcp''⟩ := connectedClient.sendAll_spec rfl rfl calls
  have hc : c' = c'' := congrArg Prod.snd (Except.ok.inj (hall.symm.trans hspec))
  rw [hc, htcp'', List.nil_append] at htcp'
  rw [← Option.some.inj htcp'] at huntorn
  have hpairwise := hands.untorn_iff.mp huntorn
  exact absurd hpairwise (by decide)

end CoffeeChat
