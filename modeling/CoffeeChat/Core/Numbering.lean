import CoffeeChat.Core.EndToEnd
import CoffeeChat.Core.Greeting

/-!
# The frames of a connection are numbered

`getSeq` counts over all connections, and every frame takes one number whether it is sent or not.
Over a connection that is up no number is left out: the frames handed to `::send` are whole, and
they carry consecutive numbers that end at `seq_`, as long as the application sends messages only
(`always_inSequence`).
-/

namespace CoffeeChat

open Lib Lib.WireFormat

/-! ## Sizes -/

/-- A bytes field takes at most twenty bytes more than its content. -/
theorem length_optBytes_le (number : Nat) (bs : Bytes) :
    ((optBytes number bs).flatMap writeField).length ≤ bs.length + 20 := by
  unfold optBytes
  split
  case isTrue => simp
  case isFalse =>
    have htag := length_writeVarint_le (8 * number + 2)
    have hlen := length_writeVarint_le bs.length
    simp only [List.flatMap_cons, List.flatMap_nil, List.append_nil, writeField, Value.wireType,
      Value.write, List.length_append]
    omega

/-- A digest is 32 characters long. -/
theorem MD5.length_hash {m : DataModel} {memory : MD5 m} {s : Bytes} {md5 : List Char}
    (hs : s.length < 2 ^ (m.width - 1)) (h : MD5.hash memory s = .ok md5) : md5.length = 32 := by
  cases (MD5.hash_eq memory hs).symm.trans h
  rw [MD5.bytesToHexString_eq, List.length_flatMap]
  simp [RFC1321.bytes]

/-- A login request is about as long as the user name. -/
theorem length_authReq_le (req : CIMAuthReq) : req.toLite.byteSizeLong ≤
    req.userName.length + req.userPwd.length + req.clientVersion.length + 80 := by
  have hname := length_optBytes_le 1 req.userName
  have hpwd := length_optBytes_le 2 req.userPwd
  have htype := Client.length_optVarint_le 3 (int32ToVarint req.clientType)
  have hversion := length_optBytes_le 4 req.clientVersion
  simp only [MessageLite.byteSizeLong, CIMAuthReq.toLite, List.flatMap_append, List.length_append]
  omega

/-- The call makes the client send nothing but messages that fit into a frame. -/
def ApiCall.Framed (env : Env) : ApiCall → Prop
  | .login args => args.userName.length < 2 ^ 31
  | .sendData _ => False
  | .send _ msg => msg.Fits
  | .sendMessage toId msg msgData => ∀ kit : ChatKit,
      (env.msgData.toLite (kit.outData toId msg msgData)).Fits
  | .logout | .setConnectionCallback _ | .setRecvMsgCallback _ | .connStatus => True

namespace Session

variable {env : Env} {s s' : Session}

/-! ## The numbers -/

/-- A whole frame of the protocol with this number. -/
structure WholeFrame (seq : UInt16) (b : Bytes) : Prop where
  seq : (IMHeader.decode b).seq = seq
  version : (IMHeader.decode b).version = kProtocolVersion
  len : (IMHeader.decode b).len.toNat = b.length

/-- The bytes `send` makes of a message are a frame with the next number. -/
theorem wholeFrame_frame (c : Client) (cmdId : CIMCmdID) {msg : MessageLite} (hfits : msg.Fits) :
    WholeFrame (c.seq + 1) (c.frame cmdId msg) := by
  have hframe := frameOf_frame c cmdId hfits
  refine ⟨?_, hframe.version, hframe.len⟩
  rw [Client.frame, IMHeader.decode_encode]
  rfl

/-- The buffers are frames with consecutive numbers, the last of which is `seq`. -/
inductive Numbered : UInt16 → List Bytes → Prop
  | nil (seq : UInt16) : Numbered seq []
  | concat {seq : UInt16} {sent : List Bytes} {b : Bytes} (hsent : Numbered seq sent)
      (hb : WholeFrame (seq + 1) b) : Numbered (seq + 1) (sent ++ [b])

/-- The login request fits, nothing is sent over a connection that is not up, and all that is
sent over one that is up is numbered. -/
structure InSequence (s : Session) : Prop where
  fits : s.client.tcpClient.isSome → s.authReq.toLite.Fits
  silent : ∀ tcp, s.client.tcpClient = some tcp → tcp.connectStatus ≠ .kConnectOk → tcp.sent = []
  numbered : ∀ tcp, s.client.tcpClient = some tcp → tcp.connectStatus = .kConnectOk →
    Numbered s.client.seq (tcp.sent.map Prod.fst)

theorem InSequence.of_none (h : s.client.tcpClient = none) : s.InSequence where
  fits hsome := by
    rw [h] at hsome
    cases hsome
  silent tcp htcp := by
    rw [h] at htcp
    cases htcp
  numbered tcp htcp := by
    rw [h] at htcp
    cases htcp

/-- What is sent over a connection takes the next number. -/
theorem send_seq {c : Client} {cmdId : CIMCmdID} {msg : MessageLite} {r : Int32 × Client}
    (hfits : msg.Fits) (h : c.send env cmdId msg = .ok r) : r.2.seq = c.seq + 1 := by
  obtain ⟨tcp, htcp, _⟩ := Client.send_sends h
  cases (Client.send_eq env c cmdId msg htcp hfits).symm.trans h
  unfold Client.afterSend
  split <;> rfl

/-- Sending a message keeps the connection in sequence. -/
theorem InSequence.send (hs : s.InSequence) {cmdId : CIMCmdID} {msg : MessageLite}
    {r : Int32 × Client} (hfits : msg.Fits) (h : s.client.send env cmdId msg = .ok r) :
    (s.withClient r.2).InSequence := by
  obtain ⟨tcp, htcp, ⟨hdown, hsame⟩ | ⟨hup, b, result, hframe, hafter⟩⟩ := Client.send_sends h
  · refine ⟨fun _ ↦ hs.fits (by rw [htcp]; rfl), fun tcp' htcp' _ ↦ ?_, fun tcp' htcp' hup ↦ ?_⟩
    · cases hsame.symm.trans htcp'
      exact hs.silent tcp htcp hdown
    · cases hsame.symm.trans htcp'
      exact absurd hup hdown
  · refine ⟨fun _ ↦ hs.fits (by rw [htcp]; rfl), fun tcp' htcp' hdown ↦ ?_, fun tcp' htcp' _ ↦ ?_⟩
    · cases hafter.symm.trans htcp'
      exact absurd hup hdown
    · cases hafter.symm.trans htcp'
      show Numbered r.2.seq ((tcp.sent ++ [(b, result)]).map Prod.fst)
      rw [send_seq hfits h, List.map_append, hframe hfits]
      exact .concat (hs.numbered tcp htcp hup) (wholeFrame_frame s.client cmdId hfits)

/-- A connection that comes up has sent nothing yet. -/
theorem InSequence.reported (hs : s.InSequence) (conn : Nat) :
    (s.reported conn .kConnectOk).InSequence where
  fits hsome := by
    obtain ⟨tcp1, htcp1⟩ := Option.isSome_iff_exists.mp hsome
    obtain ⟨tcp, htcp, _⟩ := reported_tcpClient htcp1
    exact hs.fits (by rw [htcp]; rfl)
  silent tcp1 htcp1 hdown := by
    obtain ⟨tcp, htcp, hrep⟩ := reported_tcpClient htcp1
    split at hrep
    case isTrue =>
      subst hrep
      exact absurd rfl hdown
    case isFalse =>
      subst hrep
      exact hs.silent _ htcp hdown
  numbered tcp1 htcp1 _ := by
    obtain ⟨tcp, htcp, hrep⟩ := reported_tcpClient htcp1
    have hsent : tcp1.sent = tcp.sent := by
      rw [hrep]
      split <;> rfl
    rw [hsent]
    by_cases hup : tcp.connectStatus = .kConnectOk
    · exact hs.numbered tcp htcp hup
    · rw [hs.silent tcp htcp hup]
      exact .nil _

/-- The request of a login takes 115 bytes more than the user name at most. -/
theorem length_loggedIn_authReq (s : Session) (args : LoginArgs) {md5 : List Char}
    (hmd5 : MD5.hash (MD5.zeroed .lp64) args.pwd.bytes = .ok md5) :
    (s.loggedIn args (asciiBytes md5)).authReq.toLite.byteSizeLong ≤
      args.userName.length + 115 := by
  have hlen := length_authReq_le (s.loggedIn args (asciiBytes md5)).authReq
  have hname : (s.loggedIn args (asciiBytes md5)).authReq.userName = args.userName := rfl
  have hpwd : (s.loggedIn args (asciiBytes md5)).authReq.userPwd.length = 32 := by
    show (asciiBytes md5).length = 32
    rw [asciiBytes, List.length_map, MD5.length_hash args.pwd.length_lt hmd5]
  have hversion : (s.loggedIn args (asciiBytes md5)).authReq.clientVersion.length = 3 := rfl
  rw [hname] at hlen
  omega

theorem InSequence.said : Said ApiCall.Framed fun _ ↦ InSequence where
  call _ env call s s' hframed hquiet _ hs h := by
    cases call with
    | login => cases hquiet
    | logout => cases hquiet
    | setConnectionCallback | setRecvMsgCallback =>
        cases h
        exact ⟨hs.fits, hs.silent, hs.numbered⟩
    | connStatus =>
        obtain ⟨_, _, h⟩ := bind_eq_ok.mp h
        cases h
        exact hs
    | sendData => exact hframed.elim
    | send cmdId msg =>
        obtain ⟨r, hr, h⟩ := bind_eq_ok.mp h
        cases h
        exact hs.send hframed hr
    | sendMessage toId msg msgData =>
        obtain ⟨kit, hkit, h⟩ := bind_eq_ok.mp h
        cases h
        obtain ⟨r, hr, hkit⟩ := bind_eq_ok.mp hkit
        cases hkit
        exact hs.send (hframed s.kit) hr
  logout _ s := .of_none rfl
  login _ env s args md5 hframed hmd5 := by
    obtain ⟨hdown, hempty⟩ := connect_new args.connected
    refine ⟨fun _ ↦ ?_, fun tcp htcp _ ↦ ?_, fun tcp htcp hup ↦ ?_⟩
    · have hlen := length_loggedIn_authReq s args hmd5
      have hname : args.userName.length < 2 ^ 31 := hframed
      show sizeofIMHeader + _ < _
      rw [sizeofIMHeader]
      omega
    · cases htcp
      exact hempty
    · cases htcp
      exact absurd hup hdown
  up _ env s conn r hs hr := by
    obtain ⟨tcp, htcp, _⟩ := Client.send_sends hr
    have hrep := hs.reported conn
    exact hrep.send (hrep.fits (by rw [htcp]; rfl)) hr
  notice _ s n hs := ⟨hs.fits, hs.silent, hs.numbered⟩
  took _ s rsp buffer hs := ⟨hs.fits, hs.silent, hs.numbered⟩
  buffer _ s buffer hs := ⟨hs.fits, hs.silent, hs.numbered⟩

end Session

end CoffeeChat
