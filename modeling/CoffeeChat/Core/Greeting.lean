import CoffeeChat.Core.EndToEnd
import CoffeeChat.Core.History
import CoffeeChat.Core.SendLemmas
import Mathlib.Data.List.Forall2

/-!
# What is said over a connection

The connection of a session is that of the last `login()`. Nothing is handed to `::send` before it
is up. From then on every entry of the log that speaks has put one buffer on it, in the order of
the log: the entry for the connection itself the login request, with the user name and the digest
of the password that this `login()` was given, a `send` or a `sendMessage` the frame of its message,
and a `send(data, len)` its data (`always_greeted`).
-/

namespace CoffeeChat

open Lib

namespace Client

/-- A buffer is handed over only when the connection is up. -/
theorem sendData_ok {env : Env} {c : Client} {data : Bytes} {r : Int32 × Client}
    (h : c.sendData env data = .ok r) : ∃ tcp, c.tcpClient = some tcp ∧
      tcp.connectStatus = .kConnectOk ∧ r.2 = { c with
        lastSendTime := env.now
        tcpClient := some { tcp with
          sent := tcp.sent ++ [(data, env.kernelSend tcp.sent data)] } } := by
  cases htcp : c.tcpClient with
  | none =>
      simp only [sendData, htcp] at h
      cases h
  | some tcp =>
      simp only [sendData, htcp, TcpClient.send] at h
      obtain ⟨sent, hsent, h⟩ := bind_eq_ok.mp h
      obtain ⟨_, hup, hsent⟩ := bind_eq_ok.mp hsent
      cases hsent
      cases h
      exact ⟨tcp, rfl, check_eq_ok.mp hup, rfl⟩

end Client

/-! ## Frames -/

/-- The message fits into a frame. -/
def MessageLite.Fits (msg : MessageLite) : Prop := sizeofIMHeader + msg.byteSizeLong < 2 ^ 32

/-- The buffer is a whole frame around the message. -/
structure FrameOf (cmdId : CIMCmdID) (msg : MessageLite) (b : Bytes) : Prop where
  cmd : (IMHeader.decode b).cmd = cmdId.toUInt32.toUInt16
  version : (IMHeader.decode b).version = kProtocolVersion
  len : (IMHeader.decode b).len.toNat = b.length
  body : b.drop sizeofIMHeader = msg.serialized

/-- The bytes `send` makes of a message are a frame around it. -/
theorem frameOf_frame (c : Client) (cmdId : CIMCmdID) {msg : MessageLite} (hfits : msg.Fits) :
    FrameOf cmdId msg (c.frame cmdId msg) := by
  have hheader : IMHeader.decode (c.frame cmdId msg) = c.outHeader cmdId msg :=
    IMHeader.decode_encode _ _
  refine ⟨?_, ?_, ?_, ?_⟩
  · rw [hheader]
    rfl
  · rw [hheader]
    rfl
  · rw [hheader]
    show (UInt32.ofNat (sizeofIMHeader + msg.byteSizeLong)).toNat = _
    rw [UInt32.toNat_ofNat', Nat.mod_eq_of_lt hfits]
    simp [Client.frame, MessageLite.byteSizeLong]
  · rw [Client.frame, ← IMHeader.length_encode (c.outHeader cmdId msg), List.drop_left]

/-- A `send` that returns either finds the connection not up, and leaves it as it was, or hands
over one buffer: the frame of its message, if that fits. -/
theorem Client.send_sends {env : Env} {c : Client} {cmdId : CIMCmdID} {msg : MessageLite}
    {r : Int32 × Client} (h : c.send env cmdId msg = .ok r) : ∃ tcp, c.tcpClient = some tcp ∧
      (tcp.connectStatus ≠ .kConnectOk ∧ r.2.tcpClient = some tcp ∨
        tcp.connectStatus = .kConnectOk ∧ ∃ b result, (msg.Fits → b = c.frame cmdId msg) ∧
          r.2.tcpClient = some { tcp with sent := tcp.sent ++ [(b, result)] }) := by
  obtain ⟨status, data, hstatus, hsend⟩ := send_ok h
  obtain ⟨tcp, htcp, rfl⟩ := connStatus_eq_ok.mp hstatus
  refine ⟨tcp, htcp, ?_⟩
  by_cases hup : tcp.connectStatus = .kConnectOk
  · obtain ⟨tcp', htcp', _, hr⟩ := sendData_ok (c := c.getSeq.2) ((if_pos hup).symm.trans hsend)
    cases htcp.symm.trans htcp'
    have hafter : r.2.tcpClient =
        some { tcp with sent := tcp.sent ++ [(data, env.kernelSend tcp.sent data)] } := by rw [hr]
    refine Or.inr ⟨hup, data, _, fun hfits ↦ ?_, hafter⟩
    cases (send_eq env c cmdId msg htcp hfits).symm.trans h
    rw [afterSend, if_pos hup] at hafter
    have hsent := congrArg TcpClient.sent (Option.some.inj hafter)
    exact (congrArg Prod.fst (List.singleton_inj.mp (List.append_cancel_left hsent))).symm
  · cases (if_neg hup).symm.trans hsend
    exact Or.inl ⟨hup, htcp⟩

/-! ## The request of a login -/

namespace LoginArgs

/-- The digest of the password, as `login` stores it. -/
def digest (args : LoginArgs) : Bytes :=
  match MD5.hash (MD5.zeroed .lp64) args.pwd.bytes with
  | .ok md5 => asciiBytes md5
  | .error _ => []

/-- The login request for what `login` was given. -/
def request (args : LoginArgs) : CIMAuthReq where
  userName := args.userName
  userPwd := args.digest
  clientVersion := kClientVersion
  clientType := kCIM_CLIENT_TYPE_PC_WINDOWS

theorem digest_of_hash {args : LoginArgs} {md5 : List Char}
    (h : MD5.hash (MD5.zeroed .lp64) args.pwd.bytes = .ok md5) : args.digest = asciiBytes md5 := by
  rw [digest, h]

end LoginArgs

/-! ## What the entries of the log say -/

/-- The entry puts a buffer on a connection that is up. -/
def Asked.speaks : Asked → Bool
  | .greeting _ => true
  | .call _ (.sendData _) => true
  | .call _ (.send _ _) => true
  | .call _ (.sendMessage _ _ _) => true
  | .call _ _ => false

/-- The buffer is what the entry puts on the connection of the login with these arguments. The
sender of a chat message is the user of a fresh client: nothing ever sets another. -/
inductive Voices (args : LoginArgs) : Asked → Bytes → Prop
  | greeting {conn : Nat} {b : Bytes}
      (hb : args.request.toLite.Fits → FrameOf kCIM_CID_LOGIN_AUTH_REQ args.request.toLite b) :
      Voices args (.greeting conn) b
  | sendData {env : Env} {data : Bytes} : Voices args (.call env (.sendData data)) data
  | send {env : Env} {cmdId : CIMCmdID} {msg : MessageLite} {b : Bytes}
      (hb : msg.Fits → FrameOf cmdId msg b) : Voices args (.call env (.send cmdId msg)) b
  | sendMessage {env : Env} {toId : UInt64} {msg : Int32} {msgData b : Bytes}
      (hb : (env.msgData.toLite (Session.fresh.kit.outData toId msg msgData)).Fits →
        FrameOf kCIM_CID_MSG_DATA
          (env.msgData.toLite (Session.fresh.kit.outData toId msg msgData)) b) :
      Voices args (.call env (.sendMessage toId msg msgData)) b

/-- What an entry makes of the connection: it says nothing, or one buffer more. -/
inductive Says (args : LoginArgs) (a : Asked) (tcp : TcpClient) : TcpClient → Prop
  | nothing (h : a.speaks = true → tcp.connectStatus ≠ .kConnectOk) : Says args a tcp tcp
  | buffer {b : Bytes} {result : Int32} (hspeaks : a.speaks = true)
      (hup : tcp.connectStatus = .kConnectOk) (hb : Voices args a b) :
      Says args a tcp { tcp with sent := tcp.sent ++ [(b, result)] }

/-- A `send` says its frame, for every entry that this frame voices. -/
theorem Says.of_send {env : Env} {c : Client} {cmdId : CIMCmdID} {msg : MessageLite}
    {r : Int32 × Client} (h : c.send env cmdId msg = .ok r) {a : Asked}
    (hspeaks : a.speaks = true) {tcp' : TcpClient} (htcp' : r.2.tcpClient = some tcp') :
    ∃ tcp, c.tcpClient = some tcp ∧ ∀ args,
      (∀ b, (msg.Fits → FrameOf cmdId msg b) → Voices args a b) → Says args a tcp tcp' := by
  obtain ⟨tcp, htcp, hsends⟩ := Client.send_sends h
  refine ⟨tcp, htcp, fun args hvoices ↦ ?_⟩
  rcases hsends with ⟨hdown, hsame⟩ | ⟨hup, b, result, hframe, hafter⟩
  · cases hsame.symm.trans htcp'
    exact .nothing fun _ ↦ hdown
  · cases hafter.symm.trans htcp'
    refine .buffer hspeaks hup (hvoices b fun hfits ↦ ?_)
    rw [hframe hfits]
    exact frameOf_frame c cmdId hfits

namespace Session

variable {env : Env} {s s' : Session}

/-- A call other than `login` and `logout` says what its entry says, and changes nothing that the
login request is made of. -/
theorem run_voices {call : ApiCall} (hquiet : call.marks = []) (huser : s.client.userId = 0)
    (h : call.run env s = .ok s') : s'.authReq = s.authReq ∧ s'.made = s.made ∧
      ∀ tcp', s'.client.tcpClient = some tcp' → ∃ tcp, s.client.tcpClient = some tcp ∧
        ∀ args, Says args (.call env call) tcp tcp' := by
  cases call with
  | login => cases hquiet
  | logout => cases hquiet
  | setConnectionCallback | setRecvMsgCallback =>
      cases h
      exact ⟨rfl, rfl, fun tcp htcp ↦ ⟨tcp, htcp, fun _ ↦ .nothing (fun h ↦ by cases h)⟩⟩
  | connStatus =>
      obtain ⟨_, _, h⟩ := bind_eq_ok.mp h
      cases h
      exact ⟨rfl, rfl, fun tcp htcp ↦ ⟨tcp, htcp, fun _ ↦ .nothing (fun h ↦ by cases h)⟩⟩
  | sendData data =>
      obtain ⟨r, hr, h⟩ := bind_eq_ok.mp h
      cases h
      obtain ⟨tcp, htcp, hup, hafter⟩ := Client.sendData_ok hr
      refine ⟨rfl, rfl, fun tcp' htcp' ↦ ⟨tcp, htcp, ?_⟩⟩
      have hsent : r.2.tcpClient = some tcp' := htcp'
      rw [hafter] at hsent
      cases hsent
      exact fun _ ↦ .buffer rfl hup .sendData
  | send cmdId msg =>
      obtain ⟨r, hr, h⟩ := bind_eq_ok.mp h
      cases h
      refine ⟨rfl, rfl, fun tcp' htcp' ↦ ?_⟩
      obtain ⟨tcp, htcp, hvoiced⟩ := Says.of_send hr (a := .call env (.send cmdId msg)) rfl htcp'
      exact ⟨tcp, htcp, fun args ↦ hvoiced args fun _ ↦ .send⟩
  | sendMessage toId msg msgData =>
      obtain ⟨kit, hkit, h⟩ := bind_eq_ok.mp h
      cases h
      obtain ⟨r, hr, hkit⟩ := bind_eq_ok.mp hkit
      cases hkit
      have hdata : s.kit.outData toId msg msgData = fresh.kit.outData toId msg msgData :=
        outData_eq_of_userId huser toId msg msgData
      have hsend : s.client.send env kCIM_CID_MSG_DATA
          (env.msgData.toLite (s.kit.outData toId msg msgData)) = .ok r := hr
      rw [hdata] at hsend
      refine ⟨rfl, rfl, fun tcp' htcp' ↦ ?_⟩
      obtain ⟨tcp, htcp, hvoiced⟩ :=
        Says.of_send hsend (a := .call env (.sendMessage toId msg msgData)) rfl htcp'
      exact ⟨tcp, htcp, fun args ↦ hvoiced args fun _ ↦ .sendMessage⟩

/-- A status that is reported changes the status of its connection, and nothing else. -/
theorem reported_tcpClient {conn : Nat} {status : ConnectionStatus} {tcp1 : TcpClient}
    (h : (s.reported conn status).client.tcpClient = some tcp1) :
    ∃ tcp, s.client.tcpClient = some tcp ∧
      tcp1 = if conn = s.made then { tcp with connectStatus := status } else tcp := by
  by_cases hconn : conn = s.made
  · obtain ⟨tcp, htcp, rfl⟩ := Option.map_eq_some_iff.mp ((if_pos hconn).symm.trans h)
    exact ⟨tcp, htcp, (if_pos hconn).symm⟩
  · exact ⟨tcp1, (if_neg hconn).symm.trans h, (if_neg hconn).symm⟩

/-- A new connection is not up, and nothing has been sent over it. -/
theorem connect_new (connected : Bool) : (TcpClient.new.connect connected).connectStatus ≠
    .kConnectOk ∧ (TcpClient.new.connect connected).sent = [] := by
  cases connected <;> exact ⟨by decide, rfl⟩

/-! ## All that is said -/

/-- The connection `tcp` of the session is that of a login with these arguments, behind which
`after` has been asked for. Before it comes up nothing is said over it; then all is that speaks,
from the login request on. -/
structure OfLogin (args : LoginArgs) (after : List Asked) (s : Session) (tcp : TcpClient) :
    Prop where
  request : s.authReq = args.request
  silent : tcp.connectStatus ≠ .kConnectOk → tcp.sent = [] ∧ .greeting s.made ∉ after
  spoken : tcp.connectStatus = .kConnectOk → ∃ before said,
    after.filter Asked.speaks = before ++ .greeting s.made :: said ∧ .greeting s.made ∉ before ∧
      List.Forall₂ (Voices args) (.greeting s.made :: said) (tcp.sent.map Prod.fst)

variable {args : LoginArgs}

/-- The connection of the session is that of the last login. -/
def Greeted (asked : List Asked) (s : Session) : Prop :=
  ∀ tcp, s.client.tcpClient = some tcp →
    ∃ args after, LastLogin asked args after ∧ OfLogin args after s tcp

theorem Greeted.of_none {asked : List Asked} (h : s.client.tcpClient = none) :
    s.Greeted asked := by
  intro tcp htcp
  cases h.symm.trans htcp

/-- One entry more, and what it says. -/
theorem OfLogin.concat {after : List Asked} {tcp tcp' : TcpClient} {a : Asked}
    (h : OfLogin args after s tcp) (hreq : s'.authReq = s.authReq) (hmade : s'.made = s.made)
    (hvoiced : Says args a tcp tcp')
    (hlate : a = .greeting s.made → tcp.connectStatus = .kConnectOk) :
    OfLogin args (after ++ [a]) s' tcp' := by
  refine ⟨hreq.trans h.request, fun hdown ↦ ?_, fun hup ↦ ?_⟩
  · rw [hmade]
    cases hvoiced with
    | nothing =>
        obtain ⟨hsent, hnot⟩ := h.silent hdown
        refine ⟨hsent, fun hmem ↦ ?_⟩
        rcases List.mem_append.mp hmem with hmem | hmem
        · exact hnot hmem
        · exact hdown (hlate (List.mem_singleton.mp hmem).symm)
    | buffer _ hup => exact absurd hup hdown
  · rw [hmade, List.filter_append]
    cases hvoiced with
    | nothing hsilent =>
        obtain ⟨before, said, hfilter, hnot, hsaid⟩ := h.spoken hup
        have hmute : ¬ a.speaks = true := fun hspeaks ↦ hsilent hspeaks hup
        refine ⟨before, said, ?_, hnot, hsaid⟩
        rw [List.filter_singleton, Bool.eq_false_of_not_eq_true hmute, hfilter]
        exact List.append_nil _
    | buffer hspeaks _ hb =>
        obtain ⟨before, said, hfilter, hnot, hsaid⟩ := h.spoken hup
        refine ⟨before, said ++ [a], ?_, hnot, ?_⟩
        · rw [List.filter_singleton, hspeaks, hfilter]
          exact List.append_assoc before _ [a]
        · rw [List.map_append]
          exact List.rel_append hsaid (.cons hb .nil)

/-- The connection comes up, and its request is the first it says. -/
theorem OfLogin.up {after : List Asked} {tcp tcp' : TcpClient} (h : OfLogin args after s tcp)
    (hreq : s'.authReq = s.authReq) (hmade : s'.made = s.made)
    (hdown : tcp.connectStatus ≠ .kConnectOk)
    (hvoiced : Says args (.greeting s.made) { tcp with connectStatus := .kConnectOk } tcp') :
    OfLogin args (after ++ [.greeting s.made]) s' tcp' := by
  obtain ⟨hsent, hnot⟩ := h.silent hdown
  cases hvoiced with
  | nothing hsilent => exact absurd rfl (hsilent rfl)
  | @buffer b result _ _ hb =>
      refine ⟨hreq.trans h.request, fun hdown' ↦ absurd rfl hdown', fun _ ↦ ?_⟩
      refine ⟨after.filter Asked.speaks, [], ?_, fun hmem ↦ ?_, ?_⟩
      · rw [hmade, List.filter_append]
        rfl
      · exact hnot (hmade ▸ List.mem_of_mem_filter hmem)
      · show List.Forall₂ _ _ ((tcp.sent ++ [(b, result)]).map Prod.fst)
        rw [hsent]
        cases hb with
        | greeting hb => exact .cons (.greeting hb) .nil

theorem Greeted.said : Said (fun _ _ ↦ True) Greeted where
  call asked env call s s' _ hquiet huser hs h := by
    intro tcp' htcp'
    obtain ⟨hreq, hmade, hvoiced⟩ := run_voices hquiet huser h
    obtain ⟨tcp, htcp, hvoiced⟩ := hvoiced tcp' htcp'
    obtain ⟨args, after, hlast, hof⟩ := hs tcp htcp
    refine ⟨args, after ++ [.call env call], hlast.concat (fun env' args' heq ↦ ?_),
      hof.concat hreq hmade (hvoiced args) (fun heq ↦ by cases heq)⟩
    cases heq
    cases hquiet
  logout asked s := .of_none rfl
  login asked env s args md5 _ hmd5 := by
    intro tcp htcp
    cases htcp
    obtain ⟨hdown, hempty⟩ := connect_new args.connected
    refine ⟨args, [], .login asked env args, ?_, fun _ ↦ ⟨hempty, List.not_mem_nil⟩,
      fun hup ↦ absurd hup hdown⟩
    rw [LoginArgs.request, LoginArgs.digest_of_hash hmd5]
    rfl
  up asked env s conn r hs hr := by
    intro tcp' htcp'
    obtain ⟨tcp1, htcp1, hvoiced⟩ := Says.of_send hr (a := .greeting conn) rfl htcp'
    obtain ⟨tcp, htcp, hrep⟩ := reported_tcpClient htcp1
    obtain ⟨args, after, hlast, hof⟩ := hs tcp htcp
    have hgreets : Says args (.greeting conn) tcp1 tcp' :=
      hvoiced args fun b hb ↦ .greeting (hof.request ▸ hb)
    refine ⟨args, after ++ [.greeting conn], hlast.concat (fun _ _ heq ↦ by cases heq), ?_⟩
    by_cases hconn : conn = s.made
    · subst hconn
      rw [if_pos rfl] at hrep
      subst hrep
      by_cases hup : tcp.connectStatus = .kConnectOk
      · -- it was up before, so the request goes out again
        have hsame : { tcp with connectStatus := .kConnectOk } = tcp := by rw [← hup]
        exact hof.concat rfl rfl (hsame ▸ hgreets) fun _ ↦ hup
      · exact hof.up rfl rfl hup hgreets
    · rw [if_neg hconn] at hrep
      subst hrep
      refine hof.concat rfl rfl hgreets fun heq ↦ ?_
      cases heq
      exact absurd rfl hconn
  notice asked s n hs tcp htcp := by
    obtain ⟨args, after, hlast, hof⟩ := hs tcp htcp
    exact ⟨args, after, hlast, hof.request, hof.silent, hof.spoken⟩
  took asked s rsp buffer hs tcp htcp := by
    obtain ⟨args, after, hlast, hof⟩ := hs tcp htcp
    exact ⟨args, after, hlast, hof.request, hof.silent, hof.spoken⟩
  buffer asked s buffer hs tcp htcp := by
    obtain ⟨args, after, hlast, hof⟩ := hs tcp htcp
    exact ⟨args, after, hlast, hof.request, hof.silent, hof.spoken⟩

end Session

end CoffeeChat
