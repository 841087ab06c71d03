import CoffeeChat.Core.Numbering
import CoffeeChat.Pb.Codecs

/-!
# What the peer makes of what is sent

A peer that reads with the generated classes understands the login request exactly when the user
name is text, the encoding of a sequence of characters (`always_loginUnderstood`): `login` takes any
bytes for a user name, and those that are no text make a request that every peer rejects. Where
the application keeps to texts and messages of the generated classes, every buffer that is ever
handed to `::send` is a whole frame around the message that was given for it, and the peer reads
that message back (`always_understood`).

The runtime that reads for the peer is any `Reader`.
-/

namespace CoffeeChat

open Lib Lib.WireFormat Lib.Schema Pb

variable {rt : Reader}

/-- A digest is text. -/
theorem MD5.isText_hash {m : DataModel} {memory : MD5 m} {s : Bytes} {md5 : List Char}
    (hs : s.length < 2 ^ (m.width - 1)) (h : MD5.hash memory s = .ok md5) :
    IsText (asciiBytes md5) := by
  cases (MD5.hash_eq memory hs).symm.trans h
  rw [MD5.bytesToHexString_eq]
  have hdigit : ∀ k < 16, (Nat.digitChar k).toNat < 0x80 := by decide
  refine .of_ascii fun b hb ↦ ?_
  obtain ⟨c, hc, rfl⟩ := List.mem_map.mp hb
  obtain ⟨x, -, hx⟩ := List.mem_flatMap.mp hc
  have hlt := x.toNat_lt
  have hchar : c.toNat < 0x80 := by
    rcases List.mem_pair.mp hx with rfl | rfl
    · exact hdigit _ (by omega)
    · exact hdigit _ (by omega)
  rw [UInt8.toNat_ofNat', Nat.mod_eq_of_lt (by omega)]
  exact hchar

theorem LoginArgs.isText_digest (args : LoginArgs) : IsText args.digest := by
  have hmd5 := MD5.hash_eq (MD5.zeroed .lp64) args.pwd.length_lt
  rw [args.digest_of_hash hmd5]
  exact MD5.isText_hash args.pwd.length_lt hmd5

theorem isText_kClientVersion : IsText kClientVersion := .of_ascii (by simp [kClientVersion])

/-! ## The login request -/

/-- A login request with texts is one of the generated class. -/
theorem ofAuthReq_valid {req : CoffeeChat.CIMAuthReq} (hname : IsText req.userName)
    (hpwd : IsText req.userPwd) (hversion : IsText req.clientVersion) :
    (ofAuthReq req : Message (Pb.CIMAuthReq rt)).Valid rt :=
  ⟨⟨rt.verifyUtf8_iff.mpr hname, rt.verifyUtf8_iff.mpr hpwd, trivial,
    rt.verifyUtf8_iff.mpr hversion, trivial⟩, [], rfl, fun _ hf ↦ absurd hf List.not_mem_nil⟩

theorem toLite_authReq (req : CoffeeChat.CIMAuthReq) :
    (codec rt (Pb.CIMAuthReq rt)).toLite (ofAuthReq req) = req.toLite :=
  congrArg MessageLite.mk (ofAuthReq_serialize req)

/-- A request whose user name is no text is rejected. -/
theorem parse_authReq_eq_none {req : CoffeeChat.CIMAuthReq} (hname : ¬ IsText req.userName)
    (hlt : req.toLite.byteSizeLong < 2 ^ 30) :
    (codec rt (Pb.CIMAuthReq rt)).parseFromArray req.toLite.serialized = none := by
  have hserialize : (ofAuthReq req : Message (Pb.CIMAuthReq rt)).serialize =
      req.toLite.serialized := ofAuthReq_serialize req
  have hsize : (ofAuthReq req : Message (Pb.CIMAuthReq rt)).serialize.length < 2 ^ 30 := by
    rw [hserialize]
    exact hlt
  have hforeign : Foreign rt (Pb.CIMAuthReq rt) [] :=
    ⟨[], rfl, fun _ hf ↦ absurd hf List.not_mem_nil⟩
  obtain ⟨fs, hparse, -⟩ := Message.parse_serialize hforeign hsize
  have hne : req.userName ≠ [] := by
    intro hnil
    exact hname ⟨[], hnil⟩
  have hfields : ∃ rest, Vals.fields (Pb.CIMAuthReq rt).entries (ofAuthReq req).vals ++ fs =
      ⟨1, .len req.userName⟩ :: rest := by
    simp [Pb.CIMAuthReq, ofAuthReq, Vals.fields, optBytes, hne]
  obtain ⟨rest, hrest⟩ := hfields
  have hcheck : rt.verifyUtf8 req.userName = false :=
    Bool.eq_false_iff.mpr fun hvalid ↦ hname (rt.verifyUtf8_iff.mp hvalid)
  have hstep : (.initial : Message (Pb.CIMAuthReq rt)).step ⟨1, .len req.userName⟩ = none := by
    simp [Message.step, Pb.CIMAuthReq, Vals.takes, Vals.read, string, FieldType.bytes, isLen,
      hcheck]
  rw [← hserialize]
  show Message.parseFrom rt _ = none
  rw [Message.parseFrom, Message.parseInto, hparse, Option.bind_some, hrest, List.foldlM_cons,
    hstep]
  rfl

namespace Session

/-- The login request of a login with these arguments is the first buffer; the peer reads it as it
was meant if the user name is text, and rejects it if not. -/
def RequestUnderstood (rt : Reader) (args : LoginArgs) (tcp : TcpClient) : Prop :=
  ∃ b result rest, tcp.sent = (b, result) :: rest ∧
    (IsText args.userName →
      (codec rt (Pb.CIMAuthReq rt)).parseFromArray (b.drop sizeofIMHeader) =
        some (ofAuthReq args.request)) ∧
    (¬ IsText args.userName →
      (codec rt (Pb.CIMAuthReq rt)).parseFromArray (b.drop sizeofIMHeader) = none)

/-- Over a connection that is up the peer reads the request of the last login, if this is below
1 GiB. -/
def LoginUnderstood (rt : Reader) (asked : List Asked) (s : Session) : Prop :=
  ∀ tcp, s.client.tcpClient = some tcp → tcp.connectStatus = .kConnectOk →
    ∃ args after, LastLogin asked args after ∧
      (args.request.toLite.byteSizeLong < 2 ^ 30 → RequestUnderstood rt args tcp)

theorem requestUnderstood {s : Session} {args : LoginArgs} {after : List Asked} {tcp : TcpClient}
    (h : OfLogin args after s tcp) (hup : tcp.connectStatus = .kConnectOk)
    (hlt : args.request.toLite.byteSizeLong < 2 ^ 30) : RequestUnderstood rt args tcp := by
  obtain ⟨before, said, _, _, hsaid⟩ := h.spoken hup
  cases hsent : tcp.sent with
  | nil =>
      rw [hsent] at hsaid
      cases hsaid
  | cons x rest =>
      obtain ⟨b, result⟩ := x
      rw [hsent] at hsaid
      obtain ⟨hgreeting, _⟩ := List.forall₂_cons.mp hsaid
      cases hgreeting with
      | greeting hframe =>
          have hfits : args.request.toLite.Fits := by
            show sizeofIMHeader + _ < _
            rw [sizeofIMHeader]
            omega
          have hbody := (hframe hfits).body
          refine ⟨b, result, rest, hsent, fun hname ↦ ?_, fun hname ↦ ?_⟩
          · have hvalid : (ofAuthReq args.request : Message (Pb.CIMAuthReq rt)).Valid rt :=
              ofAuthReq_valid hname args.isText_digest isText_kClientVersion
            have hserialize : (ofAuthReq args.request : Message (Pb.CIMAuthReq rt)).serialize =
                args.request.toLite.serialized := ofAuthReq_serialize args.request
            rw [hbody, ← hserialize]
            exact Message.parseFrom_serialize hvalid (hserialize ▸ hlt)
          · rw [hbody]
            exact parse_authReq_eq_none hname hlt

/-- In every run of the session a peer with the generated class reads the first buffer over a
connection as the request of the login that made it, exactly when the user name is text. -/
theorem always_loginUnderstood (rt : Reader) (inputs : List (Host × Event)) :
    Run.Always (fun r ↦ LoginUnderstood rt r.log r.state) Record.step Record.fresh inputs := by
  have hgreeted := Greeted.said.always_of_any (.of_none rfl) inputs
  refine hgreeted.mono fun r hr tcp htcp hup ↦ ?_
  obtain ⟨args, after, hlast, hof⟩ := hr tcp htcp
  exact ⟨args, after, hlast, requestUnderstood hof hup⟩

end Session

/-! ## All that is sent -/

/-- The buffer is a whole frame around the message, and the peer reads the message back. -/
structure Reads (rt : Reader) {c : MessageClass} (source : Message c) (cmdId : CIMCmdID)
    (b : Bytes) : Prop where
  frame : FrameOf cmdId ((codec rt c).toLite source) b
  parse : (codec rt c).parseFromArray (b.drop sizeofIMHeader) = some source

/-- What is put into a frame is read back. -/
theorem Reads.of_frame {c : MessageClass} {source : Message c} {cmdId : CIMCmdID} {b : Bytes}
    (hvalid : source.Valid rt)
    (hlt : sizeofIMHeader + ((codec rt c).toLite source).byteSizeLong < 2 ^ 30)
    (hframe : ((codec rt c).toLite source).Fits → FrameOf cmdId ((codec rt c).toLite source) b) :
    Reads rt source cmdId b := by
  have hfits : ((codec rt c).toLite source).Fits := lt_trans hlt (by norm_num)
  refine ⟨hframe hfits, ?_⟩
  rw [(hframe hfits).body]
  refine Message.parseFrom_serialize hvalid (lt_of_le_of_lt ?_ hlt)
  exact Nat.le_add_left _ _

/-- The peer reads of the buffer what its entry was given: the login request, the message of a
generated class that `send` was given, or the message of `sendMessage`. -/
inductive Understood (rt : Reader) (args : LoginArgs) : Asked → Bytes → Prop
  | greeting {conn : Nat} {b : Bytes}
      (h : Reads rt (ofAuthReq args.request : Message (Pb.CIMAuthReq rt))
        kCIM_CID_LOGIN_AUTH_REQ b) :
      Understood rt args (.greeting conn) b
  | send {env : Env} {cmdId : CIMCmdID} {msg : MessageLite} {b : Bytes}
      (h : ∀ (c : Generated rt) (source : Message c.1), source.Valid rt →
        msg = (codec rt c.1).toLite source → Reads rt source cmdId b) :
      Understood rt args (.call env (.send cmdId msg)) b
  | sendMessage {env : Env} {toId : UInt64} {msg : Int32} {msgData b : Bytes}
      (h : Reads rt (ofMsgData (Session.fresh.kit.outData toId msg msgData) :
        Message (Pb.CIMMsgData rt)) kCIM_CID_MSG_DATA b) :
      Understood rt args (.call env (.sendMessage toId msg msgData)) b

/-- The call makes the client send texts and messages of the generated classes only, below
1 GiB, where the process itself writes chat messages with the generated class. -/
def ApiCall.Spoken (rt : Reader) (env : Env) : ApiCall → Prop
  | .login args => args.userName.length < 2 ^ 29 ∧ IsText args.userName
  | .sendData _ => False
  | .send _ msg => sizeofIMHeader + msg.byteSizeLong < 2 ^ 30 ∧
      ∃ (c : Generated rt) (source : Message c.1),
        source.Valid rt ∧ msg = (codec rt c.1).toLite source
  | .sendMessage toId msg msgData =>
      env.msgData.toLite (Session.fresh.kit.outData toId msg msgData) =
        (codec rt (Pb.CIMMsgData rt)).toLite
          (ofMsgData (Session.fresh.kit.outData toId msg msgData)) ∧
      sizeofIMHeader +
        (env.msgData.toLite (Session.fresh.kit.outData toId msg msgData)).byteSizeLong < 2 ^ 30
  | .logout | .setConnectionCallback _ | .setRecvMsgCallback _ | .connStatus => True

/-- The message `sendMessage` makes is one of the generated class. -/
theorem ofMsgData_valid {msg : CoffeeChat.CIMMsgData} (h : msg.WellFormed) :
    (ofMsgData msg : Message (Pb.CIMMsgData rt)).Valid rt := by
  obtain ⟨hnick, hid, hunknown⟩ := h
  exact ⟨⟨trivial, rt.verifyUtf8_iff.mpr (verifyUtf8_iff.mp hnick), trivial,
    rt.verifyUtf8_iff.mpr (verifyUtf8_iff.mp hid), trivial, trivial, trivial, trivial, rfl,
    trivial⟩, [], hunknown, fun _ hf ↦ absurd hf List.not_mem_nil⟩

/-- The request of a login takes 115 bytes more than the user name at most. -/
theorem LoginArgs.length_request_le (args : LoginArgs) :
    args.request.toLite.byteSizeLong ≤ args.userName.length + 115 := by
  have hmd5 := MD5.hash_eq (MD5.zeroed .lp64) args.pwd.length_lt
  have hlen := Session.length_loggedIn_authReq Session.fresh args hmd5
  rw [← args.digest_of_hash hmd5] at hlen
  exact hlen

/-- What an entry of allowed calls says is understood. -/
theorem Voices.understood {args : LoginArgs} {a : Asked} {b : Bytes} (h : Voices args a b)
    (hshort : args.userName.length < 2 ^ 29) (hname : IsText args.userName)
    (ha : ∀ env call, a = .call env call → call.Spoken rt env) : Understood rt args a b := by
  cases h with
  | greeting hframe =>
      have hlen := args.length_request_le
      have hlite : (codec rt (Pb.CIMAuthReq rt)).toLite (ofAuthReq args.request) =
          args.request.toLite := toLite_authReq args.request
      rw [← hlite] at hframe hlen
      refine .greeting (.of_frame
        (ofAuthReq_valid hname args.isText_digest isText_kClientVersion) ?_ hframe)
      rw [sizeofIMHeader]
      omega
  | sendData => exact (ha _ _ rfl).elim
  | send hframe =>
      obtain ⟨hlt, _⟩ := ha _ _ rfl
      refine .send fun c source hvalid hmsg ↦ ?_
      subst hmsg
      exact .of_frame hvalid hlt hframe
  | sendMessage hframe =>
      obtain ⟨hlite, hlt⟩ := ha _ _ rfl
      rw [hlite] at hframe hlt
      exact .sendMessage (.of_frame (ofMsgData_valid (outData_wellFormed _ _ _ _)) hlt hframe)

namespace Session

/-- Over a connection that is up the peer reads, buffer by buffer, what was asked for since. -/
def AllUnderstood (rt : Reader) (asked : List Asked) (s : Session) : Prop :=
  ∀ tcp, s.client.tcpClient = some tcp → tcp.connectStatus = .kConnectOk →
    ∃ args after before said, LastLogin asked args after ∧
      after.filter Asked.speaks = before ++ .greeting s.made :: said ∧
      .greeting s.made ∉ before ∧
      List.Forall₂ (Understood rt args) (.greeting s.made :: said) (tcp.sent.map Prod.fst)

theorem Greeted.allUnderstood {asked : List Asked} {s : Session} (h : s.Greeted asked)
    (hspoken : Keeps (ApiCall.Spoken rt) asked) : s.AllUnderstood rt asked := by
  intro tcp htcp hup
  obtain ⟨args, after, hlast, hof⟩ := h tcp htcp
  obtain ⟨before, said, hfilter, hnot, hsaid⟩ := hof.spoken hup
  refine ⟨args, after, before, said, hlast, hfilter, hnot, ?_⟩
  obtain ⟨env, hlogin⟩ := hlast.mem
  obtain ⟨hshort, hname⟩ := hspoken env _ hlogin
  have hmem : ∀ a ∈ Asked.greeting s.made :: said, a ∈ asked := fun a ha ↦
    hlast.subset (List.mem_of_mem_filter (hfilter ▸ List.mem_append_right before ha))
  refine ((List.forall₂_and_left _ _).mpr ⟨hmem, hsaid⟩).imp fun a b hab ↦ ?_
  exact hab.2.understood hshort hname fun env' call heq ↦ hspoken env' call (heq ▸ hab.1)

/-- In every run in which the application logs in with texts and sends messages of the generated
classes, the peer reads of each buffer the message that it was made of. -/
theorem always_understood (rt : Reader) {inputs : List (Host × Event)}
    (hspoken : ∀ input ∈ inputs, Allows (ApiCall.Spoken rt) input) :
    Run.Always (fun r ↦ AllUnderstood rt r.log r.state) Record.step Record.fresh inputs := by
  have hgreeted := Greeted.said.always_of_any (.of_none rfl) inputs
  exact (hgreeted.and (always_keeps hspoken)).mono fun _ hr ↦ hr.1.allUnderstood hr.2

/-- A login, its connection, a message with a type and one to the user 7. -/
theorem always_understood_plain :
    Run.Always (fun r ↦ AllUnderstood reader r.log r.state) Record.step Record.fresh
      [(Host.plain 0, .call (.login (LoginArgs.plain 0 true))),
        (Host.plain 0, .connection 1 .kConnectOk),
        (Host.plain 0, .call (.send kCIM_CID_MSG_DATA ⟨[0x38, 0x01]⟩)),
        (Host.plain 0, .call (.sendMessage 7 1 [0x68, 0x69]))] := by
  refine always_understood reader fun input hinput ↦ ?_
  simp only [List.mem_cons, List.not_mem_nil, or_false] at hinput
  rcases hinput with rfl | rfl | rfl | rfl
  · refine .plain fun call hcall ↦ ?_
    cases hcall
    exact ⟨show 1 < 2 ^ 29 by norm_num, .of_ascii (by simp [LoginArgs.plain])⟩
  · exact .plain fun call hcall ↦ by cases hcall
  · refine .plain fun call hcall ↦ ?_
    cases hcall
    exact ⟨show 18 < 2 ^ 30 by norm_num, ⟨Pb.CIMMsgData reader, by simp [generated]⟩, _,
      ofMsgData_valid (show CIMMsgData.WellFormed { msgType := 1 } from ⟨rfl, rfl, rfl⟩), rfl⟩
  · refine .plain fun call hcall ↦ ?_
    cases hcall
    exact ⟨congrArg MessageLite.mk (ofMsgData_serialize _).symm, show 32 < 2 ^ 30 by norm_num⟩

end Session

end CoffeeChat
