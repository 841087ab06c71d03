import CoffeeChat.Core.Walk
import CoffeeChat.Core.MessagesLemmas

/-!
# Packets that arrive in one chunk

TCP may deliver several packets in one chunk, which the loop of `Client::onMessage` is there to
take apart. Whether it does rests on the handler of each packet leaving exactly the bytes behind
the packet, and this module says when it does: `coalesced_iff` for packets the client can use,
`first_call_iff` for the callback of the first of them, and `isolated_iff` for packets it cannot
use in front of one it can.
-/

namespace CoffeeChat

open Lib

variable {env : Env} {kit : ChatKit} {p : Packet} {t : Bytes}

/-! ## What each handler leaves -/

theorem consume_parsed (hcmd : p.header.cmdId = kCIM_CID_LOGIN_AUTH_RSP) {u : Bytes}
    {rsp : CIMAuthRsp} (hparse : env.authRsp.parseFromArray u = some rsp) :
    consume env p.header u = u.drop (env.authRsp.byteSizeLong rsp) := by
  simp only [consume, hcmd, if_true, hparse]

theorem consume_unparsed (hcmd : p.header.cmdId = kCIM_CID_LOGIN_AUTH_RSP) {u : Bytes}
    (hparse : env.authRsp.parseFromArray u = none) : consume env p.header u = u := by
  simp only [consume, hcmd, if_true, hparse]

theorem consume_msgData (hcmd : p.header.cmdId = kCIM_CID_MSG_DATA) (u : Bytes) :
    consume env p.header u = u := by
  simp only [consume, hcmd, msgData_ne_authRsp, if_true, if_false]

theorem consume_other (hauth : p.header.cmdId ≠ kCIM_CID_LOGIN_AUTH_RSP)
    (hdata : p.header.cmdId ≠ kCIM_CID_MSG_DATA) (u : Bytes) :
    consume env p.header u = u.drop p.header.len.toNat := by
  simp only [consume, hauth, hdata, if_false]

/-- The packet is a login response that protobuf accepts together with all that follows it in
the chunk, at the size of the body alone. -/
def HandsOver (env : Env) (p : Packet) (t : Bytes) : Prop :=
  p.header.cmdId = kCIM_CID_LOGIN_AUTH_RSP ∧
    ∃ rsp, env.authRsp.parseFromArray (p.body ++ t) = some rsp ∧
      env.authRsp.byteSizeLong rsp = p.body.length

theorem HandsOver.consume_eq (h : HandsOver env p t) :
    consume env p.header (p.body ++ t) = t := by
  obtain ⟨hcmd, rsp, hparse, hsize⟩ := h
  rw [consume_parsed hcmd hparse, hsize, List.drop_left]

/-- A handler leaves as many bytes as follow its packet only by handing over. -/
theorem length_consume_iff (hne : t ≠ []) :
    (consume env p.header (p.body ++ t)).length = t.length ↔ HandsOver env p t := by
  refine ⟨fun hlen ↦ ?_, fun h ↦ by rw [h.consume_eq]⟩
  have hbody := p.body_pos
  have ht := List.length_pos_iff.mpr hne
  by_cases hauth : p.header.cmdId = kCIM_CID_LOGIN_AUTH_RSP
  · cases hparse : env.authRsp.parseFromArray (p.body ++ t) with
    | none =>
        -- a rejected login response leaves its body
        rw [consume_unparsed hauth hparse, List.length_append] at hlen
        omega
    | some rsp =>
        rw [consume_parsed hauth hparse, List.length_drop, List.length_append] at hlen
        exact ⟨hauth, rsp, hparse, by omega⟩
  · by_cases hdata : p.header.cmdId = kCIM_CID_MSG_DATA
    · -- a chat message leaves its body
      rw [consume_msgData hdata, List.length_append] at hlen
      omega
    · -- an unknown command takes its header's size once more
      rw [consume_other hauth hdata, List.length_drop, List.length_append, p.len_eq] at hlen
      simp only [sizeofIMHeader] at hlen
      omega

/-! ## Packets the client can use -/

/-- A login response or a chat message that protobuf accepts, at the size of its body. -/
def Packet.Accepted (env : Env) (p : Packet) : Prop :=
  (p.header.cmdId = kCIM_CID_LOGIN_AUTH_RSP ∧
    ∃ rsp, env.authRsp.parseFromArray p.body = some rsp ∧
      env.authRsp.byteSizeLong rsp = p.body.length) ∨
  (p.header.cmdId = kCIM_CID_MSG_DATA ∧
    ∃ data, env.msgData.parseFromArray p.body = some data ∧
      env.msgData.byteSizeLong data = p.body.length)

/-- What is unread at the first byte of each packet. -/
def Packet.starts : List Packet → List Bytes
  | [] => []
  | p :: ps => wire (p :: ps) :: starts ps

/-- The packets of a chunk are taken apart: their headers are dispatched in order, every header
that is read begins at the first byte of its packet, and the assertion holds every time. -/
structure Coalesced (ps : List Packet) (r : Received) : Prop where
  headers : r.dispatches.map (·.header) = ps.map (·.header)
  starts : r.passes.map (·.head) = Packet.starts ps
  resetLen : ∀ d ∈ r.dispatches, d.ResetLenHolds

/-- Where the packets are taken apart, the handler of the first leaves what follows it. -/
theorem Coalesced.length_consume {ps : List Packet} {chunk : Chunk} (hidle : Idle kit)
    (hchunk : chunk.bytes = p.bytes ++ t) (h : Coalesced ps (Client.onMessage env kit chunk)) :
    (consume env p.header (p.body ++ t)).length = t.length := by
  have hreset := h.resetLen _ (List.mem_of_mem_head? (first_dispatch env hidle hchunk))
  have hlt := chunk.length_lt
  rw [hchunk, List.length_append] at hlt
  simp only [Dispatch.ResetLenHolds] at hreset
  omega

/-- A login response on its own is taken apart. -/
theorem coalesced_single {chunk : Chunk} (hidle : Idle kit)
    (hcmd : p.header.cmdId = kCIM_CID_LOGIN_AUTH_RSP) (hacc : p.Accepted env)
    (hchunk : chunk.bytes = p.bytes) : Coalesced [p] (Client.onMessage env kit chunk) := by
  obtain ⟨-, rsp, hparse, hsize⟩ | ⟨hdata, -⟩ := hacc
  · have hleft : consume env p.header p.body = [] := by
      rw [consume_parsed hcmd hparse, hsize, List.drop_length]
    have hlong := length_lt_of_bytes (hchunk.trans (List.append_nil _).symm)
    have hheads : headsOf env chunk = [p.bytes] := by
      rw [headsOf, if_neg (Nat.not_le.mpr hlong), hchunk, heads_bytes_last hleft]
    have hdispatches := onMessage_dispatches env hidle chunk
    have hacc := accepts_bytes p []
    have hframe := frameOf_bytes env p []
    rw [List.append_nil] at hacc hframe
    rw [List.append_nil, hleft] at hframe
    simp only [hheads, List.filterMap_cons, hacc, if_true, List.filterMap_nil,
      hframe] at hdispatches
    obtain ⟨d, hd, hquiet⟩ := List.map_eq_singleton_iff.mp hdispatches
    refine ⟨?_, ?_, ?_⟩
    · rw [hd]
      exact congrArg (fun d ↦ [d.header]) hquiet
    · rw [onMessage_heads env hidle, hheads]
      simp [Packet.starts]
    · intro e he
      rw [hd, List.mem_singleton] at he
      subst he
      have hreset : e.resetLen = ((0 : Nat) : Int) := congrArg Dispatch.resetLen hquiet
      have hnil : e.left = [] := congrArg Dispatch.left hquiet
      rw [Dispatch.ResetLenHolds, hreset, hnil]
      rfl
  · rw [hcmd] at hdata
    cases hdata

/-- Accepted packets are taken apart exactly when there is only one, a login response. -/
theorem coalesced_iff (hzero : env.authRsp.RejectsZeroTag) (hidle : Idle kit) {ps : List Packet}
    (hne : ps ≠ []) (hacc : ∀ p ∈ ps, p.Accepted env) {chunk : Chunk}
    (hchunk : chunk.bytes = Packet.wire ps) :
    Coalesced ps (Client.onMessage env kit chunk) ↔
      ∃ p, ps = [p] ∧ p.header.cmdId = kCIM_CID_LOGIN_AUTH_RSP := by
  constructor
  · intro h
    obtain ⟨p, rest, rfl⟩ := List.exists_cons_of_ne_nil hne
    have hlen := h.length_consume hidle (hchunk.trans (Packet.wire_cons p rest))
    have hpacc := hacc p List.mem_cons_self
    cases rest with
    | nil =>
        obtain ⟨hcmd, -⟩ | ⟨hcmd, -⟩ := hpacc
        · exact ⟨p, rfl, hcmd⟩
        · -- the body of a chat message stays behind
          have hbody := p.body_pos
          rw [consume_msgData hcmd, Packet.wire_nil, List.append_nil, List.length_nil] at hlen
          omega
    | cons q qs =>
        obtain ⟨z, hz⟩ := q.bytes_eq_zero_cons
        have hwire : Packet.wire (q :: qs) = 0 :: (z ++ Packet.wire qs) := by
          rw [Packet.wire_cons, hz, List.cons_append]
        obtain ⟨hcmd, rsp, hparse, -⟩ := (length_consume_iff (by rw [hwire]; simp)).mp hlen
        obtain ⟨-, rsp', hparse', -⟩ | ⟨hdata, -⟩ := hpacc
        · -- the zero byte of the next header is a field tag that is rejected
          have hnone := hzero p.body (z ++ Packet.wire qs) (by rw [hparse']; rfl)
          rw [hwire, hnone] at hparse
          cases hparse
        · rw [hcmd] at hdata
          cases hdata
  · rintro ⟨p, rfl, hcmd⟩
    refine coalesced_single hidle hcmd (hacc p List.mem_cons_self) ?_
    rw [hchunk, Packet.wire_cons, Packet.wire_nil, List.append_nil]

theorem loginResponse_accepted (ndebug : Bool) : loginResponse.Accepted (Env.generated ndebug) :=
  .inl ⟨by decide, { resultCode := 200 }, by rfl, by rfl⟩

theorem coalesced_loginResponse :
    Coalesced [loginResponse] (Client.onMessage (Env.generated false) (ChatKit.fresh none none)
      ⟨Packet.wire [loginResponse], by decide⟩) :=
  (coalesced_iff CIMAuthRsp.rejectsZeroTag (fresh_idle none none) (by decide)
    (List.forall_mem_singleton.mpr (loginResponse_accepted false)) rfl).mpr
      ⟨loginResponse, rfl, by decide⟩

theorem chatMessage_accepted (ndebug : Bool) : chatMessage.Accepted (Env.generated ndebug) :=
  .inr ⟨by decide, { msgType := 1 }, by rfl, by rfl⟩

/-- Even a single chat message is not taken apart. -/
theorem not_coalesced_chatMessage :
    CIMAuthRsp.codec.RejectsZeroTag ∧ chatMessage.Accepted (Env.generated false) ∧
      ¬ Coalesced [chatMessage] (Client.onMessage (Env.generated false)
        (ChatKit.fresh none none) ⟨Packet.wire [chatMessage], by decide⟩) := by
  refine ⟨CIMAuthRsp.rejectsZeroTag, chatMessage_accepted false, fun h ↦ ?_⟩
  have hlen := h.length_consume (fresh_idle none none) (Packet.wire_cons chatMessage [])
  rw [consume_msgData (by decide)] at hlen
  exact absurd hlen (by decide)

/-! ## The callback of the first packet -/

/-- The callback of the first dispatch is the one that the body of the packet on its own calls
for. -/
def OwnCall (env : Env) (kit : ChatKit) (p : Packet) (r : Received) : Prop :=
  ∃ d, r.dispatches.head? = some d ∧ d.calls = (callOf env kit p.header p.body).toList

theorem ownCall_iff_callOf (hidle : Idle kit) {chunk : Chunk}
    (hchunk : chunk.bytes = p.bytes ++ t) :
    OwnCall env kit p (Client.onMessage env kit chunk) ↔
      callOf env kit p.header (p.body ++ t) = callOf env kit p.header p.body := by
  simp only [OwnCall, first_dispatch env hidle hchunk, Option.some.injEq, exists_eq_left']
  constructor
  · intro h
    have hhead := congrArg List.head? h
    rwa [Option.head?_toList, Option.head?_toList] at hhead
  · intro h
    rw [h]

/-- The callback for a login response shows what protobuf made of it. -/
theorem callOf_authRsp_inj (hcmd : p.header.cmdId = kCIM_CID_LOGIN_AUTH_RSP) (u v : Bytes) :
    callOf env kit p.header u = callOf env kit p.header v ↔
      kit.client.loginCb = none ∨
        env.authRsp.parseFromArray u = env.authRsp.parseFromArray v := by
  rw [callOf_authRsp hcmd, callOf_authRsp hcmd]
  cases hcb : kit.client.loginCb with
  | none => simp
  | some id =>
      have hinj : Function.Injective (Call.loginCb id) := fun _ _ h ↦ (Call.loginCb.inj h).2
      have hmap (o : Option CIMAuthRsp) :
          (o.bind fun rsp ↦ (some id).map fun id ↦ Call.loginCb id rsp) =
            o.map (Call.loginCb id) := by cases o <;> rfl
      rw [hmap, hmap, (Option.map_injective hinj).eq_iff]
      simp

/-- The callback for a chat message shows what protobuf made of it. -/
theorem callOf_msgData_inj (hcmd : p.header.cmdId = kCIM_CID_MSG_DATA) (u v : Bytes) :
    callOf env kit p.header u = callOf env kit p.header v ↔
      kit.chatManager.recvCb = none ∨
        env.msgData.parseFromArray u = env.msgData.parseFromArray v := by
  rw [callOf_msgData hcmd, callOf_msgData hcmd]
  cases hcb : kit.chatManager.recvCb with
  | none => simp
  | some id =>
      have hinj : Function.Injective (Call.recvCb id) := fun _ _ h ↦ (Call.recvCb.inj h).2
      have hmap := (Option.map_injective hinj).eq_iff (a := env.msgData.parseFromArray u)
        (b := env.msgData.parseFromArray v)
      simpa using hmap

/-- The parser is given all that is unread, so what follows a packet matters to its callback
unless there is none or protobuf makes the same of body and rest as of the body. -/
theorem first_call_iff (hidle : Idle kit) {chunk : Chunk} (hchunk : chunk.bytes = p.bytes ++ t)
    (hcmd : p.header.cmdId = kCIM_CID_LOGIN_AUTH_RSP ∨ p.header.cmdId = kCIM_CID_MSG_DATA) :
    OwnCall env kit p (Client.onMessage env kit chunk) ↔
      (p.header.cmdId = kCIM_CID_LOGIN_AUTH_RSP → kit.client.loginCb = none ∨
        env.authRsp.parseFromArray (p.body ++ t) = env.authRsp.parseFromArray p.body) ∧
      (p.header.cmdId = kCIM_CID_MSG_DATA → kit.chatManager.recvCb = none ∨
        env.msgData.parseFromArray (p.body ++ t) = env.msgData.parseFromArray p.body) := by
  rw [ownCall_iff_callOf hidle hchunk]
  rcases hcmd with hauth | hdata
  · have hnot : p.header.cmdId ≠ kCIM_CID_MSG_DATA := hauth ▸ msgData_ne_authRsp.symm
    rw [callOf_authRsp_inj hauth]
    exact ⟨fun h ↦ ⟨fun _ ↦ h, fun hdata ↦ absurd hdata hnot⟩, fun h ↦ h.1 hauth⟩
  · have hnot : p.header.cmdId ≠ kCIM_CID_LOGIN_AUTH_RSP := hdata ▸ msgData_ne_authRsp
    rw [callOf_msgData_inj hdata]
    exact ⟨fun h ↦ ⟨fun hauth ↦ absurd hauth hnot, fun _ ↦ h⟩, fun h ↦ h.2 hdata⟩

theorem first_call_loginResponse :
    OwnCall (Env.generated true) (ChatKit.fresh (some 0) none) loginResponse
      (Client.onMessage (Env.generated true) (ChatKit.fresh (some 0) none)
        ⟨loginResponse.bytes, by decide⟩) :=
  (first_call_iff (fresh_idle (some 0) none) (List.append_nil loginResponse.bytes).symm
    (.inl (by decide))).mpr
      ⟨fun _ ↦ .inr (by rw [List.append_nil]), fun h ↦ absurd h (by decide)⟩

/-- A second login response in the chunk keeps the callback from being told of the first. -/
theorem not_first_call_loginResponse :
    callOf (Env.generated true) (ChatKit.fresh (some 0) none) loginResponse.header
        loginResponse.body = some (.loginCb 0 { resultCode := 200 }) ∧
      ¬ OwnCall (Env.generated true) (ChatKit.fresh (some 0) none) loginResponse
        (Client.onMessage (Env.generated true) (ChatKit.fresh (some 0) none)
          ⟨loginResponse.bytes ++ loginResponse.bytes, by decide⟩) := by
  have hown : callOf (Env.generated true) (ChatKit.fresh (some 0) none) loginResponse.header
      loginResponse.body = some (.loginCb 0 { resultCode := 200 }) := by rfl
  have hnone : callOf (Env.generated true) (ChatKit.fresh (some 0) none) loginResponse.header
      (loginResponse.body ++ loginResponse.bytes) = none := by rfl
  refine ⟨hown, fun h ↦ ?_⟩
  rw [ownCall_iff_callOf (fresh_idle (some 0) none) rfl, hown, hnone] at h
  cases h

/-! ## Packets the client cannot use -/

/-- A packet with an unknown command, or with a body that protobuf rejects. -/
def Packet.Unusable (env : Env) (p : Packet) : Prop :=
  (p.header.cmdId = kCIM_CID_LOGIN_AUTH_RSP → env.authRsp.parseFromArray p.body = none) ∧
    (p.header.cmdId = kCIM_CID_MSG_DATA → env.msgData.parseFromArray p.body = none)

/-- Each of the bad packets is dispatched at its own first byte and exactly its body is consumed
behind the header; then `r` is dispatched at its first byte, as `alone`. -/
def IsolatedBy (r : Packet) (alone : Option Dispatch) : List Packet → List Pass → Prop
  | [], pass :: _ => pass.head = r.bytes ∧ pass.dispatched.map Dispatch.quiet = alone
  | p :: ps, pass :: passes =>
    (pass.head = p.bytes ++ (Packet.wire ps ++ r.bytes) ∧
      ∃ d, pass.dispatched = some d ∧ d.header = p.header ∧
        d.body = p.body ++ (Packet.wire ps ++ r.bytes) ∧ d.left = Packet.wire ps ++ r.bytes) ∧
      IsolatedBy r alone ps passes
  | _, [] => False

/-- Every bad packet hands over to what follows it. -/
def AllHandOver (env : Env) : List Packet → Bytes → Prop
  | [], _ => True
  | p :: ps, t => HandsOver env p (Packet.wire ps ++ t) ∧ AllHandOver env ps t

/-- The passes of a chunk that begins with a packet begin with its dispatch. -/
theorem first_pass {passes : List Pass} (hpasses : passes.map Pass.view =
    (heads env (p.bytes ++ t)).map (viewAt env)) :
    ∃ pass more d, passes = pass :: more ∧ pass.head = p.bytes ++ t ∧
      pass.dispatched = some d ∧ d.quiet = frameOf env (p.bytes ++ t) := by
  obtain ⟨rest, hheads, -⟩ := heads_eq_cons env (hasHeader_bytes p t)
  rw [hheads, List.map_cons, List.map_eq_cons_iff] at hpasses
  obtain ⟨pass, more, rfl, hview, -⟩ := hpasses
  simp only [viewAt, accepts_bytes p t, if_true, Pass.view, Prod.mk.injEq] at hview
  obtain ⟨hhead, hdispatched⟩ := hview
  obtain ⟨d, hd, hquiet⟩ := Option.map_eq_some_iff.mp hdispatched
  exact ⟨pass, more, d, rfl, hhead, hd, hquiet⟩

/-- Once a packet hands over, the passes behind its own are those of what follows it. -/
theorem HandsOver.passes_tail {pass : Pass} {more : List Pass} (h : HandsOver env p t)
    (hnext : HasHeader t)
    (hpasses : (pass :: more).map Pass.view = (heads env (p.bytes ++ t)).map (viewAt env)) :
    more.map Pass.view = (heads env t).map (viewAt env) := by
  rw [heads_bytes_next hnext h.consume_eq, List.map_cons, List.map_cons] at hpasses
  exact (List.cons.inj hpasses).2

/-- Along the passes of a chunk, isolation is that every bad packet hands over. -/
theorem isolatedBy_iff (r : Packet) (bad : List Packet) {passes : List Pass}
    (hpasses : passes.map Pass.view =
      (heads env (Packet.wire bad ++ r.bytes)).map (viewAt env)) :
    IsolatedBy r (some (frameOf env r.bytes)) bad passes ↔ AllHandOver env bad r.bytes := by
  induction bad generalizing passes with
  | nil =>
      rw [Packet.wire_nil, List.nil_append, ← List.append_nil r.bytes] at hpasses
      obtain ⟨pass, more, d, rfl, hhead, hd, hquiet⟩ := first_pass hpasses
      rw [List.append_nil] at hhead hquiet
      simp only [IsolatedBy, AllHandOver, hhead, hd, Option.map_some, hquiet, and_self]
  | cons p ps ih =>
      rw [Packet.wire_cons, List.append_assoc] at hpasses
      generalize hrest : Packet.wire ps ++ r.bytes = rest at hpasses ih
      have hmin : HasHeader rest := by
        rw [HasHeader, ← hrest, List.length_append, r.length_bytes]
        omega
      have hne : rest ≠ [] := by
        rintro rfl
        exact absurd hmin (by simp [HasHeader, sizeofIMHeader])
      obtain ⟨pass, more, d, rfl, hhead, hd, hquiet⟩ := first_pass hpasses
      rw [frameOf_bytes] at hquiet
      have hleft : d.left = consume env p.header (p.body ++ rest) :=
        congrArg Dispatch.left hquiet
      simp only [IsolatedBy, AllHandOver, hrest]
      -- the passes behind the first are known only once it hands over
      constructor
      · rintro ⟨⟨-, d', hd', -, -, hleft'⟩, hisolated⟩
        cases hd.symm.trans hd'
        have hover := (length_consume_iff hne).mp (by rw [← hleft, hleft'])
        exact ⟨hover, (ih (hover.passes_tail hmin hpasses)).mp hisolated⟩
      · rintro ⟨hover, hall⟩
        exact ⟨⟨hhead, d, hd, congrArg Dispatch.header hquiet, congrArg Dispatch.body hquiet,
          hleft.trans hover.consume_eq⟩, (ih (hover.passes_tail hmin hpasses)).mpr hall⟩

/-- A call on a chunk that ends in `r`, as its passes show it. -/
theorem onMessage_view_wire (env : Env) (bad : List Packet) (r : Packet) (hidle : Idle kit)
    {chunk : Chunk} (hchunk : chunk.bytes = Packet.wire bad ++ r.bytes) :
    (Client.onMessage env kit chunk).passes.map Pass.view =
      (heads env (Packet.wire bad ++ r.bytes)).map (viewAt env) := by
  have hpos := r.body_pos
  have hlong : ¬ chunk.bytes.length ≤ sizeofIMHeader := by
    rw [hchunk, List.length_append, r.length_bytes]
    omega
  rw [onMessage_view env hidle, headsOf, if_neg hlong, hchunk]

/-- The dispatch of a packet that is alone in its chunk. -/
theorem dispatch_alone (hidle : Idle kit) {r : Packet} {chunk : Chunk}
    (hchunk : chunk.bytes = r.bytes) :
    (Client.onMessage env kit chunk).dispatches.head?.map Dispatch.quiet =
      some (frameOf env r.bytes) := by
  have hframe := frameOf_bytes env r []
  rw [List.append_nil] at hframe
  rw [first_dispatch env hidle (hchunk.trans (List.append_nil _).symm), hframe]
  rfl

/-- The packets in front of `r` are isolated from it exactly when each of them is a login
response that protobuf accepts together with all that follows, at the size of its body alone. -/
theorem isolated_iff (bad : List Packet) (r : Packet) (hidle : Idle kit) {chunk : Chunk}
    (hchunk : chunk.bytes = Packet.wire bad ++ r.bytes) {kit' : ChatKit} (hidle' : Idle kit')
    {alone : Chunk} (halone : alone.bytes = r.bytes) :
    IsolatedBy r ((Client.onMessage env kit' alone).dispatches.head?.map Dispatch.quiet) bad
        (Client.onMessage env kit chunk).passes ↔
      AllHandOver env bad r.bytes := by
  rw [dispatch_alone hidle' halone]
  exact isolatedBy_iff r bad (onMessage_view_wire env bad r hidle hchunk)

/-- A login response that breaks off in a string, which the packet of `chatMessage` completes. -/
def brokenResponse : Packet where
  header := ⟨36, 1, 0, 0, 0x0108, 1, 0⟩
  body := [0x1a, 16] ++ List.replicate 16 0x61 ++ [0x1a, 18]
  len_eq := by decide
  body_ne_nil := by decide
  len_lt := by decide

/-- The chunk of the broken login response and the packet that completes it. -/
def brokenChunk : Chunk :=
  ⟨Packet.wire [brokenResponse] ++ chatMessage.bytes, by decide +kernel⟩

theorem isolated_brokenResponse :
    brokenResponse.Unusable (Env.generated true) ∧
      IsolatedBy chatMessage
        ((Client.onMessage (Env.generated true) (ChatKit.fresh none none)
          ⟨chatMessage.bytes, by decide⟩).dispatches.head?.map Dispatch.quiet)
        [brokenResponse]
        (Client.onMessage (Env.generated true) (ChatKit.fresh none none) brokenChunk).passes := by
  have hunusable : brokenResponse.Unusable (Env.generated true) :=
    ⟨fun _ ↦ by decide +kernel, fun h ↦ absurd h (by decide)⟩
  have hover : HandsOver (Env.generated true) brokenResponse
      (Packet.wire [] ++ chatMessage.bytes) :=
    ⟨by decide, { resultString := chatMessage.bytes }, by decide +kernel, by decide +kernel⟩
  have hchunk : brokenChunk.bytes = Packet.wire [brokenResponse] ++ chatMessage.bytes := rfl
  have hall : AllHandOver (Env.generated true) [brokenResponse] chatMessage.bytes :=
    ⟨hover, trivial⟩
  refine ⟨hunusable, ?_⟩
  rw [isolated_iff [brokenResponse] chatMessage (fresh_idle none none) hchunk
    (fresh_idle none none) rfl]
  exact hall

/-- A packet with a command the client does not know. -/
def unknownPacket : Packet where
  header := ⟨17, 1, 0, 0, 0x0109, 1, 0⟩
  body := [0x01]
  len_eq := by decide
  body_ne_nil := by decide
  len_lt := by decide

/-- The chunk of the unknown packet and a chat message. -/
def unknownChunk : Chunk :=
  ⟨Packet.wire [unknownPacket] ++ chatMessage.bytes, by decide +kernel⟩

/-- A packet with an unknown command takes the packet behind it along. -/
theorem not_isolated_unknownPacket :
    unknownPacket.Unusable (Env.generated true) ∧
      ¬ IsolatedBy chatMessage
        ((Client.onMessage (Env.generated true) (ChatKit.fresh none none)
          ⟨chatMessage.bytes, by decide⟩).dispatches.head?.map Dispatch.quiet)
        [unknownPacket]
        (Client.onMessage (Env.generated true) (ChatKit.fresh none none) unknownChunk).passes := by
  have hunusable : unknownPacket.Unusable (Env.generated true) :=
    ⟨fun h ↦ absurd h (by decide), fun h ↦ absurd h (by decide)⟩
  have hview := onMessage_view_wire (Env.generated true) [unknownPacket] chatMessage
    (fresh_idle none none) (rfl : unknownChunk.bytes = _)
  have hnot : ¬ AllHandOver (Env.generated true) [unknownPacket] chatMessage.bytes :=
    fun h ↦ absurd h.1.1 (by decide)
  rw [dispatch_alone (fresh_idle none none) rfl, isolatedBy_iff chatMessage [unknownPacket] hview]
  exact ⟨hunusable, hnot⟩

end CoffeeChat
