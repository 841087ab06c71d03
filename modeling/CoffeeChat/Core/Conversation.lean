import CoffeeChat.Core.Untouched
import CoffeeChat.Core.Coalescing
import CoffeeChat.Core.EndToEnd
import Mathlib.Data.List.Forall2

/-!
# Whole conversations

Where every read delivers one frame, the client hears each login response of the size that protobuf
counts and each chat message that protobuf accepts, once and in order, as long as no chat message
comes to a build with the assertion on `reset_len` (`hearsAll_iff`). The handler of a chat message
leaves the body unread, so the loop of `Client::onMessage` goes round once more over it, and what
saves the receiver is that no message begins with a zero byte: the body never passes for a frame.
From this follows what two clients make of a whole conversation (`conversed_iff`).
-/

namespace CoffeeChat

open Lib Lib.Endian

/-! ## A frame in a read of its own -/

section Alone

variable {env : Env} {kit : ChatKit} {p : Packet}

/-- A login response that protobuf accepts at the size of its body, or a chat message that it
accepts. -/
def Packet.Usable (env : Env) (p : Packet) : Prop :=
  (p.header.cmdId = kCIM_CID_LOGIN_AUTH_RSP ∧
    ∃ rsp, env.authRsp.parseFromArray p.body = some rsp ∧
      env.authRsp.byteSizeLong rsp = p.body.length) ∨
  (p.header.cmdId = kCIM_CID_MSG_DATA ∧ (env.msgData.parseFromArray p.body).isSome)

/-- A message that protobuf accepts does not begin with a zero byte. -/
theorem head_ne_zero (hzero : env.msgData.RejectsZeroTag) (hempty : env.msgData.ParsesEmpty {})
    {z : UInt8} {rest : Bytes} (h : (env.msgData.parseFromArray (z :: rest)).isSome) : z ≠ 0 := by
  rintro rfl
  have hnone := hzero [] rest (by rw [hempty]; rfl)
  rw [List.nil_append] at hnone
  rw [hnone] at h
  cases h

/-- Four bytes and more that do not begin with a zero byte declare a length that is refused. -/
theorem not_accepts_of_head {z : UInt8} {rest : Bytes} (hz : z ≠ 0) (hlong : 3 ≤ rest.length) :
    ¬ Accepts (z :: rest) := by
  intro hacc
  have hsmall : (IMHeader.decode (z :: rest)).len.toNat < 10240 := by
    simpa [kMaxBufferLen] using UInt32.lt_iff_toNat_lt.mp hacc.2.2
  -- the first byte counts for 16 MiB
  have hlow : (rest.take 3).length = 3 := List.length_take_of_le hlong
  have hvalue : beValue (z :: rest.take 3) = beValue (rest.take 3) + z.toNat * 256 ^ 3 := by
    rw [beValue, List.reverse_cons, leValue_append_singleton, List.length_reverse, hlow]
    rfl
  have hlt : beValue (rest.take 3) < 256 ^ 3 := by
    have h := leValue_lt (rest.take 3).reverse
    rwa [List.length_reverse, hlow] at h
  have hlen : (IMHeader.decode (z :: rest)).len.toNat = beValue (z :: rest.take 3) % 2 ^ 32 :=
    UInt32.toNat_ofNat' ..
  have hpos : 0 < z.toNat := Nat.pos_of_ne_zero fun h ↦ hz (UInt8.toNat_inj.mp h)
  have hbyte := z.toNat_lt
  rw [hvalue] at hlen
  omega

/-- The turn at a frame that is alone. -/
theorem walkTurn_alone (env : Env) (p : Packet) :
    (walkTurn env p.bytes).2 =
      if env.ndebug = false ∧ (consume env p.header p.body).length ≠ 0 then .fail .assertFailed
      else if (consume env p.header p.body).length < sizeofIMHeader then
        .leave (consume env p.header p.body)
      else .again (consume env p.header p.body) := by
  have hturn := walkTurn_bytes env p []
  rwa [List.append_nil, List.append_nil] at hturn

/-- The walk over a usable frame is left by `break`, and it dispatches nothing but the frame. -/
theorem walk_usable (hzero : env.msgData.RejectsZeroTag) (hempty : env.msgData.ParsesEmpty {})
    (hp : p.Usable env) (hndebug : p.header.cmdId = kCIM_CID_MSG_DATA → env.ndebug = true) :
    ∃ rest v, Loop.run (walkTurn env) p.bytes.length p.bytes = (p.bytes :: rest, .left v) ∧
      ∀ u ∈ rest, ¬ Accepts u := by
  obtain ⟨n, hn⟩ : ∃ n, p.bytes.length = n + 2 := by
    refine ⟨p.bytes.length - 2, ?_⟩
    rw [p.length_bytes, sizeofIMHeader]
    omega
  have hturn := walkTurn_alone env p
  obtain ⟨hcmd, rsp, hparse, hsize⟩ | ⟨hcmd, hparse⟩ := hp
  · -- a login response leaves nothing
    have hleft : consume env p.header p.body = [] := by
      rw [consume_parsed hcmd hparse, hsize, List.drop_length]
    rw [hleft, if_neg (fun h ↦ h.2 rfl), if_pos (by decide)] at hturn
    have hleave : walkTurn env p.bytes = (p.bytes, .leave []) :=
      Prod.ext (walkTurn_fst env p.bytes) hturn
    refine ⟨[], [], ?_, fun u hu ↦ absurd hu List.not_mem_nil⟩
    rw [hn, Loop.run_leave hleave]
  · -- a chat message leaves its body
    rw [consume_msgData hcmd, if_neg (by rw [hndebug hcmd]; exact fun h ↦ by cases h.1)] at hturn
    split at hturn
    case isTrue =>
      have hleave : walkTurn env p.bytes = (p.bytes, .leave p.body) :=
        Prod.ext (walkTurn_fst env p.bytes) hturn
      refine ⟨[], p.body, ?_, fun u hu ↦ absurd hu List.not_mem_nil⟩
      rw [hn, Loop.run_leave hleave]
    case isFalse hlong =>
      have hrefused : ¬ Accepts p.body := by
        cases hbody : p.body with
        | nil => exact absurd hbody p.body_ne_nil
        | cons z rest =>
            rw [hbody] at hparse hlong
            rw [List.length_cons, sizeofIMHeader] at hlong
            exact not_accepts_of_head (head_ne_zero hzero hempty hparse) (by omega)
      have hagain : walkTurn env p.bytes = (p.bytes, .again p.body) :=
        Prod.ext (walkTurn_fst env p.bytes) hturn
      have hleave : walkTurn env p.body = (p.body, .leave (p.body.drop 4)) := by
        rw [walkTurn, if_neg hrefused]
      refine ⟨[p.body], p.body.drop 4, ?_, fun u hu ↦ List.mem_singleton.mp hu ▸ hrefused⟩
      rw [hn, Loop.run_again hagain, Loop.run_leave hleave]

/-- Where the walk over a chunk is left by `break`, the call returns. -/
theorem onMessage_returns (hidle : Idle kit) {chunk : Chunk}
    (hlong : sizeofIMHeader < chunk.bytes.length) {v : Bytes}
    (h : (Loop.run (walkTurn env) chunk.bytes.length chunk.bytes).2 = .left v) :
    ∃ kit', (Client.onMessage env kit chunk).outcome = .left kit' := by
  obtain ⟨kit1, htop, -, hrun⟩ := onMessageFuel_long env hidle hlong
  have hend := (loop_refines env htop chunk.bytes.length).2
  rw [h] at hend
  rw [Client.onMessage, hrun]
  generalize (Loop.run (Client.loopBody env) chunk.bytes.length kit1).2 = last at hend
  cases hend with
  | left hholds => exact ⟨_, rfl⟩

/-- Where the assertion stops the walk, the call does not return. -/
theorem onMessage_stops (hidle : Idle kit) {chunk : Chunk}
    (hlong : sizeofIMHeader < chunk.bytes.length)
    (h : (Loop.run (walkTurn env) chunk.bytes.length chunk.bytes).2 = .failed .assertFailed)
    (kit' : ChatKit) : (Client.onMessage env kit chunk).outcome ≠ .left kit' := by
  obtain ⟨kit1, htop, -, hrun⟩ := onMessageFuel_long env hidle hlong
  have hend := (loop_refines env htop chunk.bytes.length).2
  rw [h] at hend
  rw [Client.onMessage, hrun]
  generalize (Loop.run (Client.loopBody env) chunk.bytes.length kit1).2 = last at hend
  cases hend with
  | failed => exact (fun h ↦ by cases h)

/-- A usable frame in a read of its own is dispatched once, with its callback. -/
theorem onMessage_alone (hidle : Idle kit) (hzero : env.msgData.RejectsZeroTag)
    (hempty : env.msgData.ParsesEmpty {}) (hp : p.Usable env)
    (hndebug : p.header.cmdId = kCIM_CID_MSG_DATA → env.ndebug = true) {chunk : Chunk}
    (hchunk : chunk.bytes = p.bytes) :
    (∃ kit', (Client.onMessage env kit chunk).outcome = .left kit') ∧
      (Client.onMessage env kit chunk).calls = (callOf env kit p.header p.body).toList := by
  obtain ⟨rest, v, hwalk, hrefused⟩ := walk_usable hzero hempty hp hndebug
  have hplain := hchunk.trans (List.append_nil _).symm
  have hlong := length_lt_of_bytes hplain
  rw [← hchunk] at hwalk
  refine ⟨onMessage_returns hidle hlong (congrArg Prod.snd hwalk), ?_⟩
  -- the only head that is accepted is the first
  have hheads : headsOf env chunk = chunk.bytes :: rest := by
    rw [headsOf, if_neg (Nat.not_le.mpr hlong)]
    exact congrArg Prod.fst hwalk
  have hnone : rest.filterMap (fun u ↦ if Accepts u then some (frameOf env u) else none) = [] :=
    List.filterMap_eq_nil_iff.mpr fun u hu ↦ if_neg (hrefused u hu)
  have hacc : Accepts chunk.bytes := hplain ▸ accepts_bytes p []
  have hcount := congrArg List.length (onMessage_dispatches env hidle chunk)
  simp only [hheads, List.filterMap_cons, hacc, if_true, hnone, List.length_map,
    List.length_singleton] at hcount
  obtain ⟨d, hd⟩ := List.length_eq_one_iff.mp hcount
  have hfirst := first_dispatch env hidle hplain
  rw [hd, List.append_nil] at hfirst
  rw [Received.calls, hd, List.flatMap_singleton, Option.some.inj hfirst]

/-- A chat message stops a build with the assertion on `reset_len`. -/
theorem onMessage_asserts (hidle : Idle kit) (hcmd : p.header.cmdId = kCIM_CID_MSG_DATA)
    (hndebug : env.ndebug = false) {chunk : Chunk} (hchunk : chunk.bytes = p.bytes)
    (kit' : ChatKit) : (Client.onMessage env kit chunk).outcome ≠ .left kit' := by
  have hpos := p.body_pos
  have hturn := walkTurn_alone env p
  rw [consume_msgData hcmd, if_pos ⟨hndebug, by omega⟩] at hturn
  obtain ⟨n, hn⟩ : ∃ n, p.bytes.length = n + 1 := by
    refine ⟨p.bytes.length - 1, ?_⟩
    rw [p.length_bytes]
    omega
  have hlong := length_lt_of_bytes (hchunk.trans (List.append_nil _).symm)
  refine onMessage_stops hidle hlong ?_ kit'
  have hfst := walkTurn_fst env p.bytes
  cases hb : walkTurn env p.bytes with
  | mk record turn =>
      rw [hb] at hturn
      cases hturn
      rw [hchunk, hn, Loop.run, hb]

end Alone

/-! ## Frames one by one -/

/-- A frame that arrives in a read of its own, and what surrounds the client then. -/
structure Arrival where
  env : Env
  packet : Packet

namespace Arrival

/-- The bytes read. -/
def chunk (a : Arrival) : Chunk where
  bytes := a.packet.bytes
  length_lt := by
    have hlt := a.packet.len_toNat_lt
    rw [a.packet.len_eq] at hlt
    rw [a.packet.length_bytes]
    omega

/-- The call of `onMessage`. -/
def call (a : Arrival) : Env × Chunk := (a.env, a.chunk)

/-- The frame is usable, protobuf does what it documents, and no callback registers another. -/
structure Regular (a : Arrival) : Prop where
  usable : a.packet.Usable a.env
  rejectsZeroTag : a.env.msgData.RejectsZeroTag
  parsesEmpty : a.env.msgData.ParsesEmpty {}
  keeps : a.env.app.KeepsCallbacks

end Arrival

/-- The client hears all frames: every call of `onMessage` returns, and the callbacks that run are
those that the frames call for, in their order. -/
def HearsAll (kit : ChatKit) (arrivals : List Arrival) : Prop :=
  (∃ kit', (Client.onMessages kit (arrivals.map Arrival.call)).outcome = .left kit') ∧
    (Client.onMessages kit (arrivals.map Arrival.call)).calls =
      arrivals.filterMap fun a ↦ callOf a.env kit a.packet.header a.packet.body

/-- Behind a frame that is heard the client goes on with the others. -/
theorem hearsAll_cons {a : Arrival} {kit kit' : ChatKit} {rest : List Arrival}
    (hleft : (Client.onMessage a.env kit a.chunk).outcome = .left kit')
    (hcalls : (Client.onMessage a.env kit a.chunk).calls =
      (callOf a.env kit a.packet.header a.packet.body).toList)
    (hsame : SameCallbacks kit kit') : HearsAll kit (a :: rest) ↔ HearsAll kit' rest := by
  have hrun := onMessages_cons_left hleft (rest.map Arrival.call)
  have hsplit : (Client.onMessages kit ((a :: rest).map Arrival.call)).calls =
      (callOf a.env kit a.packet.header a.packet.body).toList ++
        (Client.onMessages kit' (rest.map Arrival.call)).calls := by
    rw [← hcalls, List.map_cons, Arrival.call, hrun]
    simp [Received.calls, Received.dispatches]
  have hheard : (a :: rest).filterMap
      (fun b ↦ callOf b.env kit b.packet.header b.packet.body) =
        (callOf a.env kit a.packet.header a.packet.body).toList ++
          rest.filterMap fun b ↦ callOf b.env kit' b.packet.header b.packet.body := by
    simp only [List.filterMap_cons, hsame.callOf_eq]
    cases callOf a.env kit a.packet.header a.packet.body <;> rfl
  rw [HearsAll, HearsAll, hsplit, hheard, List.append_cancel_left_eq, List.map_cons,
    Arrival.call, hrun]

/-- Usable frames are heard when no chat message comes to a build with the assertion on
`reset_len`. -/
theorem hearsAll_of_ndebug {kit : ChatKit} (hidle : Idle kit) {arrivals : List Arrival}
    (hregular : ∀ a ∈ arrivals, a.Regular)
    (hndebug : ∀ a ∈ arrivals, a.packet.header.cmdId = kCIM_CID_MSG_DATA → a.env.ndebug = true) :
    HearsAll kit arrivals := by
  induction arrivals generalizing kit with
  | nil => exact ⟨⟨kit, rfl⟩, rfl⟩
  | cons a rest ih =>
      obtain ⟨husable, hzero, hempty, hkeeps⟩ := hregular a List.mem_cons_self
      obtain ⟨⟨kit', hleft⟩, hcalls⟩ := onMessage_alone hidle hzero hempty husable
        (hndebug a List.mem_cons_self) (rfl : a.chunk.bytes = _)
      rw [hearsAll_cons hleft hcalls (onMessage_sameCallbacks hkeeps hleft)]
      -- behind the first frame the client is idle, with the same callbacks
      exact ih (onMessage_left_idle hidle hleft)
        (fun b hb ↦ hregular b (List.mem_cons_of_mem a hb))
        (fun b hb ↦ hndebug b (List.mem_cons_of_mem a hb))

/-- A run that returns has met no chat message in a build with the assertion on `reset_len`. -/
theorem ndebug_of_left {kit kit' : ChatKit} (hidle : Idle kit) {arrivals : List Arrival}
    (hleft : (Client.onMessages kit (arrivals.map Arrival.call)).outcome = .left kit') :
    ∀ a ∈ arrivals, a.packet.header.cmdId = kCIM_CID_MSG_DATA → a.env.ndebug = true := by
  induction arrivals generalizing kit with
  | nil => exact fun a ha ↦ absurd ha List.not_mem_nil
  | cons a rest ih =>
      by_cases hreturns : ∃ kit1, (Client.onMessage a.env kit a.chunk).outcome = .left kit1
      · obtain ⟨kit1, hfirst⟩ := hreturns
        rw [List.map_cons, Arrival.call, onMessages_cons_left hfirst] at hleft
        refine List.forall_mem_cons.mpr ⟨fun hcmd ↦ ?_, ih (onMessage_left_idle hidle hfirst) hleft⟩
        by_contra hdebug
        exact onMessage_asserts hidle hcmd (eq_false_of_ne_true hdebug)
          (rfl : a.chunk.bytes = _) kit1 hfirst
      · have hstops := not_exists.mp hreturns
        rw [List.map_cons, Arrival.call, onMessages_cons_stop hstops] at hleft
        exact absurd hleft (hstops kit')

/-- A message on its way: what the sender passes to `sendMessage`, and what surrounds the sender
then and the receiver when its frame is read. -/
structure Exchange where
  sender : Env
  receiver : Env
  toId : UInt64
  msg : Int32
  msgData : Bytes

/-- The calls of `sendMessage`. -/
def ChatManager.sendMessages (kit : ChatKit) (xs : List Exchange) : Result ChatKit :=
  xs.foldlM (fun kit x ↦ ChatManager.sendMessage x.sender kit x.toId x.msg x.msgData) kit

/-- Both ends use the same protobuf class, the frame is one that the receiver accepts, and the
callbacks of the receiver register none. -/
structure Exchange.Fits (x : Exchange) (codec : Codec CIMMsgData) (kit : ChatKit) : Prop where
  sender : x.sender.msgData = codec
  receiver : x.receiver.msgData = codec
  keeps : x.receiver.app.KeepsCallbacks
  short : sizeofIMHeader + (codec.toLite (kit.outData x.toId x.msg x.msgData)).byteSizeLong <
    kMaxBufferLen.toNat

/-- `kit` passes the messages to `sendMessage` one after another, the buffers it hands to its
connection reach `kit'` one by one, every call of `onMessage` returns, and `id` sees the messages
that were passed, each once and in order. -/
def Conversed (kit kit' : ChatKit) (tcp : TcpClient) (id : CallbackId) (xs : List Exchange) :
    Prop :=
  ∃ sent frames, ChatManager.sendMessages kit xs = .ok sent ∧
    sent.client.tcpClient = some { tcp with sent := tcp.sent ++ frames } ∧
    ∃ chunks : List Chunk, chunks.map (·.bytes) = frames.map Prod.fst ∧
      (∃ kit'', (Client.onMessages kit' ((xs.map (·.receiver)).zip chunks)).outcome =
        .left kit'') ∧
      ∃ heard : List CIMMsgData,
        (Client.onMessages kit' ((xs.map (·.receiver)).zip chunks)).calls =
          heard.map (Call.recvCb id) ∧
        heard.map (fun data ↦ (data.fromUserId, data.toSessionId, data.msgType, data.msgData)) =
          xs.map fun x ↦ (kit.client.userId, x.toId, x.msg, x.msgData)

section Conversation

variable {codec : Codec CIMMsgData} {kit kit' : ChatKit} {tcp : TcpClient} {id : CallbackId}
variable {xs : List Exchange}

/-- The frame of a message, as it arrives. -/
structure Carries (codec : Codec CIMMsgData) (kit : ChatKit) (x : Exchange) (a : Arrival) :
    Prop where
  env : a.env = x.receiver
  cmdId : a.packet.header.cmdId = kCIM_CID_MSG_DATA
  body : a.packet.body = codec.serializeToArray (kit.outData x.toId x.msg x.msgData)

/-- One call of `sendMessage` hands one frame to the connection. -/
theorem sendMessage_carries (hempty : codec.ParsesEmpty {})
    (hround : codec.RoundTrips CIMMsgData.WellFormed)
    (htcp : kit.client.tcpClient = some tcp) (hup : tcp.connectStatus = .kConnectOk) {x : Exchange}
    (hfits : x.Fits codec kit) :
    ∃ kit1 a r, ChatManager.sendMessage x.sender kit x.toId x.msg x.msgData = .ok kit1 ∧
      kit1.client.tcpClient = some { tcp with sent := tcp.sent ++ [(a.packet.bytes, r)] } ∧
      kit1.client.userId = kit.client.userId ∧ Carries codec kit x a := by
  obtain ⟨rfl, _, _, hshort⟩ := hfits
  have hne := outData_ne_nil hempty (outData_parsed hround hshort)
  obtain ⟨r, c', hsend, hsent⟩ := send_connected x.sender htcp hup kCIM_CID_MSG_DATA hshort
  refine ⟨{ kit with client := c' },
    ⟨x.receiver, kit.client.outPacket kCIM_CID_MSG_DATA _ hne hshort⟩, r, ?_, hsent,
    (Client.send_quiet hsend).userId, rfl, by rfl, rfl⟩
  exact bind_eq_ok.mpr ⟨_, hsend, rfl⟩

theorem Carries.of_userId {kit1 : ChatKit} (h : kit1.client.userId = kit.client.userId)
    {x : Exchange} {a : Arrival} (hcarries : Carries codec kit1 x a) : Carries codec kit x a :=
  ⟨hcarries.env, hcarries.cmdId,
    outData_eq_of_userId h x.toId x.msg x.msgData ▸ hcarries.body⟩

/-- The calls of `sendMessage` hand one frame each to the connection, in their order. -/
theorem sendMessages_carry (hempty : codec.ParsesEmpty {})
    (hround : codec.RoundTrips CIMMsgData.WellFormed)
    (htcp : kit.client.tcpClient = some tcp) (hup : tcp.connectStatus = .kConnectOk)
    (hfits : ∀ x ∈ xs, x.Fits codec kit) :
    ∃ sent arrivals frames, ChatManager.sendMessages kit xs = .ok sent ∧
      sent.client.tcpClient = some { tcp with sent := tcp.sent ++ frames } ∧
      arrivals.map (·.packet.bytes) = frames.map Prod.fst ∧
      List.Forall₂ (Carries codec kit) xs arrivals := by
  induction xs generalizing kit tcp with
  | nil => exact ⟨kit, [], [], rfl, by rw [List.append_nil]; exact htcp, rfl, .nil⟩
  | cons x rest ih =>
      obtain ⟨kit1, a, r, hfirst, hsent, huser, hcarries⟩ :=
        sendMessage_carries hempty hround htcp hup (hfits x List.mem_cons_self)
      have hrest (y : Exchange) (hy : y ∈ rest) : y.Fits codec kit1 := by
        obtain ⟨hsender, hreceiver, hkeeps, hshort⟩ := hfits y (List.mem_cons_of_mem x hy)
        exact ⟨hsender, hreceiver, hkeeps, by rwa [outData_eq_of_userId huser]⟩
      obtain ⟨sent, arrivals, frames, hok, htcp', hbytes, hall⟩ := ih hsent hup hrest
      refine ⟨sent, a :: arrivals, (a.packet.bytes, r) :: frames, ?_, ?_, ?_, ?_⟩
      · rw [ChatManager.sendMessages, List.foldlM_cons]
        exact bind_eq_ok.mpr ⟨kit1, hfirst, hok⟩
      · rw [htcp', List.append_assoc, List.singleton_append]
      · rw [List.map_cons, List.map_cons, hbytes]
      · exact .cons hcarries (List.Forall₂.imp (fun _ _ h ↦ h.of_userId huser) hall)

/-- The reads of the receiver are the frames of the sender. -/
theorem zip_chunks {arrivals : List Arrival} (hall : List.Forall₂ (Carries codec kit) xs arrivals)
    {chunks : List Chunk} (h : chunks.map (·.bytes) = arrivals.map (·.packet.bytes)) :
    (xs.map (·.receiver)).zip chunks = arrivals.map Arrival.call := by
  induction hall generalizing chunks with
  | nil => rfl
  | cons hcarries _ ih =>
      rw [List.map_cons, List.map_eq_cons_iff] at h
      obtain ⟨chunk, rest, rfl, hbytes, hrest⟩ := h
      rw [List.map_cons, List.map_cons, List.zip_cons_cons, ih hrest, ← hcarries.env]
      obtain ⟨bytes, _⟩ := chunk
      subst hbytes
      rfl

/-- What the frames call for. -/
theorem filterMap_callOf {arrivals : List Arrival} (hcb : kit'.chatManager.recvCb = some id)
    (hround : codec.RoundTrips CIMMsgData.WellFormed) (hfits : ∀ x ∈ xs, x.Fits codec kit)
    (hall : List.Forall₂ (Carries codec kit) xs arrivals) :
    arrivals.filterMap (fun a ↦ callOf a.env kit' a.packet.header a.packet.body) =
      (xs.map fun x ↦ kit.outData x.toId x.msg x.msgData).map (Call.recvCb id) := by
  induction hall with
  | nil => rfl
  | @cons x a xs arrivals hcarries _ ih =>
      obtain ⟨hsender, hreceiver, _, hshort⟩ := hfits x List.mem_cons_self
      have hparse : codec.parseFromArray
          (codec.serializeToArray (kit.outData x.toId x.msg x.msgData)) = _ :=
        hsender ▸ outData_parsed (hsender ▸ hround) (hsender ▸ hshort)
      have hcall : callOf a.env kit' a.packet.header a.packet.body =
          some (.recvCb id (kit.outData x.toId x.msg x.msgData)) := by
        rw [callOf_msgData hcarries.cmdId, hcb, hcarries.env, hreceiver, hcarries.body, hparse]
        rfl
      rw [List.filterMap_cons, hcall, List.map_cons, List.map_cons,
        ih fun y hy ↦ hfits y (List.mem_cons_of_mem x hy)]

/-- Every frame of a conversation is one the receiver can use. -/
theorem regular_of_carries (hempty : codec.ParsesEmpty {}) (hzero : codec.RejectsZeroTag)
    (hround : codec.RoundTrips CIMMsgData.WellFormed) (hfits : ∀ x ∈ xs, x.Fits codec kit)
    {arrivals : List Arrival} (hall : List.Forall₂ (Carries codec kit) xs arrivals) :
    ∀ a ∈ arrivals, a.Regular := by
  induction hall with
  | nil => exact fun a ha ↦ absurd ha List.not_mem_nil
  | @cons x a xs arrivals hcarries _ ih =>
      obtain ⟨hsender, hreceiver, hkeeps, hshort⟩ := hfits x List.mem_cons_self
      have hparse : x.sender.msgData.parseFromArray
          (x.sender.msgData.serializeToArray (kit.outData x.toId x.msg x.msgData)) = _ :=
        outData_parsed (hsender ▸ hround) (hsender ▸ hshort)
      have hcodec : a.env.msgData = codec := hcarries.env ▸ hreceiver
      refine List.forall_mem_cons.mpr
        ⟨⟨.inr ⟨hcarries.cmdId, ?_⟩, hcodec ▸ hzero, hcodec ▸ hempty, hcarries.env ▸ hkeeps⟩,
          ih fun y hy ↦ hfits y (List.mem_cons_of_mem x hy)⟩
      rw [hcodec, hcarries.body, ← hsender, hparse]
      rfl

/-- Whether two clients converse is a matter of what the receiver makes of the frames. -/
theorem conversed_iff_arrivals {arrivals : List Arrival} {sent : ChatKit}
    {frames : List (Bytes × Int32)} (hok : ChatManager.sendMessages kit xs = .ok sent)
    (htcp : sent.client.tcpClient = some { tcp with sent := tcp.sent ++ frames })
    (hbytes : arrivals.map (·.packet.bytes) = frames.map Prod.fst)
    (hall : List.Forall₂ (Carries codec kit) xs arrivals) :
    Conversed kit kit' tcp id xs ↔
      (∃ kit'', (Client.onMessages kit' (arrivals.map Arrival.call)).outcome = .left kit'') ∧
      ∃ heard : List CIMMsgData,
        (Client.onMessages kit' (arrivals.map Arrival.call)).calls =
          heard.map (Call.recvCb id) ∧
        heard.map (fun data ↦ (data.fromUserId, data.toSessionId, data.msgType, data.msgData)) =
          xs.map fun x ↦ (kit.client.userId, x.toId, x.msg, x.msgData) := by
  constructor
  · rintro ⟨sent', frames', hok', htcp', chunks, hchunks, hleft, hheard⟩
    cases hok.symm.trans hok'
    have hframes : frames' = frames := by
      simpa using htcp'.symm.trans htcp
    rw [zip_chunks hall (hchunks.trans (hframes ▸ hbytes.symm))] at hleft hheard
    exact ⟨hleft, hheard⟩
  · rintro ⟨hleft, hheard⟩
    have hchunks : (arrivals.map Arrival.chunk).map (·.bytes) = arrivals.map (·.packet.bytes) := by
      rw [List.map_map]
      rfl
    refine ⟨sent, frames, hok, htcp, arrivals.map Arrival.chunk, hchunks.trans hbytes, ?_⟩
    rw [zip_chunks hall hchunks]
    exact ⟨hleft, hheard⟩

/-- All frames go to the builds that the messages go to. -/
theorem ndebug_iff_of_carries {arrivals : List Arrival}
    (hall : List.Forall₂ (Carries codec kit) xs arrivals) :
    (∀ a ∈ arrivals, a.packet.header.cmdId = kCIM_CID_MSG_DATA → a.env.ndebug = true) ↔
      ∀ x ∈ xs, x.receiver.ndebug = true := by
  induction hall with
  | nil => simp
  | cons hcarries _ ih =>
      rw [List.forall_mem_cons, List.forall_mem_cons, ih, ← hcarries.env]
      exact and_congr_left' ⟨fun h ↦ h hcarries.cmdId, fun h _ ↦ h⟩

/-- The messages show what was passed exactly when no payload contains a NUL. -/
theorem outData_passed_iff :
    (xs.map fun x ↦ kit.outData x.toId x.msg x.msgData).map
        (fun data ↦ (data.fromUserId, data.toSessionId, data.msgType, data.msgData)) =
      xs.map (fun x ↦ (kit.client.userId, x.toId, x.msg, x.msgData)) ↔
        ∀ x ∈ xs, 0 ∉ x.msgData := by
  rw [List.map_map, List.map_inj_left]
  refine forall₂_congr fun x _ ↦ ?_
  rw [← cStr_eq_self]
  simp [ChatKit.outData]

/-- Two clients have a conversation of any number of messages, each in a frame below
`kMaxBufferLen`, exactly when the receiver is a build without the assertion on `reset_len` and no
payload contains a NUL. -/
theorem conversed_iff (hround : codec.RoundTrips CIMMsgData.WellFormed)
    (hempty : codec.ParsesEmpty {}) (hzero : codec.RejectsZeroTag)
    (htcp : kit.client.tcpClient = some tcp) (hup : tcp.connectStatus = .kConnectOk)
    (hidle : Idle kit') (hcb : kit'.chatManager.recvCb = some id)
    (hfits : ∀ x ∈ xs, x.Fits codec kit) :
    Conversed kit kit' tcp id xs ↔
      (∀ x ∈ xs, x.receiver.ndebug = true) ∧ ∀ x ∈ xs, 0 ∉ x.msgData := by
  obtain ⟨sent, arrivals, frames, hok, hsent, hbytes, hall⟩ :=
    sendMessages_carry hempty hround htcp hup hfits
  have hregular := regular_of_carries hempty hzero hround hfits hall
  rw [conversed_iff_arrivals hok hsent hbytes hall]
  constructor
  · rintro ⟨⟨kit'', hleft⟩, heard, hcalls, hpassed⟩
    have hndebug := ndebug_of_left hidle hleft
    have hheard := (hearsAll_of_ndebug hidle hregular hndebug).2
    rw [filterMap_callOf hcb hround hfits hall, hcalls] at hheard
    have hinj : Function.Injective (Call.recvCb id) := fun _ _ h ↦ (Call.recvCb.inj h).2
    have hsame := List.map_injective_iff.mpr hinj hheard
    rw [hsame] at hpassed
    exact ⟨(ndebug_iff_of_carries hall).mp hndebug, outData_passed_iff.mp hpassed⟩
  · rintro ⟨hndebug, htext⟩
    obtain ⟨hleft, hheard⟩ :=
      hearsAll_of_ndebug hidle hregular ((ndebug_iff_of_carries hall).mpr hndebug)
    rw [filterMap_callOf hcb hround hfits hall] at hheard
    exact ⟨hleft, _, hheard, outData_passed_iff.mpr htext⟩

end Conversation

/-- A message of type one between two builds, without the assertion on `reset_len` at the receiving
end. -/
def exchange (msgData : Bytes) : Exchange :=
  ⟨Env.generated false, Env.generated true, 7, 1, msgData⟩

theorem exchange_fits {msgData : Bytes}
    (hshort : sizeofIMHeader +
      (CIMMsgData.codec.toLite (connectedKit.outData 7 1 msgData)).byteSizeLong <
        kMaxBufferLen.toNat) :
    (exchange msgData).Fits CIMMsgData.codec connectedKit :=
  ⟨rfl, rfl, fun _ kit ↦ .refl kit, hshort⟩

theorem conversed_two :
    Conversed connectedKit (ChatKit.fresh none (some 0)) ⟨.kConnectOk, []⟩ 0
      [exchange [0x68, 0x69], exchange [0x79, 0x6f]] := by
  refine (conversed_iff CIMMsgData.roundTrips CIMMsgData.parsesEmpty CIMMsgData.rejectsZeroTag rfl
    rfl (fresh_idle none (some 0)) rfl ?_).mpr ?_
  · intro x hx
    rcases List.mem_pair.mp hx with rfl | rfl
    · exact exchange_fits (by decide +kernel)
    · exact exchange_fits (by decide +kernel)
  · constructor
    · intro x hx
      rcases List.mem_pair.mp hx with rfl | rfl <;> rfl
    · intro x hx
      rcases List.mem_pair.mp hx with rfl | rfl
      · exact (by decide : (0 : UInt8) ∉ [0x68, 0x69])
      · exact (by decide : (0 : UInt8) ∉ [0x79, 0x6f])

end CoffeeChat
