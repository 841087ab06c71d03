import CoffeeChat.Core.Receive

/-!
# The receive loop over a chunk

A call of `Client::onMessage` on an idle client, whose receive buffer is empty, reads a chunk as
the list `heads` of the unread bytes at the top of each turn. `heads` is computed from the chunk
and the protobuf parsers alone, and `onMessage_view` says that the code visits exactly these
heads and dispatches at each what `frameOf` says. A call that returns leaves the client idle again
(`onMessage_left_idle`), and with the assertion on `reset_len` compiled out every call does
(`onMessageFuel_idle`).
-/

namespace CoffeeChat

open Lib Buffer

/-! ## The walk over the unread bytes -/

variable {env : Env} {u v : Bytes}

/-- There is at least a header to read. -/
def HasHeader (u : Bytes) : Prop := sizeofIMHeader ≤ u.length

/-- A turn that goes round again has consumed a header. -/
theorem walkTurn_again (h : (walkTurn env u).2 = .again v) :
    HasHeader v ∧ v.length + sizeofIMHeader ≤ u.length := by
  unfold walkTurn at h
  split at h
  case isFalse => cases h
  case isTrue hacc =>
    simp only at h
    split at h
    case isTrue => cases h
    case isFalse =>
      split at h
      case isTrue => cases h
      case isFalse hlong =>
        cases h
        have hle := length_consume_le env (IMHeader.decode u) (u.drop sizeofIMHeader)
        rw [List.length_drop] at hle
        simp only [HasHeader, sizeofIMHeader] at hle hlong ⊢
        omega

/-- The unread bytes at the top of each turn over a chunk. -/
def heads (env : Env) (u : Bytes) : List Bytes := (Loop.run (walkTurn env) u.length u).1

/-- Any fuel beyond one turn for every header that fits makes the same walk, and it ends. -/
theorem walk_fuel (hmin : HasHeader u) {fuel : Nat} (hfuel : u.length < sizeofIMHeader * fuel) :
    Loop.run (walkTurn env) fuel u = Loop.run (walkTurn env) u.length u ∧
      ∀ v, (Loop.run (walkTurn env) fuel u).2 ≠ .running v := by
  have hlong : 16 ≤ u.length := hmin
  have henough : u.length < sizeofIMHeader * u.length := by
    simp only [sizeofIMHeader]
    omega
  -- both amounts of fuel make the walk of their sum
  have hagain (s next : Bytes) (_ : HasHeader s) (h : (walkTurn env s).2 = .again next) :
      HasHeader next ∧ next.length + sizeofIMHeader ≤ s.length := walkTurn_again h
  have hmore := Loop.run_fuel HasHeader List.length hagain fuel u.length u hmin hfuel
  have hless := Loop.run_fuel HasHeader List.length hagain u.length fuel u hmin henough
  rw [Nat.add_comm] at hless
  exact ⟨hmore.1.symm.trans hless.1, hmore.2⟩

/-- A chunk has at most one head for every header that fits in it. -/
theorem length_heads_le (hmin : HasHeader u) :
    (heads env u).length ≤ u.length / sizeofIMHeader := by
  rw [Nat.le_div_iff_mul_le (by decide), Nat.mul_comm]
  exact Loop.run_measure HasHeader List.length (fun s next _ h ↦ walkTurn_again h) (fun _ h ↦ h)
    u.length u hmin

@[simp] theorem walkTurn_fst (env : Env) (u : Bytes) : (walkTurn env u).1 = u := by
  unfold walkTurn
  split
  · simp only
    split
    · rfl
    · split <;> rfl
  · rfl

/-- The walk from one head goes on with the walk from the next. -/
theorem heads_again (h : (walkTurn env u).2 = .again v) : heads env u = u :: heads env v := by
  obtain ⟨hv, hless⟩ := walkTurn_again h
  have hlong : 16 ≤ v.length := hv
  simp only [sizeofIMHeader] at hless
  obtain ⟨n, hn⟩ : ∃ n, u.length = n + 1 := ⟨u.length - 1, by omega⟩
  have henough : v.length < sizeofIMHeader * n := by
    simp only [sizeofIMHeader]
    omega
  have hsame : Loop.run (walkTurn env) n v = Loop.run (walkTurn env) v.length v :=
    (walk_fuel hv henough).1
  have hturn : walkTurn env u = (u, .again v) := Prod.ext (walkTurn_fst env u) h
  simp only [heads, hn, Loop.run, hturn, hsame]

/-- The walk ends at a head whose turn does not go round again. -/
theorem heads_stop (hne : u ≠ []) (h : ∀ v, (walkTurn env u).2 ≠ .again v) :
    heads env u = [u] := by
  obtain ⟨n, hn⟩ : ∃ n, u.length = n + 1 :=
    ⟨u.length - 1, by have := List.length_pos_iff.mpr hne; omega⟩
  have hfst := walkTurn_fst env u
  cases hturn : walkTurn env u with
  | mk head t =>
      rw [hturn] at hfst h
      cases t with
      | again v => exact absurd rfl (h v)
      | leave v => simp only [heads, hn, Loop.run, hturn]; exact congrArg (· :: []) hfst
      | fail f => simp only [heads, hn, Loop.run, hturn]; exact congrArg (· :: []) hfst

/-- The first head is the chunk, and every later one lies behind a header. -/
theorem heads_eq_cons (env : Env) (hmin : HasHeader u) :
    ∃ rest, heads env u = u :: rest ∧ ∀ v ∈ rest, v.length + sizeofIMHeader ≤ u.length := by
  have hlong : 16 ≤ u.length := hmin
  have hne : u ≠ [] := by
    rintro rfl
    simp at hlong
  by_cases hagain : ∃ v, (walkTurn env u).2 = .again v
  · obtain ⟨v, hagain⟩ := hagain
    obtain ⟨-, hless⟩ := walkTurn_again hagain
    refine ⟨_, heads_again hagain, ?_⟩
    -- no head is longer than the one the walk starts from
    refine Loop.run_records (fun s ↦ s.length + sizeofIMHeader ≤ u.length) ?_ ?_ _ _ hless
    · exact fun s hs ↦ by rwa [walkTurn_fst]
    · intro s next hs hnext
      have := (walkTurn_again hnext).2
      omega
  · exact ⟨[], heads_stop hne (fun v hv ↦ hagain ⟨v, hv⟩), by simp⟩

/-- There is a header to read at every head. -/
theorem hasHeader_of_mem_heads (hmin : HasHeader u) : ∀ v ∈ heads env u, HasHeader v :=
  Loop.run_records HasHeader (fun s hs ↦ by rwa [walkTurn_fst])
    (fun _ _ _ h ↦ (walkTurn_again h).1) u.length u hmin

/-! ## The code makes this walk -/

variable {kit : ChatKit}

/-- A dispatch, the callbacks apart. -/
def Dispatch.quiet (d : Dispatch) : Dispatch := { d with calls := [] }

/-- A pass, the buffers and the callbacks apart. -/
def Pass.view (p : Pass) : Bytes × Option Dispatch := (p.head, p.dispatched.map Dispatch.quiet)

/-- What the turn at a head shows. -/
def viewAt (env : Env) (u : Bytes) : Bytes × Option Dispatch :=
  (u, if Accepts u then some (frameOf env u) else none)

theorem view_passOf (env : Env) (kit : ChatKit) (u : Bytes) (buffers : List Buffer) :
    (passOf env kit u buffers).view = viewAt env u := by
  unfold passOf viewAt Pass.view
  split <;> rfl

/-- One turn of the code, by the specification of `turn`. -/
theorem loopBody_spec (env : Env) (h : AtTop kit u) :
    ∃ buffers t, Client.loopBody env kit = (passOf env kit u buffers, t) ∧
      (∀ b ∈ buffers, b.WF) ∧ Loop.Turn.Alike AtTop Holds t (walkTurn env u).2 := by
  obtain ⟨buffers, t, hturn, hwf, halike⟩ := turn_spec env h
  exact ⟨buffers, t, by simp only [Client.loopBody, hturn], hwf, halike⟩

/-- The loop of the code and the walk visit the same heads and end alike. -/
theorem loop_refines (env : Env) (h : AtTop kit u) (fuel : Nat) :
    (Loop.run (Client.loopBody env) fuel kit).1.map Pass.view =
        (Loop.run (walkTurn env) fuel u).1.map (viewAt env) ∧
      Loop.End.Alike AtTop Holds (Loop.run (Client.loopBody env) fuel kit).2
        (Loop.run (walkTurn env) fuel u).2 := by
  refine Loop.run_simulation Pass.view (viewAt env) ?_ fuel kit u h
  intro kit u h
  obtain ⟨buffers, t, hbody, -, halike⟩ := loopBody_spec env h
  rw [hbody, walkTurn_fst]
  exact ⟨view_passOf env kit u buffers, halike⟩

/-- Every buffer the loop leaves behind on its way has its indices in order. -/
theorem loop_buffers (env : Env) (h : AtTop kit u) (fuel : Nat) :
    ∀ pass ∈ (Loop.run (Client.loopBody env) fuel kit).1, ∀ b ∈ pass.buffers, b.WF := by
  refine Loop.run_records (fun kit ↦ ∃ u, AtTop kit u) ?_ ?_ fuel kit ⟨u, h⟩
  · rintro kit ⟨u, h⟩
    obtain ⟨buffers, t, hbody, hwf, -⟩ := loopBody_spec env h
    rw [hbody]
    exact hwf
  · rintro kit next ⟨u, h⟩ hagain
    obtain ⟨buffers, t, hbody, -, halike⟩ := loopBody_spec env h
    rw [hbody] at hagain
    subst hagain
    generalize (walkTurn env u).2 = t at halike
    cases halike with
    | again h => exact ⟨_, h⟩

/-- No fuel beyond one turn for every header that fits makes a difference to the loop. -/
theorem loop_fuel (env : Env) (h : AtTop kit u) {fuel : Nat}
    (hfuel : u.length < sizeofIMHeader * fuel) (more : Nat) :
    Loop.run (Client.loopBody env) (fuel + more) kit = Loop.run (Client.loopBody env) fuel kit := by
  have hlen := h.1.contents_eq ▸ hfuel
  refine (Loop.run_fuel (fun kit ↦ ∃ u, AtTop kit u)
    (fun kit ↦ kit.client.recvBuffer.contents.length) ?_ fuel more kit ⟨u, h⟩ hlen).1
  rintro kit next ⟨u, h⟩ hagain
  obtain ⟨buffers, t, hbody, -, halike⟩ := loopBody_spec env h
  rw [hbody] at hagain
  subst hagain
  generalize hwalk : (walkTurn env u).2 = t at halike
  cases halike with
  | again hnext =>
      refine ⟨⟨_, hnext⟩, ?_⟩
      rw [hnext.1.contents_eq, h.1.contents_eq]
      exact (walkTurn_again hwalk).2

/-! ## Calls of `onMessage` -/

/-- The state between two events: nothing is unread, and the indices are where `Reset` puts
them. -/
structure Idle (kit : ChatKit) : Prop extends Holds kit [] where
  read_eq : kit.client.recvBuffer.readIndex = kCheapPrependSize
  write_eq : kit.client.recvBuffer.writeIndex = kCheapPrependSize

/-- The constructors leave the client idle. -/
theorem init_idle : Returns ChatKit.init Idle := by
  refine (new_spec (by decide)).bind fun b hb ↦ Returns.ok ?_
  obtain ⟨hwf, hcont, hcap, hres, hread, hwrite⟩ := hb
  have hlt : b.capacity < 2 ^ 34 := by rw [hcap]; decide
  exact { wf := hwf, contents_eq := hcont, capacity_lt := hlt, reserved_eq := hres,
          holdsConn := nofun, read_eq := hread, write_eq := hwrite }

/-- The state after construction, with callbacks registered. -/
def ChatKit.fresh (loginCb recvCb : Option CallbackId) : ChatKit where
  client := {
    tcpClient := none
    recvBuffer := ⟨List.replicate 1032 0, 1032, 8, 8, 8⟩
    loginStatus := .kDefault
    lastSendTime := 0
    loginCb := loginCb
    userId := 0
    seq := 0 }
  chatManager := { recvCb := recvCb }

example : ChatKit.init = .ok (ChatKit.fresh none none) := by rfl

theorem fresh_idle (loginCb recvCb : Option CallbackId) : Idle (ChatKit.fresh loginCb recvCb) where
  wf := ⟨List.length_replicate, le_rfl, (by decide : 8 ≤ 1032), (by decide : 8 ≤ 1032),
    (by decide : 1032 < 2 ^ 63)⟩
  contents_eq := List.take_zero
  capacity_lt := (by decide : 1032 < 2 ^ 34)
  reserved_eq := rfl
  holdsConn := nofun
  read_eq := rfl
  write_eq := rfl

/-- The generated protobuf classes, and an application that only listens. -/
def Env.generated (ndebug : Bool) : Env where
  ndebug := ndebug
  now := 0
  kernelSend _ buff := Int32.ofNat buff.length
  authRsp := CIMAuthRsp.codec
  msgData := CIMMsgData.codec
  app := ⟨fun _ kit ↦ kit, fun _ _ ↦ rfl, fun _ _ h ↦ h⟩

/-- The final `Reset` makes the client idle. -/
theorem Holds.reset_idle (h : Holds kit u) :
    Idle (kit.withBuffer kit.client.recvBuffer.reset) where
  toHolds := h.withBuffer (reset_leaves h.wf)
  read_eq := h.reserved_eq
  write_eq := h.reserved_eq

/-- A chunk written to the buffer of an idle client is what is unread. -/
theorem Idle.write_spec (h : Idle kit) (chunk : Chunk)
    (hlong : sizeofIMHeader < chunk.bytes.length) :
    ∃ b, kit.client.recvBuffer.write chunk.bytes = .ok b ∧
      AtTop (kit.withBuffer b) chunk.bytes := by
  have hcap := h.capacity_lt
  have hlt := chunk.length_lt
  obtain ⟨b, hwrite, hwf, hcont, hres, hsize⟩ :=
    Buffer.write_spec h.wf (d := chunk.bytes) (by omega)
  have hbound : b.capacity < 2 ^ 34 := by
    have hwrite := h.write_eq
    rw [kCheapPrependSize] at hwrite
    omega
  rw [h.contents_eq, List.nil_append] at hcont
  exact ⟨b, hwrite, ⟨hwf, hcont, hbound, hres.trans h.reserved_eq, h.holdsConn⟩, hlong.le, hlt⟩

/-- A chunk that is not longer than a header is refused. -/
theorem onMessageFuel_short (env : Env) (kit : ChatKit) {chunk : Chunk}
    (hshort : chunk.bytes.length ≤ sizeofIMHeader) (fuel : Nat) :
    Client.onMessageFuel env kit chunk fuel = ⟨[], .left kit⟩ := by
  simp only [Client.onMessageFuel, hshort, if_true]

/-- How the end of the loop and the final `Reset` make the end of the call. -/
def finish : Loop.End ChatKit Fault → Loop.End ChatKit Fault
  | .left kit => .left (kit.withBuffer kit.client.recvBuffer.reset)
  | outcome => outcome

/-- On a longer chunk the loop is run from its top. -/
theorem onMessageFuel_long (env : Env) (h : Idle kit) {chunk : Chunk}
    (hlong : sizeofIMHeader < chunk.bytes.length) :
    ∃ kit', AtTop kit' chunk.bytes ∧ (∃ b, kit' = kit.withBuffer b) ∧
      ∀ fuel, Client.onMessageFuel env kit chunk fuel =
        ⟨(Loop.run (Client.loopBody env) fuel kit').1,
          finish (Loop.run (Client.loopBody env) fuel kit').2⟩ := by
  obtain ⟨b, hwrite, htop⟩ := h.write_spec chunk hlong
  refine ⟨_, htop, ⟨b, rfl⟩, fun fuel ↦ ?_⟩
  have hnot : ¬ chunk.bytes.length ≤ sizeofIMHeader := Nat.not_le.mpr hlong
  simp only [Client.onMessageFuel, hnot, if_false, hwrite]
  cases Loop.run (Client.loopBody env) fuel (kit.withBuffer b) with
  | mk passes outcome => cases outcome <;> rfl

/-- The heads of a chunk; a short one has none. -/
def headsOf (env : Env) (chunk : Chunk) : List Bytes :=
  if chunk.bytes.length ≤ sizeofIMHeader then [] else heads env chunk.bytes

/-- At every head of a chunk there is a header to read, and no head is longer than the chunk. -/
theorem bounds_of_mem_headsOf {chunk : Chunk} (hu : u ∈ headsOf env chunk) :
    HasHeader u ∧ u.length ≤ chunk.bytes.length := by
  unfold headsOf at hu
  split at hu
  case isTrue => simp at hu
  case isFalse hlong =>
    have hmin : HasHeader chunk.bytes := (Nat.not_le.mp hlong).le
    refine ⟨hasHeader_of_mem_heads hmin u hu, ?_⟩
    obtain ⟨rest, hheads, hless⟩ := heads_eq_cons env hmin
    rw [hheads] at hu
    rcases List.mem_cons.mp hu with rfl | hu
    · exact le_rfl
    · exact (Nat.le_add_right _ _).trans (hless u hu)

/-- A call visits the heads of its chunk and dispatches at each what the walk says. -/
theorem onMessage_view (env : Env) (h : Idle kit) (chunk : Chunk) :
    (Client.onMessage env kit chunk).passes.map Pass.view =
      (headsOf env chunk).map (viewAt env) := by
  by_cases hshort : chunk.bytes.length ≤ sizeofIMHeader
  · rw [Client.onMessage, onMessageFuel_short env kit hshort, headsOf, if_pos hshort]
    rfl
  · obtain ⟨kit', htop, -, hrun⟩ := onMessageFuel_long env h (Nat.not_le.mp hshort)
    rw [Client.onMessage, hrun, headsOf, if_neg hshort]
    exact (loop_refines env htop _).1

/-- The heads of a call, read off its passes. -/
theorem onMessage_heads (env : Env) (h : Idle kit) (chunk : Chunk) :
    (Client.onMessage env kit chunk).passes.map (·.head) = headsOf env chunk := by
  have hview := congrArg (List.map Prod.fst) (onMessage_view env h chunk)
  rw [List.map_map, List.map_map] at hview
  rw [← List.map_id (headsOf env chunk)]
  exact hview

/-- The dispatches of a call are those of its heads. -/
theorem onMessage_dispatches (env : Env) (h : Idle kit) (chunk : Chunk) :
    (Client.onMessage env kit chunk).dispatches.map Dispatch.quiet =
      (headsOf env chunk).filterMap fun u ↦ if Accepts u then some (frameOf env u) else none := by
  have hview := congrArg (List.filterMap Prod.snd) (onMessage_view env h chunk)
  rw [List.filterMap_map, List.filterMap_map] at hview
  rw [Received.dispatches, List.map_filterMap]
  exact hview

/-- The first pass of a call, with the callbacks it ran. -/
theorem onMessage_first (env : Env) (h : Idle kit) {chunk : Chunk}
    (hlong : sizeofIMHeader < chunk.bytes.length) :
    ∃ buffers, (Client.onMessage env kit chunk).passes.head? =
      some (passOf env kit chunk.bytes buffers) := by
  obtain ⟨kit', htop, ⟨b, rfl⟩, hrun⟩ := onMessageFuel_long env h hlong
  obtain ⟨n, hn⟩ : ∃ n, chunk.bytes.length = n + 1 := ⟨chunk.bytes.length - 1, by omega⟩
  obtain ⟨buffers, t, hbody, -, -⟩ := loopBody_spec env htop
  refine ⟨buffers, ?_⟩
  rw [Client.onMessage, hrun, hn, Loop.run_head, hbody]
  rfl

/-- A turn fails on the assertion on `reset_len` only, and not when that is compiled out. -/
theorem walkTurn_fail {fault : Fault} (h : (walkTurn env u).2 = .fail fault) :
    env.ndebug = false ∧ fault = .assertFailed := by
  unfold walkTurn at h
  split at h
  case isFalse => cases h
  case isTrue =>
    simp only at h
    split at h
    case isTrue hfail =>
      cases h
      exact ⟨hfail.1, rfl⟩
    case isFalse => split at h <;> cases h

/-- With the assertion compiled out every call returns, idle again. -/
theorem onMessageFuel_idle (hndebug : env.ndebug = true) (h : Idle kit) (chunk : Chunk) {fuel : Nat}
    (hfuel : chunk.bytes.length < sizeofIMHeader * fuel) :
    ∃ kit', (Client.onMessageFuel env kit chunk fuel).outcome = .left kit' ∧ Idle kit' := by
  by_cases hshort : chunk.bytes.length ≤ sizeofIMHeader
  · rw [onMessageFuel_short env kit hshort]
    exact ⟨kit, rfl, h⟩
  · obtain ⟨kit', htop, -, hrun⟩ := onMessageFuel_long env h (Nat.not_le.mp hshort)
    rw [hrun]
    have hend := (loop_refines env htop fuel).2
    have hsafe (s : Bytes) (fault : Fault) (_ : HasHeader s) :
        (walkTurn env s).2 ≠ .fail fault := by
      intro hfail
      have hdebug := (walkTurn_fail hfail).1
      rw [hndebug] at hdebug
      cases hdebug
    have hwalk := Loop.run_left HasHeader (fun s next _ h ↦ (walkTurn_again h).1)
      (fun _ _ _ _ ↦ trivial) hsafe fuel chunk.bytes htop.2.1
    obtain ⟨v, hleft, -⟩ | ⟨v, hrunning, -⟩ := hwalk
    · rw [hleft] at hend
      generalize (Loop.run (Client.loopBody env) fuel kit').2 = last at hend
      cases hend with
      | left hholds => exact ⟨_, rfl, hholds.reset_idle⟩
    · exact absurd hrunning ((walk_fuel htop.2.1 hfuel).2 v)

/-- A call that returns leaves the client idle. -/
theorem onMessage_left_idle (h : Idle kit) {chunk : Chunk} {kit' : ChatKit}
    (hleft : (Client.onMessage env kit chunk).outcome = .left kit') : Idle kit' := by
  rw [Client.onMessage] at hleft
  by_cases hshort : chunk.bytes.length ≤ sizeofIMHeader
  · rw [onMessageFuel_short env kit hshort] at hleft
    cases hleft
    exact h
  · obtain ⟨kit1, htop, -, hrun⟩ := onMessageFuel_long env h (Nat.not_le.mp hshort)
    have hend := (loop_refines env htop chunk.bytes.length).2
    rw [hrun] at hleft
    generalize (Loop.run (Client.loopBody env) chunk.bytes.length kit1).2 = last at hend hleft
    generalize (Loop.run (walkTurn env) chunk.bytes.length chunk.bytes).2 = walk at hend
    cases hend with
    | left hholds =>
        cases hleft
        exact hholds.reset_idle
    | failed => cases hleft
    | running => cases hleft

/-- More fuel than the headers that fit is never used up. -/
theorem onMessageFuel_enough (env : Env) (h : Idle kit) (chunk : Chunk) {fuel : Nat}
    (hfuel : chunk.bytes.length < sizeofIMHeader * fuel) :
    Client.onMessageFuel env kit chunk fuel = Client.onMessage env kit chunk := by
  rw [Client.onMessage]
  by_cases hshort : chunk.bytes.length ≤ sizeofIMHeader
  · rw [onMessageFuel_short env kit hshort, onMessageFuel_short env kit hshort]
  · obtain ⟨kit', htop, -, hrun⟩ := onMessageFuel_long env h (Nat.not_le.mp hshort)
    have henough : chunk.bytes.length < sizeofIMHeader * chunk.bytes.length := by
      simp only [sizeofIMHeader] at hshort ⊢
      omega
    have hmore := loop_fuel env htop hfuel chunk.bytes.length
    have hless := loop_fuel env htop henough fuel
    rw [Nat.add_comm, hmore] at hless
    rw [hrun, hrun, hless]

/-- Every `Skip` of a call leaves the indices of the receive buffer in order. -/
theorem onMessage_buffers (env : Env) (h : Idle kit) (chunk : Chunk) :
    ∀ pass ∈ (Client.onMessage env kit chunk).passes, ∀ b ∈ pass.buffers, b.WF := by
  rw [Client.onMessage]
  by_cases hshort : chunk.bytes.length ≤ sizeofIMHeader
  · rw [onMessageFuel_short env kit hshort]
    simp
  · obtain ⟨kit', htop, -, hrun⟩ := onMessageFuel_long env h (Nat.not_le.mp hshort)
    rw [hrun]
    exact loop_buffers env htop _

/-- A run goes on behind a call that returns. -/
theorem onMessages_cons_left {chunk : Chunk} {kit' : ChatKit}
    (h : (Client.onMessage env kit chunk).outcome = .left kit') (calls : List (Env × Chunk)) :
    Client.onMessages kit ((env, chunk) :: calls) =
      ⟨(Client.onMessage env kit chunk).passes ++ (Client.onMessages kit' calls).passes,
        (Client.onMessages kit' calls).outcome⟩ := by
  rw [Client.onMessages]
  generalize Client.onMessage env kit chunk = r at h
  obtain ⟨passes, outcome⟩ := r
  cases h
  rfl

/-- A run ends with a call that does not return. -/
theorem onMessages_cons_stop {chunk : Chunk}
    (h : ∀ kit', (Client.onMessage env kit chunk).outcome ≠ .left kit')
    (calls : List (Env × Chunk)) :
    Client.onMessages kit ((env, chunk) :: calls) = Client.onMessage env kit chunk := by
  rw [Client.onMessages]
  generalize Client.onMessage env kit chunk = r at h
  obtain ⟨passes, outcome⟩ := r
  cases outcome with
  | left kit' => exact absurd rfl (h kit')
  | failed => rfl
  | running => rfl

/-! ## A packet at the front -/

section Packet

variable {p : Packet} {t : Bytes}

/-- A whole packet at the front is accepted, whatever follows it. -/
theorem accepts_bytes (p : Packet) (t : Bytes) : Accepts (p.bytes ++ t) := by
  have hlen := p.len_eq
  simp only [sizeofIMHeader] at hlen
  refine ⟨?_, ?_, ?_⟩
  · rw [p.decode_bytes]
    omega
  · rw [p.decode_bytes, p.len_eq, List.length_append, p.length_bytes]
    omega
  · rw [p.decode_bytes]
    exact p.len_lt

theorem hasHeader_bytes (p : Packet) (t : Bytes) : HasHeader (p.bytes ++ t) := by
  rw [HasHeader, List.length_append, p.length_bytes]
  omega

/-- The dispatch of a packet at the front: all that follows its header is unread, and what
follows the packet should be left. -/
theorem frameOf_bytes (env : Env) (p : Packet) (t : Bytes) :
    frameOf env (p.bytes ++ t) =
      ⟨p.header, p.body ++ t, [], consume env p.header (p.body ++ t), t.length⟩ := by
  have hlen := p.len_eq
  rw [frameOf, p.decode_bytes, p.drop_bytes]
  congr 1
  rw [List.length_append, p.length_bytes]
  omega

/-- The same dispatch with its callback. -/
theorem dispatchOf_bytes (env : Env) (kit : ChatKit) (p : Packet) (t : Bytes) :
    dispatchOf env kit (p.bytes ++ t) =
      ⟨p.header, p.body ++ t, (callOf env kit p.header (p.body ++ t)).toList,
        consume env p.header (p.body ++ t), t.length⟩ := by
  rw [dispatchOf, frameOf_bytes, p.decode_bytes, p.drop_bytes]

/-- The turn at a packet goes round again when its handler leaves at least a header, unless the
assertion stops it. -/
theorem walkTurn_bytes (env : Env) (p : Packet) (t : Bytes) :
    (walkTurn env (p.bytes ++ t)).2 =
      if env.ndebug = false ∧ (consume env p.header (p.body ++ t)).length ≠ t.length then
        .fail .assertFailed
      else if (consume env p.header (p.body ++ t)).length < sizeofIMHeader then
        .leave (consume env p.header (p.body ++ t))
      else .again (consume env p.header (p.body ++ t)) := by
  have hrest : (p.bytes ++ t).length - p.header.len.toNat = t.length := by
    rw [p.len_eq, List.length_append, p.length_bytes]
    omega
  simp only [walkTurn, accepts_bytes p t, if_true, p.decode_bytes, p.drop_bytes, hrest]
  split
  · rfl
  · split <;> rfl

/-- A handler that leaves exactly what follows its packet hands over to the next packet. -/
theorem heads_bytes_next (hnext : HasHeader t) (h : consume env p.header (p.body ++ t) = t) :
    heads env (p.bytes ++ t) = (p.bytes ++ t) :: heads env t := by
  refine heads_again ?_
  rw [walkTurn_bytes, h, if_neg (fun hbad ↦ hbad.2 rfl), if_neg (Nat.not_lt.mpr hnext)]

/-- A last packet whose handler leaves nothing ends the walk. -/
theorem heads_bytes_last (h : consume env p.header p.body = []) :
    heads env p.bytes = [p.bytes] := by
  have hturn := walkTurn_bytes env p []
  rw [List.append_nil, List.append_nil, h] at hturn
  have hpos := p.body_pos
  refine heads_stop ?_ ?_
  · intro hnil
    have := p.length_bytes
    rw [hnil, List.length_nil] at this
    omega
  · rw [hturn, if_neg (fun hbad ↦ hbad.2 rfl), if_pos (by decide)]
    nofun

end Packet

/-- A chunk with a packet at its front is longer than a header. -/
theorem length_lt_of_bytes {chunk : Chunk} {p : Packet} {t : Bytes}
    (h : chunk.bytes = p.bytes ++ t) : sizeofIMHeader < chunk.bytes.length := by
  have hpos := p.body_pos
  rw [h, List.length_append, p.length_bytes]
  omega

/-- The first dispatch of a chunk with a packet at its front is that packet's. -/
theorem first_dispatch (env : Env) {kit : ChatKit} (hidle : Idle kit) {chunk : Chunk} {p : Packet}
    {t : Bytes} (h : chunk.bytes = p.bytes ++ t) :
    (Client.onMessage env kit chunk).dispatches.head? =
      some ⟨p.header, p.body ++ t, (callOf env kit p.header (p.body ++ t)).toList,
        consume env p.header (p.body ++ t), t.length⟩ := by
  rw [← dispatchOf_bytes, ← h]
  obtain ⟨buffers, hfirst⟩ := onMessage_first env hidle (length_lt_of_bytes h)
  obtain ⟨rest, hpasses⟩ := List.head?_eq_some_iff.mp hfirst
  have hacc : Accepts chunk.bytes := h ▸ accepts_bytes p t
  simp only [Received.dispatches, hpasses, List.filterMap_cons, passOf_dispatched env kit _ hacc,
    List.head?_cons]

end CoffeeChat
