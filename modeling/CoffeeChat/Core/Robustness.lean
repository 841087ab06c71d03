import CoffeeChat.Core.Walk

/-!
# Arbitrary bytes from the network

What `Client::onMessage` does with a chunk of which nothing is known. `validated_iff` says when
the headers it dispatches are those of packets inside the chunk, and `onMessages_robust` that,
the assertion on `reset_len` aside, every call returns after a bounded number of turns with the
receive buffer empty, whatever the protobuf parsers answer, so that calls do not see each
other's bytes.
-/

namespace CoffeeChat

open Lib

variable {env : Env} {kit : ChatKit} {u : Bytes}

/-! ## Which headers are dispatched -/

/-- Every header dispatched declares at least itself, less than the limit, and no more than the
bytes that were unread when its first byte was read. -/
def Validated (r : Received) : Prop :=
  ∀ pass ∈ r.passes, ∀ d, pass.dispatched = some d →
    sizeofIMHeader ≤ d.header.len.toNat ∧ d.header.len < kMaxBufferLen ∧
      d.header.len.toNat ≤ pass.head.length

/-- The length field at the front is of a value that the loop takes for a packet although it
does not cover the header. -/
def Undersized (u : Bytes) : Prop :=
  4 ≤ (IMHeader.decode u).len.toNat ∧ (IMHeader.decode u).len.toNat < sizeofIMHeader

instance (u : Bytes) : Decidable (Undersized u) := inferInstanceAs (Decidable (_ ∧ _))

/-- An undersized header is accepted. -/
theorem Undersized.accepts (h : Undersized u) (hmin : HasHeader u) : Accepts u := by
  obtain ⟨hlow, hhigh⟩ := h
  simp only [HasHeader, sizeofIMHeader] at hhigh hmin
  refine ⟨hlow, by omega, UInt32.lt_iff_toNat_lt.mpr ?_⟩
  exact Nat.lt_trans hhigh (by decide)

/-- Only validated headers are dispatched exactly when no turn starts at an undersized one. -/
theorem validated_iff (env : Env) (hidle : Idle kit) (chunk : Chunk) :
    Validated (Client.onMessage env kit chunk) ↔ ∀ u ∈ headsOf env chunk, ¬ Undersized u := by
  have hview := onMessage_view env hidle chunk
  constructor
  · intro h u hu hunder
    have hacc := hunder.accepts (bounds_of_mem_headsOf hu).1
    have hmem : viewAt env u ∈ (Client.onMessage env kit chunk).passes.map Pass.view :=
      hview ▸ List.mem_map_of_mem hu
    obtain ⟨pass, hpass, heq⟩ := List.mem_map.mp hmem
    simp only [Pass.view, viewAt, hacc, if_true, Prod.mk.injEq] at heq
    obtain ⟨d, hd, hquiet⟩ := Option.map_eq_some_iff.mp heq.2
    have hheader : d.header = IMHeader.decode u := congrArg Dispatch.header hquiet
    have hvalid := (h pass hpass d hd).1
    rw [hheader] at hvalid
    exact absurd hunder.2 (Nat.not_lt.mpr hvalid)
  · intro h pass hpass d hd
    have hmem : pass.view ∈ (headsOf env chunk).map (viewAt env) :=
      hview ▸ List.mem_map_of_mem hpass
    obtain ⟨u, hu, heq⟩ := List.mem_map.mp hmem
    simp only [Pass.view, viewAt, hd, Option.map_some, Prod.mk.injEq] at heq
    obtain ⟨hhead, hdispatched⟩ := heq
    have hnot := h u hu
    by_cases hacc : Accepts u
    · rw [if_pos hacc] at hdispatched
      have hheader : d.header = IMHeader.decode u :=
        (congrArg Dispatch.header (Option.some.inj hdispatched)).symm
      rw [hheader, ← hhead]
      exact ⟨Nat.le_of_not_lt fun hlt ↦ hnot ⟨hacc.1, hlt⟩, hacc.2.2, hacc.2.1⟩
    · rw [if_neg hacc] at hdispatched
      cases hdispatched

/-- The chunk of a login response. -/
def loginChunk : Chunk := ⟨loginResponse.bytes, by decide⟩

theorem validated_loginChunk :
    Validated (Client.onMessage (Env.generated true) (ChatKit.fresh none none) loginChunk) :=
  (validated_iff (Env.generated true) (fresh_idle none none) loginChunk).mpr (by decide +kernel)

/-- A chunk whose length field is five. -/
def undersizedChunk : Chunk := ⟨[0, 0, 0, 5] ++ List.replicate 13 0, by decide⟩

/-- A header that declares five bytes is dispatched. -/
theorem not_validated_undersizedChunk :
    ¬ Validated (Client.onMessage (Env.generated true) (ChatKit.fresh none none)
      undersizedChunk) := by
  obtain ⟨buffers, hfirst⟩ := onMessage_first (Env.generated true) (fresh_idle none none)
    (by decide : sizeofIMHeader < undersizedChunk.bytes.length)
  have hacc : Accepts undersizedChunk.bytes := by decide
  intro h
  have hvalid := h _ (List.mem_of_mem_head? hfirst) _ (passOf_dispatched _ _ _ hacc)
  exact absurd hvalid.1 (by decide)

/-! ## With the assertion compiled out -/

/-- A call from an idle state returns, idle again: there is a bound on its turns, which any fuel
beyond it leaves in force, no check of a read or skip fails, and the indices of the receive
buffer stay in order throughout. -/
structure Robust (env : Env) (kit : ChatKit) (chunk : Chunk) : Prop where
  terminates : ∀ fuel, chunk.bytes.length < sizeofIMHeader * fuel →
    Client.onMessageFuel env kit chunk fuel = Client.onMessage env kit chunk
  dispatches_le : (Client.onMessage env kit chunk).dispatches.length ≤
    chunk.bytes.length / sizeofIMHeader
  indices : ∀ pass ∈ (Client.onMessage env kit chunk).passes, ∀ b ∈ pass.buffers,
    b.readIndex ≤ b.writeIndex ∧ b.writeIndex ≤ b.capacity
  returns : ∃ kit', (Client.onMessage env kit chunk).outcome = .left kit' ∧
    kit'.client.recvBuffer.contents = [] ∧ Idle kit'

theorem length_dispatches_le (env : Env) (hidle : Idle kit) (chunk : Chunk) :
    (Client.onMessage env kit chunk).dispatches.length ≤ chunk.bytes.length / sizeofIMHeader := by
  have hpasses := congrArg List.length (onMessage_heads env hidle chunk)
  rw [List.length_map] at hpasses
  refine (List.length_filterMap_le _ _).trans ?_
  rw [hpasses, headsOf]
  split
  case isTrue => exact Nat.zero_le _
  case isFalse hlong => exact length_heads_le (Nat.not_le.mp hlong).le

/-- With the assertion compiled out every call is robust. -/
theorem onMessage_robust (hndebug : env.ndebug = true) (hidle : Idle kit) (chunk : Chunk) :
    Robust env kit chunk := by
  have hterminates (fuel : Nat) (hfuel : chunk.bytes.length < sizeofIMHeader * fuel) :=
    onMessageFuel_enough env hidle chunk hfuel
  refine ⟨hterminates, length_dispatches_le env hidle chunk, ?_, ?_⟩
  · intro pass hpass b hb
    have hwf := onMessage_buffers env hidle chunk pass hpass b hb
    exact ⟨hwf.read_le_write, hwf.write_le_capacity⟩
  · have hfuel : chunk.bytes.length < sizeofIMHeader * (chunk.bytes.length + 1) := by
      simp only [sizeofIMHeader]
      omega
    obtain ⟨kit', hleft, hidle'⟩ := onMessageFuel_idle hndebug hidle chunk hfuel
    rw [hterminates _ hfuel] at hleft
    exact ⟨kit', hleft, hidle'.contents_eq, hidle'⟩

/-- A run of calls shows what each of them shows from any idle state. -/
theorem onMessages_robust (hidle : Idle kit) {calls : List (Env × Chunk)}
    (hndebug : ∀ call ∈ calls, call.1.ndebug = true) :
    (∀ call ∈ calls, ∀ kit', Idle kit' → Robust call.1 kit' call.2) ∧
      (∃ kit', (Client.onMessages kit calls).outcome = .left kit' ∧ Idle kit') ∧
      ∀ start, Idle start → (Client.onMessages kit calls).passes.map Pass.view =
        calls.flatMap fun call ↦ (Client.onMessage call.1 start call.2).passes.map Pass.view := by
  refine ⟨fun call hcall kit' h ↦ onMessage_robust (hndebug call hcall) h call.2, ?_⟩
  induction calls generalizing kit with
  | nil => exact ⟨⟨kit, rfl, hidle⟩, fun _ _ ↦ rfl⟩
  | cons call calls ih =>
      obtain ⟨env, chunk⟩ := call
      obtain ⟨kit', hleft, -, hidle'⟩ :=
        (onMessage_robust (hndebug _ List.mem_cons_self) hidle chunk).returns
      obtain ⟨hout, hviews⟩ := ih hidle' fun call h ↦ hndebug call (List.mem_cons_of_mem _ h)
      rw [onMessages_cons_left hleft]
      refine ⟨hout, fun start hstart ↦ ?_⟩
      rw [List.map_append, hviews start hstart, List.flatMap_cons,
        onMessage_view env hidle chunk, onMessage_view env hstart chunk]

theorem onMessages_robust_undersizedChunk :
    ∃ kit', (Client.onMessages (ChatKit.fresh none none)
      [(Env.generated true, undersizedChunk), (Env.generated true, loginChunk)]).outcome =
        .left kit' ∧ Idle kit' :=
  (onMessages_robust (fresh_idle none none) (by simp [Env.generated])).2.1

end CoffeeChat
