import CoffeeChat.Core.Walk

/-!
# A packet that arrives in pieces

Nothing is kept from one call of `Client::onMessage` to the next, so the bytes behind a header
that are dispatched come from one chunk (`length_body_le`). A packet that TCP delivers whole is
dispatched once; one that it cuts is dropped, as the comment in the source says of a length that
exceeds the buffer. `dispatchCount_cut` states both.
-/

namespace CoffeeChat

open Lib

variable {env : Env} {kit : ChatKit} {p : Packet}

/-- The bytes behind a dispatched header lie in the chunk with it. -/
theorem length_body_le (hidle : Idle kit) {chunk : Chunk} {d : Dispatch}
    (hd : d ∈ (Client.onMessage env kit chunk).dispatches) :
    d.body.length + sizeofIMHeader ≤ chunk.bytes.length := by
  have hmem : d.quiet ∈ (Client.onMessage env kit chunk).dispatches.map Dispatch.quiet :=
    List.mem_map_of_mem hd
  rw [onMessage_dispatches env hidle] at hmem
  obtain ⟨u, hu, hsome⟩ := List.mem_filterMap.mp hmem
  obtain ⟨hmin, hle⟩ := bounds_of_mem_headsOf hu
  split at hsome
  case isFalse => cases hsome
  case isTrue =>
    have hbody : u.drop sizeofIMHeader = d.body :=
      congrArg Dispatch.body (Option.some.inj hsome)
    rw [← hbody, List.length_drop, Nat.sub_add_cancel hmin]
    exact hle

/-- The same over a run of calls: the bytes lie in one of the chunks. -/
theorem onMessages_length_body_le (hidle : Idle kit) {calls : List (Env × Chunk)} {d : Dispatch}
    (hd : d ∈ (Client.onMessages kit calls).dispatches) :
    ∃ call ∈ calls, d.body.length + sizeofIMHeader ≤ call.2.bytes.length := by
  induction calls generalizing kit with
  | nil => simp [Client.onMessages, Received.dispatches] at hd
  | cons call calls ih =>
      obtain ⟨env, chunk⟩ := call
      have hthis (hmem : d ∈ (Client.onMessage env kit chunk).dispatches) :
          ∃ call ∈ (env, chunk) :: calls,
            d.body.length + sizeofIMHeader ≤ call.2.bytes.length :=
        ⟨_, List.mem_cons_self, length_body_le hidle hmem⟩
      by_cases hleft : ∃ kit', (Client.onMessage env kit chunk).outcome = .left kit'
      · obtain ⟨kit', hleft⟩ := hleft
        rw [onMessages_cons_left hleft, Received.dispatches, List.filterMap_append] at hd
        rcases List.mem_append.mp hd with hd | hd
        · exact hthis hd
        · obtain ⟨call, hcall, hle⟩ := ih (onMessage_left_idle hidle hleft) hd
          exact ⟨call, List.mem_cons_of_mem _ hcall, hle⟩
      · rw [onMessages_cons_stop fun kit' h ↦ hleft ⟨kit', h⟩] at hd
        exact hthis hd

/-- How often the packet is dispatched, with its header and its body. -/
def dispatchCount (p : Packet) (r : Received) : Nat :=
  r.dispatches.countP fun d ↦ d.header = p.header ∧ d.body = p.body

/-- A part of a sequence of non-empty chunks is shorter than the whole unless it is the whole. -/
theorem length_lt_of_cut {calls : List (Env × Chunk)} (hne : ∀ call ∈ calls, call.2.bytes ≠ [])
    (hmany : calls.length ≠ 1) {call : Env × Chunk} (hcall : call ∈ calls) :
    call.2.bytes.length < (calls.flatMap (·.2.bytes)).length := by
  obtain ⟨before, after, rfl⟩ := List.append_of_mem hcall
  have hpos : 0 < ((before ++ after).flatMap (·.2.bytes)).length := by
    have hother : before ++ after ≠ [] := by
      intro hnil
      obtain ⟨rfl, rfl⟩ := List.append_eq_nil_iff.mp hnil
      exact hmany rfl
    obtain ⟨other, hmem⟩ := List.exists_mem_of_ne_nil _ hother
    have hin : other ∈ before ++ call :: after := by
      rcases List.mem_append.mp hmem with h | h
      · exact List.mem_append_left _ h
      · exact List.mem_append_right _ (List.mem_cons_of_mem _ h)
    obtain ⟨b, hb⟩ := List.exists_mem_of_ne_nil _ (hne other hin)
    exact List.length_pos_of_mem (List.mem_flatMap.mpr ⟨other, hmem, hb⟩)
  simp only [List.flatMap_append, List.flatMap_cons, List.length_append] at hpos ⊢
  omega

/-- A packet that is cut is never dispatched. -/
theorem dispatchCount_pieces (hidle : Idle kit) {calls : List (Env × Chunk)}
    (hne : ∀ call ∈ calls, call.2.bytes ≠ []) (hcut : calls.flatMap (·.2.bytes) = p.bytes)
    (hmany : calls.length ≠ 1) : dispatchCount p (Client.onMessages kit calls) = 0 := by
  refine List.countP_eq_zero.mpr fun d hd hp ↦ ?_
  obtain ⟨call, hcall, hle⟩ := onMessages_length_body_le hidle hd
  have hless := length_lt_of_cut hne hmany hcall
  rw [hcut, p.length_bytes] at hless
  have hbody : d.body = p.body := (of_decide_eq_true hp).2
  rw [hbody] at hle
  omega

/-- A packet that arrives whole is dispatched once: what is left behind it is shorter. -/
theorem dispatchCount_whole (hidle : Idle kit) {chunk : Chunk} (hchunk : chunk.bytes = p.bytes) :
    dispatchCount p (Client.onMessage env kit chunk) = 1 := by
  have hquiet : dispatchCount p (Client.onMessage env kit chunk) =
      ((Client.onMessage env kit chunk).dispatches.map Dispatch.quiet).countP
        fun d ↦ d.header = p.header ∧ d.body = p.body := by
    rw [List.countP_map]
    rfl
  have hmin := hasHeader_bytes p []
  have hacc := accepts_bytes p []
  have hframe := frameOf_bytes env p []
  have hlong := length_lt_of_bytes (hchunk.trans (List.append_nil _).symm)
  rw [List.append_nil] at hmin hacc hframe
  obtain ⟨rest, hheads, hless⟩ := heads_eq_cons env hmin
  have hnone : ((rest.filterMap fun u ↦ if Accepts u then some (frameOf env u) else none).countP
      fun d ↦ d.header = p.header ∧ d.body = p.body) = 0 := by
    refine List.countP_eq_zero.mpr fun d hd hp ↦ ?_
    obtain ⟨u, hu, hsome⟩ := List.mem_filterMap.mp hd
    have hshorter := hless u hu
    split at hsome
    case isFalse => cases hsome
    case isTrue =>
      have hbody : u.drop sizeofIMHeader = p.body :=
        (congrArg Dispatch.body (Option.some.inj hsome)).trans (of_decide_eq_true hp).2
      have hpos := p.body_pos
      have hlen := congrArg List.length hbody
      rw [p.length_bytes] at hshorter
      rw [List.length_drop] at hlen
      simp only [sizeofIMHeader] at hshorter hlen
      omega
  rw [hquiet, onMessage_dispatches env hidle, headsOf, if_neg (Nat.not_le.mpr hlong), hchunk,
    hheads]
  simp only [List.filterMap_cons, hacc, if_true, hframe]
  rw [List.countP_cons_of_pos (by simp), hnone]

/-- A run of one call dispatches what the call does. -/
theorem dispatches_singleton (env : Env) (kit : ChatKit) (chunk : Chunk) :
    (Client.onMessages kit [(env, chunk)]).dispatches =
      (Client.onMessage env kit chunk).dispatches := by
  by_cases hleft : ∃ kit', (Client.onMessage env kit chunk).outcome = .left kit'
  · obtain ⟨kit', hleft⟩ := hleft
    rw [onMessages_cons_left hleft, Client.onMessages, List.append_nil]
    rfl
  · rw [onMessages_cons_stop fun kit' h ↦ hleft ⟨kit', h⟩]

/-- A packet delivered in pieces is dispatched exactly once if it comes in one piece, and never
otherwise. -/
theorem dispatchCount_cut (hidle : Idle kit) {calls : List (Env × Chunk)}
    (hne : ∀ call ∈ calls, call.2.bytes ≠ []) (hcut : calls.flatMap (·.2.bytes) = p.bytes) :
    dispatchCount p (Client.onMessages kit calls) = if calls.length = 1 then 1 else 0 := by
  split
  case isTrue hone =>
    obtain ⟨⟨env, chunk⟩, rfl⟩ := List.length_eq_one_iff.mp hone
    rw [List.flatMap_cons, List.flatMap_nil, List.append_nil] at hcut
    rw [dispatchCount, dispatches_singleton]
    exact dispatchCount_whole hidle hcut
  case isFalse hmany => exact dispatchCount_pieces hidle hne hcut hmany

/-- The bytes of a chat message, cut inside its body. -/
def cutMessage : List (Env × Chunk) :=
  [(Env.generated true, ⟨chatMessage.bytes.take 17, by decide⟩),
    (Env.generated true, ⟨chatMessage.bytes.drop 17, by decide⟩)]

theorem dispatchCount_cutMessage :
    dispatchCount chatMessage (Client.onMessages (ChatKit.fresh none none) cutMessage) =
      if cutMessage.length = 1 then 1 else 0 :=
  dispatchCount_cut (fresh_idle none none) (by decide) (by decide)

/-- A chat message that TCP cuts in two is lost. -/
theorem cutMessage_lost :
    (∀ call ∈ cutMessage, call.2.bytes ≠ []) ∧
      cutMessage.flatMap (·.2.bytes) = chatMessage.bytes ∧
      dispatchCount chatMessage (Client.onMessages (ChatKit.fresh none none) cutMessage) ≠ 1 := by
  have hne : ∀ call ∈ cutMessage, call.2.bytes ≠ [] := by decide
  have hcut : cutMessage.flatMap (·.2.bytes) = chatMessage.bytes := by decide
  refine ⟨hne, hcut, ?_⟩
  rw [dispatchCount_pieces (fresh_idle none none) hne hcut (by decide)]
  decide

end CoffeeChat
