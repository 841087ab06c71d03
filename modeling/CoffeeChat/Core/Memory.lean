import CoffeeChat.Core.Robustness
import CoffeeChat.Core.Untouched

/-!
# The memory of the receive buffer

Only the `Write` in front of the loop of `Client::onMessage` allocates, and only when the chunk
does not fit (`onMessage_capacity`). The final `Reset` gives nothing back, so the allocation never
shrinks; but it doubles only when it is smaller than the chunk, so it stays within three times the
longest chunk however long the client runs (`onMessages_capacity_le`).
-/

namespace CoffeeChat

open Lib

variable {env : Env} {kit kit' : ChatKit}

theorem untouched_capacity (env : Env) :
    Untouched env fun kit kit' ↦
      kit'.client.recvBuffer.capacity = kit.client.recvBuffer.capacity where
  refl _ := rfl
  trans h h' := h'.trans h
  buffer _ _ h := h
  logout _ _ h := congrArg Buffer.capacity (logout_keeps h).2
  react call kit := congrArg Buffer.capacity (env.app.react_recvBuffer call kit)

/-- A call of `onMessage` that returns keeps the allocation of the receive buffer, or the chunk
did not fit and the allocation is twice as large and has room for it. -/
theorem onMessage_capacity (hidle : Idle kit) {chunk : Chunk}
    (h : (Client.onMessage env kit chunk).outcome = .left kit') :
    kit'.client.recvBuffer.capacity = kit.client.recvBuffer.capacity ∨
      kit.client.recvBuffer.capacity - kCheapPrependSize < chunk.bytes.length ∧
        kit'.client.recvBuffer.capacity =
          2 * kit.client.recvBuffer.capacity + chunk.bytes.length := by
  obtain rfl | ⟨b, final, hwrite, hsame, rfl⟩ := (untouched_capacity env).onMessage h
  · exact .inl rfl
  · have hcap := hidle.capacity_lt
    have hlt := chunk.length_lt
    obtain ⟨b', hwrite', _, _, _, hgrown⟩ :=
      Buffer.write_spec hidle.wf (d := chunk.bytes) (by omega)
    cases hwrite.symm.trans hwrite'
    rw [hidle.write_eq] at hgrown
    exact hgrown.imp (hsame.trans ·) fun hgrown ↦ ⟨hgrown.1, hsame.trans hgrown.2⟩

/-- However many chunks arrive, the allocation of the receive buffer never shrinks, and it never
exceeds three times the longest chunk and fourteen bytes, unless it was larger from the start. -/
theorem onMessages_capacity_le (hidle : Idle kit) {calls : List (Env × Chunk)} {n : Nat}
    (hn : ∀ call ∈ calls, call.2.bytes.length ≤ n)
    (hleft : (Client.onMessages kit calls).outcome = .left kit') :
    kit.client.recvBuffer.capacity ≤ kit'.client.recvBuffer.capacity ∧
      kit'.client.recvBuffer.capacity ≤ max kit.client.recvBuffer.capacity (3 * n + 14) := by
  induction calls generalizing kit with
  | nil =>
      cases hleft
      exact ⟨le_rfl, le_max_left ..⟩
  | cons call calls ih =>
      obtain ⟨env, chunk⟩ := call
      by_cases hreturns : ∃ kit1, (Client.onMessage env kit chunk).outcome = .left kit1
      · obtain ⟨kit1, hfirst⟩ := hreturns
        rw [onMessages_cons_left hfirst] at hleft
        have hrest := ih (onMessage_left_idle hidle hfirst)
          (fun call hcall ↦ hn call (List.mem_cons_of_mem _ hcall)) hleft
        have hchunk : chunk.bytes.length ≤ n := hn (env, chunk) List.mem_cons_self
        have hgrown := onMessage_capacity hidle hfirst
        rw [kCheapPrependSize] at hgrown
        omega
      · have hstops := not_exists.mp hreturns
        rw [onMessages_cons_stop hstops] at hleft
        exact absurd hleft (hstops kit')

/-- Two chunks that fit leave the allocation as it is. -/
theorem onMessages_capacity_le_two :
    ∃ kit', (Client.onMessages (ChatKit.fresh none none)
        [(Env.generated true, undersizedChunk), (Env.generated true, loginChunk)]).outcome =
          .left kit' ∧ kit'.client.recvBuffer.capacity = 1032 := by
  have hidle := fresh_idle none none
  obtain ⟨kit1, hfirst, _, hidle1⟩ :=
    (onMessage_robust (rfl : (Env.generated true).ndebug = true) hidle undersizedChunk).returns
  obtain ⟨kit2, hsecond, _, _⟩ :=
    (onMessage_robust (rfl : (Env.generated true).ndebug = true) hidle1 loginChunk).returns
  have hleft : (Client.onMessages (ChatKit.fresh none none)
      [(Env.generated true, undersizedChunk), (Env.generated true, loginChunk)]).outcome =
        .left kit2 := by
    rw [onMessages_cons_left hfirst, onMessages_cons_left hsecond]
    rfl
  have hshort : ∀ call ∈ [(Env.generated true, undersizedChunk), (Env.generated true, loginChunk)],
      call.2.bytes.length ≤ 19 := by
    intro call hcall
    rcases List.mem_pair.mp hcall with rfl | rfl
    · exact (by decide : undersizedChunk.bytes.length ≤ 19)
    · exact (by decide : loginChunk.bytes.length ≤ 19)
  obtain ⟨hlow, hhigh⟩ := onMessages_capacity_le hidle hshort hleft
  have hfresh : (ChatKit.fresh none none).client.recvBuffer.capacity = 1032 := rfl
  rw [hfresh] at hlow hhigh
  exact ⟨kit2, hleft, le_antisymm hhigh hlow⟩

end CoffeeChat
