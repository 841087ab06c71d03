import CoffeeChat.Core.SessionLemmas

/-!
# What a call of `onMessage` leaves alone

The loop of `Client::onMessage` does four things to the state: it moves the indices of the receive
buffer, it logs out, it runs callbacks, and it does nothing. A relation that each of these keeps,
an `Untouched`, relates the state at the top of the loop to the one it is left in
(`Untouched.loop`). One such relation is that the same callbacks are registered, where the ones
that run register none (`onMessage_sameCallbacks`).
-/

namespace CoffeeChat

open Lib

/-! ## The allocation of the buffer -/

theorem skip_capacity {b b' : Buffer} {n : Nat} (h : b.skip n = .ok b') :
    b'.capacity = b.capacity := by
  obtain ⟨length, _, h⟩ := bind_eq_ok.mp h
  split at h <;> cases h <;> rfl

theorem readInt32_capacity {b : Buffer} {r : Int32 × Buffer} (h : b.readInt32 = .ok r) :
    r.2.capacity = b.capacity := by
  obtain ⟨_, _, h⟩ := bind_eq_ok.mp h
  obtain ⟨b', hskip, h⟩ := bind_eq_ok.mp h
  cases h
  exact skip_capacity hskip

theorem readInt16_capacity {b : Buffer} {r : Int16 × Buffer} (h : b.readInt16 = .ok r) :
    r.2.capacity = b.capacity := by
  obtain ⟨_, _, h⟩ := bind_eq_ok.mp h
  obtain ⟨b', hskip, h⟩ := bind_eq_ok.mp h
  cases h
  exact skip_capacity hskip

theorem readHeader_capacity {len : UInt32} {b : Buffer} {r : IMHeader × List Buffer × Buffer}
    (h : Client.readHeader len b = .ok r) : r.2.2.capacity = b.capacity := by
  obtain ⟨r1, h1, h⟩ := bind_eq_ok.mp h
  obtain ⟨r2, h2, h⟩ := bind_eq_ok.mp h
  obtain ⟨r3, h3, h⟩ := bind_eq_ok.mp h
  obtain ⟨r4, h4, h⟩ := bind_eq_ok.mp h
  obtain ⟨r5, h5, h⟩ := bind_eq_ok.mp h
  obtain ⟨r6, h6, h⟩ := bind_eq_ok.mp h
  cases h
  calc r6.2.capacity = r5.2.capacity := readInt16_capacity h6
    _ = r4.2.capacity := readInt16_capacity h5
    _ = r3.2.capacity := readInt16_capacity h4
    _ = r2.2.capacity := readInt16_capacity h3
    _ = r1.2.capacity := readInt16_capacity h2
    _ = b.capacity := readInt16_capacity h1

theorem parsePbAndCheck_capacity {α : Type} {codec : Codec α} {b b' : Buffer} {rsp : α}
    (h : parsePbAndCheck codec b = .ok (some (rsp, b'))) : b'.capacity = b.capacity := by
  obtain ⟨_, _, h⟩ := bind_eq_ok.mp h
  cases hparse : codec.parseFromArray b.contents with
  | none =>
      simp only [hparse] at h
      cases h
  | some parsed =>
      simp only [hparse] at h
      obtain ⟨skipped, hskip, h⟩ := bind_eq_ok.mp h
      cases h
      exact skip_capacity hskip

/-! ## The rule -/

/-- Everything that a turn of the loop does keeps the relation. -/
structure Untouched (env : Env) (rel : ChatKit → ChatKit → Prop) : Prop where
  refl : ∀ kit, rel kit kit
  trans : ∀ {a b c}, rel a b → rel b c → rel a c
  buffer : ∀ (kit : ChatKit) (b : Buffer), b.capacity = kit.client.recvBuffer.capacity →
    rel kit (kit.withBuffer b)
  logout : ∀ (kit : ChatKit) (client : Client), kit.client.logout env = .ok client →
    rel kit { kit with client }
  react : ∀ (call : Call) (kit : ChatKit), rel kit (env.app.react call kit)

namespace Untouched

variable {env : Env} {rel : ChatKit → ChatKit → Prop} {kit kit' : ChatKit}

theorem invoke (hrel : Untouched env rel) (kit : ChatKit) (call : Option Call) :
    rel kit (kit.invoke env call).2 := by
  cases call with
  | none => exact hrel.refl kit
  | some call => exact hrel.react call kit

theorem onHandleAuthRsp (hrel : Untouched env rel) {r : List Call × ChatKit}
    (h : Client.onHandleAuthRsp env kit = .ok r) : rel kit r.2 := by
  obtain ⟨parsed, hparsed, h⟩ := bind_eq_ok.mp h
  cases parsed with
  | none =>
      cases h
      exact hrel.refl kit
  | some parsed =>
      obtain ⟨rsp, buffer⟩ := parsed
      have hbuffer := hrel.buffer kit buffer (parsePbAndCheck_capacity hparsed)
      simp only at h
      split at h
      case isTrue =>
        obtain ⟨client, hclient, h⟩ := bind_eq_ok.mp h
        cases h
        have hout := hrel.logout (kit.withBuffer buffer) client hclient
        exact hrel.trans (hrel.trans hbuffer hout)
          (hrel.invoke { kit.withBuffer buffer with client } _)
      case isFalse =>
        cases h
        exact hrel.trans hbuffer (hrel.invoke (kit.withBuffer buffer) _)

theorem chatManager_onHandleData (hrel : Untouched env rel) {header : IMHeader}
    {r : List Call × ChatKit} (h : ChatManager.onHandleData env header kit = .ok r) :
    rel kit r.2 := by
  unfold ChatManager.onHandleData at h
  split at h
  case isTrue =>
    cases hcb : kit.chatManager.recvCb with
    | none =>
        simp only [hcb] at h
        cases h
        exact hrel.refl kit
    | some id =>
        simp only [hcb] at h
        obtain ⟨_, _, h⟩ := bind_eq_ok.mp h
        cases h
        exact hrel.invoke kit _
  case isFalse =>
    cases h
    exact hrel.refl kit

theorem onHandleData (hrel : Untouched env rel) {header : IMHeader} {r : List Call × ChatKit}
    (h : Client.onHandleData env header kit = .ok r) : rel kit r.2 := by
  unfold Client.onHandleData at h
  split at h
  case isTrue => exact hrel.onHandleAuthRsp h
  case isFalse =>
    split at h
    case isTrue => exact hrel.chatManager_onHandleData h
    case isFalse =>
      obtain ⟨buffer, hskip, h⟩ := bind_eq_ok.mp h
      cases h
      exact hrel.buffer kit buffer (skip_capacity hskip)

/-- The state a turn goes on with, or leaves the loop in. -/
inductive Onward : Loop.Turn ChatKit Fault → ChatKit → Prop
  | again (kit : ChatKit) : Onward (.again kit) kit
  | leave (kit : ChatKit) : Onward (.leave kit) kit

theorem dispatch (hrel : Untouched env rel) {header : IMHeader} {resetLen : Int} {pass : Pass}
    {r : Pass × Loop.Turn ChatKit Fault}
    (h : Client.dispatch env kit header resetLen pass = .ok r) (hr : Onward r.2 kit') :
    rel kit kit' := by
  unfold Client.dispatch at h
  cases hhandle : Client.onHandleData env header kit with
  | error fault =>
      simp only [hhandle] at h
      cases h
      cases hr
  | ok handled =>
      simp only [hhandle] at h
      obtain ⟨length, _, h⟩ := bind_eq_ok.mp h
      have hkept := hrel.onHandleData hhandle
      split at h
      case isTrue =>
        cases h
        cases hr
      case isFalse =>
        -- the three ways on carry the state the handler has left
        split at h
        case isTrue =>
          cases h
          cases hr
          exact hkept
        case isFalse =>
          split at h <;> cases h <;> cases hr <;> exact hkept

theorem loopBody (hrel : Untouched env rel) (hr : Onward (Client.loopBody env kit).2 kit') :
    rel kit kit' := by
  unfold Client.loopBody at hr
  cases hturn : Client.turn env kit with
  | error fault =>
      simp only [hturn] at hr
      cases hr
  | ok r =>
      simp only [hturn] at hr
      obtain ⟨word, hword, hturn⟩ := bind_eq_ok.mp hturn
      obtain ⟨_, _, hturn⟩ := bind_eq_ok.mp hturn
      obtain ⟨_, _, hturn⟩ := bind_eq_ok.mp hturn
      have hlength := readInt32_capacity hword
      split at hturn
      case isTrue =>
        cases hturn
        cases hr
        exact hrel.buffer kit word.2 hlength
      case isFalse =>
        split at hturn
        case isTrue =>
          obtain ⟨read, hread, hturn⟩ := bind_eq_ok.mp hturn
          have hheader := (readHeader_capacity hread).trans hlength
          exact hrel.trans (hrel.buffer kit read.2.2 hheader) (hrel.dispatch hturn hr)
        case isFalse =>
          cases hturn
          cases hr
          exact hrel.buffer kit word.2 hlength

/-- The loop is left in a state that is related to the one at its top. -/
theorem loop (hrel : Untouched env rel) {fuel : Nat}
    (h : (Loop.run (Client.loopBody env) fuel kit).2 = .left kit') : rel kit kit' := by
  have hagain (s next : ChatKit) (hs : rel kit s)
      (hnext : (Client.loopBody env s).2 = .again next) : rel kit next :=
    hrel.trans hs (hrel.loopBody (hnext ▸ .again next))
  have hleave (s next : ChatKit) (hs : rel kit s)
      (hnext : (Client.loopBody env s).2 = .leave next) : rel kit next :=
    hrel.trans hs (hrel.loopBody (hnext ▸ .leave next))
  exact Loop.run_left_post (rel kit) hagain hleave (hrel.refl kit) h

/-- A call that returns either refuses the chunk, or writes it to the buffer, leaves the loop in
a related state and resets the buffer. -/
theorem onMessage (hrel : Untouched env rel) {chunk : Chunk}
    (h : (Client.onMessage env kit chunk).outcome = .left kit') :
    kit' = kit ∨ ∃ b final, kit.client.recvBuffer.write chunk.bytes = .ok b ∧
      rel (kit.withBuffer b) final ∧ kit' = final.withBuffer final.client.recvBuffer.reset := by
  unfold Client.onMessage Client.onMessageFuel at h
  split at h
  case isTrue =>
    cases h
    exact .inl rfl
  case isFalse =>
    cases hwrite : kit.client.recvBuffer.write chunk.bytes with
    | error fault =>
        simp only [hwrite] at h
        cases h
    | ok b =>
        simp only [hwrite] at h
        cases hrun : Loop.run (Client.loopBody env) chunk.bytes.length (kit.withBuffer b) with
        | mk passes outcome =>
            simp only [hrun] at h
            cases outcome with
            | left final =>
                cases h
                exact .inr ⟨b, final, rfl, hrel.loop (congrArg Prod.snd hrun), rfl⟩
            | failed fault => cases h
            | running final => cases h

end Untouched

/-! ## The callbacks that are registered -/

/-- The same callbacks are registered. -/
structure SameCallbacks (kit kit' : ChatKit) : Prop where
  loginCb : kit'.client.loginCb = kit.client.loginCb
  recvCb : kit'.chatManager.recvCb = kit.chatManager.recvCb

/-- No callback registers another one. -/
def Application.KeepsCallbacks (app : Application) : Prop :=
  ∀ call kit, SameCallbacks kit (app.react call kit)

variable {env : Env} {kit kit' : ChatKit}

theorem SameCallbacks.refl (kit : ChatKit) : SameCallbacks kit kit := ⟨rfl, rfl⟩

theorem SameCallbacks.trans {kit'' : ChatKit} (h : SameCallbacks kit kit')
    (h' : SameCallbacks kit' kit'') : SameCallbacks kit kit'' :=
  ⟨h'.loginCb.trans h.loginCb, h'.recvCb.trans h.recvCb⟩

/-- The callback a packet calls for depends on the callbacks registered only. -/
theorem SameCallbacks.callOf_eq (h : SameCallbacks kit kit') (env : Env) (header : IMHeader)
    (body : Bytes) : callOf env kit' header body = callOf env kit header body := by
  simp only [callOf, h.loginCb, h.recvCb]

/-- A logout keeps the login callback and the receive buffer. -/
theorem logout_keeps {c c' : Client} (h : c.logout env = .ok c') :
    c'.loginCb = c.loginCb ∧ c'.recvBuffer = c.recvBuffer := by
  unfold Client.logout at h
  split at h
  case isTrue =>
    obtain ⟨r, hr, h⟩ := bind_eq_ok.mp h
    cases h
    exact ⟨(Client.send_quiet hr).loginCb, (Client.send_quiet hr).recvBuffer⟩
  case isFalse =>
    cases h
    exact ⟨rfl, rfl⟩

theorem untouched_sameCallbacks (hkeeps : env.app.KeepsCallbacks) :
    Untouched env SameCallbacks where
  refl := .refl
  trans h h' := h.trans h'
  buffer _ _ _ := ⟨rfl, rfl⟩
  logout _ _ h := ⟨(logout_keeps h).1, rfl⟩
  react := hkeeps

/-- A call of `onMessage` that returns leaves the same callbacks registered. -/
theorem onMessage_sameCallbacks (hkeeps : env.app.KeepsCallbacks) {chunk : Chunk}
    (h : (Client.onMessage env kit chunk).outcome = .left kit') : SameCallbacks kit kit' := by
  obtain rfl | ⟨b, final, _, hsame, rfl⟩ := (untouched_sameCallbacks hkeeps).onMessage h
  · exact .refl kit'
  · exact ⟨hsame.loginCb, hsame.recvCb⟩

end CoffeeChat
