import CoffeeChat.Core.SendLemmas

/-!
# One turn of the receive loop

The unread bytes of the receive buffer are all that a turn of the loop of `Client::onMessage`
depends on, apart from the callbacks registered. `Accepts` is the test a declared length has to
pass, `consume` is what the handlers leave of the bytes behind a header, `callsOf` the callbacks
they run, and `turn_spec` says that the turn the code plays is the one these functions describe:
no read, skip or assertion inside it fails, except the last one on `reset_len`.
-/

namespace CoffeeChat

open Lib Lib.Endian Buffer

/-! ## What the handlers do with the unread bytes -/

/-- The loop passes the header at the front of `u` on to the handlers. -/
def Accepts (u : Bytes) : Prop :=
  4 ≤ (IMHeader.decode u).len.toNat ∧ (IMHeader.decode u).len.toNat ≤ u.length ∧
    (IMHeader.decode u).len < kMaxBufferLen

instance (u : Bytes) : Decidable (Accepts u) := inferInstanceAs (Decidable (_ ∧ _))

/-- The bytes left unread by the handler of a packet behind whose header `body` is unread. -/
def consume (env : Env) (header : IMHeader) (body : Bytes) : Bytes :=
  if header.cmdId = kCIM_CID_LOGIN_AUTH_RSP then
    match env.authRsp.parseFromArray body with
    | some rsp => body.drop (env.authRsp.byteSizeLong rsp)
    | none => body
  else if header.cmdId = kCIM_CID_MSG_DATA then body
  else body.drop header.len.toNat

/-- The callback the handler of a packet invokes. -/
def callOf (env : Env) (kit : ChatKit) (header : IMHeader) (body : Bytes) : Option Call :=
  if header.cmdId = kCIM_CID_LOGIN_AUTH_RSP then
    (env.authRsp.parseFromArray body).bind fun rsp ↦ kit.client.loginCb.map fun id ↦ .loginCb id rsp
  else if header.cmdId = kCIM_CID_MSG_DATA then
    kit.chatManager.recvCb.bind fun id ↦
      (env.msgData.parseFromArray body).map fun data ↦ .recvCb id data
  else none

theorem callOf_authRsp {env : Env} {kit : ChatKit} {header : IMHeader}
    (hcmd : header.cmdId = kCIM_CID_LOGIN_AUTH_RSP) (body : Bytes) :
    callOf env kit header body = (env.authRsp.parseFromArray body).bind fun rsp ↦
      kit.client.loginCb.map fun id ↦ .loginCb id rsp := by
  simp only [callOf, hcmd, if_true]

theorem callOf_msgData {env : Env} {kit : ChatKit} {header : IMHeader}
    (hcmd : header.cmdId = kCIM_CID_MSG_DATA) (body : Bytes) :
    callOf env kit header body = kit.chatManager.recvCb.bind fun id ↦
      (env.msgData.parseFromArray body).map fun data ↦ .recvCb id data := by
  simp only [callOf, hcmd, msgData_ne_authRsp, if_true, if_false]

/-- The dispatch of the packet at the front of `u`, the callbacks apart. -/
def frameOf (env : Env) (u : Bytes) : Dispatch where
  header := IMHeader.decode u
  body := u.drop sizeofIMHeader
  calls := []
  left := consume env (IMHeader.decode u) (u.drop sizeofIMHeader)
  resetLen := (u.length : Int) - (IMHeader.decode u).len.toNat

/-- The dispatch of the packet at the front of `u`. -/
def dispatchOf (env : Env) (kit : ChatKit) (u : Bytes) : Dispatch :=
  { frameOf env u with
    calls := (callOf env kit (IMHeader.decode u) (u.drop sizeofIMHeader)).toList }

theorem length_consume_le (env : Env) (header : IMHeader) (body : Bytes) :
    (consume env header body).length ≤ body.length := by
  unfold consume
  split
  · split
    · simp
    · exact le_rfl
  · split
    · exact le_rfl
    · simp

/-! ## The state of the loop -/

/-- Between two statements of the loop: `u` is unread, in a buffer whose indices are in order,
and the client may log out at any time. -/
structure Holds (kit : ChatKit) (u : Bytes) : Prop where
  wf : kit.client.recvBuffer.WF
  contents_eq : kit.client.recvBuffer.contents = u
  capacity_lt : kit.client.recvBuffer.capacity < 2 ^ 34
  reserved_eq : kit.client.recvBuffer.reservedPrependSize = kCheapPrependSize
  holdsConn : kit.client.HoldsConn

variable {env : Env} {kit : ChatKit} {u v : Bytes}

/-- What a buffer operation leaves is what is unread next. -/
theorem Holds.withBuffer (h : Holds kit u) {b : Buffer} (hb : Leaves kit.client.recvBuffer v b) :
    Holds (kit.withBuffer b) v := by
  obtain ⟨hwf, hcont, hcap, hres⟩ := hb
  exact ⟨hwf, hcont, hcap ▸ h.capacity_lt, hres.trans h.reserved_eq, h.holdsConn⟩

/-- A callback leaves the unread bytes alone. -/
theorem Holds.invoke (env : Env) (h : Holds kit u) (call : Option Call) :
    Holds (kit.invoke env call).2 u ∧ (kit.invoke env call).1 = call.toList := by
  cases call with
  | none => exact ⟨h, rfl⟩
  | some call =>
      have hbuffer := env.app.react_recvBuffer call kit
      refine ⟨?_, rfl⟩
      exact ⟨hbuffer ▸ h.wf, hbuffer ▸ h.contents_eq, hbuffer ▸ h.capacity_lt,
        hbuffer ▸ h.reserved_eq, env.app.react_holdsConn call kit h.holdsConn⟩

/-! ## The handlers -/

/-- What a handler that leaves `v` unread and runs `call` returns. -/
def Handled (v : Bytes) (call : Option Call) (r : List Call × ChatKit) : Prop :=
  r.1 = call.toList ∧ Holds r.2 v

/-- `PARSE_PB_AND_CHECK` skips the size of the message it was given all unread bytes for. -/
theorem parsePbAndCheck_spec {α : Type} (codec : Codec α) {b : Buffer} (hb : b.WF) :
    Returns (parsePbAndCheck codec b) fun r =>
      match codec.parseFromArray b.contents with
      | none => r = none
      | some rsp => ∃ b', r = some (rsp, b') ∧
          Leaves b (b.contents.drop (codec.byteSizeLong rsp)) b' := by
  cases hparse : codec.parseFromArray b.contents with
  | none =>
      refine ⟨none, ?_, rfl⟩
      simp only [parsePbAndCheck, length_eq hb, hparse, bind, Except.bind, pure, Except.pure]
  | some rsp =>
      obtain ⟨b', hskip, hleaves⟩ := skip_spec hb (codec.byteSizeLong rsp)
      refine ⟨some (rsp, b'), ?_, b', rfl, hleaves⟩
      simp only [parsePbAndCheck, length_eq hb, hparse, hskip, bind, Except.bind, pure,
        Except.pure]

theorem onHandleAuthRsp_spec (h : Holds kit u) :
    Returns (Client.onHandleAuthRsp env kit)
      (Handled
        (match env.authRsp.parseFromArray u with
          | some rsp => u.drop (env.authRsp.byteSizeLong rsp)
          | none => u)
        ((env.authRsp.parseFromArray u).bind fun rsp ↦
          kit.client.loginCb.map fun id ↦ .loginCb id rsp)) := by
  have hcheck := parsePbAndCheck_spec env.authRsp h.wf
  rw [h.contents_eq] at hcheck
  refine hcheck.bind fun r hr ↦ ?_
  cases hparse : env.authRsp.parseFromArray u with
  | none =>
      simp only [hparse] at hr
      subst hr
      exact Returns.ok ⟨rfl, h⟩
  | some rsp =>
      simp only [hparse] at hr
      obtain ⟨b, rfl, hleaves⟩ := hr
      have hskipped := h.withBuffer hleaves
      by_cases hok : rsp.resultCode = kCIM_ERR_SUCCESS
      · obtain ⟨hafter, hcalls⟩ :=
          hskipped.invoke env (kit.client.loginCb.map fun id ↦ .loginCb id rsp)
        refine ⟨_, ?_, hcalls, hafter⟩
        simp only [ne_eq, hok, not_true, if_false, bind, Except.bind, pure, Except.pure]
        rfl
      · -- the login failed: the connection is closed before the callback runs
        obtain ⟨c, hlogout, hbuffer, hcb, hconn⟩ := Client.logout_spec env hskipped.holdsConn
        have hout : Holds { kit.withBuffer b with client := c } _ :=
          ⟨hbuffer ▸ hskipped.wf, hbuffer ▸ hskipped.contents_eq, hbuffer ▸ hskipped.capacity_lt,
            hbuffer ▸ hskipped.reserved_eq, hconn⟩
        obtain ⟨hafter, hcalls⟩ :=
          hout.invoke env (kit.client.loginCb.map fun id ↦ .loginCb id rsp)
        refine ⟨_, ?_, hcalls, hafter⟩
        simp only [ne_eq, hok, not_false_iff, if_true, hlogout, bind, Except.bind, pure,
          Except.pure, hcb]
        rfl

theorem chatManager_onHandleData_spec (h : Holds kit u) {header : IMHeader}
    (hcmd : header.cmdId = kCIM_CID_MSG_DATA) :
    Returns (ChatManager.onHandleData env header kit)
      (Handled u (kit.chatManager.recvCb.bind fun id ↦
        (env.msgData.parseFromArray u).map fun data ↦ .recvCb id data)) := by
  cases hcb : kit.chatManager.recvCb with
  | none =>
      refine ⟨([], kit), ?_, rfl, h⟩
      simp only [ChatManager.onHandleData, hcmd, if_true, hcb, pure, Except.pure]
  | some id =>
      obtain ⟨hafter, hcalls⟩ := h.invoke env
        ((env.msgData.parseFromArray u).map fun data ↦ .recvCb id data)
      refine ⟨_, ?_, hcalls, hafter⟩
      simp only [ChatManager.onHandleData, hcmd, if_true, hcb, length_eq h.wf, h.contents_eq, bind,
        Except.bind, pure, Except.pure]

/-- The handler of every packet returns: it leaves `consume` unread and runs `callOf`. -/
theorem onHandleData_spec (env : Env) (h : Holds kit u) (header : IMHeader) :
    Returns (Client.onHandleData env header kit)
      (Handled (consume env header u) (callOf env kit header u)) := by
  by_cases hauth : header.cmdId = kCIM_CID_LOGIN_AUTH_RSP
  · simp only [Client.onHandleData, consume, callOf, hauth, if_true]
    exact onHandleAuthRsp_spec h
  · by_cases hdata : header.cmdId = kCIM_CID_MSG_DATA
    · simp only [Client.onHandleData, consume, callOf, hdata, if_true]
      exact chatManager_onHandleData_spec h hdata
    · simp only [Client.onHandleData, consume, callOf, hauth, hdata, if_false]
      have hskip := skip_spec h.wf header.len.toNat
      rw [h.contents_eq] at hskip
      exact hskip.bind fun b hb ↦ Returns.ok ⟨rfl, h.withBuffer hb⟩

/-! ## Reading the header -/

/-- `ReadInt16` with `pos` bytes of `u` already read. -/
theorem readInt16_at {b b' : Buffer} {pos : Nat} (h : Leaves b (u.drop pos) b')
    (hn : pos + 2 ≤ u.length) :
    Returns b'.readInt16 fun r =>
      r.1.toUInt16 = IMHeader.halfAt u pos ∧ Leaves b (u.drop (pos + 2)) r.2 := by
  obtain ⟨hwf, hcont, hcap, hres⟩ := h
  have hread := readInt16_spec hwf (by rw [hcont, List.length_drop]; omega)
  rw [hcont, List.drop_drop] at hread
  refine hread.mono fun r hr ↦ ?_
  obtain ⟨hval, hwf', hcont', hcap', hres'⟩ := hr
  exact ⟨hval, hwf', hcont', hcap'.trans hcap, hres'.trans hres⟩

/-- The six reads after the length yield the header at the front of `u`. -/
theorem readHeader_spec {b b' : Buffer} {len : UInt32} (h : Leaves b (u.drop 4) b')
    (hn : sizeofIMHeader ≤ u.length) (hlen : len = (IMHeader.decode u).len) :
    Returns (Client.readHeader len b') fun r =>
      r.1 = IMHeader.decode u ∧ (∀ x ∈ r.2.1, x.WF) ∧ Leaves b (u.drop sizeofIMHeader) r.2.2 := by
  simp only [sizeofIMHeader] at hn ⊢
  refine (readInt16_at h (by omega)).bind fun r1 hr ↦ ?_
  obtain ⟨hversion, h1⟩ := hr
  refine (readInt16_at h1 (by omega)).bind fun r2 hr ↦ ?_
  obtain ⟨hflag, h2⟩ := hr
  refine (readInt16_at h2 (by omega)).bind fun r3 hr ↦ ?_
  obtain ⟨hservice, h3⟩ := hr
  refine (readInt16_at h3 (by omega)).bind fun r4 hr ↦ ?_
  obtain ⟨hcmd, h4⟩ := hr
  refine (readInt16_at h4 (by omega)).bind fun r5 hr ↦ ?_
  obtain ⟨hseq, h5⟩ := hr
  refine (readInt16_at h5 (by omega)).bind fun r6 hr ↦ ?_
  obtain ⟨hreserved, h6⟩ := hr
  refine Returns.ok ⟨?_, ?_, h6⟩
  · simp only [hversion, hflag, hservice, hcmd, hseq, hreserved, hlen, IMHeader.decode]
  · simp only [List.mem_cons, List.not_mem_nil, or_false, forall_eq_or_imp, forall_eq]
    exact ⟨h1.1, h2.1, h3.1, h4.1, h5.1, h6.1⟩

/-! ## The turn -/

/-- The state at the top of the loop: at least a header is unread, and at most one chunk. -/
def AtTop (kit : ChatKit) (u : Bytes) : Prop :=
  Holds kit u ∧ sizeofIMHeader ≤ u.length ∧ u.length < 2 ^ 31

/-- The turn of the loop, on the unread bytes alone. -/
def walkTurn (env : Env) (u : Bytes) : Bytes × Loop.Turn Bytes Fault :=
  if Accepts u then
    let left := consume env (IMHeader.decode u) (u.drop sizeofIMHeader)
    if env.ndebug = false ∧ left.length ≠ u.length - (IMHeader.decode u).len.toNat then
      (u, .fail .assertFailed)
    else if left.length < sizeofIMHeader then (u, .leave left)
    else (u, .again left)
  else (u, .leave (u.drop 4))

/-- A `size_t` below 2 GiB keeps its value as an `int`. -/
theorem toInt_of_lt {n : Nat} (hn : n < 2 ^ 31) : toInt n = n :=
  Int.bmod_eq_of_le (by omega) (by omega)

/-- `reset_len` of an accepted length is what follows the packet. -/
theorem resetLen_eq {n len : Nat} (hlen : 4 ≤ len) (hle : len ≤ n) (hn : n < 2 ^ 31) :
    toInt (sizeT (n - 4 + 2 ^ 64 - len + 4)) = (n : Int) - len := by
  have hsum : n - 4 + 2 ^ 64 - len + 4 = n - len + 2 ^ 64 := by omega
  have hsize : sizeT (n - 4 + 2 ^ 64 - len + 4) = n - len := by
    rw [hsum, sizeT, Nat.add_mod_right, Nat.mod_eq_of_lt (by omega)]
  rw [hsize, toInt_of_lt (by omega)]
  omega

/-- The assertion on `reset_len`: exactly what follows the packet is left. -/
theorem resetLenHolds_iff {d : Dispatch} (hacc : Accepts u) (hlt : u.length < 2 ^ 31)
    (hd : d.resetLen = (u.length : Int) - (IMHeader.decode u).len.toNat) :
    d.ResetLenHolds ↔ d.left.length = u.length - (IMHeader.decode u).len.toNat := by
  have hle := hacc.2.1
  rw [Dispatch.ResetLenHolds, hd]
  omega

/-- A turn refused at its length field, and one that dispatches, as records. -/
def passOf (env : Env) (kit : ChatKit) (u : Bytes) (buffers : List Buffer) : Pass :=
  ⟨u, buffers, if Accepts u then some (dispatchOf env kit u) else none⟩

theorem passOf_dispatched (env : Env) (kit : ChatKit) (buffers : List Buffer) (hacc : Accepts u) :
    (passOf env kit u buffers).dispatched = some (dispatchOf env kit u) := by
  simp only [passOf, hacc, if_true]

/-- From the call of `onHandleData` on. -/
theorem dispatch_spec (env : Env) (h : Holds kit (u.drop sizeofIMHeader)) (hacc : Accepts u)
    (hmax : u.length < 2 ^ 31) {buffers : List Buffer} (hbuffers : ∀ b ∈ buffers, b.WF) :
    ∃ buffers' t, Client.dispatch env kit (IMHeader.decode u)
        ((u.length : Int) - (IMHeader.decode u).len.toNat) ⟨u, buffers, none⟩ =
          .ok (passOf env kit u buffers', t) ∧
      (∀ b ∈ buffers', b.WF) ∧ Loop.Turn.Alike AtTop Holds t (walkTurn env u).2 := by
  obtain ⟨⟨calls, kit'⟩, hhandle, hcalls, hafter⟩ :=
    onHandleData_spec env h (IMHeader.decode u)
  simp only at hcalls hafter
  have hall : ∀ b ∈ buffers ++ [kit'.client.recvBuffer], b.WF := by
    intro b hb
    rcases List.mem_append.mp hb with hb | hb
    · exact hbuffers b hb
    · exact List.mem_singleton.mp hb ▸ hafter.wf
  have hd : (⟨IMHeader.decode u, u.drop sizeofIMHeader, calls,
      consume env (IMHeader.decode u) (u.drop sizeofIMHeader),
      (u.length : Int) - (IMHeader.decode u).len.toNat⟩ : Dispatch) = dispatchOf env kit u := by
    rw [hcalls, dispatchOf, frameOf]
  have hleft : (dispatchOf env kit u).left =
      consume env (IMHeader.decode u) (u.drop sizeofIMHeader) := rfl
  have hsmall := length_consume_le env (IMHeader.decode u) (u.drop sizeofIMHeader)
  have hreset := resetLenHolds_iff (d := dispatchOf env kit u) hacc hmax rfl
  rw [hleft] at hreset
  refine ⟨buffers ++ [kit'.client.recvBuffer], ?_⟩
  simp only [Client.dispatch, h.contents_eq, hhandle, length_eq hafter.wf, hafter.contents_eq, hd,
    hreset, bind, Except.bind, pure, Except.pure, walkTurn, hacc, if_true, passOf]
  split
  case isTrue => exact ⟨_, rfl, hall, .fail⟩
  case isFalse =>
    split
    case isTrue hzero =>
      rw [if_pos (Nat.lt_of_le_of_lt hzero (by decide))]
      exact ⟨_, rfl, hall, .leave hafter⟩
    case isFalse =>
      split
      case isTrue => exact ⟨_, rfl, hall, .leave hafter⟩
      case isFalse hlong =>
        refine ⟨_, rfl, hall, .again ⟨hafter, by omega, ?_⟩⟩
        rw [List.length_drop] at hsmall
        omega

/-- Every turn returns, and is the one that the unread bytes and the callbacks determine. -/
theorem turn_spec (env : Env) (h : AtTop kit u) :
    ∃ buffers t, Client.turn env kit = .ok (passOf env kit u buffers, t) ∧
      (∀ b ∈ buffers, b.WF) ∧ Loop.Turn.Alike AtTop Holds t (walkTurn env u).2 := by
  obtain ⟨h, hmin, hmax⟩ := h
  have hmin' : 16 ≤ u.length := hmin
  have hread := readInt32_spec h.wf (by rw [h.contents_eq]; omega)
  rw [h.contents_eq] at hread
  obtain ⟨⟨word, b⟩, hread, hword, hb⟩ := hread
  simp only at hword hb
  have hlen : word.toUInt32 = (IMHeader.decode u).len := hword
  have hrest : b.contents.length = u.length - 4 := by rw [hb.2.1, List.length_drop]
  have hone : ∀ x ∈ [b], x.WF := fun x hx ↦ List.mem_singleton.mp hx ▸ hb.1
  have hlt := (IMHeader.decode u).len.toNat_lt
  -- the test on the length, with its wrap-around below four
  have htest : sizeT ((IMHeader.decode u).len.toNat + 2 ^ 64 - 4) > u.length - 4 ↔
      ¬ (4 ≤ (IMHeader.decode u).len.toNat ∧ (IMHeader.decode u).len.toNat ≤ u.length) := by
    unfold sizeT
    omega
  simp only [Client.turn, h.contents_eq, hread, length_eq hb.1, size_eq hb.1, hrest, hlen, htest,
    bind, Except.bind]
  by_cases hfits : 4 ≤ (IMHeader.decode u).len.toNat ∧ (IMHeader.decode u).len.toNat ≤ u.length
  · by_cases hsmall : (IMHeader.decode u).len < kMaxBufferLen
    · have hacc : Accepts u := ⟨hfits.1, hfits.2, hsmall⟩
      obtain ⟨⟨header, buffers, b'⟩, hheader, rfl, hbuffers, hb'⟩ := readHeader_spec hb hmin hlen
      simp only at hbuffers hb'
      rw [hlen] at hheader
      have hall : ∀ x ∈ b :: buffers, x.WF := List.forall_mem_cons.mpr ⟨hb.1, hbuffers⟩
      have hdispatch := dispatch_spec env (h.withBuffer hb') hacc hmax hall
      simp only [hfits, and_self, not_true, if_false, hsmall, if_true, hheader,
        resetLen_eq hfits.1 hfits.2 hmax]
      exact hdispatch
    · have hacc : ¬ Accepts u := fun hacc ↦ hsmall hacc.2.2
      simp only [hfits, and_self, not_true, if_false, hsmall, passOf, walkTurn, hacc]
      exact ⟨_, _, rfl, hone, .leave (h.withBuffer hb)⟩
  · have hacc : ¬ Accepts u := fun hacc ↦ hfits ⟨hacc.1, hacc.2.1⟩
    simp only [hfits, not_false_iff, if_true, passOf, walkTurn, hacc, if_false]
    exact ⟨_, _, rfl, hone, .leave (h.withBuffer hb)⟩

end CoffeeChat
