import CoffeeChat.Core.Session
import CoffeeChat.Net.TcpClientLemmas

/-!
# What a call leaves of the others

A call that closes a client first closes it and then touches nothing of the others: `After c`
relates the world behind that `close` to the world behind the call. Behind its `close`, `connect`
attaches one handle more (`connect_opened`), with a socket that has its entry or with none.
-/

namespace CoffeeChat.Net.World

open Lib

variable {w w' : World} {c d h : Nat} {f : Int}

/-! ## Behind the first `close` of a call -/

/-- What a call of `c` does behind its first `close`, which leaves `w`, touches nothing of the
other clients, and what it opens has its entry. -/
structure After (c : Nat) (w w' : World) : Prop where
  coherent : w'.Coherent
  client_eq : ∀ d, d ≠ c → w'.client d = w.client d
  handle_eq : ∀ h, h < w.opened → w'.handle h = w.handle h
  lookup_iff : ∀ f d, d ≠ c → (w'.gConnMap.lookup f = some d ↔ w.gConnMap.lookup f = some d)
  own : ∀ f, w'.Owns c f → w'.gConnMap.lookup f = some c
  fresh : ∀ h, w.opened ≤ h → (w'.handle h).pending →
    ∃ f, (w'.handle h).fd = some f ∧ w'.Owns c f

/-- Every other client owns what it did. -/
theorem After.owns_iff (ha : After c w w') (hw : w.Coherent) (hdc : d ≠ c) :
    w'.Owns d f ↔ w.Owns d f := by
  refine owns_congr (ha.client_eq d hdc) fun h hdh ↦ ?_
  exact ha.handle_eq h (hw.handle_lt d h hdh)

/-- An entry of another client that is not the one erased is there behind the call. -/
theorem After.lookup_of_ne (hw : w.Coherent) (ha : After c (w.close c) w') (hdc : d ≠ c)
    (hf : f ≠ (w.client c).sockFd) (hl : w.gConnMap.lookup f = some d) :
    w'.gConnMap.lookup f = some d := by
  rw [ha.lookup_iff f d hdc, lookup_close_of_ne hw hf]
  exact hl

/-- The world with the next handle opened, for `c` in the first place. -/
def attach (w : World) (c : Nat) (t : TcpClient) (hd : Handle) (m : AList fun _ : Int ↦ Nat) :
    World :=
  { w with
    client := Function.update w.client c t
    handle := Function.update w.handle w.opened hd
    opened := w.opened + 1
    gConnMap := m }

/-- What `connect` leaves of a handle it has opened: no socket and nothing due, or a socket with
a descriptor of its own, a connect under way and an entry. -/
inductive Opened (w : World) (c : Nat) (t : TcpClient) : Handle →
    (AList fun _ : Int ↦ Nat) → Prop where
  | idle {hd : Handle} {m : AList fun _ : Int ↦ Nat} (hfd : hd.fd = none)
      (hpending : hd.pending = false) (hquiet : hd.starting = false ∧ hd.reading = false)
      (hhandle : t.tcpHandle = none ∨ t.tcpHandle = some w.opened ∧ hd.closing = false)
      (hlookup : ∀ f, m.lookup f = w.gConnMap.lookup f) : Opened w c t hd m
  | connecting (hopen : ¬ w.IsOpen t.sockFd) (hhandle : t.tcpHandle = some w.opened) :
      Opened w c t { fd := some t.sockFd, pending := true } (w.gConnMap.insert t.sockFd c)

variable {t : TcpClient} {hd : Handle} {m : AList fun _ : Int ↦ Nat}

theorem attach_client_self : (w.attach c t hd m).client c = t := Function.update_self ..

theorem attach_client_of_ne (hdc : d ≠ c) : (w.attach c t hd m).client d = w.client d :=
  Function.update_of_ne hdc ..

theorem attach_handle_self : (w.attach c t hd m).handle w.opened = hd := Function.update_self ..

theorem attach_handle_of_ne (hne : h ≠ w.opened) : (w.attach c t hd m).handle h = w.handle h :=
  Function.update_of_ne hne ..

/-- A client other than `c` owns what it did. -/
theorem attach_owns_of_ne (hw : w.Coherent) (hdc : d ≠ c) :
    (w.attach c t hd m).Owns d f ↔ w.Owns d f := by
  refine owns_congr (attach_client_of_ne hdc) fun h hdh ↦ ?_
  exact attach_handle_of_ne (Nat.ne_of_lt (hw.handle_lt d h hdh))

/-- What `c` owns is the socket just opened. -/
theorem Opened.owns_self (ho : Opened w c t hd m) :
    (w.attach c t hd m).Owns c f ↔ hd.fd = some f ∧ t.sockFd = f := by
  unfold Owns
  rw [attach_client_self]
  cases ho with
  | idle hfd hpending hquiet hhandle hlookup =>
      rcases hhandle with hnone | ⟨hsome, _⟩
      · simp [hnone, hfd]
      · simp [hsome, attach_handle_self, hfd]
  | connecting hopen hhandle => simp [hhandle, attach_handle_self]

theorem Opened.handle_cases (ho : Opened w c t hd m) (hth : t.tcpHandle = some h) :
    h = w.opened ∧ hd.closing = false := by
  cases ho with
  | idle hfd hpending hquiet hhandle hlookup =>
      rcases hhandle with hnone | ⟨hsome, hclosing⟩
      · rw [hnone] at hth
        cases hth
      · rw [hsome] at hth
        exact ⟨(Option.some.inj hth).symm, hclosing⟩
  | connecting hopen hhandle =>
      rw [hhandle] at hth
      exact ⟨(Option.some.inj hth).symm, rfl⟩

/-- The entries behind: those there were, and that of the socket just opened. -/
theorem Opened.lookup_cases (hw : w.Coherent) (ho : Opened w c t hd m) :
    (∀ f d, d ≠ c → (m.lookup f = some d ↔ w.gConnMap.lookup f = some d)) ∧
      (∀ f, hd.fd = some f → m.lookup f = some c) := by
  cases ho with
  | idle hfd hpending hquiet hhandle hlookup =>
      refine ⟨fun f d _ ↦ by rw [hlookup], fun f hf ↦ ?_⟩
      rw [hfd] at hf
      cases hf
  | connecting hopen hhandle =>
      constructor
      · intro f d hdc
        by_cases hf : f = t.sockFd
        · subst hf
          rw [AList.lookup_insert]
          refine iff_of_false (fun heq ↦ hdc (Option.some.inj heq).symm) fun hl ↦ hopen ?_
          obtain ⟨h, _, hhf⟩ := hw.entry _ d hl
          exact ⟨h, hw.fd_lt h _ hhf, hhf⟩
        · rw [AList.lookup_insert_ne hf]
      · rintro f ⟨rfl⟩
        exact AList.lookup_insert _

/-- Handles before the one just opened are as they were, and that one is what was opened. -/
theorem attach_handle_cases (w : World) (c : Nat) (t : TcpClient) (hd : Handle)
    (m : AList fun _ : Int ↦ Nat) (h : Nat) :
    h = w.opened ∧ (w.attach c t hd m).handle h = hd ∨
      h ≠ w.opened ∧ (w.attach c t hd m).handle h = w.handle h := by
  by_cases hh : h = w.opened
  · rw [hh]
    exact Or.inl ⟨rfl, attach_handle_self⟩
  · exact Or.inr ⟨hh, attach_handle_of_ne hh⟩

/-- An opened socket has a descriptor no other has. -/
theorem Opened.fd_ne (hw : w.Coherent) (ho : Opened w c t hd m) (hf : hd.fd = some f)
    (hhf : (w.handle h).fd = some f) : False := by
  cases ho with
  | idle hfd =>
      rw [hfd] at hf
      cases hf
  | connecting hopen hhandle =>
      cases hf
      exact hopen ⟨h, hw.fd_lt h _ hhf, hhf⟩

/-- A client without a handle has no entry. -/
theorem Coherent.lookup_ne (hw : w.Coherent) (hc : (w.client c).tcpHandle = none) :
    w.gConnMap.lookup f ≠ some c := by
  intro hl
  obtain ⟨h, hch, _⟩ := hw.entry f c hl
  rw [hc] at hch
  cases hch

theorem Opened.coherent (hw : w.Coherent) (halive : w.alive c = true)
    (hc : (w.client c).tcpHandle = none) (hsock : 0 ≤ t.sockFd) (ho : Opened w c t hd m) :
    (w.attach c t hd m).Coherent where
  sockFd_nonneg d := by
    by_cases hdc : d = c
    · rwa [hdc, attach_client_self]
    · rw [attach_client_of_ne hdc]
      exact hw.sockFd_nonneg d
  alive_lt := hw.alive_lt
  dead d hd := by
    have hdc : d ≠ c := by
      rintro rfl
      exact Bool.false_ne_true (hd.symm.trans halive)
    rw [attach_client_of_ne hdc]
    exact hw.dead d hd
  sockFd_eq d f hown := by
    by_cases hdc : d = c
    · subst d
      rw [attach_client_self]
      exact (ho.owns_self.mp hown).2
    · rw [attach_client_of_ne hdc]
      exact hw.sockFd_eq d f ((attach_owns_of_ne hw hdc).mp hown)
  handle_lt d h hdh := by
    show h < w.opened + 1
    by_cases hdc : d = c
    · subst d
      rw [attach_client_self] at hdh
      have := (ho.handle_cases hdh).1
      omega
    · rw [attach_client_of_ne hdc] at hdh
      exact Nat.lt_succ_of_lt (hw.handle_lt d h hdh)
  handle_inj d e h hdh heh := by
    have hother (a : Nat) (hac : a ≠ c) (ha : ((w.attach c t hd m).client a).tcpHandle = some h) :
        h < w.opened := by
      rw [attach_client_of_ne hac] at ha
      exact hw.handle_lt a h ha
    have hself (ha : ((w.attach c t hd m).client c).tcpHandle = some h) : h = w.opened := by
      rw [attach_client_self] at ha
      exact (ho.handle_cases ha).1
    by_cases hdc : d = c
    · by_cases hec : e = c
      · rw [hdc, hec]
      · have heq := hself (hdc ▸ hdh)
        have hlt := hother e hec heh
        omega
    · by_cases hec : e = c
      · have heq := hself (hec ▸ heh)
        have hlt := hother d hdc hdh
        omega
      · rw [attach_client_of_ne hdc] at hdh
        rw [attach_client_of_ne hec] at heh
        exact hw.handle_inj d e h hdh heh
  fd_lt h f hf := by
    show h < w.opened + 1
    rcases attach_handle_cases w c t hd m h with ⟨rfl, _⟩ | ⟨_, heq⟩
    · exact Nat.lt_succ_self _
    · rw [heq] at hf
      exact Nat.lt_succ_of_lt (hw.fd_lt h f hf)
  fd_inj h h' f hf hf' := by
    rcases attach_handle_cases w c t hd m h with ⟨hh, heq⟩ | ⟨_, heq⟩
    · rcases attach_handle_cases w c t hd m h' with ⟨hh', heq'⟩ | ⟨_, heq'⟩
      · rw [hh, hh']
      · rw [heq] at hf
        rw [heq'] at hf'
        exact (ho.fd_ne hw hf hf').elim
    · rcases attach_handle_cases w c t hd m h' with ⟨hh', heq'⟩ | ⟨_, heq'⟩
      · rw [heq] at hf
        rw [heq'] at hf'
        exact (ho.fd_ne hw hf' hf).elim
      · rw [heq] at hf
        rw [heq'] at hf'
        exact hw.fd_inj h h' f hf hf'
  fd_open h f hf := by
    rcases attach_handle_cases w c t hd m h with ⟨_, heq⟩ | ⟨_, heq⟩
    · rw [heq] at hf ⊢
      cases ho with
      | idle hfd =>
          rw [hfd] at hf
          cases hf
      | connecting => rfl
    · rw [heq] at hf ⊢
      exact hw.fd_open h f hf
  entry f d hl := by
    by_cases hdc : d = c
    · subst d
      refine ho.owns_self.mpr ?_
      cases ho with
      | idle hfd hpending hquiet hhandle hlookup =>
          exact absurd ((hlookup f).symm.trans hl) (hw.lookup_ne hc)
      | connecting hopen hhandle =>
          by_cases hf : f = t.sockFd
          · exact ⟨congrArg some hf.symm, hf.symm⟩
          · exact absurd ((AList.lookup_insert_ne hf).symm.trans hl) (hw.lookup_ne hc)
    · have hother := (ho.lookup_cases hw).1 f d hdc
      exact (attach_owns_of_ne hw hdc).mpr (hw.entry f d (hother.mp hl))
  due h hdue hopen := by
    rcases attach_handle_cases w c t hd m h with ⟨_, heq⟩ | ⟨_, heq⟩
    · rw [heq] at hdue hopen ⊢
      cases ho with
      | idle hfd hpending hquiet => simp [hpending, hquiet] at hdue
      | connecting => exact ⟨_, rfl⟩
    · rw [heq] at hdue hopen ⊢
      exact hw.due h hdue hopen
  pending_only h hp := by
    rcases attach_handle_cases w c t hd m h with ⟨_, heq⟩ | ⟨_, heq⟩
    · rw [heq]
      cases ho with
      | idle hfd hpending hquiet => exact hquiet
      | connecting => exact ⟨rfl, rfl⟩
    · rw [heq] at hp ⊢
      exact hw.pending_only h hp
  reading_open h hr := by
    rcases attach_handle_cases w c t hd m h with ⟨_, heq⟩ | ⟨_, heq⟩
    · rw [heq] at hr
      cases ho with
      | idle hfd hpending hquiet => exact absurd (hquiet.2.symm.trans hr) Bool.false_ne_true
      | connecting => cases hr
    · rw [heq] at hr ⊢
      exact hw.reading_open h hr
  fresh h hle := by
    have hne : h ≠ w.opened := by
      rintro rfl
      exact absurd hle (Nat.not_succ_le_self _)
    rw [attach_handle_of_ne hne]
    exact hw.fresh h (Nat.le_of_succ_le hle)

theorem Opened.after (hw : w.Coherent) (halive : w.alive c = true)
    (hc : (w.client c).tcpHandle = none) (hsock : 0 ≤ t.sockFd) (ho : Opened w c t hd m) :
    After c w (w.attach c t hd m) where
  coherent := ho.coherent hw halive hc hsock
  client_eq _ hdc := attach_client_of_ne hdc
  handle_eq _ hlt := attach_handle_of_ne (Nat.ne_of_lt hlt)
  lookup_iff := (ho.lookup_cases hw).1
  own f hown := (ho.lookup_cases hw).2 f (ho.owns_self.mp hown).1
  fresh h hle hp := by
    rcases attach_handle_cases w c t hd m h with ⟨_, heq⟩ | ⟨_, heq⟩
    · rw [heq] at hp ⊢
      cases ho with
      | idle hfd hpending =>
          rw [hpending] at hp
          cases hp
      | connecting hopen hhandle =>
          exact ⟨_, rfl, (Opened.connecting hopen hhandle).owns_self.mpr ⟨rfl, rfl⟩⟩
    · rw [heq, hw.fresh h hle] at hp
      cases hp

/-- Behind a `close` alone. -/
theorem close_after (hw : w.Coherent) (c : Nat) : After c (w.close c) (w.close c) where
  coherent := hw.close c
  client_eq _ _ := rfl
  handle_eq _ _ := rfl
  lookup_iff _ _ _ := Iff.rfl
  own _ hown := absurd hown not_close_owns_self
  fresh h hle hp := by
    rw [(hw.close c).fresh h hle] at hp
    cases hp

/-- Behind the destructor. -/
theorem destruct_after (hw : w.Coherent) (c : Nat) : After c (w.close c) (w.destruct c) where
  coherent :=
    { hw.close c with
      alive_lt := fun d hd ↦ by
        by_cases hdc : d = c
        · subst d
          rw [show (w.destruct c).alive c = false from Function.update_self ..] at hd
          cases hd
        · rw [show (w.destruct c).alive d = w.alive d from Function.update_of_ne hdc ..] at hd
          show d < (w.close c).made
          rw [close_made]
          exact hw.alive_lt d hd
      dead := fun d hd ↦ by
        show ((w.close c).client d).tcpHandle = none
        by_cases hdc : d = c
        · rw [hdc, close_client_self]
        · rw [show (w.destruct c).alive d = w.alive d from Function.update_of_ne hdc ..] at hd
          rw [close_client_of_ne hdc]
          exact hw.dead d hd }
  client_eq _ _ := rfl
  handle_eq _ _ := rfl
  lookup_iff _ _ _ := Iff.rfl
  own _ hown := absurd hown not_close_owns_self
  fresh := (close_after hw c).fresh

/-! ## `connect` -/

theorem openHandle_eq (w : World) (c : Nat) : w.openHandle c =
    w.attach c { w.client c with tcpHandle := some w.opened } {} w.gConnMap := rfl

/-- A connect that `uv_tcp_connect` refuses closes again. -/
theorem refused_eq (w : World) (c : Nat) :
    ((w.openHandle c).setConnectionStatus c .kConnecting).close c =
      w.attach c { w.client c with tcpHandle := none, connectStatus := .kDisConnected }
        { closing := true } (if (w.client c).sockFd ≠ kInvalidSocket then
          w.gConnMap.erase (w.client c).sockFd else w.gConnMap) := by
  rw [close_eq, openHandle_eq]
  simp [setConnectionStatus, setClient, attach]

/-- A connect under way, with its descriptor and its entry. -/
theorem connecting_eq (w : World) (c : Nat) (f : Int) :
    (((w.openHandle c).setConnectionStatus c .kConnecting).setHandle w.opened
      { ((w.openHandle c).setConnectionStatus c .kConnecting).handle w.opened with
        fd := some f, pending := true }).register c w.opened =
      w.attach c ⟨some w.opened, f, .kConnecting⟩ { fd := some f, pending := true }
        (w.gConnMap.insert f c) := by
  rw [openHandle_eq]
  simp [register, uvFileno, setConnectionStatus, setClient, setHandle, attach]

theorem uvTcpConnect_cases (w : World) (h : Nat) (os : Outcome) :
    (0 ≤ os.fd ∧ ¬ w.IsOpen os.fd ∧ w.uvTcpConnect h os =
        (0, w.setHandle h { w.handle h with fd := some os.fd, pending := true })) ∨
      ∃ ret, ret ≠ 0 ∧ w.uvTcpConnect h os = (ret, w) := by
  unfold uvTcpConnect
  by_cases hret : os.tcpConnect = 0
  · rw [if_neg (not_not.mpr hret)]
    by_cases htaken : os.fd < 0 ∨ w.IsOpen os.fd
    · rw [if_pos htaken]
      exact Or.inr ⟨UV_EMFILE, by decide, rfl⟩
    · rw [if_neg htaken]
      obtain ⟨hfd, hopen⟩ := not_or.mp htaken
      exact Or.inl ⟨Int.not_lt.mp hfd, hopen, rfl⟩
  · rw [if_pos hret]
    exact Or.inr ⟨os.tcpConnect, hret, rfl⟩

/-- What `connect` opens behind its first `close`, and the status it leaves. -/
theorem connect_opened (hw : w.Coherent) {os : Outcome} {r : Bool}
    (h : w.connect c os = .ok (r, w')) :
    ∃ t hd m, w' = (w.close c).attach c t hd m ∧ Opened (w.close c) c t hd m ∧ 0 ≤ t.sockFd ∧
      t.connectStatus = if r then .kConnecting else .kDisConnected := by
  obtain ⟨_, _, h⟩ := bind_eq_ok.mp h
  have hsock : 0 ≤ ((w.close c).client c).sockFd := (hw.close c).sockFd_nonneg c
  have hstatus : ((w.close c).client c).connectStatus = .kDisConnected := by
    rw [close_client_self]
  -- without a socket the handle is left as it is
  have hidle (hres : Except.ok (false, (w.close c).openHandle c) = (.ok (r, w') : Result _)) :
      ∃ t hd m, w' = (w.close c).attach c t hd m ∧ Opened (w.close c) c t hd m ∧ 0 ≤ t.sockFd ∧
        t.connectStatus = if r then .kConnecting else .kDisConnected := by
    cases hres
    exact ⟨_, _, _, openHandle_eq _ _,
      .idle rfl rfl ⟨rfl, rfl⟩ (Or.inr ⟨rfl, rfl⟩) (fun _ ↦ rfl), hsock, hstatus⟩
  by_cases hinit : os.tcpInit = kInvalidSocket
  · rw [if_pos hinit] at h
    exact hidle h
  · rw [if_neg hinit] at h
    by_cases haddr : os.ip4Addr = kInvalidSocket
    · rw [if_pos haddr] at h
      exact hidle h
    · rw [if_neg haddr] at h
      dsimp only at h
      rcases uvTcpConnect_cases (((w.close c).openHandle c).setConnectionStatus c .kConnecting)
        (w.close c).opened os with ⟨hfd, hopen, heq⟩ | ⟨ret, hret, heq⟩
      · rw [heq] at h
        have hres : (true, _) = (r, w') := Except.ok.inj h
        rw [connecting_eq] at hres
        cases hres
        refine ⟨_, _, _, rfl, .connecting (fun hold ↦ hopen ?_) rfl, hfd, rfl⟩
        obtain ⟨h', hlt, hf⟩ := hold
        refine ⟨h', Nat.lt_succ_of_lt hlt, ?_⟩
        rw [← hf]
        exact congrArg Handle.fd (setHandle_handle_of_ne {} (Nat.ne_of_lt hlt))
      · rw [heq] at h
        have hres := (if_neg hret).symm.trans h
        rw [refused_eq] at hres
        cases hres
        refine ⟨_, _, _, rfl, .idle rfl rfl ⟨rfl, rfl⟩ (Or.inl rfl) fun f ↦ ?_, hsock, rfl⟩
        -- the entry it erases again is gone already
        by_cases hf : f = ((w.close c).client c).sockFd
        · split
          · rw [hf, AList.lookup_erase, close_client_self, lookup_close_self hw]
          · rfl
        · split
          · exact AList.lookup_erase_ne hf
          · rfl

/-- The status `connect` leaves is the one the login session assumes of its client. -/
theorem connect_connectStatus (hw : w.Coherent) {os : Outcome} {r : Bool}
    (h : w.connect c os = .ok (r, w')) (sent : List (Bytes × Int32)) :
    (⟨(w'.client c).connectStatus, sent⟩ : CoffeeChat.TcpClient) =
      CoffeeChat.TcpClient.connect ⟨(w.client c).connectStatus, sent⟩ r := by
  obtain ⟨t, hd, m, rfl, _, _, hstatus⟩ := connect_opened hw h
  rw [attach_client_self, hstatus]
  rfl

end CoffeeChat.Net.World
