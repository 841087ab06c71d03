import CoffeeChat.Lib.WireFormat

/-!
# Valid UTF-8

The check of the wire format accepts exactly the encodings of sequences of characters, a
character being a Unicode scalar value (`verifyUtf8_iff`): it is neither fooled by overlong forms
and surrogates nor does it reject any text.
-/

namespace Lib.WireFormat

/-- The bytes lead from the state to where a character may start. -/
def Accepted (s : Utf8State) (bs : List UInt8) : Prop := bs.foldlM utf8Step s = some .start

theorem verifyUtf8_eq_true {bs : List UInt8} : verifyUtf8 bs = true ↔ Accepted .start bs :=
  beq_iff_eq

theorem accepted_cons {s : Utf8State} {b : UInt8} {bs : List UInt8} :
    Accepted s (b :: bs) ↔ ∃ s', utf8Step s b = some s' ∧ Accepted s' bs := by
  show List.foldlM utf8Step s (b :: bs) = some Utf8State.start ↔ _
  rw [List.foldlM_cons]
  exact Option.bind_eq_some_iff

/-! ## One character -/

/-- The first byte of a character, by number. -/
theorem utf8Step_start (b : UInt8) : utf8Step .start b =
    if b.toNat < 0x80 then some .start
    else if b.toNat < 0xC2 then none
    else if b.toNat < 0xE0 then some ⟨1, 0x80, 0xBF⟩
    else if b.toNat = 0xE0 then some ⟨2, 0xA0, 0xBF⟩
    else if b.toNat = 0xED then some ⟨2, 0x80, 0x9F⟩
    else if b.toNat < 0xF0 then some ⟨2, 0x80, 0xBF⟩
    else if b.toNat = 0xF0 then some ⟨3, 0x90, 0xBF⟩
    else if b.toNat < 0xF4 then some ⟨3, 0x80, 0xBF⟩
    else if b.toNat = 0xF4 then some ⟨3, 0x80, 0x8F⟩
    else none := by
  simp only [utf8Step, Utf8State.start, UInt8.lt_iff_toNat_lt, ← UInt8.toNat_inj]
  rfl

/-- A byte that is due, in the range of the state. -/
theorem accepted_pending {n : Nat} {low high : UInt8} {bs : List UInt8} :
    Accepted ⟨n + 1, low, high⟩ bs ↔ ∃ b rest, bs = b :: rest ∧
      (low.toNat ≤ b.toNat ∧ b.toNat ≤ high.toNat) ∧ Accepted ⟨n, 0x80, 0xBF⟩ rest := by
  cases bs with
  | nil => simp [Accepted, Utf8State.start]
  | cons b rest =>
      rw [accepted_cons]
      by_cases hrange : low.toNat ≤ b.toNat ∧ b.toNat ≤ high.toNat
      · have hstep : utf8Step ⟨n + 1, low, high⟩ b = some ⟨n, 0x80, 0xBF⟩ := by
          simp [utf8Step, UInt8.le_iff_toNat_le, hrange]
        simp [hstep, hrange]
      · have hstep : utf8Step ⟨n + 1, low, high⟩ b = none := by
          simp only [utf8Step, UInt8.le_iff_toNat_le]
          simp [hrange]
        simp [hstep, hrange]

/-- A continuation byte. -/
def Continues (b : UInt8) : Prop := 0x80 ≤ b.toNat ∧ b.toNat ≤ 0xBF

variable {b : UInt8} {bs : List UInt8}

theorem lead_of_accepted (h : Accepted .start (b :: bs)) :
    b.toNat < 0x80 ∨ (0xC2 ≤ b.toNat ∧ b.toNat < 0xE0) ∨ (0xE0 ≤ b.toNat ∧ b.toNat < 0xF0) ∨
      (0xF0 ≤ b.toNat ∧ b.toNat ≤ 0xF4) := by
  obtain ⟨s, hs, -⟩ := accepted_cons.mp h
  by_contra hlead
  have hnone : utf8Step .start b = none := by
    rw [utf8Step_start, if_neg (by omega)]
    by_cases hlow : b.toNat < 0xC2
    · rw [if_pos hlow]
    · rw [if_neg hlow, if_neg (by omega), if_neg (by omega), if_neg (by omega), if_neg (by omega),
        if_neg (by omega), if_neg (by omega), if_neg (by omega)]
  cases hnone.symm.trans hs

theorem accepted_one (h : b.toNat < 0x80) :
    Accepted .start (b :: bs) ↔ Accepted .start bs := by
  have hstep : utf8Step .start b = some .start := by rw [utf8Step_start, if_pos h]
  rw [accepted_cons, hstep]
  simp

theorem accepted_two (h : 0xC2 ≤ b.toNat) (h' : b.toNat < 0xE0) :
    Accepted .start (b :: bs) ↔
      ∃ b₁ rest, bs = b₁ :: rest ∧ Continues b₁ ∧ Accepted .start rest := by
  have hstep : utf8Step .start b = some ⟨1, 0x80, 0xBF⟩ := by
    rw [utf8Step_start, if_neg (by omega), if_neg (by omega), if_pos h']
  rw [accepted_cons, hstep]
  simp only [Option.some.injEq, exists_eq_left']
  exact accepted_pending

/-- Two bytes that are due. -/
theorem accepted_pending_two {low high : UInt8} :
    Accepted ⟨2, low, high⟩ bs ↔ ∃ b₁ b₂ rest, bs = b₁ :: b₂ :: rest ∧
      (low.toNat ≤ b₁.toNat ∧ b₁.toNat ≤ high.toNat) ∧ Continues b₂ ∧ Accepted .start rest := by
  constructor
  · intro h
    obtain ⟨b₁, rest, rfl, hb₁, h⟩ := accepted_pending.mp h
    obtain ⟨b₂, rest, rfl, hb₂, h⟩ := accepted_pending.mp h
    exact ⟨b₁, b₂, rest, rfl, hb₁, hb₂, h⟩
  · intro ⟨b₁, b₂, rest, hbs, hb₁, hb₂, h⟩
    exact accepted_pending.mpr ⟨b₁, _, hbs, hb₁, accepted_pending.mpr ⟨b₂, rest, rfl, hb₂, h⟩⟩

theorem accepted_three (h : 0xE0 ≤ b.toNat) (h' : b.toNat < 0xF0) :
    Accepted .start (b :: bs) ↔ ∃ b₁ b₂ rest, bs = b₁ :: b₂ :: rest ∧
      (Continues b₁ ∧ (b.toNat = 0xE0 → 0xA0 ≤ b₁.toNat) ∧ (b.toNat = 0xED → b₁.toNat ≤ 0x9F)) ∧
        Continues b₂ ∧ Accepted .start rest := by
  obtain ⟨low, high, hstep, hrange⟩ : ∃ low high, utf8Step .start b = some ⟨2, low, high⟩ ∧
      ∀ n : Nat, low.toNat ≤ n ∧ n ≤ high.toNat ↔
        (0x80 ≤ n ∧ n ≤ 0xBF) ∧ (b.toNat = 0xE0 → 0xA0 ≤ n) ∧ (b.toNat = 0xED → n ≤ 0x9F) := by
    rw [utf8Step_start, if_neg (by omega), if_neg (by omega), if_neg (by omega)]
    by_cases he0 : b.toNat = 0xE0
    · refine ⟨0xA0, 0xBF, by rw [if_pos he0], fun n ↦ ?_⟩
      show 0xA0 ≤ n ∧ n ≤ 0xBF ↔ _
      omega
    · rw [if_neg he0]
      by_cases hed : b.toNat = 0xED
      · refine ⟨0x80, 0x9F, by rw [if_pos hed], fun n ↦ ?_⟩
        show 0x80 ≤ n ∧ n ≤ 0x9F ↔ _
        omega
      · refine ⟨0x80, 0xBF, by rw [if_neg hed, if_pos h'], fun n ↦ ?_⟩
        show 0x80 ≤ n ∧ n ≤ 0xBF ↔ _
        omega
  rw [accepted_cons, hstep]
  simp only [Option.some.injEq, exists_eq_left', accepted_pending_two, hrange]
  rfl

theorem accepted_four (h : 0xF0 ≤ b.toNat) (h' : b.toNat ≤ 0xF4) :
    Accepted .start (b :: bs) ↔ ∃ b₁ b₂ b₃ rest, bs = b₁ :: b₂ :: b₃ :: rest ∧
      (Continues b₁ ∧ (b.toNat = 0xF0 → 0x90 ≤ b₁.toNat) ∧ (b.toNat = 0xF4 → b₁.toNat ≤ 0x8F)) ∧
        Continues b₂ ∧ Continues b₃ ∧ Accepted .start rest := by
  obtain ⟨low, high, hstep, hrange⟩ : ∃ low high, utf8Step .start b = some ⟨3, low, high⟩ ∧
      ∀ n : Nat, low.toNat ≤ n ∧ n ≤ high.toNat ↔
        (0x80 ≤ n ∧ n ≤ 0xBF) ∧ (b.toNat = 0xF0 → 0x90 ≤ n) ∧ (b.toNat = 0xF4 → n ≤ 0x8F) := by
    rw [utf8Step_start, if_neg (by omega), if_neg (by omega), if_neg (by omega),
      if_neg (by omega), if_neg (by omega), if_neg (by omega)]
    by_cases hf0 : b.toNat = 0xF0
    · refine ⟨0x90, 0xBF, by rw [if_pos hf0], fun n ↦ ?_⟩
      show 0x90 ≤ n ∧ n ≤ 0xBF ↔ _
      omega
    · rw [if_neg hf0]
      by_cases hlow : b.toNat < 0xF4
      · refine ⟨0x80, 0xBF, by rw [if_pos hlow], fun n ↦ ?_⟩
        show 0x80 ≤ n ∧ n ≤ 0xBF ↔ _
        omega
      · refine ⟨0x80, 0x8F, by rw [if_neg hlow, if_pos (by omega)], fun n ↦ ?_⟩
        show 0x80 ≤ n ∧ n ≤ 0x8F ↔ _
        omega
  rw [accepted_cons, hstep]
  simp only [Option.some.injEq, exists_eq_left']
  constructor
  · intro hacc
    obtain ⟨b₁, rest, rfl, hb₁, hacc⟩ := accepted_pending.mp hacc
    obtain ⟨b₂, b₃, rest, rfl, hb₂, hb₃, hacc⟩ := accepted_pending_two.mp hacc
    exact ⟨b₁, b₂, b₃, rest, rfl, (hrange b₁.toNat).mp hb₁, hb₂, hb₃, hacc⟩
  · intro ⟨b₁, b₂, b₃, rest, hbs, hb₁, hb₂, hb₃, hacc⟩
    exact accepted_pending.mpr ⟨b₁, _, hbs, (hrange b₁.toNat).mpr hb₁,
      accepted_pending_two.mpr ⟨b₂, b₃, rest, rfl, hb₂, hb₃, hacc⟩⟩

/-! ## Sequences of characters -/

open String (utf8EncodeChar)

/-- The encoding of a character may come before whatever is accepted. -/
theorem accepted_encode (c : Char) (h : Accepted .start bs) :
    Accepted .start (utf8EncodeChar c ++ bs) := by
  have hvalid : c.val.toNat < 0xD800 ∨ (0xDFFF < c.val.toNat ∧ c.val.toNat < 0x110000) := c.valid
  unfold utf8EncodeChar
  generalize c.val.toNat = v at hvalid
  have hbyte : ∀ n < 256, (UInt8.ofNat n).toNat = n :=
    fun n hn ↦ UInt8.toNat_ofNat_of_lt' hn
  have htail : ∀ n, Continues (UInt8.ofNat (n % 0x40 + 0x80)) := by
    intro n
    rw [Continues, hbyte _ (by omega)]
    omega
  dsimp only
  split
  · refine (accepted_one ?_).mpr h
    rw [hbyte v (by omega)]
    omega
  split
  · have hlead := hbyte (v / 64 % 0x20 + 0xc0) (by omega)
    refine (accepted_two ?_ ?_).mpr ⟨_, bs, rfl, htail v, h⟩ <;> omega
  split
  · have hlead := hbyte (v / 4096 % 0x10 + 0xe0) (by omega)
    have hsecond := hbyte (v / 64 % 0x40 + 0x80) (by omega)
    refine (accepted_three ?_ ?_).mpr
      ⟨_, _, bs, rfl, ⟨htail (v / 64), fun _ ↦ ?_, fun _ ↦ ?_⟩, htail v, h⟩ <;> omega
  · have hlead := hbyte (v / 262144 % 0x08 + 0xf0) (by omega)
    have hsecond := hbyte (v / 4096 % 0x40 + 0x80) (by omega)
    refine (accepted_four ?_ ?_).mpr ⟨_, _, _, bs, rfl,
      ⟨htail (v / 4096), fun _ ↦ ?_, fun _ ↦ ?_⟩, htail (v / 64), htail v, h⟩ <;> omega

/-- The character of a scalar value. -/
theorem exists_char {v : Nat} (h : v < 0xD800 ∨ (0xDFFF < v ∧ v < 0x110000)) :
    ∃ c : Char, c.val.toNat = v :=
  ⟨Char.ofNatAux v h, rfl⟩

theorem ofNat_eq {n : Nat} (h : n = b.toNat) : UInt8.ofNat n = b := by
  rw [h, UInt8.ofNat_toNat]

/-- What is accepted starts with the encoding of a character. -/
theorem exists_encode (h : Accepted .start (b :: bs)) :
    ∃ c rest, b :: bs = utf8EncodeChar c ++ rest ∧ Accepted .start rest := by
  rcases lead_of_accepted h with hb | ⟨hlow, hhigh⟩ | ⟨hlow, hhigh⟩ | ⟨hlow, hhigh⟩
  · obtain ⟨c, hc⟩ := exists_char (v := b.toNat) (by omega)
    refine ⟨c, bs, ?_, (accepted_one hb).mp h⟩
    have hencode : utf8EncodeChar c = [b] := by
      simp only [utf8EncodeChar, hc]
      rw [if_pos (by omega), ofNat_eq rfl]
    rw [hencode]
    rfl
  · obtain ⟨b₁, rest, rfl, ⟨h₁, h₁'⟩, hrest⟩ := (accepted_two hlow hhigh).mp h
    obtain ⟨c, hc⟩ := exists_char (v := (b.toNat - 0xC0) * 64 + (b₁.toNat - 0x80)) (by omega)
    refine ⟨c, rest, ?_, hrest⟩
    have hencode : utf8EncodeChar c = [b, b₁] := by
      simp only [utf8EncodeChar, hc]
      rw [if_neg (by omega), if_pos (by omega), ofNat_eq (b := b) (by omega),
        ofNat_eq (b := b₁) (by omega)]
    rw [hencode]
    rfl
  · obtain ⟨b₁, b₂, rest, rfl, ⟨⟨h₁, h₁'⟩, he0, hed⟩, ⟨h₂, h₂'⟩, hrest⟩ :=
      (accepted_three hlow hhigh).mp h
    obtain ⟨c, hc⟩ := exists_char
      (v := (b.toNat - 0xE0) * 4096 + (b₁.toNat - 0x80) * 64 + (b₂.toNat - 0x80)) (by omega)
    refine ⟨c, rest, ?_, hrest⟩
    have hencode : utf8EncodeChar c = [b, b₁, b₂] := by
      simp only [utf8EncodeChar, hc]
      rw [if_neg (by omega), if_neg (by omega), if_pos (by omega), ofNat_eq (b := b) (by omega),
        ofNat_eq (b := b₁) (by omega), ofNat_eq (b := b₂) (by omega)]
    rw [hencode]
    rfl
  · obtain ⟨b₁, b₂, b₃, rest, rfl, ⟨⟨h₁, h₁'⟩, hf0, hf4⟩, ⟨h₂, h₂'⟩, ⟨h₃, h₃'⟩, hrest⟩ :=
      (accepted_four hlow hhigh).mp h
    obtain ⟨c, hc⟩ := exists_char
      (v := (b.toNat - 0xF0) * 262144 + (b₁.toNat - 0x80) * 4096 + (b₂.toNat - 0x80) * 64 +
        (b₃.toNat - 0x80)) (by omega)
    refine ⟨c, rest, ?_, hrest⟩
    have hencode : utf8EncodeChar c = [b, b₁, b₂, b₃] := by
      simp only [utf8EncodeChar, hc]
      rw [if_neg (by omega), if_neg (by omega), if_neg (by omega), ofNat_eq (b := b) (by omega),
        ofNat_eq (b := b₁) (by omega), ofNat_eq (b := b₂) (by omega),
        ofNat_eq (b := b₃) (by omega)]
    rw [hencode]
    rfl

/-- The encoding of a sequence of characters is valid. -/
theorem verifyUtf8_encode (cs : List Char) : verifyUtf8 (cs.flatMap utf8EncodeChar) = true := by
  rw [verifyUtf8_eq_true]
  induction cs with
  | nil => rfl
  | cons c cs ih => exact accepted_encode c ih

/-- Valid UTF-8 is the encoding of a sequence of characters. -/
theorem verifyUtf8_iff {bs : List UInt8} :
    verifyUtf8 bs = true ↔ ∃ cs : List Char, bs = cs.flatMap utf8EncodeChar := by
  constructor
  · rw [verifyUtf8_eq_true]
    intro h
    -- on the number of bytes: each character takes at least one
    induction hn : bs.length using Nat.strong_induction_on generalizing bs with
    | h n ih =>
        cases bs with
        | nil => exact ⟨[], rfl⟩
        | cons b bs =>
            obtain ⟨c, rest, hbs, hrest⟩ := exists_encode h
            have hpos : 0 < (utf8EncodeChar c).length :=
              List.length_pos_iff.mpr String.utf8EncodeChar_ne_nil
            have hlt : rest.length < n := by
              rw [← hn, hbs, List.length_append]
              omega
            obtain ⟨cs, rfl⟩ := ih _ hlt hrest rfl
            exact ⟨c :: cs, hbs⟩
  · intro ⟨cs, hbs⟩
    rw [hbs]
    exact verifyUtf8_encode cs

end Lib.WireFormat
