import CoffeeChat.Lib.Utf8
import CoffeeChat.Lib.WireFields

/-!
# Readers of fields

What generated code needs of a runtime that reads for it: one field after another, the varints of
a packed payload, and the check of a string. A `Reader` is any such runtime with the documented
behaviour as its laws: a field takes at least a byte, the first of them not zero, and is not
affected by what follows it; plain fields and whatever was read before are read back from the bytes
they are written as; and the strings that pass are the texts. Sizes below 1 GiB are on the safe
side of every limit.

`Reader.parse` splits an input into its fields. It has no fuel to run out of (`parse_eq_cons`), and
two inputs one behind the other are read as the fields of the first and then those of the second
(`parse_append`). The functions of `CoffeeChat.Lib.WireFormat` make a reader (`reader`).
-/

namespace Lib.WireFormat

/-- The bytes of a text. -/
def IsText (bs : List UInt8) : Prop := ∃ cs : List Char, bs = cs.flatMap String.utf8EncodeChar

/-- ASCII is text. -/
theorem IsText.of_ascii {bs : List UInt8} (h : ∀ b ∈ bs, b.toNat < 0x80) : IsText bs := by
  refine verifyUtf8_iff.mp (verifyUtf8_eq_true.mpr ?_)
  induction bs with
  | nil => rfl
  | cons b bs ih =>
      obtain ⟨hb, hbs⟩ := List.forall_mem_cons.mp h
      exact (accepted_one hb).mpr (ih hbs)

/-- The field is read back from its bytes, whatever follows, if they are fewer than 1 GiB. -/
def ReadBack (read : List UInt8 → Option (Field × List UInt8)) (f : Field) : Prop :=
  (writeField f).length < 2 ^ 30 → ∀ rest, read (writeField f ++ rest) = some (f, rest)

/-- A runtime that reads fields. -/
structure Reader where
  /-- A field, and the input behind it. -/
  readField : List UInt8 → Option (Field × List UInt8)
  /-- The varints of a packed payload. -/
  unpack : List UInt8 → Option (List Nat)
  /-- The check of a string. -/
  verifyUtf8 : List UInt8 → Bool
  zero : ∀ t, readField (0 :: t) = none
  shorter : ∀ {bs f rest}, readField bs = some (f, rest) → rest.length < bs.length
  append : ∀ {bs f rest}, readField bs = some (f, rest) →
    ∀ t, readField (bs ++ t) = some (f, rest ++ t)
  plain : ∀ {f}, 0 < f.number → f.number < 2 ^ 29 → Sized f.value → ReadBack readField f
  again : ∀ {bs f rest}, readField bs = some (f, rest) → ReadBack readField f
  unpack_pack : ∀ {ns}, (∀ n ∈ ns, n < 2 ^ 64) → (ns.flatMap writeVarint).length < 2 ^ 30 →
    unpack (ns.flatMap writeVarint) = some ns
  verifyUtf8_iff : ∀ {bs}, verifyUtf8 bs = true ↔ IsText bs

namespace Reader

variable (rt : Reader)

/-- Split the input into its fields. -/
def parse (bs : List UInt8) : Option (List Field) := parseAux rt.readField bs.length bs

variable {rt}

/-- A turn for each byte is enough. -/
theorem parseAux_eq {fuel : Nat} {bs : List UInt8} (h : bs.length ≤ fuel) :
    parseAux rt.readField fuel bs = rt.parse bs := by
  induction hn : bs.length using Nat.strong_induction_on generalizing bs fuel with
  | _ n ih =>
      cases bs with
      | nil => cases fuel <;> rfl
      | cons b bs =>
          obtain ⟨fuel, rfl⟩ := Nat.exists_eq_add_of_le' (Nat.le_trans (Nat.succ_pos _) h)
          rw [parse, List.length_cons]
          rw [parseAux, parseAux]
          cases hread : rt.readField (b :: bs) with
          | none => rfl
          | some r =>
              have hshort : r.2.length < (b :: bs).length := rt.shorter hread
              rw [List.length_cons] at hshort h hn
              rw [Option.bind_some, Option.bind_some,
                ih r.2.length (by omega) (by omega) rfl, ih r.2.length (by omega) (by omega) rfl]

/-- The loop takes one field after another. -/
theorem parse_of_readField {bs rest : List UInt8} {f : Field}
    (h : rt.readField bs = some (f, rest)) : rt.parse bs = (rt.parse rest).map (f :: ·) := by
  have hshort : rest.length < bs.length := rt.shorter h
  cases bs with
  | nil => exact absurd hshort (Nat.not_lt_zero _)
  | cons b bs =>
      rw [parse, List.length_cons, parseAux, h, Option.bind_some,
        parseAux_eq (Nat.le_of_lt_succ hshort)]

theorem parse_eq_nil {bs : List UInt8} : rt.parse bs = some [] ↔ bs = [] := by
  constructor
  · intro h
    cases bs with
    | nil => rfl
    | cons b bs =>
        obtain ⟨r, -, h⟩ := Option.bind_eq_some_iff.mp h
        obtain ⟨fs, -, h⟩ := Option.map_eq_some_iff.mp h
        cases h
  · rintro rfl
    rfl

/-- The first field, and those of the input behind it. -/
theorem parse_eq_cons {bs : List UInt8} {f : Field} {fs : List Field} :
    rt.parse bs = some (f :: fs) ↔
      ∃ rest, rt.readField bs = some (f, rest) ∧ rt.parse rest = some fs := by
  constructor
  · intro h
    cases bs with
    | nil => cases h
    | cons b bs =>
        obtain ⟨r, hread, -⟩ := Option.bind_eq_some_iff.mp h
        rw [parse_of_readField hread] at h
        obtain ⟨gs, hgs, heq⟩ := Option.map_eq_some_iff.mp h
        cases heq
        exact ⟨r.2, hread, hgs⟩
  · rintro ⟨rest, hread, hrest⟩
    rw [parse_of_readField hread, hrest]
    rfl

/-- What was read is read back. -/
theorem readBack_of_parse {bs : List UInt8} {fs : List Field} (h : rt.parse bs = some fs) :
    ∀ f ∈ fs, ReadBack rt.readField f := by
  induction fs generalizing bs with
  | nil => exact fun f hf ↦ absurd hf List.not_mem_nil
  | cons f fs ih =>
      obtain ⟨rest, hread, hrest⟩ := parse_eq_cons.mp h
      exact List.forall_mem_cons.mpr ⟨rt.again hread, ih hrest⟩

/-- Fields that are read back, of fewer than 1 GiB together, are what their bytes are split into. -/
theorem parse_write {fs : List Field} (h : ∀ f ∈ fs, ReadBack rt.readField f)
    (hlt : (fs.flatMap writeField).length < 2 ^ 30) :
    rt.parse (fs.flatMap writeField) = some fs := by
  induction fs with
  | nil => exact parse_eq_nil.mpr rfl
  | cons f fs ih =>
      obtain ⟨hf, hfs⟩ := List.forall_mem_cons.mp h
      rw [List.flatMap_cons, List.length_append] at hlt
      rw [List.flatMap_cons]
      exact parse_eq_cons.mpr ⟨_, hf (by omega) _, ih hfs (by omega)⟩

/-- The fields of two inputs one behind the other. -/
theorem parse_append {bs bs' : List UInt8} {fs fs' : List Field} (h : rt.parse bs = some fs)
    (h' : rt.parse bs' = some fs') : rt.parse (bs ++ bs') = some (fs ++ fs') := by
  induction fs generalizing bs with
  | nil =>
      obtain rfl := parse_eq_nil.mp h
      exact h'
  | cons f fs ih =>
      obtain ⟨rest, hread, hrest⟩ := parse_eq_cons.mp h
      exact parse_eq_cons.mpr ⟨rest ++ bs', rt.append hread bs', ih hrest⟩

/-- An input that is split into fields no longer is with a zero byte behind it. -/
theorem parse_zero {bs : List UInt8} (t : List UInt8) (h : (rt.parse bs).isSome) :
    rt.parse (bs ++ 0 :: t) = none := by
  obtain ⟨fs, hfs⟩ := Option.isSome_iff_exists.mp h
  clear h
  induction fs generalizing bs with
  | nil =>
      obtain rfl := parse_eq_nil.mp hfs
      show (rt.readField (0 :: t)).bind _ = none
      rw [rt.zero]
      rfl
  | cons f fs ih =>
      obtain ⟨rest, hread, hrest⟩ := parse_eq_cons.mp hfs
      rw [parse_of_readField (rt.append hread (0 :: t)), ih hrest]
      rfl

end Reader

/-! ## The reader of the wire format -/

theorem readVarint_shorter {fuel n : Nat} {bs rest : List UInt8}
    (h : readVarint fuel bs = some (n, rest)) : rest.length < bs.length := by
  induction fuel generalizing bs n with
  | zero => cases h
  | succ fuel ih =>
      cases bs with
      | nil => cases h
      | cons b bs =>
          rw [readVarint] at h
          split at h
          · cases h
            exact Nat.lt_succ_self _
          · obtain ⟨r, hr, heq⟩ := Option.map_eq_some_iff.mp h
            cases heq
            exact Nat.lt_succ_of_lt (ih hr)

theorem readTag_shorter {bs rest : List UInt8} {tag : Nat} (h : readTag bs = some (tag, rest)) :
    rest.length < bs.length := by
  obtain ⟨r, hr, h⟩ := Option.bind_eq_some_iff.mp h
  split at h
  · cases h
  · cases h
    exact readVarint_shorter hr

theorem readPlain_length_le {wireType : Nat} {bs rest : List UInt8} {v : Value}
    (h : readPlain wireType bs = some (v, rest)) : rest.length ≤ bs.length := by
  have htake : ∀ {n : Nat} {bs : List UInt8} {r : List UInt8 × List UInt8},
      takeBytes n bs = some r → r.2.length ≤ bs.length := by
    intro n bs r hr
    unfold takeBytes at hr
    split at hr
    · cases hr
      rw [List.length_drop]
      exact Nat.sub_le ..
    · cases hr
  unfold readPlain at h
  split at h
  · obtain ⟨r, hr, heq⟩ := Option.map_eq_some_iff.mp h
    cases heq
    exact Nat.le_of_lt (readVarint_shorter hr)
  · obtain ⟨r, hr, heq⟩ := Option.map_eq_some_iff.mp h
    cases heq
    exact htake hr
  · obtain ⟨r, hr, hp⟩ := Option.bind_eq_some_iff.mp h
    obtain ⟨p, htaken, heq⟩ := Option.map_eq_some_iff.mp hp
    cases heq
    exact Nat.le_trans (htake htaken) (Nat.le_of_lt (readVarint_shorter hr))
  · obtain ⟨r, hr, heq⟩ := Option.map_eq_some_iff.mp h
    cases heq
    exact htake hr
  · cases h

theorem readGroup_length_le {fuel number : Nat} {bs content rest : List UInt8}
    (h : readGroup fuel number bs = some (content, rest)) : rest.length ≤ bs.length := by
  induction fuel generalizing number bs content rest with
  | zero => cases h
  | succ fuel ih =>
      obtain ⟨tag, htag, h⟩ := Option.bind_eq_some_iff.mp h
      have hshort : tag.2.length < bs.length := readTag_shorter htag
      split at h
      · split at h
        · cases h
          exact Nat.le_of_lt hshort
        · cases h
      · split at h
        · obtain ⟨inner, hinner, h⟩ := Option.bind_eq_some_iff.mp h
          obtain ⟨more, hmore, heq⟩ := Option.map_eq_some_iff.mp h
          cases heq
          have hinnerLe : inner.2.length ≤ tag.2.length := ih hinner
          have hmoreLe : more.2.length ≤ inner.2.length := ih hmore
          omega
        · obtain ⟨p, hp, h⟩ := Option.bind_eq_some_iff.mp h
          obtain ⟨more, hmore, heq⟩ := Option.map_eq_some_iff.mp h
          cases heq
          have hplain : p.2.length ≤ tag.2.length := readPlain_length_le hp
          have hmoreLe : more.2.length ≤ p.2.length := ih hmore
          omega

theorem readField_shorter {bs rest : List UInt8} {f : Field}
    (h : readField bs = some (f, rest)) : rest.length < bs.length := by
  obtain ⟨tag, htag, h⟩ := Option.bind_eq_some_iff.mp h
  obtain ⟨p, hp, heq⟩ := Option.map_eq_some_iff.mp h
  cases heq
  refine Nat.lt_of_le_of_lt ?_ (readTag_shorter htag)
  unfold readValue at hp
  split at hp
  · obtain ⟨r, hr, heq⟩ := Option.map_eq_some_iff.mp hp
    cases heq
    exact readGroup_length_le hr
  · exact readPlain_length_le hp

/-- The functions of the wire format. -/
def reader : Reader where
  readField := readField
  unpack bs := readVarints bs.length bs
  verifyUtf8 := verifyUtf8
  zero := readField_zero
  shorter := readField_shorter
  append h t := readField_append t h
  plain hpos hlt hsized hlen rest := by
    refine readField_writeField hpos hlt (hsized.fits ?_) rest
    rw [writeField, List.length_append] at hlen
    exact Nat.lt_of_le_of_lt (Nat.le_add_left _ _) hlen
  again := readField_again
  unpack_pack hns _ := readVarints_writeVarints hns (length_le_writeVarints _)
  verifyUtf8_iff := verifyUtf8_iff

end Lib.WireFormat
