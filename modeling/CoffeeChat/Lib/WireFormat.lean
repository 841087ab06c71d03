import Mathlib.Data.List.Basic
import Mathlib.Tactic.NormNum

/-!
# The protobuf wire format

A message on the wire is a sequence of fields, each a tag (field number and wire type, as one
varint) followed by its payload. `parse` splits a byte string into its fields and rejects what
is not such a sequence; `writeField` is its inverse on one field (`parse_writeFields`).

Parsing reads from left to right and never looks ahead, so a field that was read keeps its
value when more bytes follow (`readField_append`). A field tag of zero is not a tag:
bytes that parse on their own no longer do when a zero byte follows them (`parse_zero`).

A group, the deprecated wire type 3, reaches up to the tag that ends it, with groups among its
fields; its payload is kept as these fields written anew.
-/

namespace Lib.WireFormat

/-! ## Varints -/

/-- The base-128 digits of `n`, at most `fuel` of them, the continuation bit set on all but the
last. -/
def writeDigits : Nat → Nat → List UInt8
  | 0, _ => []
  | fuel + 1, n =>
    if n < 128 then [UInt8.ofNat n]
    else UInt8.ofNat (n % 128 + 128) :: writeDigits fuel (n / 128)

/-- The varint encoding of a 64-bit number, at most ten bytes. -/
def writeVarint (n : Nat) : List UInt8 := writeDigits 10 n

/-- Read a varint of at most `fuel` bytes, returning the rest of the input. -/
def readVarint : Nat → List UInt8 → Option (Nat × List UInt8)
  | 0, _ => none
  | _ + 1, [] => none
  | fuel + 1, b :: bs =>
    if b.toNat < 128 then some (b.toNat, bs)
    else (readVarint fuel bs).map fun r ↦ (b.toNat - 128 + 128 * r.1, r.2)

/-- A number below `128 ^ fuel` is read back with that much fuel, whatever was left over when it
was written. -/
theorem readVarint_writeDigits (fuel more n : Nat) (rest : List UInt8) (h : n < 128 ^ fuel)
    (hfuel : 0 < fuel) :
    readVarint fuel (writeDigits (fuel + more) n ++ rest) = some (n, rest) := by
  induction fuel generalizing n with
  | zero => omega
  | succ fuel ih =>
      rw [Nat.add_right_comm]
      by_cases hn : n < 128
      · have hmod : n % 2 ^ 8 = n := by omega
        simp only [writeDigits, hn, if_true, List.cons_append, List.nil_append, readVarint,
          UInt8.toNat_ofNat', hmod]
      · have hlt : n / 128 < 128 ^ fuel := by
          rw [Nat.div_lt_iff_lt_mul (by omega)]
          rwa [pow_succ] at h
        have hpos : 0 < fuel := by
          rcases Nat.eq_zero_or_pos fuel with rfl | hpos
          · simp at h; omega
          · exact hpos
        have hmod : (n % 128 + 128) % 2 ^ 8 = n % 128 + 128 := by omega
        have hdigit : ¬ n % 128 + 128 < 128 := by omega
        simp only [writeDigits, hn, if_false, List.cons_append, readVarint, UInt8.toNat_ofNat',
          hmod, hdigit, ih (n / 128) hlt hpos, Option.map_some, Option.some.injEq,
          Prod.mk.injEq, and_true]
        omega

/-- A number below `128 ^ k` is read back by a reader that allows `k` of the ten bytes. -/
theorem readVarint_writeVarint {k n : Nat} (rest : List UInt8) (hk : 0 < k) (hk' : k ≤ 10)
    (h : n < 128 ^ k) : readVarint k (writeVarint n ++ rest) = some (n, rest) := by
  have := readVarint_writeDigits k (10 - k) n rest h hk
  rwa [Nat.add_sub_cancel' hk'] at this

/-- A varint that was read is not affected by what follows the input. -/
theorem readVarint_append {fuel n : Nat} {bs rest : List UInt8} (t : List UInt8)
    (h : readVarint fuel bs = some (n, rest)) :
    readVarint fuel (bs ++ t) = some (n, rest ++ t) := by
  induction fuel generalizing bs n with
  | zero => simp [readVarint] at h
  | succ fuel ih =>
      cases bs with
      | nil => simp [readVarint] at h
      | cons b bs =>
          by_cases hb : b.toNat < 128
          · simp only [readVarint, hb, if_true, Option.some.injEq, Prod.mk.injEq] at h
            simp only [List.cons_append, readVarint, hb, if_true, h.2, ← h.1]
          · simp only [readVarint, hb, if_false, Option.map_eq_some_iff, Prod.exists,
              Prod.mk.injEq] at h
            obtain ⟨v, r, hv, rfl, rfl⟩ := h
            simp [readVarint, hb, ih hv]

theorem writeDigits_ne_nil (fuel n : Nat) : writeDigits (fuel + 1) n ≠ [] := by
  simp only [writeDigits]
  split <;> simp

theorem length_writeDigits_le (fuel n : Nat) : (writeDigits fuel n).length ≤ fuel := by
  induction fuel generalizing n with
  | zero => simp [writeDigits]
  | succ fuel ih =>
      simp only [writeDigits]
      split
      · simp
      · simpa using ih (n / 128)

/-- A varint takes at most ten bytes. -/
theorem length_writeVarint_le (n : Nat) : (writeVarint n).length ≤ 10 :=
  length_writeDigits_le 10 n

/-! ## Fields -/

/-- The payload of a field, by wire type. That of a group are its fields and the tag that ends
it. -/
inductive Value where
  | varint (n : Nat)
  | fixed64 (bs : List UInt8)
  | len (bs : List UInt8)
  | group (bs : List UInt8)
  | fixed32 (bs : List UInt8)
  deriving DecidableEq, Repr

/-- A field number with its payload. -/
structure Field where
  number : Nat
  value : Value
  deriving DecidableEq, Repr

namespace Value

/-- The wire type in the tag of a payload. -/
def wireType : Value → Nat
  | .varint _ => 0
  | .fixed64 _ => 1
  | .len _ => 2
  | .group _ => 3
  | .fixed32 _ => 5

/-- The bytes of a payload. -/
def write : Value → List UInt8
  | .varint n => writeVarint n
  | .fixed64 bs => bs
  | .len bs => writeVarint bs.length ++ bs
  | .group bs => bs
  | .fixed32 bs => bs

/-- The payload is plain, no group, and has the size its wire type prescribes. -/
def Fits : Value → Prop
  | .varint n => n < 2 ^ 64
  | .fixed64 bs => bs.length = 8
  | .len bs => bs.length < 2 ^ 31
  | .group _ => False
  | .fixed32 bs => bs.length = 4

end Value

/-- The bytes of a field. -/
def writeField (f : Field) : List UInt8 :=
  writeVarint (8 * f.number + f.value.wireType) ++ f.value.write

/-- The first `n` bytes of the input and the rest of it. -/
def takeBytes (n : Nat) (bs : List UInt8) : Option (List UInt8 × List UInt8) :=
  if n ≤ bs.length then some (bs.take n, bs.drop n) else none

/-- Read a tag, a 32-bit number. The field number in it is not zero. -/
def readTag (bs : List UInt8) : Option (Nat × List UInt8) :=
  (readVarint 5 bs).bind fun r ↦
    if r.1 % 2 ^ 32 / 8 = 0 then none else some (r.1 % 2 ^ 32, r.2)

/-- Read a plain payload with the given wire type. -/
def readPlain (wireType : Nat) (bs : List UInt8) : Option (Value × List UInt8) :=
  match wireType with
  | 0 => (readVarint 10 bs).map fun r ↦ (.varint (r.1 % 2 ^ 64), r.2)
  | 1 => (takeBytes 8 bs).map fun r ↦ (.fixed64 r.1, r.2)
  | 2 => (readVarint 5 bs).bind fun r ↦
      (takeBytes r.1 r.2).map fun p ↦ (.len p.1, p.2)
  | 5 => (takeBytes 4 bs).map fun r ↦ (.fixed32 r.1, r.2)
  | _ => none

/-- Read at most `fuel` fields of the group with this number and the tag that ends it: these
written anew, and the rest of the input. -/
def readGroup : Nat → Nat → List UInt8 → Option (List UInt8 × List UInt8)
  | 0, _, _ => none
  | fuel + 1, number, bs =>
    (readTag bs).bind fun tag ↦
      if tag.1 % 8 = 4 then
        if tag.1 / 8 = number then some (writeVarint tag.1, tag.2) else none
      else if tag.1 % 8 = 3 then
        (readGroup fuel (tag.1 / 8) tag.2).bind fun inner ↦
          (readGroup fuel number inner.2).map fun more ↦
            (writeVarint tag.1 ++ (inner.1 ++ more.1), more.2)
      else
        (readPlain (tag.1 % 8) tag.2).bind fun p ↦
          (readGroup fuel number p.2).map fun more ↦
            (writeVarint tag.1 ++ (p.1.write ++ more.1), more.2)

/-- Read the payload of a field with the given number and wire type. -/
def readValue (number wireType : Nat) (bs : List UInt8) : Option (Value × List UInt8) :=
  if wireType = 3 then (readGroup bs.length number bs).map fun r ↦ (.group r.1, r.2)
  else readPlain wireType bs

/-- Read one field. -/
def readField (bs : List UInt8) : Option (Field × List UInt8) :=
  (readTag bs).bind fun tag ↦
    (readValue (tag.1 / 8) (tag.1 % 8) tag.2).map fun p ↦ (⟨tag.1 / 8, p.1⟩, p.2)

/-- Split the input into at most `fuel` fields, given how one is read. -/
def parseAux (read : List UInt8 → Option (Field × List UInt8)) :
    Nat → List UInt8 → Option (List Field)
  | _, [] => some []
  | 0, _ => none
  | fuel + 1, b :: bs =>
    (read (b :: bs)).bind fun r ↦ (parseAux read fuel r.2).map (r.1 :: ·)

/-- Split the input into its fields. -/
def parse (bs : List UInt8) : Option (List Field) := parseAux readField bs.length bs

/-! ### Reading is not affected by what follows -/

theorem takeBytes_append {n : Nat} {bs p rest : List UInt8} (t : List UInt8)
    (h : takeBytes n bs = some (p, rest)) : takeBytes n (bs ++ t) = some (p, rest ++ t) := by
  unfold takeBytes at h ⊢
  split at h
  case isFalse => simp at h
  case isTrue hn =>
    obtain ⟨rfl, rfl⟩ := Prod.mk.inj (Option.some.inj h)
    have hn' : n ≤ (bs ++ t).length := by simp; omega
    rw [if_pos hn', List.take_append_of_le_length hn, List.drop_append_of_le_length hn]

theorem readTag_append {bs rest : List UInt8} {tag : Nat} (t : List UInt8)
    (h : readTag bs = some (tag, rest)) : readTag (bs ++ t) = some (tag, rest ++ t) := by
  unfold readTag at h ⊢
  obtain ⟨r, hr, hp⟩ := Option.bind_eq_some_iff.mp h
  rw [readVarint_append t hr, Option.bind_some]
  split at hp
  case isTrue => simp at hp
  case isFalse hnumber =>
    obtain ⟨rfl, rfl⟩ := Prod.mk.inj (Option.some.inj hp)
    exact if_neg hnumber

theorem readPlain_append {wireType : Nat} {bs rest : List UInt8} {v : Value} (t : List UInt8)
    (h : readPlain wireType bs = some (v, rest)) :
    readPlain wireType (bs ++ t) = some (v, rest ++ t) := by
  unfold readPlain at h ⊢
  split at h
  · obtain ⟨r, hr, heq⟩ := Option.map_eq_some_iff.mp h
    simp only [Prod.mk.injEq] at heq
    simp only [readVarint_append t hr, Option.map_some, heq.1, heq.2]
  · obtain ⟨r, hr, heq⟩ := Option.map_eq_some_iff.mp h
    simp only [Prod.mk.injEq] at heq
    simp [takeBytes_append t hr, heq.1, heq.2]
  · obtain ⟨r, hr, hp⟩ := Option.bind_eq_some_iff.mp h
    obtain ⟨p, hp, heq⟩ := Option.map_eq_some_iff.mp hp
    simp only [Prod.mk.injEq] at heq
    simp [readVarint_append t hr, takeBytes_append t hp, heq.1, heq.2]
  · obtain ⟨r, hr, heq⟩ := Option.map_eq_some_iff.mp h
    simp only [Prod.mk.injEq] at heq
    simp [takeBytes_append t hr, heq.1, heq.2]
  · simp at h

/-- A group that was read is read in the same way with more bytes behind it, and with more fuel. -/
theorem readGroup_append {fuel number : Nat} {bs content rest : List UInt8} (t : List UInt8)
    (h : readGroup fuel number bs = some (content, rest)) {fuel' : Nat} (hle : fuel ≤ fuel') :
    readGroup fuel' number (bs ++ t) = some (content, rest ++ t) := by
  induction fuel generalizing number bs content rest fuel' with
  | zero => cases h
  | succ fuel ih =>
      obtain ⟨fuel', rfl⟩ : ∃ k, fuel' = k + 1 := ⟨fuel' - 1, by omega⟩
      have hle' : fuel ≤ fuel' := Nat.le_of_succ_le_succ hle
      rw [readGroup] at h ⊢
      obtain ⟨⟨tag, bs'⟩, htag, h⟩ := Option.bind_eq_some_iff.mp h
      rw [readTag_append t htag, Option.bind_some]
      dsimp only at h ⊢
      split at h
      case isTrue hend =>
        -- the tag that ends the group
        rw [if_pos hend]
        split at h
        case isTrue hnumber =>
          obtain ⟨rfl, rfl⟩ := Prod.mk.inj (Option.some.inj h)
          exact if_pos hnumber
        case isFalse => cases h
      case isFalse hend =>
        rw [if_neg hend]
        split at h
        case isTrue hgroup =>
          obtain ⟨⟨inner, bs₁⟩, hinner, h⟩ := Option.bind_eq_some_iff.mp h
          obtain ⟨⟨more, bs₂⟩, hmore, heq⟩ := Option.map_eq_some_iff.mp h
          obtain ⟨rfl, rfl⟩ := Prod.mk.inj heq
          rw [if_pos hgroup, ih hinner hle', Option.bind_some, ih hmore hle', Option.map_some]
        case isFalse hgroup =>
          obtain ⟨⟨v, bs₁⟩, hv, h⟩ := Option.bind_eq_some_iff.mp h
          obtain ⟨⟨more, bs₂⟩, hmore, heq⟩ := Option.map_eq_some_iff.mp h
          obtain ⟨rfl, rfl⟩ := Prod.mk.inj heq
          rw [if_neg hgroup, readPlain_append t hv, Option.bind_some, ih hmore hle',
            Option.map_some]

theorem readValue_append {number wireType : Nat} {bs rest : List UInt8} {v : Value}
    (t : List UInt8) (h : readValue number wireType bs = some (v, rest)) :
    readValue number wireType (bs ++ t) = some (v, rest ++ t) := by
  unfold readValue at h ⊢
  split at h
  case isTrue hgroup =>
    obtain ⟨⟨content, bs'⟩, hcontent, heq⟩ := Option.map_eq_some_iff.mp h
    obtain ⟨rfl, rfl⟩ := Prod.mk.inj heq
    have hle : bs.length ≤ (bs ++ t).length := by
      rw [List.length_append]
      exact Nat.le_add_right ..
    rw [if_pos hgroup, readGroup_append t hcontent hle, Option.map_some]
  case isFalse hplain =>
    rw [if_neg hplain]
    exact readPlain_append t h

/-- A field that was read keeps its value when more bytes follow. -/
theorem readField_append {bs rest : List UInt8} {f : Field} (t : List UInt8)
    (h : readField bs = some (f, rest)) : readField (bs ++ t) = some (f, rest ++ t) := by
  unfold readField at h ⊢
  obtain ⟨⟨tag, bs'⟩, htag, hp⟩ := Option.bind_eq_some_iff.mp h
  obtain ⟨⟨v, bs₁⟩, hv, heq⟩ := Option.map_eq_some_iff.mp hp
  obtain ⟨rfl, rfl⟩ := Prod.mk.inj heq
  rw [readTag_append t htag, Option.bind_some, readValue_append t hv, Option.map_some]

/-- No field starts with a zero byte. -/
theorem readField_zero (t : List UInt8) : readField (0 :: t) = none := by
  simp [readField, readTag, readVarint]

/-- Fields followed by a zero byte are rejected. -/
theorem parseAux_zero {fuel : Nat} {bs : List UInt8} (t : List UInt8)
    (h : (parseAux readField fuel bs).isSome) (fuel' : Nat) :
    parseAux readField fuel' (bs ++ 0 :: t) = none := by
  induction fuel generalizing bs fuel' with
  | zero =>
      cases bs with
      | nil => cases fuel' <;> simp [parseAux, readField_zero]
      | cons b bs => simp [parseAux] at h
  | succ fuel ih =>
      cases bs with
      | nil => cases fuel' <;> simp [parseAux, readField_zero]
      | cons b bs =>
          cases fuel' with
          | zero => rfl
          | succ fuel' =>
              simp only [parseAux] at h
              cases hr : readField (b :: bs) with
              | none => simp [hr] at h
              | some r =>
                  have hrest : (parseAux readField fuel r.2).isSome := by simpa [hr] using h
                  have happ := readField_append (0 :: t) hr
                  rw [List.cons_append] at happ ⊢
                  simp only [parseAux, happ, Option.bind_some, ih hrest fuel', Option.map_none]

/-- Bytes that parse on their own are rejected when a zero byte follows them. -/
theorem parse_zero {bs : List UInt8} (t : List UInt8) (h : (parse bs).isSome) :
    parse (bs ++ 0 :: t) = none :=
  parseAux_zero t h _

/-! ### Reading what was written -/

/-- A written tag is read back. -/
theorem readTag_writeVarint {tag : Nat} (hnumber : tag / 8 ≠ 0) (hlt : tag < 2 ^ 32)
    (rest : List UInt8) : readTag (writeVarint tag ++ rest) = some (tag, rest) := by
  have hshort : tag < 128 ^ 5 := lt_trans hlt (by norm_num)
  rw [readTag, readVarint_writeVarint _ (show 0 < 5 by omega) (by omega) hshort, Option.bind_some,
    Nat.mod_eq_of_lt hlt]
  exact if_neg hnumber

theorem readPlain_write {v : Value} (h : v.Fits) (rest : List UInt8) :
    readPlain v.wireType (v.write ++ rest) = some (v, rest) := by
  cases v with
  | varint n =>
      simp only [Value.Fits] at h
      have hlt : n < 128 ^ 10 := lt_trans h (by norm_num)
      simp only [Value.wireType, Value.write, readPlain,
        readVarint_writeVarint rest (show 0 < 10 by omega) le_rfl hlt, Option.map_some,
        Nat.mod_eq_of_lt h]
  | fixed64 bs =>
      simp only [Value.Fits] at h
      simp [Value.wireType, Value.write, readPlain, takeBytes, ← h]
  | len bs =>
      simp only [Value.Fits] at h
      have hlt : bs.length < 128 ^ 5 := lt_trans h (by norm_num)
      simp [Value.wireType, Value.write, readPlain, List.append_assoc,
        readVarint_writeVarint (bs ++ rest) (by omega) (by omega) hlt, takeBytes]
  | group bs => exact h.elim
  | fixed32 bs =>
      simp only [Value.Fits] at h
      simp [Value.wireType, Value.write, readPlain, takeBytes, ← h]

/-- A written field is read back. -/
theorem readField_writeField {f : Field} (hpos : 0 < f.number) (hlt : f.number < 2 ^ 29)
    (hfits : f.value.Fits) (rest : List UInt8) :
    readField (writeField f ++ rest) = some (f, rest) := by
  have hwire : f.value.wireType < 8 ∧ f.value.wireType ≠ 3 := by
    cases hv : f.value with
    | group bs =>
        rw [hv] at hfits
        exact hfits.elim
    | varint | fixed64 | len | fixed32 => exact ⟨by simp [Value.wireType], by simp [Value.wireType]⟩
  have htag : 8 * f.number + f.value.wireType < 2 ^ 32 := by omega
  have hnumber : (8 * f.number + f.value.wireType) / 8 = f.number := by omega
  have hlow : (8 * f.number + f.value.wireType) % 8 = f.value.wireType := by omega
  rw [readField, writeField, List.append_assoc, readTag_writeVarint (by omega) htag,
    Option.bind_some]
  dsimp only
  rw [hnumber, hlow, readValue, if_neg hwire.2, readPlain_write hfits, Option.map_some]

theorem writeField_ne_nil (f : Field) : writeField f ≠ [] := by
  simp [writeField, writeVarint, writeDigits_ne_nil]

/-- The fields of a written message are read back in order. -/
theorem parse_writeFields {fs : List Field}
    (h : ∀ f ∈ fs, 0 < f.number ∧ f.number < 2 ^ 29 ∧ f.value.Fits) :
    parse (fs.flatMap writeField) = some fs := by
  have haux : ∀ fuel, fs.length ≤ fuel →
      parseAux readField fuel (fs.flatMap writeField) = some fs := by
    induction fs with
    | nil => intro fuel _; cases fuel <;> rfl
    | cons f fs ih =>
        intro fuel hfuel
        obtain ⟨fuel, rfl⟩ : ∃ k, fuel = k + 1 := ⟨fuel - 1, by simp at hfuel; omega⟩
        obtain ⟨⟨hpos, hlt, hfits⟩, hrest⟩ := List.forall_mem_cons.mp h
        have hread := readField_writeField hpos hlt hfits (fs.flatMap writeField)
        have hcons := ih hrest fuel (by simpa using hfuel)
        rw [List.flatMap_cons]
        cases hw : writeField f ++ fs.flatMap writeField with
        | nil => exact absurd (List.append_eq_nil_iff.mp hw).1 (writeField_ne_nil f)
        | cons b bs =>
            rw [hw] at hread
            simp [parseAux, hread, hcons]
  refine haux _ ?_
  clear h haux
  induction fs with
  | nil => simp
  | cons f fs ih =>
      have hpos : 0 < (writeField f).length := List.length_pos_iff.mpr (writeField_ne_nil f)
      simp only [List.flatMap_cons, List.length_append, List.length_cons]
      omega

/-! ## UTF-8 -/

/-- What the next byte of a UTF-8 string must be: `pending` continuation bytes are still due, the
next of them between `low` and `high`. -/
structure Utf8State where
  pending : Nat
  low : UInt8
  high : UInt8
  deriving DecidableEq, Repr

/-- Nothing pending: a character starts. -/
def Utf8State.start : Utf8State := ⟨0, 0x80, 0xBF⟩

/-- One byte of a UTF-8 string. The ranges exclude overlong forms, surrogates and values above
the last code point. -/
def utf8Step (s : Utf8State) (b : UInt8) : Option Utf8State :=
  if s.pending ≠ 0 then
    if s.low ≤ b ∧ b ≤ s.high then some ⟨s.pending - 1, 0x80, 0xBF⟩ else none
  else if b < 0x80 then some .start
  else if b < 0xC2 then none
  else if b < 0xE0 then some ⟨1, 0x80, 0xBF⟩
  else if b = 0xE0 then some ⟨2, 0xA0, 0xBF⟩
  else if b = 0xED then some ⟨2, 0x80, 0x9F⟩
  else if b < 0xF0 then some ⟨2, 0x80, 0xBF⟩
  else if b = 0xF0 then some ⟨3, 0x90, 0xBF⟩
  else if b < 0xF4 then some ⟨3, 0x80, 0xBF⟩
  else if b = 0xF4 then some ⟨3, 0x80, 0x8F⟩
  else none

/-- The bytes are valid UTF-8. -/
def verifyUtf8 (bs : List UInt8) : Bool :=
  bs.foldlM utf8Step .start == some Utf8State.start

end Lib.WireFormat
