import CoffeeChat.Lib.WireFormat
import Mathlib.Data.Nat.Log

/-!
# Fields and their bytes

A field that was read is read back from the bytes it is written as, whatever follows
(`readField_again`): the tag and a plain payload may have come in more bytes than they need, and a
group with other fields in it. The varints of a packed payload stand one behind the other
(`readVarints`). The bytes of a field with a one-byte tag are counted by `varintSize` and
`lengthDelimitedSize`.
-/

namespace Lib.WireFormat

/-! ## Payloads -/

/-- The payload is plain and has the size its wire type prescribes, however many bytes it
carries. -/
def Sized : Value → Prop
  | .varint n => n < 2 ^ 64
  | .fixed64 bs => bs.length = 8
  | .len _ => True
  | .group _ => False
  | .fixed32 bs => bs.length = 4

/-- The bytes it carries are fewer than 1 GiB. -/
def Short : Value → Prop
  | .len bs => bs.length < 2 ^ 30
  | .varint _ | .fixed64 _ | .group _ | .fixed32 _ => True

/-- A plain payload is no longer than it is written. -/
theorem Sized.fits {v : Value} (hsized : Sized v) (hlt : v.write.length < 2 ^ 30) : v.Fits := by
  cases v with
  | varint n => exact hsized
  | fixed64 bs => exact hsized
  | len bs =>
      rw [Value.write, List.length_append] at hlt
      show bs.length < 2 ^ 31
      omega
  | group bs => exact hsized.elim
  | fixed32 bs => exact hsized

/-- The bytes a payload carries are fewer than those of the fields it is among. -/
theorem short_of_mem {fs : List Field} {f : Field} (hf : f ∈ fs)
    (hlt : (fs.flatMap writeField).length < 2 ^ 30) : Short f.value := by
  induction fs with
  | nil => simp at hf
  | cons g fs ih =>
      rw [List.flatMap_cons, List.length_append] at hlt
      rcases List.mem_cons.mp hf with rfl | hf
      · cases hv : f.value with
        | varint | fixed64 | group | fixed32 => trivial
        | len bs =>
            simp only [writeField, hv, Value.write, List.length_append] at hlt
            show bs.length < 2 ^ 30
            omega
      · exact ih hf (by omega)

/-! ## Reading again -/

theorem readTag_range {bs rest : List UInt8} {tag : Nat} (h : readTag bs = some (tag, rest)) :
    tag / 8 ≠ 0 ∧ tag < 2 ^ 32 := by
  obtain ⟨r, -, h⟩ := Option.bind_eq_some_iff.mp h
  split at h
  case isTrue => cases h
  case isFalse hne =>
    obtain ⟨rfl, rfl⟩ := Prod.mk.inj (Option.some.inj h)
    exact ⟨hne, Nat.mod_lt _ (by norm_num)⟩

/-- A plain payload comes with its wire type and the size that prescribes. -/
theorem sized_of_readPlain {wireType : Nat} {bs rest : List UInt8} {v : Value}
    (h : readPlain wireType bs = some (v, rest)) : v.wireType = wireType ∧ Sized v := by
  have htake : ∀ {n : Nat} {bs : List UInt8} {r : List UInt8 × List UInt8},
      takeBytes n bs = some r → r.1.length = n := by
    intro n bs r hr
    unfold takeBytes at hr
    split at hr
    case isTrue hle =>
      cases hr
      exact List.length_take_of_le hle
    case isFalse => cases hr
  unfold readPlain at h
  split at h
  · obtain ⟨r, -, heq⟩ := Option.map_eq_some_iff.mp h
    cases heq
    exact ⟨rfl, Nat.mod_lt _ (by norm_num)⟩
  · obtain ⟨r, hr, heq⟩ := Option.map_eq_some_iff.mp h
    cases heq
    exact ⟨rfl, htake hr⟩
  · obtain ⟨r, -, hr⟩ := Option.bind_eq_some_iff.mp h
    obtain ⟨p, -, heq⟩ := Option.map_eq_some_iff.mp hr
    cases heq
    exact ⟨rfl, trivial⟩
  · obtain ⟨r, hr, heq⟩ := Option.map_eq_some_iff.mp h
    cases heq
    exact ⟨rfl, htake hr⟩
  · cases h

theorem length_writeVarint_pos (n : Nat) : 0 < (writeVarint n).length :=
  List.length_pos_iff.mpr (writeDigits_ne_nil 9 n)

/-- The fields of a group, written anew, are read back, with as much fuel as they have bytes. -/
theorem readGroup_again {fuel number : Nat} {bs content rest : List UInt8}
    (h : readGroup fuel number bs = some (content, rest)) (hlt : content.length < 2 ^ 30)
    {fuel' : Nat} (hfuel : content.length ≤ fuel') (t : List UInt8) :
    readGroup fuel' number (content ++ t) = some (content, t) := by
  induction fuel generalizing number bs content rest fuel' t with
  | zero => cases h
  | succ fuel ih =>
      rw [readGroup] at h
      obtain ⟨⟨tag, bs'⟩, htag, h⟩ := Option.bind_eq_some_iff.mp h
      obtain ⟨hnumber, hrange⟩ := readTag_range htag
      have hpos := length_writeVarint_pos tag
      dsimp only at h
      split at h
      case isTrue hend =>
        split at h
        case isFalse => cases h
        case isTrue hsame =>
          obtain ⟨rfl, rfl⟩ := Prod.mk.inj (Option.some.inj h)
          obtain ⟨k, rfl⟩ := Nat.exists_eq_add_of_le' (Nat.le_trans hpos hfuel)
          rw [readGroup, readTag_writeVarint hnumber hrange, Option.bind_some]
          dsimp only
          rw [if_pos hend, if_pos hsame]
      case isFalse hend =>
        split at h
        case isTrue hgroup =>
          obtain ⟨⟨inner, bs₁⟩, hinner, h⟩ := Option.bind_eq_some_iff.mp h
          obtain ⟨⟨more, bs₂⟩, hmore, heq⟩ := Option.map_eq_some_iff.mp h
          obtain ⟨rfl, rfl⟩ := Prod.mk.inj heq
          simp only [List.length_append] at hlt hfuel
          obtain ⟨k, rfl⟩ := Nat.exists_eq_add_of_le' (show 1 ≤ fuel' by omega)
          rw [readGroup, List.append_assoc, readTag_writeVarint hnumber hrange, Option.bind_some]
          dsimp only
          rw [if_neg hend, if_pos hgroup, List.append_assoc,
            ih hinner (by omega) (by omega), Option.bind_some, ih hmore (by omega) (by omega),
            Option.map_some]
        case isFalse hgroup =>
          obtain ⟨⟨v, bs₁⟩, hv, h⟩ := Option.bind_eq_some_iff.mp h
          obtain ⟨⟨more, bs₂⟩, hmore, heq⟩ := Option.map_eq_some_iff.mp h
          obtain ⟨rfl, rfl⟩ := Prod.mk.inj heq
          obtain ⟨hwire, hsized⟩ := sized_of_readPlain hv
          simp only [List.length_append] at hlt hfuel
          obtain ⟨k, rfl⟩ := Nat.exists_eq_add_of_le' (show 1 ≤ fuel' by omega)
          have hplain := readPlain_write (hsized.fits (by omega)) (more ++ t)
          rw [hwire] at hplain
          rw [readGroup, List.append_assoc, readTag_writeVarint hnumber hrange, Option.bind_some]
          dsimp only
          rw [if_neg hend, if_neg hgroup, List.append_assoc, hplain, Option.bind_some,
            ih hmore (by omega) (by omega), Option.map_some]

/-- A field that was read is read back from its bytes, whatever follows. -/
theorem readField_again {bs rest : List UInt8} {f : Field} (h : readField bs = some (f, rest))
    (hlt : (writeField f).length < 2 ^ 30) (t : List UInt8) :
    readField (writeField f ++ t) = some (f, t) := by
  unfold readField at h
  obtain ⟨⟨tag, bs'⟩, htag, h⟩ := Option.bind_eq_some_iff.mp h
  obtain ⟨⟨v, bs₁⟩, hv, heq⟩ := Option.map_eq_some_iff.mp h
  obtain ⟨rfl, rfl⟩ := Prod.mk.inj heq
  obtain ⟨hnumber, hrange⟩ := readTag_range htag
  rw [writeField, List.length_append] at hlt
  dsimp only at hv hlt
  unfold readValue at hv
  split at hv
  case isTrue hgroup =>
    obtain ⟨⟨content, bs₂⟩, hcontent, heq⟩ := Option.map_eq_some_iff.mp hv
    obtain ⟨rfl, rfl⟩ := Prod.mk.inj heq
    have hsplit : 8 * (tag / 8) + (Value.group content).wireType = tag := by
      show 8 * (tag / 8) + 3 = tag
      omega
    have hlong : content.length ≤ (content ++ t).length := by
      rw [List.length_append]
      exact Nat.le_add_right ..
    have hread := readGroup_again hcontent
      (Nat.lt_of_le_of_lt (Nat.le_add_left _ _) hlt) hlong t
    rw [writeField, List.append_assoc, readField]
    dsimp only
    rw [hsplit, readTag_writeVarint hnumber hrange, Option.bind_some]
    dsimp only
    rw [readValue, if_pos hgroup]
    show ((readGroup (content ++ t).length (tag / 8) (content ++ t)).map _).map _ = _
    rw [hread]
    rfl
  case isFalse hplain =>
    obtain ⟨hwire, hsized⟩ := sized_of_readPlain hv
    have hwritten : v.write.length < 2 ^ 30 := Nat.lt_of_le_of_lt (Nat.le_add_left _ _) hlt
    exact readField_writeField (f := ⟨tag / 8, v⟩) (Nat.pos_of_ne_zero hnumber)
      (show tag / 8 < 2 ^ 29 by omega) (hsized.fits hwritten) t

/-! ## Packed varints -/

/-- The varints of the input, one behind the other; at most `fuel` of them. -/
def readVarints : Nat → List UInt8 → Option (List Nat)
  | _, [] => some []
  | 0, _ => none
  | fuel + 1, b :: bs =>
    (readVarint 10 (b :: bs)).bind fun r ↦ (readVarints fuel r.2).map (r.1 :: ·)

theorem readVarints_writeVarints {ns : List Nat} (hns : ∀ n ∈ ns, n < 2 ^ 64) {fuel : Nat}
    (hfuel : ns.length ≤ fuel) : readVarints fuel (ns.flatMap writeVarint) = some ns := by
  induction ns generalizing fuel with
  | nil => cases fuel <;> rfl
  | cons n ns ih =>
      obtain ⟨fuel, rfl⟩ : ∃ k, fuel = k + 1 := ⟨fuel - 1, by simp at hfuel; omega⟩
      obtain ⟨hn, hns⟩ := List.forall_mem_cons.mp hns
      have hread := readVarint_writeVarint (ns.flatMap writeVarint) (show 0 < 10 by omega) le_rfl
        (lt_trans hn (by norm_num))
      have htail := ih hns (show ns.length ≤ fuel by simpa using hfuel)
      rw [List.flatMap_cons]
      cases hw : writeVarint n ++ ns.flatMap writeVarint with
      | nil => exact absurd (List.append_eq_nil_iff.mp hw).1 (writeDigits_ne_nil 9 n)
      | cons b bs =>
          rw [hw] at hread
          simp [readVarints, hread, htail]

/-- Every varint is at least a byte. -/
theorem length_le_writeVarints (ns : List Nat) : ns.length ≤ (ns.flatMap writeVarint).length := by
  induction ns with
  | nil => exact le_rfl
  | cons n ns ih =>
      have hpos := length_writeVarint_pos n
      rw [List.flatMap_cons, List.length_append, List.length_cons]
      omega

/-! ## Counting bytes -/

/-- The number of bytes of a varint. -/
def varintSize (n : Nat) : Nat := Nat.log 128 n + 1

theorem length_writeDigits {fuel n : Nat} (hpos : 0 < fuel) (hn : n < 128 ^ fuel) :
    (writeDigits fuel n).length = varintSize n := by
  induction fuel generalizing n with
  | zero => omega
  | succ fuel ih =>
      by_cases hlt : n < 128
      · simp [writeDigits, hlt, varintSize, Nat.log_of_lt hlt]
      · have hfuel : 0 < fuel := by
          rcases Nat.eq_zero_or_pos fuel with rfl | hfuel
          · simp at hn; omega
          · exact hfuel
        have hdiv : n / 128 < 128 ^ fuel := by
          rw [Nat.div_lt_iff_lt_mul (by omega)]
          rwa [pow_succ] at hn
        have hlog : varintSize n = varintSize (n / 128) + 1 := by
          rw [varintSize, Nat.log_of_one_lt_of_le (by omega) (by omega), varintSize]
        rw [hlog, ← ih hfuel hdiv]
        simp [writeDigits, hlt]

theorem length_writeVarint {n : Nat} (hn : n < 2 ^ 64) : (writeVarint n).length = varintSize n :=
  length_writeDigits (by omega) (lt_trans hn (by norm_num))

/-- A tag of a number below 16 is one byte. -/
theorem length_writeField {number : Nat} (hn : number < 16) (v : Value) :
    (writeField ⟨number, v⟩).length = 1 + v.write.length := by
  have hwire : v.wireType < 8 := by cases v <;> simp [Value.wireType]
  have htag : (writeVarint (8 * number + v.wireType)).length = 1 := by
    rw [length_writeVarint (by omega), varintSize, Nat.log_of_lt (by omega)]
  rw [writeField, List.length_append, htag]

/-- The size of `n` bytes behind their length, a 32-bit number. -/
def lengthDelimitedSize (n : Nat) : Nat := n + varintSize (n % 2 ^ 32)

theorem length_write_len {bs : List UInt8} (h : bs.length < 2 ^ 30) :
    (Value.len bs).write.length = lengthDelimitedSize bs.length := by
  have hmod : bs.length % 2 ^ 32 = bs.length := Nat.mod_eq_of_lt (by omega)
  rw [Value.write, List.length_append, length_writeVarint (by omega), lengthDelimitedSize, hmod,
    Nat.add_comm]

end Lib.WireFormat
