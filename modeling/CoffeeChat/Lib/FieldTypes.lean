import CoffeeChat.Lib.Schema

/-!
# The types of proto3 fields

A `Scalar` is a type whose values are varints: a field holds one (`FieldType.scalar`) or a packed
list of them (`FieldType.packed`, read from both encodings). A `Payload` is a type whose values are
bytes behind their length: a field holds a list of them (`FieldType.repeated`), and those of a
message class are `Payload.message`. Strings and bytes are `FieldType.bytes`, with the check made
of what is read, and a field that holds at most one message is `FieldType.message`.
-/

namespace Lib.Schema

open Lib.WireFormat

def isVarint : Value → Bool
  | .varint _ => true
  | .fixed64 _ | .len _ | .group _ | .fixed32 _ => false

def isLen : Value → Bool
  | .len _ => true
  | .varint _ | .fixed64 _ | .group _ | .fixed32 _ => false

/-! ## Scalars -/

/-- A type whose values are written as varints. -/
structure Scalar (α : Type) where
  ofVarint : Nat → α
  toVarint : α → Nat
  ofVarint_toVarint : ∀ a, ofVarint (toVarint a) = a
  toVarint_lt : ∀ a, toVarint a < 2 ^ 64

section Scalars

variable {α : Type}

/-- A field that is not written while it holds the value of zero. -/
def FieldType.scalar [DecidableEq α] (s : Scalar α) : FieldType where
  Val := α
  initial := s.ofVarint 0
  takes := isVarint
  read _ v :=
    match v with
    | .varint n => some (s.ofVarint n)
    | .fixed64 _ | .len _ | .group _ | .fixed32 _ => none
  write a := if a = s.ofVarint 0 then [] else [.varint (s.toVarint a)]
  merge a b := if b = s.ofVarint 0 then a else b
  size a := if a = s.ofVarint 0 then 0 else 1 + varintSize (s.toVarint a)
  Valid _ := True
  initial_valid := trivial
  merge_initial b := by
    split
    case isTrue h => exact h.symm
    case isFalse => rfl
  write_takes b v hv := by
    split at hv
    case isTrue => simp at hv
    case isFalse =>
      cases List.mem_singleton.mp hv
      exact ⟨rfl, s.toVarint_lt b⟩
  read_valid _ _ _ _ _ _ := trivial
  read_write a b _ _ := by
    split
    case isTrue => rfl
    case isFalse => simp [s.ofVarint_toVarint]
  size_eq number hnumber b _ := by
    split
    case isTrue => rfl
    case isFalse =>
      rw [List.flatMap_singleton, length_writeField hnumber]
      simp only [Value.write, length_writeVarint (s.toVarint_lt b)]

namespace Scalar

variable (s : Scalar α)

/-- The payload of a packed list. -/
def pack (as : List α) : List UInt8 := (as.map s.toVarint).flatMap writeVarint

def unpack (rt : Reader) (bs : List UInt8) : Option (List α) :=
  (rt.unpack bs).map (·.map s.ofVarint)

/-- The bytes counted for a packed list without its tag and length. -/
def packedSize (as : List α) : Nat := (as.map fun a ↦ varintSize (s.toVarint a)).foldr (· + ·) 0

theorem pack_eq_nil {as : List α} : s.pack as = [] ↔ as = [] := by
  constructor
  · intro h
    have hle := length_le_writeVarints (as.map s.toVarint)
    rw [show (as.map s.toVarint).flatMap writeVarint = [] from h, List.length_map] at hle
    exact List.length_eq_zero_iff.mp (Nat.le_zero.mp hle)
  · intro h
    rw [h]
    rfl

theorem unpack_pack {rt : Reader} {as : List α} (hlt : (s.pack as).length < 2 ^ 30) :
    s.unpack rt (s.pack as) = some as := by
  have hns : ∀ n ∈ as.map s.toVarint, n < 2 ^ 64 := by
    intro n hn
    obtain ⟨a, -, rfl⟩ := List.mem_map.mp hn
    exact s.toVarint_lt a
  have hid : s.ofVarint ∘ s.toVarint = id := funext s.ofVarint_toVarint
  rw [unpack, pack, rt.unpack_pack hns hlt, Option.map_some, List.map_map, hid, List.map_id]

theorem packedSize_eq (as : List α) : s.packedSize as = (s.pack as).length := by
  induction as with
  | nil => rfl
  | cons a as ih =>
      have hhead := length_writeVarint (s.toVarint_lt a)
      simp only [pack, packedSize, List.map_cons, List.foldr_cons, List.flatMap_cons,
        List.length_append] at ih ⊢
      omega

end Scalar

/-- The varint of a 32-bit number, its sign extended. -/
def signExtended (n : Nat) : Nat :=
  if n % 2 ^ 32 < 2 ^ 31 then n % 2 ^ 32 else n % 2 ^ 32 + (2 ^ 64 - 2 ^ 32)

/-- A list written packed, and read from a packed payload or from its elements one by one. The
length of the payload is counted as an `int32`. -/
def FieldType.packed (rt : Reader) (s : Scalar α) : FieldType where
  Val := List α
  initial := []
  takes v := isLen v || isVarint v
  read as v :=
    match v with
    | .len bs => (s.unpack rt bs).map (as ++ ·)
    | .varint n => some (as ++ [s.ofVarint n])
    | .fixed64 _ | .group _ | .fixed32 _ => none
  write as := if as = [] then [] else [.len (s.pack as)]
  merge as bs := as ++ bs
  size as :=
    s.packedSize as +
      if 0 < s.packedSize as then 1 + varintSize (signExtended (s.packedSize as)) else 0
  Valid _ := True
  initial_valid := trivial
  merge_initial _ := rfl
  write_takes b v hv := by
    split at hv
    case isTrue => simp at hv
    case isFalse =>
      cases List.mem_singleton.mp hv
      exact ⟨rfl, trivial⟩
  read_valid _ _ _ _ _ _ := trivial
  read_write as bs _ hshort := by
    split at hshort
    case isTrue h => simp [h]
    case isFalse hne =>
      have hlt : (s.pack bs).length < 2 ^ 30 := hshort _ (List.mem_singleton_self _)
      simp [hne, s.unpack_pack hlt]
  size_eq number hnumber bs hshort := by
    rw [s.packedSize_eq]
    split at hshort
    case isTrue h => simp [h, Scalar.pack]
    case isFalse hne =>
      have hlt : (s.pack bs).length < 2 ^ 30 := hshort _ (List.mem_singleton_self _)
      have hpos : 0 < (s.pack bs).length :=
        List.length_pos_iff.mpr fun h ↦ hne (s.pack_eq_nil.mp h)
      have hext : signExtended (s.pack bs).length = (s.pack bs).length := by
        rw [signExtended, if_pos (by omega), Nat.mod_eq_of_lt (by omega)]
      rw [if_pos hpos, hext, if_neg hne, List.flatMap_singleton, length_writeField hnumber,
        Value.write, List.length_append, length_writeVarint (by omega)]
      omega

end Scalars

/-! ## Bytes behind their length -/

/-- A type whose values are written as bytes behind their length. -/
structure Payload (β : Type) where
  read : List UInt8 → Option β
  write : β → List UInt8
  /-- The bytes counted for a value without its tag and length. -/
  size : β → Nat
  Valid : β → Prop
  read_valid : ∀ bs b, read bs = some b → Valid b
  read_write : ∀ b, Valid b → (write b).length < 2 ^ 30 → read (write b) = some b
  size_eq : ∀ b, (write b).length < 2 ^ 30 → size b = (write b).length

/-- A string that passes `check`. -/
def Payload.string (check : List UInt8 → Bool) : Payload (List UInt8) where
  read bs := if check bs then some bs else none
  write bs := bs
  size := List.length
  Valid bs := check bs
  read_valid bs b h := by
    split at h
    case isTrue hcheck => cases h; exact hcheck
    case isFalse => simp at h
  read_write _ hvalid _ := if_pos hvalid
  size_eq _ _ := rfl

def Payload.message (rt : Reader) (c : MessageClass) : Payload (Message c) where
  read := Message.parseFrom rt
  write := Message.serialize
  size := Message.byteSize
  Valid := Message.Valid rt
  read_valid _ _ := Message.valid_of_parseFrom
  read_write _ := Message.parseFrom_serialize
  size_eq _ := Message.byteSize_eq

namespace FieldType

/-- A list of values, each written as a field of its own. -/
def repeated {β : Type} (p : Payload β) : FieldType where
  Val := List β
  initial := []
  takes := isLen
  read as v :=
    match v with
    | .len bs => (p.read bs).map fun b ↦ as ++ [b]
    | .varint _ | .fixed64 _ | .group _ | .fixed32 _ => none
  write as := as.map fun a ↦ .len (p.write a)
  merge as bs := as ++ bs
  size as := (as.map fun a ↦ 1 + lengthDelimitedSize (p.size a)).foldr (· + ·) 0
  Valid as := ∀ a ∈ as, p.Valid a
  initial_valid := fun _ h ↦ absurd h List.not_mem_nil
  merge_initial _ := rfl
  write_takes b v hv := by
    obtain ⟨a, -, rfl⟩ := List.mem_map.mp hv
    exact ⟨rfl, trivial⟩
  read_valid as v bs has htakes h := by
    cases v with
    | varint | fixed64 | group | fixed32 => simp at h
    | len bytes =>
        obtain ⟨b, hb, rfl⟩ := Option.map_eq_some_iff.mp h
        refine List.forall_mem_append.mpr ⟨has, ?_⟩
        intro a ha
        cases List.mem_singleton.mp ha
        exact p.read_valid bytes b hb
  read_write as bs hvalid hshort := by
    induction bs generalizing as with
    | nil => simp
    | cons b bs ih =>
        obtain ⟨hb, hbs⟩ := List.forall_mem_cons.mp hvalid
        obtain ⟨hlt, hshort⟩ := List.forall_mem_cons.mp hshort
        have hread : p.read (p.write b) = some b := p.read_write b hb hlt
        simp only [List.map_cons, List.foldlM_cons, hread, Option.map_some]
        show List.foldlM _ (as ++ [b]) _ = _
        rw [ih (as ++ [b]) hbs hshort, List.append_assoc]
        rfl
  size_eq number hnumber bs hshort := by
    induction bs with
    | nil => rfl
    | cons b bs ih =>
        obtain ⟨hlt, hshort⟩ := List.forall_mem_cons.mp hshort
        simp only [List.map_cons, List.foldr_cons, List.flatMap_cons, List.length_append,
          ih hshort, length_writeField hnumber, length_write_len hlt, p.size_eq b hlt]

/-- Bytes that pass `check`, not written while there are none. -/
def bytes (check : List UInt8 → Bool) (hnil : check []) : FieldType where
  Val := List UInt8
  initial := []
  takes := isLen
  read _ v :=
    match v with
    | .len bs => if check bs then some bs else none
    | .varint _ | .fixed64 _ | .group _ | .fixed32 _ => none
  write bs := if bs = [] then [] else [.len bs]
  merge as bs := if bs = [] then as else bs
  size bs := if bs = [] then 0 else 1 + lengthDelimitedSize bs.length
  Valid bs := check bs
  initial_valid := hnil
  merge_initial b := by
    split
    case isTrue h => exact h.symm
    case isFalse => rfl
  write_takes b v hv := by
    split at hv
    case isTrue => simp at hv
    case isFalse =>
      cases List.mem_singleton.mp hv
      exact ⟨rfl, trivial⟩
  read_valid a v b _ htakes h := by
    cases v with
    | varint | fixed64 | group | fixed32 => simp at h
    | len bs =>
        simp only at h
        split at h
        case isTrue hcheck => cases h; exact hcheck
        case isFalse => simp at h
  read_write a b hvalid _ := by
    split
    case isTrue => rfl
    case isFalse => simp [hvalid]
  size_eq number hnumber b hshort := by
    split at hshort
    case isTrue h => simp [h]
    case isFalse hne =>
      have hlt : b.length < 2 ^ 30 := hshort _ (List.mem_singleton_self _)
      rw [if_neg hne, if_neg hne, List.flatMap_singleton, length_writeField hnumber,
        length_write_len hlt]

/-- At most one message; a second one is merged into the first. It is written even when it is
empty. -/
def message (rt : Reader) (c : MessageClass) : FieldType where
  Val := Option (Message c)
  initial := none
  takes := isLen
  read a v :=
    match v with
    | .len bs => ((a.getD .initial).parseInto rt bs).map some
    | .varint _ | .fixed64 _ | .group _ | .fixed32 _ => none
  write a := (a.map fun msg ↦ Value.len msg.serialize).toList
  merge a b :=
    match b with
    | none => a
    | some msg => some ((a.getD .initial).merge msg)
  size a := (a.map fun msg ↦ 1 + lengthDelimitedSize msg.byteSize).getD 0
  Valid a := ∀ msg ∈ a, msg.Valid rt
  initial_valid := fun _ h ↦ absurd h (Option.not_mem_none _)
  merge_initial b := by
    cases b with
    | none => rfl
    | some msg => exact congrArg some msg.merge_initial
  write_takes b v hv := by
    cases b with
    | none => simp at hv
    | some msg =>
        cases List.mem_singleton.mp hv
        exact ⟨rfl, trivial⟩
  read_valid a v b ha htakes h := by
    cases v with
    | varint | fixed64 | group | fixed32 => simp at h
    | len bs =>
        obtain ⟨msg, hmsg, rfl⟩ := Option.map_eq_some_iff.mp h
        intro msg' hmem
        cases Option.mem_some.mp hmem
        cases a with
        | none => exact Message.parseInto_valid Message.initial_valid hmsg
        | some m => exact Message.parseInto_valid (ha m rfl) hmsg
  read_write a b hvalid hshort := by
    cases b with
    | none => rfl
    | some msg =>
        have hlt : msg.serialize.length < 2 ^ 30 := hshort _ (List.mem_singleton_self _)
        have hread := Message.parseInto_serialize (a.getD .initial) (hvalid msg rfl) hlt
        simp [hread]
  size_eq number hnumber b hshort := by
    cases b with
    | none => rfl
    | some msg =>
        have hlt : msg.serialize.length < 2 ^ 30 := hshort _ (List.mem_singleton_self _)
        show 1 + lengthDelimitedSize msg.byteSize =
          (List.flatMap _ [Value.len msg.serialize]).length
        rw [List.flatMap_singleton, length_writeField hnumber, length_write_len hlt,
          Message.byteSize_eq hlt]

end FieldType

end Lib.Schema
