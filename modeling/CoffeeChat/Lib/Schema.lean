import CoffeeChat.Lib.Reader
import Mathlib.Data.List.Nodup

/-!
# Message classes given by their fields

A generated message class is determined by the numbers and the types of its fields. A `FieldType`
is what the class does with one field: the value it starts with, the payloads it takes, how it
reads one into a value and writes a value as payloads, how it merges two values, and the bytes it
counts; the laws these obey are fields of the structure. A `MessageClass` lists fields in the order
of their numbers, which are below 16, so that every tag is one byte; a `Message` of it has one value
for each and the bytes of the fields it does not know.

Messages are read with a `Reader`. Reading back what was written merges it into what is there
(`Message.parseInto_serialize`), so a valid message survives the round trip
(`Message.parseFrom_serialize`) and two of them, one behind the other, are read as their merger
(`Message.parseFrom_append`). Whatever is accepted is valid (`Message.valid_of_parseFrom`). A class
is in turn what a field can hold (`FieldType.message`, `FieldType.repeated`).
-/

namespace Lib.Schema

open Lib.WireFormat

/-! ## Fields of a class -/

/-- What a message class does with a field. -/
structure FieldType where
  /-- What the message holds for the field. -/
  Val : Type
  initial : Val
  /-- The field is known under the wire type of this payload. -/
  takes : Value → Bool
  read : Val → Value → Option Val
  write : Val → List Value
  merge : Val → Val → Val
  /-- The bytes counted for the field, its tags among them. -/
  size : Val → Nat
  Valid : Val → Prop
  initial_valid : Valid initial
  merge_initial : ∀ b, merge initial b = b
  write_takes : ∀ b, ∀ v ∈ write b, takes v ∧ Sized v
  read_valid : ∀ a v b, Valid a → takes v → read a v = some b → Valid b
  read_write : ∀ a b, Valid b → (∀ v ∈ write b, Short v) →
    (write b).foldlM read a = some (merge a b)
  size_eq : ∀ number < 16, ∀ b, (∀ v ∈ write b, Short v) →
    size b = ((write b).flatMap fun v ↦ writeField ⟨number, v⟩).length

/-- A field of a class. -/
structure Entry where
  number : Nat
  type : FieldType

/-- The numbers ascend, all of them above `low` and below 16. -/
def ascending : Nat → List Nat → Bool
  | _, [] => true
  | low, n :: ns => decide (low < n) && decide (n < 16) && ascending n ns

/-- The fields of a class, in the order of their numbers. -/
structure MessageClass where
  entries : List Entry
  ascending : ascending 0 (entries.map Entry.number) = true

theorem mem_of_ascending {low n : Nat} {ns : List Nat} (h : ascending low ns = true)
    (hn : n ∈ ns) : low < n ∧ n < 16 := by
  induction ns generalizing low with
  | nil => simp at hn
  | cons m ns ih =>
      simp only [ascending, Bool.and_eq_true, decide_eq_true_eq] at h
      obtain ⟨⟨hlow, hlt⟩, htail⟩ := h
      rcases List.mem_cons.mp hn with rfl | hn
      · exact ⟨hlow, hlt⟩
      · obtain ⟨hm, hlt⟩ := ih htail hn
        exact ⟨by omega, hlt⟩

theorem nodup_of_ascending {low : Nat} {ns : List Nat} (h : ascending low ns = true) :
    ns.Nodup := by
  induction ns generalizing low with
  | nil => exact List.nodup_nil
  | cons m ns ih =>
      simp only [ascending, Bool.and_eq_true] at h
      refine List.nodup_cons.mpr ⟨fun hmem ↦ ?_, ih h.2⟩
      exact absurd (mem_of_ascending h.2 hmem).1 (lt_irrefl m)

namespace MessageClass

theorem nodup (c : MessageClass) : (c.entries.map Entry.number).Nodup :=
  nodup_of_ascending c.ascending

theorem small (c : MessageClass) : ∀ e ∈ c.entries, 0 < e.number ∧ e.number < 16 :=
  fun _ he ↦ mem_of_ascending c.ascending (List.mem_map_of_mem he)

end MessageClass

/-- The value of each field. -/
@[reducible] def Vals : List Entry → Type
  | [] => Unit
  | e :: es => e.type.Val × Vals es

namespace Vals

def initial : (es : List Entry) → Vals es
  | [] => ()
  | e :: es => (e.type.initial, initial es)

/-- One of the fields has this number and takes the payload. -/
def takes (es : List Entry) (f : Field) : Bool :=
  es.any fun e ↦ e.number == f.number && e.type.takes f.value

/-- Read a field into the value with its number. -/
def read : (es : List Entry) → Vals es → Field → Option (Vals es)
  | [], _, _ => some ()
  | e :: es, (v, vs), f =>
    if e.number = f.number then (e.type.read v f.value).map (·, vs)
    else (read es vs f).map (v, ·)

/-- The fields the values are written as, in the order of the class. -/
def fields : (es : List Entry) → Vals es → List Field
  | [], _ => []
  | e :: es, (v, vs) => ((e.type.write v).map fun v ↦ ⟨e.number, v⟩) ++ fields es vs

def merge : (es : List Entry) → Vals es → Vals es → Vals es
  | [], _, _ => ()
  | e :: es, (a, as), (b, bs) => (e.type.merge a b, merge es as bs)

def size : (es : List Entry) → Vals es → Nat
  | [], _ => 0
  | e :: es, (v, vs) => e.type.size v + size es vs

def Valid : (es : List Entry) → Vals es → Prop
  | [], _ => True
  | e :: es, (v, vs) => e.type.Valid v ∧ Valid es vs

variable {es : List Entry}

theorem initial_valid : (es : List Entry) → Valid es (initial es)
  | [] => trivial
  | e :: es => ⟨e.type.initial_valid, initial_valid es⟩

theorem merge_initial : (es : List Entry) → (b : Vals es) → merge es (initial es) b = b
  | [], _ => rfl
  | e :: es, (b, bs) => Prod.ext (e.type.merge_initial b) (merge_initial es bs)

/-- A written field is known. -/
theorem takes_of_mem_fields {b : Vals es} {f : Field} (hf : f ∈ fields es b) :
    takes es f ∧ Sized f.value ∧ f.number ∈ es.map Entry.number := by
  induction es with
  | nil => simp [fields] at hf
  | cons e es ih =>
      obtain ⟨b, bs⟩ := b
      rcases List.mem_append.mp hf with hf | hf
      · obtain ⟨v, hv, rfl⟩ := List.mem_map.mp hf
        obtain ⟨htakes, hsized⟩ := e.type.write_takes b v hv
        exact ⟨by simp [takes, htakes], hsized, by simp⟩
      · obtain ⟨htakes, hsized, hnumber⟩ := ih hf
        refine ⟨?_, hsized, List.mem_cons_of_mem _ hnumber⟩
        rw [takes, List.any_cons, show (es.any _) = true from htakes, Bool.or_true]

/-- A value read into valid ones is valid, where the numbers are different. -/
theorem read_valid (hnodup : (es.map Entry.number).Nodup) {a b : Vals es} {f : Field}
    (ha : Valid es a) (htakes : takes es f) (h : read es a f = some b) : Valid es b := by
  induction es with
  | nil => trivial
  | cons e es ih =>
      obtain ⟨a, as⟩ := a
      obtain ⟨hmem, hnodup⟩ := List.nodup_cons.mp hnodup
      unfold read at h
      split at h
      case isTrue heq =>
        obtain ⟨c, hc, rfl⟩ := Option.map_eq_some_iff.mp h
        have hhead : e.type.takes f.value := by
          rcases List.any_eq_true.mp htakes with ⟨e', he', hboth⟩
          obtain ⟨hnumber, hvalue⟩ := by simpa using hboth
          rcases List.mem_cons.mp he' with rfl | he'
          · exact hvalue
          · exact absurd (heq ▸ hnumber ▸ List.mem_map_of_mem he') hmem
        exact ⟨e.type.read_valid a f.value c ha.1 hhead hc, ha.2⟩
      case isFalse hne =>
        obtain ⟨cs, hcs, rfl⟩ := Option.map_eq_some_iff.mp h
        have htail : takes es f := by simpa [takes, hne] using htakes
        exact ⟨ha.1, ih hnodup ha.2 htail hcs⟩

/-- Fields with the number of the first entry are read into its value. -/
theorem foldlM_head (e : Entry) (a : e.type.Val) (as : Vals es) (vs : List Value) :
    (vs.map fun v ↦ ⟨e.number, v⟩).foldlM (read (e :: es)) (a, as) =
      (vs.foldlM e.type.read a).map (·, as) := by
  induction vs generalizing a with
  | nil => rfl
  | cons v vs ih =>
      simp only [List.map_cons, List.foldlM_cons, read, if_true]
      cases e.type.read a v with
      | none => rfl
      | some b => exact ih b

/-- Fields with other numbers leave the value of the first entry alone. -/
theorem foldlM_tail (e : Entry) (a : e.type.Val) (as : Vals es) {fs : List Field}
    (h : ∀ f ∈ fs, e.number ≠ f.number) :
    fs.foldlM (read (e :: es)) (a, as) = (fs.foldlM (read es) as).map (a, ·) := by
  induction fs generalizing as with
  | nil => rfl
  | cons f fs ih =>
      obtain ⟨hf, hfs⟩ := List.forall_mem_cons.mp h
      simp only [List.foldlM_cons, read, if_neg hf]
      cases read es as f with
      | none => rfl
      | some bs => exact ih bs hfs

/-- Reading what was written merges it. -/
theorem foldlM_fields (hnodup : (es.map Entry.number).Nodup) (a : Vals es) {b : Vals es}
    (hb : Valid es b) (hshort : ∀ f ∈ fields es b, Short f.value) :
    (fields es b).foldlM (read es) a = some (merge es a b) := by
  induction es with
  | nil => rfl
  | cons e es ih =>
      obtain ⟨a, as⟩ := a
      obtain ⟨b, bs⟩ := b
      obtain ⟨hmem, hnodup⟩ := List.nodup_cons.mp hnodup
      obtain ⟨hhead, htail⟩ := List.forall_mem_append.mp hshort
      have hvalue : (e.type.write b).foldlM e.type.read a = some (e.type.merge a b) :=
        e.type.read_write a b hb.1 fun v hv ↦ hhead _ (List.mem_map_of_mem hv)
      have hother : ∀ f ∈ fields es bs, e.number ≠ f.number :=
        fun f hf heq ↦ hmem (heq ▸ (takes_of_mem_fields hf).2.2)
      rw [fields, List.foldlM_append, foldlM_head, hvalue]
      show (fields es bs).foldlM (read (e :: es)) (e.type.merge a b, as) = _
      rw [foldlM_tail e _ as hother, ih hnodup as hb.2 htail]
      rfl

/-- The bytes counted are the bytes written. -/
theorem size_eq (hsmall : ∀ e ∈ es, 0 < e.number ∧ e.number < 16) {b : Vals es}
    (hshort : ∀ f ∈ fields es b, Short f.value) :
    size es b = ((fields es b).flatMap writeField).length := by
  induction es with
  | nil => rfl
  | cons e es ih =>
      obtain ⟨b, bs⟩ := b
      obtain ⟨⟨-, hnumber⟩, hsmall⟩ := List.forall_mem_cons.mp hsmall
      obtain ⟨hhead, htail⟩ := List.forall_mem_append.mp hshort
      have hvalue := e.type.size_eq e.number hnumber b fun v hv ↦
        hhead _ (List.mem_map_of_mem hv)
      rw [size, fields, List.flatMap_append, List.length_append, List.flatMap_map, hvalue,
        ih hsmall htail]

end Vals

/-! ## Messages -/

/-- The fields of a class and the bytes of those it does not know. -/
structure Message (c : MessageClass) where
  vals : Vals c.entries
  unknown : List UInt8

/-- The bytes of fields that a class does not know, as they come out of the reader. -/
def Foreign (rt : Reader) (c : MessageClass) (bs : List UInt8) : Prop :=
  ∃ fs : List Field, bs = fs.flatMap writeField ∧
    ∀ f ∈ fs, ReadBack rt.readField f ∧ Vals.takes c.entries f = false

namespace Message

variable {c : MessageClass}

def initial : Message c := ⟨Vals.initial c.entries, []⟩

/-- Read one field. -/
def step (msg : Message c) (f : Field) : Option (Message c) :=
  if Vals.takes c.entries f then
    (Vals.read c.entries msg.vals f).map fun vals ↦ { msg with vals := vals }
  else some { msg with unknown := msg.unknown ++ writeField f }

/-- Read the fields of the input into a message. -/
def parseInto (rt : Reader) (msg : Message c) (bs : List UInt8) : Option (Message c) :=
  (rt.parse bs).bind (·.foldlM step msg)

def parseFrom (rt : Reader) (bs : List UInt8) : Option (Message c) := initial.parseInto rt bs

def serialize (msg : Message c) : List UInt8 :=
  (Vals.fields c.entries msg.vals).flatMap writeField ++ msg.unknown

def byteSize (msg : Message c) : Nat := Vals.size c.entries msg.vals + msg.unknown.length

def merge (a b : Message c) : Message c :=
  ⟨Vals.merge c.entries a.vals b.vals, a.unknown ++ b.unknown⟩

/-- Every value is valid, and the unknown fields are fields that are not known. -/
def Valid (rt : Reader) (msg : Message c) : Prop :=
  Vals.Valid c.entries msg.vals ∧ Foreign rt c msg.unknown

variable {rt : Reader}

theorem initial_valid : (initial : Message c).Valid rt :=
  ⟨Vals.initial_valid c.entries, [], rfl, fun _ hf ↦ absurd hf List.not_mem_nil⟩

theorem merge_initial (b : Message c) : initial.merge b = b := by
  show (⟨Vals.merge _ (Vals.initial _) b.vals, [] ++ b.unknown⟩ : Message c) = b
  rw [Vals.merge_initial, List.nil_append]

/-! ### Reading known and unknown fields -/

theorem foldlM_known (msg : Message c) {fs : List Field}
    (h : ∀ f ∈ fs, Vals.takes c.entries f) :
    fs.foldlM step msg =
      (fs.foldlM (Vals.read c.entries) msg.vals).map fun vals ↦ { msg with vals := vals } := by
  induction fs generalizing msg with
  | nil => rfl
  | cons f fs ih =>
      obtain ⟨hf, hfs⟩ := List.forall_mem_cons.mp h
      simp only [List.foldlM_cons, step, if_pos hf]
      cases Vals.read c.entries msg.vals f with
      | none => rfl
      | some vals => exact ih { msg with vals := vals } hfs

theorem foldlM_unknown (msg : Message c) {fs : List Field}
    (h : ∀ f ∈ fs, Vals.takes c.entries f = false) :
    fs.foldlM step msg = some { msg with unknown := msg.unknown ++ fs.flatMap writeField } := by
  induction fs generalizing msg with
  | nil => simp
  | cons f fs ih =>
      obtain ⟨hf, hfs⟩ := List.forall_mem_cons.mp h
      have hstep : step msg f = some { msg with unknown := msg.unknown ++ writeField f } := by
        simp [step, hf]
      rw [List.foldlM_cons, hstep]
      show fs.foldlM step { msg with unknown := msg.unknown ++ writeField f } = _
      rw [ih _ hfs]
      simp

theorem step_valid {msg msg' : Message c} {f : Field} (hvalid : msg.Valid rt)
    (hf : ReadBack rt.readField f) (h : step msg f = some msg') : msg'.Valid rt := by
  unfold step at h
  split at h
  case isTrue htakes =>
    obtain ⟨vals, hvals, rfl⟩ := Option.map_eq_some_iff.mp h
    exact ⟨Vals.read_valid c.nodup hvalid.1 htakes hvals, hvalid.2⟩
  case isFalse htakes =>
    cases h
    obtain ⟨fs, hbytes, hfs⟩ := hvalid.2
    refine ⟨hvalid.1, fs ++ [f], by simp [hbytes], ?_⟩
    intro g hg
    rcases List.mem_append.mp hg with hg | hg
    · exact hfs g hg
    · cases List.mem_singleton.mp hg
      exact ⟨hf, by simpa using htakes⟩

theorem foldlM_valid {msg msg' : Message c} {fs : List Field} (hvalid : msg.Valid rt)
    (hfs : ∀ f ∈ fs, ReadBack rt.readField f) (h : fs.foldlM step msg = some msg') :
    msg'.Valid rt := by
  induction fs generalizing msg with
  | nil => cases h; exact hvalid
  | cons f fs ih =>
      obtain ⟨hf, hfs⟩ := List.forall_mem_cons.mp hfs
      rw [List.foldlM_cons] at h
      obtain ⟨msg₁, hstep, h⟩ := Option.bind_eq_some_iff.mp h
      exact ih (step_valid hvalid hf hstep) hfs h

/-- What is read into a valid message is valid. -/
theorem parseInto_valid {msg msg' : Message c} {bs : List UInt8} (hvalid : msg.Valid rt)
    (h : msg.parseInto rt bs = some msg') : msg'.Valid rt := by
  obtain ⟨fs, hfs, h⟩ := Option.bind_eq_some_iff.mp h
  exact foldlM_valid hvalid (Reader.readBack_of_parse hfs) h

/-- Whatever is accepted is valid. -/
theorem valid_of_parseFrom {msg : Message c} {bs : List UInt8} (h : parseFrom rt bs = some msg) :
    msg.Valid rt :=
  parseInto_valid initial_valid h

/-! ### Reading what was written -/

/-- A message of fewer than 1 GiB has short payloads. -/
theorem short_fields {b : Message c} (hlt : b.serialize.length < 2 ^ 30) :
    ∀ f ∈ Vals.fields c.entries b.vals, Short f.value := by
  rw [serialize, List.length_append] at hlt
  exact fun f hf ↦ short_of_mem hf (by omega)

/-- The bytes of a message are read as the fields of its values and its unknown fields. -/
theorem parse_serialize {b : Message c} (hb : Foreign rt c b.unknown)
    (hlt : b.serialize.length < 2 ^ 30) :
    ∃ fs, rt.parse b.serialize = some (Vals.fields c.entries b.vals ++ fs) ∧
      b.unknown = fs.flatMap writeField ∧ ∀ f ∈ fs, Vals.takes c.entries f = false := by
  obtain ⟨fs, hunknown, hfs⟩ := hb
  have hbytes : b.serialize = (Vals.fields c.entries b.vals ++ fs).flatMap writeField := by
    rw [serialize, hunknown, List.flatMap_append]
  have hback : ∀ f ∈ Vals.fields c.entries b.vals ++ fs, ReadBack rt.readField f := by
    refine List.forall_mem_append.mpr ⟨fun f hf ↦ ?_, fun f hf ↦ (hfs f hf).1⟩
    obtain ⟨-, hsized, hnumber⟩ := Vals.takes_of_mem_fields hf
    obtain ⟨e, he, heq⟩ := List.mem_map.mp hnumber
    obtain ⟨hpos, hlt⟩ := c.small e he
    exact rt.plain (by omega) (by omega) hsized
  refine ⟨fs, ?_, hunknown, fun f hf ↦ (hfs f hf).2⟩
  rw [hbytes] at hlt ⊢
  exact Reader.parse_write hback hlt

/-- The fields of a written message, read into any message, merge it into that one. -/
theorem foldlM_serialize (a : Message c) {b : Message c} (hb : b.Valid rt)
    (hlt : b.serialize.length < 2 ^ 30) :
    ∃ fs, rt.parse b.serialize = some fs ∧ fs.foldlM step a = some (a.merge b) := by
  obtain ⟨fs, hparse, hunknown, hforeign⟩ := parse_serialize hb.2 hlt
  refine ⟨_, hparse, ?_⟩
  rw [List.foldlM_append, foldlM_known a fun f hf ↦ (Vals.takes_of_mem_fields hf).1,
    Vals.foldlM_fields c.nodup a.vals hb.1 (short_fields hlt)]
  show fs.foldlM step { a with vals := Vals.merge c.entries a.vals b.vals } = _
  rw [foldlM_unknown _ hforeign, ← hunknown]
  rfl

/-- Reading what was written merges it into what is there. -/
theorem parseInto_serialize (a : Message c) {b : Message c} (hb : b.Valid rt)
    (hlt : b.serialize.length < 2 ^ 30) : a.parseInto rt b.serialize = some (a.merge b) := by
  obtain ⟨fs, hparse, hfold⟩ := foldlM_serialize a hb hlt
  rw [parseInto, hparse, Option.bind_some, hfold]

/-- A valid message survives the round trip. -/
theorem parseFrom_serialize {b : Message c} (hb : b.Valid rt) (hlt : b.serialize.length < 2 ^ 30) :
    parseFrom rt b.serialize = some b := by
  rw [parseFrom, parseInto_serialize initial hb hlt, merge_initial]

/-- A written message behind accepted bytes is merged into what they are. -/
theorem parseFrom_append {a b : Message c} {bs : List UInt8} (ha : parseFrom rt bs = some a)
    (hb : b.Valid rt) (hlt : b.serialize.length < 2 ^ 30) :
    parseFrom rt (bs ++ b.serialize) = some (a.merge b) := by
  obtain ⟨fs, hfs, ha⟩ := Option.bind_eq_some_iff.mp ha
  obtain ⟨gs, hgs, hb⟩ := foldlM_serialize a hb hlt
  rw [parseFrom, parseInto, Reader.parse_append hfs hgs, Option.bind_some, List.foldlM_append, ha]
  exact hb

/-- The bytes counted are the bytes written. -/
theorem byteSize_eq {b : Message c} (hlt : b.serialize.length < 2 ^ 30) :
    b.byteSize = b.serialize.length := by
  rw [byteSize, Vals.size_eq c.small (short_fields hlt), serialize, List.length_append]

end Message

end Lib.Schema
