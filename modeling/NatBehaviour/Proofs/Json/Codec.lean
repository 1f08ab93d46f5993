import NatBehaviour.Proofs.Json.Layout
import NatBehaviour.Proofs.Json.ListGrammar
import NatBehaviour.Proofs.Json.VariantGrammar

/-!
What is written is read back. A codec pairs a reader with a way of writing that keeps to the reader's
grammar in every layout. A record whose members are described one by one has a codec as soon as its
members have: as an object with all of them, in their own order.
-/

namespace NatBehaviour.Json

open NatBehaviour.Text

/-- How values are read and written, and the grammar that both keep to. -/
structure Codec (β : Type) where
  read : Reader β
  write : β → Value
  Text : Bytes → β → Prop
  reads : Reads read Text
  writes : ∀ (l : Layout) (b : β), Text (Utf8.encode (l.chars (write b))) b

namespace Codec

variable {α β : Type}

theorem readAll_write (c : Codec β) (l : Layout) (b : β) :
    readAll c.read (Utf8.encode (l.chars (c.write b))) = .ok b :=
  c.reads.readAll_eq_ok_iff.mpr ⟨[], _, [], .nil, c.writes l b, .nil, by simp⟩

/-! ## Texts and numbers -/

def text (expected : String) : Codec String where
  read := readTextAs expected
  write := .text
  Text := TextOf
  reads := reads_textAs expected
  writes := by
    intro l s
    rw [l.chars_text]
    exact textOf_quoted s

/-- A word of some width, which is written as a natural number below a limit. -/
def word (limit : Nat) (expected : String) (toNat : β → Nat) (ofNat : Nat → β)
    (hlimit : limit ≤ UInt64.size) (hlt : ∀ b, toNat b < limit) (hof : ∀ b, ofNat (toNat b) = b) :
    Codec β where
  read := .map ofNat (readNatBelow limit expected)
  write b := .integer (toNat b)
  Text t b := ∃ n, (Numeral t n ∧ n < limit) ∧ ofNat n = b
  reads := (reads_natBelow hlimit expected).map ofNat
  writes := by
    intro l b
    rw [l.chars_integer]
    exact ⟨toNat b, ⟨numeral_digits (toNat b), hlt b⟩, hof b⟩

def uint16 : Codec UInt16 :=
  .word UInt16.size "u16" UInt16.toNat Nat.toUInt16 (by decide) UInt16.toNat_lt fun w => by simp

def uint32 : Codec UInt32 :=
  .word UInt32.size "u32" UInt32.toNat Nat.toUInt32 (by decide) UInt32.toNat_lt fun w => by simp

def uint64 (expected : String) : Codec UInt64 :=
  .word UInt64.size expected UInt64.toNat Nat.toUInt64 (by decide) UInt64.toNat_lt fun w => by simp

/-- Values that are written as others, from which they can be got back. -/
def accept (c : Codec α) (f : α → Except String β) (back : β → α) (h : ∀ b, f (back b) = .ok b) :
    Codec β where
  read := .accept f c.read
  write b := c.write (back b)
  Text t b := ∃ a, c.Text t a ∧ f a = .ok b
  reads := c.reads.accept f
  writes l b := ⟨back b, c.writes l (back b), h b⟩

def int64 : Codec Int64 where
  read := readInt64
  write n := .integer n.toInt
  Text t b := ∃ n, (IntegerText t n ∧ Int64.minValue.toInt ≤ n ∧ n ≤ Int64.maxValue.toInt) ∧ Int64.ofInt n = b
  reads := (reads_integer (Int.le_refl _) (by decide) "i64").map Int64.ofInt
  writes := by
    intro l b
    rw [l.chars_integer]
    exact ⟨b.toInt, ⟨integerText_digits b.toInt, b.minValue_le_toInt, b.toInt_le⟩, Int64.ofInt_toInt b⟩

/-! ## Values made of others -/

/-- A value or none, where the word for none is not how any value begins. -/
def optional (c : Codec β) (hnull : ∀ t b, c.Text t b → t.head? ≠ some (code 'n')) : Codec (Option β) where
  read := readOptional c.read
  write o := o.elim .null c.write
  Text t o := (t = nullWord ∧ o = none) ∨ ∃ b, c.Text t b ∧ o = some b
  reads := c.reads.optional hnull
  writes := by
    intro l o
    cases o with
    | none =>
      rw [Option.elim, l.chars_null]
      exact .inl ⟨rfl, rfl⟩
    | some b => exact .inr ⟨b, c.writes l b, rfl⟩

def list (c : Codec β) : Codec (List β) where
  read := readList c.read
  write bs := .list (bs.map c.write)
  Text := ListText c.Text
  reads := reads_list c.reads
  writes := by
    intro l bs
    have helements :
        List.Forall₂ (fun v b => c.Text (Utf8.encode (l.inner.chars v)) b) (bs.map c.write) bs := by
      rw [List.forall₂_map_left_iff]
      exact List.forall₂_same.mpr fun b _ => c.writes l.inner b
    exact (encloses_list l).listed helements

/-- Variants that are told apart by their names. -/
def variants (v : Variants β) (h : ∀ b, v.ofName? (v.name b) = some b) : Codec β where
  read := v.read
  write b := .text (v.name b)
  Text := v.Text
  reads := v.reads
  writes := by
    intro l b
    rw [l.chars_text]
    exact .name (textOf_quoted (v.name b)) (h b)

end Codec

/-! ## Records -/

/-- A field of a record: a member that can be written as well. -/
structure Field (α : Type) where
  {Content : Type}
  name : String
  codec : Codec Content
  get : α → Content
  put : Content → α → α
  optional : Bool

namespace Field

variable {α β : Type} {fields : List (Field α)} {f f' : Field α} {m : Member α} {r : Record α}

def of (name : String) (codec : Codec β) (get : α → β) (put : β → α → α) : Field α :=
  ⟨name, codec, get, put, false⟩

def member (f : Field α) : Member α := { Member.of f.name f.codec.read f.put with optional := f.optional }

/-- The field with the value that it has in a record. -/
def given (f : Field α) (a : α) : Given α := ⟨f.member, f.put (f.get a)⟩

def pair (f : Field α) (a : α) : String × Value := (f.name, f.codec.write (f.get a))

/-- What is a value of a field, and what the value does. -/
def Gives (f : Field α) (t : Bytes) (put : α → α) : Prop := ∃ b, f.codec.Text t b ∧ f.put b = put

theorem reads_member (f : Field α) : Reads f.member.read f.Gives := f.codec.reads.map f.put

theorem hasName_member_iff {key : String} : f.member.hasName key = true ↔ f.name = key := by
  rw [Member.hasName, Bool.or_eq_true, decide_eq_true_iff]
  exact or_iff_left nofun

/-- The values of the members that some fields are. -/
def values (fields : List (Field α)) : Values α :=
  fun m t put => ∃ f ∈ fields, f.name = m.name ∧ f.Gives t put

theorem eq_of_name (hdistinct : (fields.map name).Nodup) (hf : f ∈ fields) (hf' : f' ∈ fields)
    (h : f.name = f'.name) : f = f' :=
  List.inj_on_of_nodup_map hdistinct hf hf' h

theorem reads_members (hdistinct : (fields.map name).Nodup) (hm : m ∈ fields.map member) :
    Reads m.read (values fields m) := by
  obtain ⟨f, hf, rfl⟩ := List.mem_map.mp hm
  refine f.reads_member.congr fun t put => ⟨fun h => ⟨f, hf, rfl, h⟩, ?_⟩
  intro ⟨f', hf', hname, h⟩
  rwa [eq_of_name hdistinct hf' hf hname] at h

theorem memberNamed?_name (hmembers : r.members = fields.map member)
    (hdistinct : (fields.map name).Nodup) (hf : f ∈ fields) : r.memberNamed? f.name = some f.member := by
  have hsome : (r.memberNamed? f.name).isSome = true := by
    rw [Record.memberNamed?, List.find?_isSome]
    exact ⟨f.member, hmembers ▸ List.mem_map_of_mem hf, hasName_member_iff.mpr rfl⟩
  obtain ⟨m, hm⟩ := Option.isSome_iff_exists.mp hsome
  have hmem : m ∈ fields.map member := hmembers ▸ List.mem_of_find?_eq_some hm
  obtain ⟨f', hf', rfl⟩ := List.mem_map.mp hmem
  rw [Record.memberNamed?] at hm ⊢
  have hfound := List.find?_some hm
  rw [hm, eq_of_name hdistinct hf' hf (hasName_member_iff.mp hfound)]

end Field

/-- A record in terms of its fields. -/
structure Described {α : Type} (r : Record α) (value : α → Value) where
  fields : List (Field α)
  distinct : (fields.map Field.name).Nodup
  members : r.members = fields.map Field.member
  value_eq : ∀ a, value a = .object (fields.map (·.pair a))
  /-- The fields are all that there is to a record. -/
  rebuilt : ∀ a, putAll (fields.map (·.given a)) r.initial = a

namespace Described

variable {α : Type} {r : Record α} {value : α → Value}

theorem reads (d : Described r value) : Reads r.read (RecordText r (Field.values d.fields)) :=
  reads_record fun _ hm => Field.reads_members d.distinct (d.members ▸ hm)

/-- The fields of a record as they are written. -/
theorem writes_fields (d : Described r value) (l : Layout) (a : α) {fs : List (Field α)}
    (hfs : ∀ f ∈ fs, f ∈ d.fields) :
    List.Forall₂ (Writes (KeyedText r (Field.values d.fields)) l) (fs.map (·.pair a))
      (fs.map fun f => some (f.given a)) := by
  induction fs with
  | nil => exact .nil
  | cons f fs ih =>
    have hf := hfs f List.mem_cons_self
    have hgives : Field.values d.fields f.member (Utf8.encode (l.inner.chars (f.pair a).2))
        (f.put (f.get a)) :=
      ⟨f, hf, rfl, f.get a, f.codec.writes l.inner (f.get a), rfl⟩
    exact .cons (.known (Field.memberNamed?_name d.members d.distinct hf) hgives)
      (ih fun g hg => hfs g (List.mem_cons_of_mem f hg))

/-- A record is written as an object that gives each of its fields. -/
theorem recordText (d : Described r value) (l : Layout) (a : α) :
    RecordText r (Field.values d.fields) (Utf8.encode (l.chars (value a))) a := by
  obtain ⟨t, ht, hlisted⟩ := listed_object (d.writes_fields l a fun f hf => hf)
  have hknown : (d.fields.map fun f => some (f.given a)).filterMap id = d.fields.map (·.given a) := by
    simp [List.filterMap_map]
  have hnames : names (d.fields.map fun f => some (f.given a)) = d.fields.map Field.name := by
    rw [names, hknown, List.map_map]
    rfl
  have hall : ∀ m ∈ r.members, m.optional = false → m.name ∈ d.fields.map Field.name := by
    intro m hm _
    rw [d.members] at hm
    obtain ⟨f, hf, rfl⟩ := List.mem_map.mp hm
    exact List.mem_map_of_mem hf
  have htext := RecordText.object hlisted (by rw [hnames]; exact d.distinct) (.inr (by rwa [hnames]))
  rw [hknown, d.rebuilt] at htext
  rwa [d.value_eq, ht]

def codec (d : Described r value) : Codec α where
  read := r.read
  write := value
  Text := RecordText r (Field.values d.fields)
  reads := d.reads
  writes := d.recordText

end Described

end NatBehaviour.Json
