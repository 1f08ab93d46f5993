import NatBehaviour.Proofs.Files.Tree
import NatBehaviour.Proofs.Json.Overlay
import NatBehaviour.Proofs.Settings.Fields

/-!
What a file makes of the default settings. Where there is no file, or nothing but white space in it, they stay
as they are; where it assigns values to fields, just these are replaced. Anything else in its place is refused,
and then there are no settings at all.
-/

namespace NatBehaviour.Settings

open NatBehaviour.Files (Pathname Tree)
open NatBehaviour.Json (Assigns Assignment Bytes JsonText Lawful Overlays Skippable Value WellTyped code
  readAll)
open NatBehaviour.Text

/-! ## Fields -/

theorem skippable_word {β : Type} {limit : Nat} {ofNat : Nat → β} {t : Bytes} {b : β}
    (h : ∃ n, (Json.Numeral t n ∧ n < limit) ∧ ofNat n = b) : Skippable t := by
  obtain ⟨n, ⟨h, -⟩, -⟩ := h
  exact h.skippable

theorem skippable_ip {t : Bytes} {ip : Net.Ip} (h : ipCodec.Text t ip) : Skippable t := by
  obtain ⟨s, h, -⟩ := h
  exact h.skippable

theorem Probe.lawful : Lawful Probe.described.fields where
  get_put := by
    intro f hf b a
    simp only [Probe.described, List.mem_cons, List.not_mem_nil, or_false] at hf
    rcases hf with rfl | rfl | rfl | rfl | rfl | rfl | rfl <;> rfl
  get_put_other := by
    intro f hf g hg hne b a
    simp only [Probe.described, List.mem_cons, List.not_mem_nil, or_false] at hf hg
    rcases hf with rfl | rfl | rfl | rfl | rfl | rfl | rfl <;>
      rcases hg with rfl | rfl | rfl | rfl | rfl | rfl | rfl <;> first
        | rfl
        | exact absurd rfl hne
  skippable := by
    intro f hf t b h
    simp only [Probe.described, List.mem_cons, List.not_mem_nil, or_false] at hf
    rcases hf with rfl | rfl | rfl | rfl | rfl | rfl | rfl
    · exact h.skippable
    all_goals exact skippable_word h

theorem Responder.lawful : Lawful Responder.described.fields where
  get_put := by
    intro f hf b a
    simp only [Responder.described, List.mem_cons, List.not_mem_nil, or_false] at hf
    rcases hf with rfl | rfl | rfl | rfl | rfl <;> rfl
  get_put_other := by
    intro f hf g hg hne b a
    simp only [Responder.described, List.mem_cons, List.not_mem_nil, or_false] at hf hg
    rcases hf with rfl | rfl | rfl | rfl | rfl <;>
      rcases hg with rfl | rfl | rfl | rfl | rfl <;> first
        | rfl
        | exact absurd rfl hne
  skippable := by
    intro f hf t b h
    simp only [Responder.described, List.mem_cons, List.not_mem_nil, or_false] at hf
    rcases hf with rfl | rfl | rfl | rfl | rfl
    · exact skippable_ip h
    all_goals exact skippable_word h

namespace Kind

def default : (k : Kind) → k.Data
  | .probe => Probe.default
  | .responder => Responder.default

theorem initial_eq (k : Kind) : k.format.record.initial = k.default := by
  cases k <;> rfl

theorem complete (k : Kind) : k.format.record.complete = true := by
  cases k <;> rfl

theorem lawful : (k : Kind) → Lawful k.described.fields
  | .probe => Probe.lawful
  | .responder => Responder.lawful

end Kind

/-! ## Contents of a file -/

/-- A text that has a value in it is not blank. -/
theorem not_isBlankText {text : String} {b : Char} (hb : b.toNat < 0x80) (hblank : isBlank b = false)
    (h : code b ∈ Utf8.ofString text) : isBlankText text = false := by
  have hmem := Utf8.mem_of_mem_encode hb h
  rw [isBlankText, List.all_eq_false]
  exact ⟨b, hmem, by rw [hblank]; exact Bool.false_ne_true⟩

/-- A file that has settings for some fields is not blank. -/
theorem isBlankText_of_assigns {α : Type} {fields : List (Json.Field α)} {text : String}
    {as : List (Assignment α)} (h : Assigns fields (Utf8.ofString text) as) : isBlankText text = false := by
  have hmem {b : UInt8} (hfront : (Json.skipBlanks (Utf8.ofString text)).head? = some b) :
      b ∈ Utf8.ofString text :=
    (List.dropWhile_suffix _).subset (List.mem_of_head? hfront)
  cases h with
  | object h => exact not_isBlankText (b := '{') (by decide) (by decide) (hmem h.front)
  | list h _ => exact not_isBlankText (b := '[') (by decide) (by decide) (hmem h.front)

namespace Format

variable {α : Type} {f : Format α} {t : Tree} {p : Pathname} {path text : String} {bytes : Bytes}

/-- Settings are refused for what there is in place of them. -/
def Refuses (f : Format α) (t : Tree) (p : Pathname) : Prop :=
  ∃ fault, f.load t p = .error (.config fault)

theorem load_missing (h : t.contains p = false) : f.load t p = .ok f.record.initial := by
  simp [load, source, h, ofSource]

theorem refuses_unread {e : OsError} (hcontains : t.contains p = true) (h : t.read p = .error e) :
    f.Refuses t p :=
  ⟨.unreadable p.text e, by simp [load, source, hcontains, h, ofSource]⟩

theorem load_contents (h : t.read p = .ok bytes) : f.load t p = f.ofContents p.text bytes := by
  simp [load, source, Tree.contains_of_read h, h, ofSource]

theorem ofContents_notText (h : ∀ text, bytes ≠ Utf8.ofString text) :
    f.ofContents path bytes = .error (.config (.unreadable path .notText)) := by
  have htext : Utf8.toString? bytes = none := by
    rw [Option.eq_none_iff_forall_ne_some]
    exact fun text htext => h text (Utf8.toString?_eq_some_iff.mp htext)
  simp [ofContents, htext]

theorem ofContents_blank (h : isBlankText text = true) :
    f.ofContents path (Utf8.ofString text) = .ok f.record.initial := by
  simp [ofContents, Utf8.toString?_eq_some_iff.mpr rfl, h]

theorem ofContents_text (h : isBlankText text = false) :
    f.ofContents path (Utf8.ofString text) =
      (readAll f.record.read (Utf8.ofString text)).mapError fun cause => .config (.malformed path cause) := by
  simp only [ofContents, Utf8.toString?_eq_some_iff.mpr rfl, h]
  cases readAll f.record.read (Utf8.ofString text) <;> rfl

end Format

/-! ## Settings in files -/

namespace Kind

variable {k : Kind} {path text : String} {as : List (Assignment k.Data)}

/-- What there is at a path decides what settings there are. -/
structure LoadsOverDefault (k : Kind) (t : Tree) (p : Pathname) : Prop where
  missing : t.contains p = false → k.format.load t p = .ok k.default
  blank : ∀ text, t.read p = .ok (Utf8.ofString text) → isBlankText text = true →
    k.format.load t p = .ok k.default
  /-- The fields with values have these, and the others are as they are by default. -/
  replaced : ∀ text as, t.read p = .ok (Utf8.ofString text) →
    Assigns k.described.fields (Utf8.ofString text) as → WellTyped as →
      ∃ settings, k.format.load t p = .ok settings ∧
        ∀ other, Overlays k.described.fields as k.default other ↔ other = settings
  /-- A field comes twice, or a value is not one of its field. -/
  illTyped : ∀ text as, t.read p = .ok (Utf8.ofString text) →
    Assigns k.described.fields (Utf8.ofString text) as → ¬ WellTyped as → k.format.Refuses t p
  /-- The text has no place for fields. -/
  unassigned : ∀ text, t.read p = .ok (Utf8.ofString text) → isBlankText text = false →
    (∀ as, ¬ Assigns k.described.fields (Utf8.ofString text) as) → k.format.Refuses t p
  notJson : ∀ text, t.read p = .ok (Utf8.ofString text) → isBlankText text = false →
    ¬ JsonText (Utf8.ofString text) → k.format.Refuses t p
  notText : ∀ bytes, t.read p = .ok bytes → (∀ text, bytes ≠ Utf8.ofString text) → k.format.Refuses t p
  unread : ∀ e, t.contains p = true → t.read p = .error e → k.format.Refuses t p
  /-- A tree has no errors but its own, so this says it of every error that a file system may have. -/
  unreadable : ∀ e, k.format.ofSource p.text (.unreadable e) = .error (.config (.unreadable p.text e))

theorem ofContents_replaced (h : Assigns k.described.fields (Utf8.ofString text) as) (hw : WellTyped as) :
    ∃ settings, k.format.ofContents path (Utf8.ofString text) = .ok settings ∧
      ∀ other, Overlays k.described.fields as k.default other ↔ other = settings := by
  obtain ⟨settings, hread, hother⟩ := k.described.readAll_overlays k.lawful k.complete h hw
  refine ⟨settings, ?_, k.initial_eq ▸ hother⟩
  rw [Format.ofContents_text (isBlankText_of_assigns h), hread]
  rfl

theorem ofContents_refused (hblank : isBlankText text = false)
    (h : ∀ as, Assigns k.described.fields (Utf8.ofString text) as → ¬ WellTyped as) :
    ∃ fault, k.format.ofContents path (Utf8.ofString text) = .error (.config fault) := by
  obtain ⟨cause, hread⟩ := k.described.exists_error k.lawful h
  refine ⟨.malformed path cause, ?_⟩
  rw [Format.ofContents_text hblank, hread]
  rfl

/-- A file with some of the settings, as members of an object or as the first elements of a list, gives the
default settings with just these replaced. -/
theorem load_overlays (k : Kind) (t : Tree) (p : Pathname) : k.LoadsOverDefault t p where
  missing h := k.initial_eq ▸ Format.load_missing h
  blank text hread h := by
    rw [Format.load_contents hread, Format.ofContents_blank h, k.initial_eq]
  replaced text as hread h hw := by
    rw [Format.load_contents hread]
    exact ofContents_replaced h hw
  illTyped text as hread h hw := by
    rw [Format.Refuses, Format.load_contents hread]
    refine ofContents_refused (isBlankText_of_assigns h) fun as' h' => ?_
    rwa [h.unique h']
  unassigned text hread hblank h := by
    rw [Format.Refuses, Format.load_contents hread]
    exact ofContents_refused hblank fun as has => absurd has (h as)
  notJson text hread hblank h := by
    rw [Format.Refuses, Format.load_contents hread]
    exact ofContents_refused hblank fun as has => absurd has.jsonText h
  notText bytes hread h := by
    rw [Format.Refuses, Format.load_contents hread]
    exact ⟨_, Format.ofContents_notText h⟩
  unread e hcontains hread := Format.refuses_unread hcontains hread
  unreadable _ := rfl

/-- The last field of seven. -/
def portField : Json.Field Probe := .of "local_port" .uint16 (·.localPort) fun v p => { p with localPort := v }

def portBytes : Bytes := Utf8.encode (Value.digits 7)

/-- The port behind a member that is no field. -/
def portText : String :=
  String.ofList (Value.compact (.object [("x", .null), ("local_port", .integer 7)]))

def portTree : Tree := Tree.empty.put ["work", "probe.json"] (.file (Utf8.ofString portText))

theorem assigns_portText :
    Assigns Probe.described.fields (Utf8.ofString portText) [(portField, portBytes)] := by
  have hnull : Json.Writes Json.Keyed .compact ("x", .null) ("x", Json.nullWord) := ⟨.null, rfl⟩
  have hport : Json.Writes Json.Keyed .compact ("local_port", .integer 7) ("local_port", portBytes) :=
    ⟨(Json.numeral_digits 7).skippable, rfl⟩
  obtain ⟨t, ht, hlisted⟩ := Json.listed_object (.cons hnull (.cons hport .nil))
  have htext : Utf8.ofString portText = [] ++ code '{' :: (t ++ [code '}']) ++ [] := by
    rw [List.nil_append, List.append_nil, ← ht]
    rfl
  have hobject : Json.ObjectText ([] ++ code '{' :: (t ++ [code '}']) ++ []) _ :=
    .of_blanks .nil hlisted .nil
  rw [htext]
  exact .object hobject

/-- A file that has the local port and nothing else of the settings. -/
theorem load_overlays_port :
    Probe.format.load portTree ⟨"probe.json"⟩ = .ok { Probe.default with localPort := 7 } := by
  have hvalue : portField.codec.Text portBytes (7 : UInt16) := Json.Codec.uint16.writes .compact 7
  have hw : WellTyped [(portField, portBytes)] := by
    refine ⟨List.nodup_singleton _, fun a ha => ?_⟩
    rw [List.mem_singleton.mp ha]
    exact ⟨_, hvalue⟩
  obtain ⟨settings, hload, hother⟩ :=
    (load_overlays .probe portTree ⟨"probe.json"⟩).replaced portText _ rfl assigns_portText hw
  have hresult : Overlays Probe.described.fields [(portField, portBytes)] Probe.default
      { Probe.default with localPort := 7 } := by
    constructor
    · intro a ha b hb
      obtain rfl := List.mem_singleton.mp ha
      exact portField.codec.reads.eq_of_text hvalue hb
    · intro f hf hkept
      simp only [Probe.described, List.mem_cons, List.not_mem_nil, or_false] at hf
      rcases hf with rfl | rfl | rfl | rfl | rfl | rfl | rfl
      all_goals first
        | rfl
        | exact absurd List.mem_cons_self hkept
  rw [(hother _).mp hresult]
  exact hload

end Kind

end NatBehaviour.Settings
