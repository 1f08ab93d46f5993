import NatBehaviour.Proofs.Json.Codec
import NatBehaviour.Proofs.Json.Unambiguous

/-!
What a text makes of a record that is complete without it. An object or a list assigns values to some of the
fields; if no field comes twice and every value is one of its field, then just these fields are replaced, and
if not, there is no result at all. No text assigns anything else.
-/

namespace NatBehaviour.Json

variable {α : Type}

/-- A field, and the bytes that are to be its value. -/
abbrev Assignment (α : Type) : Type 1 := Field α × Bytes

/-- The members of an object that are fields. -/
def assignments (fields : List (Field α)) (ms : List (String × Bytes)) : List (Assignment α) :=
  ms.filterMap fun m => (fields.find? (·.name = m.1)).map (·, m.2)

/-- What a text assigns to the fields of a record: an object to those that it has a key for, in any order and
among other keys; a list to the first ones in their order. -/
inductive Assigns (fields : List (Field α)) (s : Bytes) : List (Assignment α) → Prop
  | object {ms : List (String × Bytes)} (h : ObjectText s ms) : Assigns fields s (assignments fields ms)
  | list {vs : List Bytes} (h : ArrayText s vs) (hlength : vs.length ≤ fields.length) :
      Assigns fields s (fields.zip vs)

/-- No field comes twice, and every value has the type of its field and is in its range. -/
structure WellTyped (as : List (Assignment α)) : Prop where
  distinct : (as.map (·.1.name)).Nodup
  valued : ∀ a ∈ as, ∃ b, a.1.codec.Text a.2 b

/-- A record in which fields have been replaced, and no others. -/
structure Overlays (fields : List (Field α)) (as : List (Assignment α)) (base result : α) : Prop where
  given : ∀ a ∈ as, ∀ b, a.1.codec.Text a.2 b → a.1.get result = b
  kept : ∀ f ∈ fields, f.name ∉ as.map (·.1.name) → f.get result = f.get base

/-- Fields are independent of each other, and their values are values of JSON. -/
structure Lawful (fields : List (Field α)) : Prop where
  get_put : ∀ f ∈ fields, ∀ b a, f.get (f.put b a) = b
  get_put_other : ∀ f ∈ fields, ∀ g ∈ fields, f.name ≠ g.name → ∀ b a, f.get (g.put b a) = f.get a
  skippable : ∀ f ∈ fields, ∀ t b, f.codec.Text t b → Skippable t

/-- A value that has been read for a field. -/
def Sets (a : Assignment α) (g : Given α) : Prop := g.member = a.1.member ∧ a.1.Gives a.2 g.put

variable {fields : List (Field α)} {as : List (Assignment α)} {gs : List (Given α)} {base : α} {s : Bytes}

theorem Assigns.mem (h : Assigns fields s as) : ∀ a ∈ as, a.1 ∈ fields := by
  intro a ha
  cases h with
  | object h =>
    obtain ⟨m, -, hm⟩ := List.mem_filterMap.mp ha
    obtain ⟨f, hf, rfl⟩ := Option.map_eq_some_iff.mp hm
    exact List.mem_of_find?_eq_some hf
  | list h hlength => exact (List.of_mem_zip ha).1

/-- A text assigns one thing only. -/
theorem Assigns.unique {as' : List (Assignment α)} (h : Assigns fields s as) (h' : Assigns fields s as') :
    as' = as := by
  cases h with
  | object h =>
    cases h' with
    | object h' => rw [h.unique pairText_determined h']
    | list h' _ => cases h.bracket_unique h'
  | list h _ =>
    cases h' with
    | object h' => cases h.bracket_unique h'
    | list h' _ => rw [h.unique element_determined h']

theorem Assigns.jsonText (h : Assigns fields s as) : JsonText s := by
  cases h with
  | object h => exact h.jsonText skips_pairs
  | list h _ => exact h.jsonText skips_elements

/-! ## Replacing fields -/

theorem names_of_sets (h : List.Forall₂ Sets as gs) : gs.map (·.member.name) = as.map (·.1.name) := by
  induction h with
  | nil => rfl
  | cons h _ ih =>
    rw [List.map_cons, List.map_cons, ih, h.1]
    rfl

/-- Values that have been read replace their fields, whatever they are put into. -/
theorem overlays_putAll (hlawful : Lawful fields) (h : List.Forall₂ Sets as gs)
    (hmem : ∀ a ∈ as, a.1 ∈ fields) (hdistinct : (as.map (·.1.name)).Nodup) (base : α) :
    Overlays fields as base (putAll gs base) := by
  induction h generalizing base with
  | nil => exact ⟨fun _ ha => absurd ha List.not_mem_nil, fun _ _ _ => rfl⟩
  | @cons a g as gs hset _ ih =>
    obtain ⟨hfresh, hrest⟩ := List.nodup_cons.mp hdistinct
    have ha := hmem a List.mem_cons_self
    obtain ⟨b, hb, hput⟩ := hset.2
    have hlater := ih (fun c hc => hmem c (List.mem_cons_of_mem a hc)) hrest (a.1.put b base)
    rw [putAll, List.foldl_cons, ← hput]
    constructor
    · intro c hc b' hb'
      rcases List.mem_cons.mp hc with rfl | hc
      · obtain rfl := c.1.codec.reads.eq_of_text hb hb'
        rw [← putAll, hlater.kept c.1 ha hfresh, hlawful.get_put c.1 ha]
      · exact hlater.given c hc b' hb'
    · intro f hf hkept
      obtain ⟨hne, hkept⟩ := List.ne_and_not_mem_of_not_mem_cons hkept
      rw [← putAll, hlater.kept f hf hkept, hlawful.get_put_other f hf a.1 ha hne]

theorem exists_sets (h : ∀ a ∈ as, ∃ b, a.1.codec.Text a.2 b) : ∃ gs, List.Forall₂ Sets as gs := by
  induction as with
  | nil => exact ⟨[], .nil⟩
  | cons a as ih =>
    obtain ⟨b, hb⟩ := h a List.mem_cons_self
    obtain ⟨gs, hgs⟩ := ih fun c hc => h c (List.mem_cons_of_mem a hc)
    exact ⟨⟨a.1.member, a.1.put b⟩ :: gs, .cons ⟨rfl, b, hb, rfl⟩ hgs⟩

theorem valued_of_sets (h : List.Forall₂ Sets as gs) : ∀ a ∈ as, ∃ b, a.1.codec.Text a.2 b := by
  induction h with
  | nil => exact fun _ ha => absurd ha List.not_mem_nil
  | cons hset _ ih =>
    intro c hc
    rcases List.mem_cons.mp hc with rfl | hc
    · obtain ⟨b, hb, -⟩ := hset.2
      exact ⟨b, hb⟩
    · exact ih c hc

namespace Described

variable {r : Record α} {value : α → Value} (d : Described r value)

include d

theorem memberNamed?_eq (key : String) :
    r.memberNamed? key = (d.fields.find? (·.name = key)).map Field.member := by
  have hname : (fun m : Member α => m.hasName key) ∘ Field.member = fun f => decide (f.name = key) := by
    funext f
    exact Bool.eq_iff_iff.mpr (Field.hasName_member_iff.trans decide_eq_true_iff.symm)
  rw [Record.memberNamed?, d.members, List.find?_map, hname]

theorem values_member_iff {f : Field α} (hf : f ∈ d.fields) {t : Bytes} {put : α → α} :
    Field.values d.fields f.member t put ↔ f.Gives t put := by
  constructor
  · intro h
    obtain ⟨f', hf', hname, h⟩ := h
    rwa [Field.eq_of_name d.distinct hf' hf hname] at h
  · exact fun h => ⟨f, hf, rfl, h⟩

/-! ## Objects -/

/-- The values that have been read for the members of an object. -/
theorem sets_of_keyed {ms : List (String × Bytes)} {es : List (Option (Given α))}
    (h : List.Forall₂ (fun m e => KeyedText r (Field.values d.fields) m.1 m.2 e) ms es) :
    List.Forall₂ Sets (assignments d.fields ms) (es.filterMap id) := by
  induction h with
  | nil => exact .nil
  | @cons m e ms es hkeyed _ ih =>
    cases hkeyed with
    | @known m' v put hm hv =>
      rw [d.memberNamed?_eq] at hm
      obtain ⟨f, hfind, rfl⟩ := Option.map_eq_some_iff.mp hm
      have hgives := (d.values_member_iff (List.mem_of_find?_eq_some hfind)).mp hv
      simp only [assignments, List.filterMap_cons, hfind, Option.map_some, id]
      exact .cons ⟨rfl, hgives⟩ ih
    | unknown hm _ =>
      rw [d.memberNamed?_eq, Option.map_eq_none_iff] at hm
      simpa only [assignments, List.filterMap_cons, hm, Option.map_none, id] using ih

theorem exists_keyed {ms : List (String × Bytes)} (hskip : ∀ m ∈ ms, Skippable m.2)
    (h : ∀ a ∈ assignments d.fields ms, ∃ b, a.1.codec.Text a.2 b) :
    ∃ es, List.Forall₂ (fun m e => KeyedText r (Field.values d.fields) m.1 m.2 e) ms es := by
  induction ms with
  | nil => exact ⟨[], .nil⟩
  | cons m ms ih =>
    have hm := d.memberNamed?_eq m.1
    have hlater (m' : String × Bytes) (hm' : m' ∈ ms) := hskip m' (List.mem_cons_of_mem m hm')
    cases hfind : d.fields.find? (·.name = m.1) with
    | none =>
      simp only [assignments, List.filterMap_cons, hfind, Option.map_none] at h
      obtain ⟨es, hes⟩ := ih hlater h
      rw [hfind, Option.map_none] at hm
      exact ⟨none :: es, .cons (.unknown hm (hskip m List.mem_cons_self)) hes⟩
    | some f =>
      simp only [assignments, List.filterMap_cons, hfind, Option.map_some] at h
      obtain ⟨b, hb⟩ := h _ List.mem_cons_self
      obtain ⟨es, hes⟩ := ih hlater fun a ha => h a (List.mem_cons_of_mem _ ha)
      rw [hfind, Option.map_some] at hm
      have hgives := (d.values_member_iff (List.mem_of_find?_eq_some hfind)).mpr ⟨b, hb, rfl⟩
      exact ⟨some ⟨f.member, f.put b⟩ :: es, .cons (.known hm hgives) hes⟩

/-- A pair that is read is some pair. -/
theorem pair_of_keyed (hlawful : Lawful d.fields) {t : Bytes} {e : Option (Given α)}
    (h : PairText (KeyedText r (Field.values d.fields)) t e) :
    ∃ m, PairText Keyed t m ∧ KeyedText r (Field.values d.fields) m.1 m.2 e := by
  cases h with
  | @intro key k ws ws' v e hkey hws hws' hv =>
    have hskip : Skippable v := by
      cases hv with
      | known _ hv =>
        obtain ⟨f, hf, -, b, hb, -⟩ := hv
        exact hlawful.skippable f hf v b hb
      | unknown _ hv => exact hv
    exact ⟨(key, v), .intro hkey hws hws' ⟨hskip, rfl⟩, hv⟩

theorem keyed_of_pair {t : Bytes} {m : String × Bytes} {e : Option (Given α)} (h : PairText Keyed t m)
    (he : KeyedText r (Field.values d.fields) m.1 m.2 e) :
    PairText (KeyedText r (Field.values d.fields)) t e := by
  cases h with
  | intro hkey hws hws' hv =>
    obtain ⟨-, rfl⟩ := hv
    exact .intro hkey hws hws' he

/-! ## Lists -/

/-- An element that is read is some value. -/
theorem element_of_gives (hlawful : Lawful d.fields) {t : Bytes} {g : Given α}
    (h : (Field.values d.fields).Gives t g) : ∃ v, Element t v ∧ (Field.values d.fields).Gives v g := by
  obtain ⟨f, hf, -, b, hb, -⟩ := id h
  exact ⟨t, ⟨hlawful.skippable f hf t b hb, rfl⟩, h⟩

theorem sets_zip_iff {fs : List (Field α)} (hfs : ∀ f ∈ fs, f ∈ d.fields) {vs : List Bytes}
    (hlength : vs.length ≤ fs.length) {gs : List (Given α)} :
    List.Forall₂ Sets (fs.zip vs) gs ↔
      List.Forall₂ (Field.values d.fields).Gives vs gs ∧ gs.map (·.member) <+: fs.map Field.member := by
  induction fs generalizing vs gs with
  | nil =>
    obtain rfl := List.length_eq_zero_iff.mp (Nat.le_zero.mp hlength)
    simp
  | cons f fs ih =>
    cases vs with
    | nil =>
      constructor
      · intro h
        cases h
        exact ⟨.nil, List.nil_prefix⟩
      · intro h
        cases h.1
        exact .nil
    | cons v vs =>
      have hlater (gs : List (Given α)) := @ih (fun g hg => hfs g (List.mem_cons_of_mem f hg)) vs
        (Nat.le_of_succ_le_succ hlength) gs
      have hf := hfs f List.mem_cons_self
      constructor
      · intro h
        cases h with
        | @cons _ g _ gs hset hrest =>
          obtain ⟨hm, hgives⟩ := hset
          obtain ⟨hvalues, hfront⟩ := (hlater gs).mp hrest
          refine ⟨.cons ?_ hvalues, ?_⟩
          · rw [Values.Gives, hm]
            exact (d.values_member_iff hf).mpr hgives
          · rw [List.map_cons, List.map_cons, List.cons_prefix_cons]
            exact ⟨hm, hfront⟩
      · intro h
        obtain ⟨hvalues, hfront⟩ := h
        cases hvalues with
        | @cons _ g _ gs hgives hrest =>
          rw [List.map_cons, List.map_cons, List.cons_prefix_cons] at hfront
          rw [Values.Gives, hfront.1] at hgives
          exact .cons ⟨hfront.1, (d.values_member_iff hf).mp hgives⟩ ((hlater gs).mpr ⟨hrest, hfront.2⟩)

/-! ## Texts -/

/-- A text from which a record is read assigns values to some fields, and the record has these. -/
theorem assigns_of_readAll (hlawful : Lawful d.fields) {a : α} (h : readAll r.read s = .ok a) :
    ∃ as, Assigns d.fields s as ∧ WellTyped as ∧ Overlays d.fields as r.initial a := by
  obtain ⟨ws, t, ws', hws, ht, hws', rfl⟩ := d.reads.readAll_eq_ok_iff.mp h
  cases ht with
  | @object u es hes hdistinct hall =>
    obtain ⟨ms, hms, hkeyed⟩ := hes.exists_forall₂ (d.pair_of_keyed hlawful)
    have hsets := d.sets_of_keyed hkeyed.flip
    have hassigns : Assigns d.fields _ (assignments d.fields ms) := .object (.of_blanks hws hms hws')
    rw [names, names_of_sets hsets] at hdistinct
    exact ⟨_, hassigns, ⟨hdistinct, valued_of_sets hsets⟩,
      overlays_putAll hlawful hsets hassigns.mem hdistinct r.initial⟩
  | @list u gs a hgs hfills =>
    obtain ⟨vs, hvs, hvalues⟩ := hgs.exists_forall₂ (d.element_of_gives hlawful)
    have hfront := d.members ▸ hfills.members
    have hlength : vs.length ≤ d.fields.length := by
      have hle := hfront.length_le
      rw [List.length_map, List.length_map] at hle
      exact hvalues.length_eq ▸ hle
    have hsets := (d.sets_zip_iff (fun f hf => hf) hlength).mpr ⟨hvalues.flip, hfront⟩
    have hassigns := Assigns.list (.of_blanks hws hvs hws') hlength
    have hdistinct : ((d.fields.zip vs).map (·.1.name)).Nodup := by
      have hnames := hfront.map (·.name)
      rw [List.map_map, List.map_map] at hnames
      rw [← names_of_sets hsets]
      exact d.distinct.sublist hnames.sublist
    rw [hfills.result]
    exact ⟨_, hassigns, ⟨hdistinct, valued_of_sets hsets⟩,
      overlays_putAll hlawful hsets hassigns.mem hdistinct r.initial⟩

/-- A text that assigns values to fields is read, if these are in order and nothing else is asked for. -/
theorem exists_readAll (hcomplete : r.complete = true) (h : Assigns d.fields s as) (hw : WellTyped as) :
    ∃ a, readAll r.read s = .ok a := by
  cases h with
  | object h =>
    obtain ⟨ws, t, ws', hws, hms, hws', rfl⟩ := h.exists_blanks
    obtain ⟨es, hes⟩ := d.exists_keyed (hms.forall skippable_of_pair) hw.valued
    have hdistinct : (names es).Nodup := by
      rw [names, names_of_sets (d.sets_of_keyed hes)]
      exact hw.distinct
    have htext := RecordText.object (hms.of_forall₂ hes d.keyed_of_pair) hdistinct (.inl hcomplete)
    exact ⟨_, d.reads.readAll_eq_ok_iff.mpr ⟨ws, _, ws', hws, htext, hws', rfl⟩⟩
  | list h hlength =>
    obtain ⟨ws, t, ws', hws, hvs, hws', rfl⟩ := h.exists_blanks
    obtain ⟨gs, hgs⟩ := exists_sets hw.valued
    obtain ⟨hvalues, hfront⟩ := (d.sets_zip_iff (fun f hf => hf) hlength).mp hgs
    have hlisted : Listed (Field.values d.fields).Gives t gs :=
      hvs.of_forall₂ hvalues fun h hgives => h.2 ▸ hgives
    have htext := RecordText.list hlisted ⟨d.members ▸ hfront, .inl hcomplete, rfl⟩
    exact ⟨_, d.reads.readAll_eq_ok_iff.mpr ⟨ws, _, ws', hws, htext, hws', rfl⟩⟩

/-- Records with the same fields are the same. -/
theorem ext {a a' : α} (h : ∀ f ∈ d.fields, f.get a = f.get a') : a = a' := by
  have hgiven : d.fields.map (·.given a) = d.fields.map (·.given a') :=
    List.map_congr_left fun f hf => by rw [Field.given, Field.given, h f hf]
  rw [← d.rebuilt a, ← d.rebuilt a', hgiven]

theorem overlays_unique {a a' : α} (hmem : ∀ c ∈ as, c.1 ∈ d.fields) (hw : WellTyped as)
    (h : Overlays d.fields as base a) (h' : Overlays d.fields as base a') : a = a' := by
  refine d.ext fun f hf => ?_
  by_cases hgiven : f.name ∈ as.map (·.1.name)
  · obtain ⟨c, hc, hname⟩ := List.mem_map.mp hgiven
    obtain ⟨b, hb⟩ := hw.valued c hc
    obtain rfl := Field.eq_of_name d.distinct (hmem c hc) hf hname
    rw [h.given c hc b hb, h'.given c hc b hb]
  · rw [h.kept f hf hgiven, h'.kept f hf hgiven]

/-- Fields that are assigned in order are replaced, and the result is the only record of this kind. -/
theorem readAll_overlays (hlawful : Lawful d.fields) (hcomplete : r.complete = true)
    (h : Assigns d.fields s as) (hw : WellTyped as) :
    ∃ a, readAll r.read s = .ok a ∧ ∀ a', Overlays d.fields as r.initial a' ↔ a' = a := by
  obtain ⟨a, ha⟩ := d.exists_readAll hcomplete h hw
  obtain ⟨as', h', -, hoverlays⟩ := d.assigns_of_readAll hlawful ha
  obtain rfl := h.unique h'
  refine ⟨a, ha, fun a' => ⟨fun hother => d.overlays_unique h.mem hw hother hoverlays, ?_⟩⟩
  rintro rfl
  exact hoverlays

/-- Nothing else is read. -/
theorem exists_error (hlawful : Lawful d.fields) (h : ∀ as, Assigns d.fields s as → ¬ WellTyped as) :
    ∃ e, readAll r.read s = .error e := by
  cases hread : readAll r.read s with
  | error e => exact ⟨e, rfl⟩
  | ok a =>
    obtain ⟨as, has, hw, -⟩ := d.assigns_of_readAll hlawful hread
    exact absurd hw (h as has)

end Described

end NatBehaviour.Json
