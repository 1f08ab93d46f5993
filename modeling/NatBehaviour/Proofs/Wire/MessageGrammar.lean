import NatBehaviour.Proofs.Json.RecordGrammar
import NatBehaviour.Proofs.Wire.RoundTrip

/-!
The grammar of messages: exactly the datagrams that it describes are decoded, and to the message that it
says.
-/

namespace NatBehaviour.Wire

open NatBehaviour.Json

/-- The literal that stands for a kind, a single digit. -/
def KindText (t : Bytes) (kind : Kind) : Prop := t = [kind.digit]

/-- The text of an address, or the word `null`. -/
def ObservedText (t : Bytes) (observed : Option String) : Prop :=
  (t = word ['n', 'u', 'l', 'l'] ∧ observed = none) ∨ ∃ s, TextOf t s ∧ observed = some s

/-- What a member of an object tells about a message. -/
inductive Item
  | kind (kind : Kind)
  | observed (observed : Option String)
  | other

namespace Item

def kind? : Item → Option Kind
  | .kind k => some k
  | _ => none

def observed? : Item → Option (Option String)
  | .observed o => some o
  | _ => none

end Item

/-- The value of a member. One under another key may be any value. -/
inductive ItemText : String → Bytes → Item → Prop
  | kind {v : Bytes} {kind : Kind} (hv : KindText v kind) : ItemText "ReqType" v (.kind kind)
  | observed {key : String} {v : Bytes} {observed : Option String}
      (hkey : key = "Addr" ∨ key = "addr") (hv : ObservedText v observed) :
      ItemText key v (.observed observed)
  | other {key : String} {v : Bytes} (hkey : key ∉ ["ReqType", "Addr", "addr"])
      (hv : Skippable v) : ItemText key v .other

/-- A message as it may be written: as an object with at most one member for each field, or as the list
of the first fields. What is absent is a ping, or no address. -/
inductive MessageText : Bytes → Message → Prop
  | object {t : Bytes} {items : List Item} {kind : Option Kind} {observed : Option (Option String)}
      (h : Listed (PairText ItemText) t items) (hkind : items.filterMap Item.kind? = kind.toList)
      (hobserved : items.filterMap Item.observed? = observed.toList) :
      MessageText (code '{' :: (t ++ [code '}'])) ⟨kind.getD .ping, observed.getD none⟩
  | empty {ws : Bytes} (hws : Blanks ws) :
      MessageText (code '[' :: (ws ++ [code ']'])) ⟨.ping, none⟩
  | kind {ws v ws' : Bytes} {kind : Kind} (hws : Blanks ws) (hv : KindText v kind)
      (hws' : Blanks ws') :
      MessageText (code '[' :: (ws ++ (v ++ ws') ++ [code ']'])) ⟨kind, none⟩
  | both {ws v ws' ws₁ v₁ ws₁' : Bytes} {kind : Kind} {observed : Option String} (hws : Blanks ws)
      (hv : KindText v kind) (hws' : Blanks ws') (hws₁ : Blanks ws₁) (hv₁ : ObservedText v₁ observed)
      (hws₁' : Blanks ws₁') :
      MessageText
        (code '[' :: (ws ++ (v ++ (ws' ++ code ',' :: (ws₁ ++ (v₁ ++ ws₁')))) ++ [code ']']))
        ⟨kind, observed⟩

/-- A whole datagram: a message with blanks around it. -/
def DatagramText (d : Bytes) (m : Message) : Prop :=
  ∃ ws t ws', Blanks ws ∧ MessageText t m ∧ Blanks ws' ∧ d = ws ++ t ++ ws'

/-! ## Values of members -/

theorem Kind.ofCode_eq_ok_iff {b : UInt8} {kind : Kind} : Kind.ofCode b = .ok kind ↔ kind.code = b := by
  constructor
  · intro h
    unfold Kind.ofCode at h
    split at h
    · rename_i hfind
      cases h
      simpa using List.find?_some hfind
    · cases h
  · rintro rfl
    cases kind <;> rfl

theorem reads_kind : Reads Kind.read KindText := by
  have hread := ((@reads_natBelow UInt8.size (by decide) "u8").map Nat.toUInt8).accept Kind.ofCode
  refine hread.congr ?_
  intro t kind
  have hcode : kind.code.toNat < 10 := by cases kind <;> decide
  have hdigit : KindText t kind ↔ Numeral t kind.code.toNat := by
    rw [numeral_digit_iff hcode]
    simp [KindText, Kind.digit]
  rw [hdigit]
  constructor
  · rintro ⟨_, ⟨n, ⟨hn, hlimit⟩, rfl⟩, hkind⟩
    rw [Kind.ofCode_eq_ok_iff.mp hkind, Nat.toUInt8, UInt8.toNat_ofNat_of_lt' hlimit]
    exact hn
  · intro hn
    have hcode' : kind.code.toNat.toUInt8 = kind.code := by simp
    exact ⟨kind.code, ⟨_, ⟨hn, kind.code.toNat_lt⟩, hcode'⟩, Kind.ofCode_eq_ok_iff.mpr rfl⟩

theorem reads_observed : Reads (readOptional readString) ObservedText :=
  (reads_textAs "a string").optional fun t s ht => by
    rw [ht.head]
    decide

namespace Message

def kindMember : Member Message := .of "ReqType" Kind.read fun kind m => { m with kind }

def observedMember : Member Message :=
  { Member.of "Addr" (readOptional readString) fun observed m => { m with observed } with
    aliases := ["addr"] }

theorem members_record : record.members = [kindMember, observedMember] := rfl

/-- The values of the members of a message. -/
def values : Values Message := fun m t put =>
  if m.name = "ReqType" then ∃ kind, KindText t kind ∧ (fun m : Message => { m with kind }) = put
  else ∃ observed, ObservedText t observed ∧ (fun m : Message => { m with observed }) = put

theorem reads_members {m : Member Message} (hm : m ∈ record.members) : Reads m.read (values m) := by
  rw [members_record, List.mem_pair] at hm
  rcases hm with rfl | rfl
  · exact reads_kind.map _
  · exact reads_observed.map _

theorem memberNamed?_record (key : String) :
    record.memberNamed? key =
      if key = "ReqType" then some kindMember
      else if key = "Addr" ∨ key = "addr" then some observedMember else none := by
  have hkind : kindMember.hasName key = decide (key = "ReqType") := by
    simp [kindMember, Member.of, Member.hasName, eq_comm]
  have hobserved : observedMember.hasName key = decide (key = "Addr" ∨ key = "addr") := by
    simp [observedMember, Member.of, Member.hasName, eq_comm]
  rw [Record.memberNamed?, members_record, List.find?_cons, List.find?_cons, hkind, hobserved]
  by_cases h : key = "ReqType"
  · simp [h]
  · by_cases h' : key = "Addr" ∨ key = "addr"
    · simp [h, h']
    · simp [h, h']

theorem values_kindMember {t : Bytes} {put : Message → Message} :
    values kindMember t put ↔ ∃ kind, KindText t kind ∧ (fun m : Message => { m with kind }) = put :=
  Iff.rfl

theorem values_observedMember {t : Bytes} {put : Message → Message} :
    values observedMember t put ↔
      ∃ observed, ObservedText t observed ∧ (fun m : Message => { m with observed }) = put :=
  Iff.rfl

end Message

/-! ## Objects -/

open Message

namespace Item

/-- The member that an item belongs to, and what it does. -/
def given : Item → Option (Given Message)
  | .kind k => some ⟨kindMember, fun m => { m with kind := k }⟩
  | .observed o => some ⟨observedMember, fun m => { m with observed := o }⟩
  | .other => none

end Item

theorem keyedText_iff {key : String} {v : Bytes} {e : Option (Given Message)} :
    KeyedText record values key v e ↔ ∃ item, ItemText key v item ∧ item.given = e := by
  constructor
  · intro h
    cases h with
    | unknown hm hv =>
      rw [memberNamed?_record] at hm
      refine ⟨.other, .other ?_ hv, rfl⟩
      intro hkey
      simp only [List.mem_cons, List.not_mem_nil, or_false] at hkey
      rcases hkey with rfl | rfl | rfl <;> simp at hm
    | @known m v put hm hv =>
      rw [memberNamed?_record] at hm
      by_cases hkind : key = "ReqType"
      · rw [if_pos hkind] at hm
        cases hm
        obtain ⟨kind, ht, rfl⟩ := values_kindMember.mp hv
        subst hkind
        exact ⟨.kind kind, .kind ht, rfl⟩
      rw [if_neg hkind] at hm
      by_cases hobserved : key = "Addr" ∨ key = "addr"
      · rw [if_pos hobserved] at hm
        cases hm
        obtain ⟨observed, ht, rfl⟩ := values_observedMember.mp hv
        exact ⟨.observed observed, .observed hobserved ht, rfl⟩
      · rw [if_neg hobserved] at hm
        cases hm
  · rintro ⟨item, h, rfl⟩
    cases h with
    | kind hv =>
      exact .known rfl (values_kindMember.mpr ⟨_, hv, rfl⟩)
    | observed hkey hv =>
      refine .known ?_ (values_observedMember.mpr ⟨_, hv, rfl⟩)
      rcases hkey with rfl | rfl <;> rfl
    | other hkey hv =>
      refine .unknown ?_ hv
      simp only [List.mem_cons, List.not_mem_nil, or_false, not_or] at hkey
      rw [memberNamed?_record, if_neg hkey.1, if_neg (not_or.mpr hkey.2)]

theorem listed_pairs_iff {t : Bytes} {es : List (Option (Given Message))} :
    Listed (PairText (KeyedText record values)) t es ↔
      ∃ items, Listed (PairText ItemText) t items ∧ items.map Item.given = es := by
  refine listed_map_iff ?_
  intro t e
  constructor
  · rintro ⟨hkey, hws, hws', hv⟩
    obtain ⟨item, hitem, rfl⟩ := keyedText_iff.mp hv
    exact ⟨item, .intro hkey hws hws' hitem, rfl⟩
  · rintro ⟨item, ⟨hkey, hws, hws', hv⟩, rfl⟩
    exact .intro hkey hws hws' (keyedText_iff.mpr ⟨item, hv, rfl⟩)

/-- How often each field is given a value. -/
theorem count_names (items : List Item) (name : String) :
    (names (items.map Item.given)).count name =
      if name = "ReqType" then (items.filterMap Item.kind?).length
      else if name = "Addr" then (items.filterMap Item.observed?).length else 0 := by
  have hkind : kindMember.name = "ReqType" := rfl
  have hobserved : observedMember.name = "Addr" := rfl
  induction items with
  | nil => simp [names]
  | cons item items ih =>
    cases item with
    | kind k =>
      rw [List.map_cons, Item.given, names_some, hkind, List.count_cons, ih]
      by_cases h : name = "ReqType"
      · simp [h, Item.kind?]
      · simp [h, Ne.symm h, List.filterMap_cons, Item.observed?]
    | observed o =>
      rw [List.map_cons, Item.given, names_some, hobserved, List.count_cons, ih]
      by_cases h : name = "ReqType"
      · simp [h, List.filterMap_cons, Item.kind?]
      · by_cases h' : name = "Addr"
        · simp [h', Item.observed?]
        · simp [h, h', Ne.symm h']
    | other => exact ih

theorem nodup_names_iff (items : List Item) :
    (names (items.map Item.given)).Nodup ↔
      (items.filterMap Item.kind?).length ≤ 1 ∧ (items.filterMap Item.observed?).length ≤ 1 := by
  rw [List.nodup_iff_count_le_one]
  constructor
  · intro h
    have hkind := h "ReqType"
    have hobserved := h "Addr"
    rw [count_names] at hkind hobserved
    exact ⟨hkind, hobserved⟩
  · rintro ⟨hkind, hobserved⟩ name
    rw [count_names]
    split
    · exact hkind
    split
    · exact hobserved
    · exact Nat.zero_le 1

/-- What the items of an object make of a message: the last one of each field counts. -/
theorem putAll_items (items : List Item) (m : Message) :
    putAll ((items.map Item.given).filterMap id) m =
      ⟨((items.filterMap Item.kind?).getLast?).getD m.kind,
        ((items.filterMap Item.observed?).getLast?).getD m.observed⟩ := by
  induction items generalizing m with
  | nil => rfl
  | cons item items ih =>
    cases item with
    | kind k =>
      have hput : putAll (((Item.kind k :: items).map Item.given).filterMap id) m =
          putAll ((items.map Item.given).filterMap id) { m with kind := k } := rfl
      rw [hput, ih]
      simp [Item.kind?, Item.observed?, List.getLast?_cons]
    | observed o =>
      have hput : putAll (((Item.observed o :: items).map Item.given).filterMap id) m =
          putAll ((items.map Item.given).filterMap id) { m with observed := o } := rfl
      rw [hput, ih]
      simp [Item.kind?, Item.observed?, List.getLast?_cons]
    | other => exact ih m

theorem exists_toList_iff {α : Type} {as : List α} :
    as.length ≤ 1 ↔ ∃ a? : Option α, as = a?.toList := by
  constructor
  · intro h
    match as, h with
    | [], _ => exact ⟨none, rfl⟩
    | [a], _ => exact ⟨some a, rfl⟩
  · rintro ⟨_ | a, rfl⟩ <;> simp

/-! ## Lists -/

/-- The second value of a list, behind the kind. -/
theorem messageText_of_onward {ws v u : Bytes} {kind : Kind} {gs : List (Given Message)} {m : Message}
    (hws : Blanks ws) (hv : KindText v kind) (h : Onward values.Gives u gs)
    (hfills : record.Fills [observedMember] ⟨kind, none⟩ gs m) :
    MessageText (code '[' :: (ws ++ (v ++ u) ++ [code ']'])) m := by
  cases gs with
  | nil =>
    obtain ⟨-, rfl⟩ := (Record.fills_nil_iff _).mp hfills
    exact .kind hws hv ((values.tail_nil_iff 1).mp h)
  | cons g gs =>
    obtain ⟨-, hnil⟩ | ⟨ws', w, hws', rfl, h⟩ := h
    · cases hnil
    obtain ⟨ws₁, v₁, u, _, _, rfl, hgs, hws₁, hv₁, honward⟩ := h.first
    cases hgs
    obtain ⟨member, put⟩ := g
    obtain ⟨rfl, hfills⟩ := Record.fills_cons_iff.mp hfills
    obtain ⟨observed, hobserved, rfl⟩ := values_observedMember.mp hv₁
    obtain rfl : gs = [] := by simpa using hfills.members
    obtain rfl := hfills.result
    exact .both hws hv hws' hws₁ hobserved ((values.tail_nil_iff 1).mp honward)

theorem messageText_of_fills {t : Bytes} {gs : List (Given Message)} {m : Message}
    (h : Listed values.Gives t gs) (hfills : record.Fills record.members record.initial gs m) :
    MessageText (code '[' :: (t ++ [code ']'])) m := by
  rw [members_record] at hfills
  cases gs with
  | nil =>
    obtain ⟨-, rfl⟩ := (Record.fills_nil_iff _).mp hfills
    exact .empty ((values.tail_nil_iff 0).mp h)
  | cons g gs =>
    obtain ⟨-, hnil⟩ | h := h
    · cases hnil
    obtain ⟨ws, v, u, _, _, rfl, hgs, hws, hv, honward⟩ := h.first
    cases hgs
    obtain ⟨member, put⟩ := g
    obtain ⟨rfl, hfills⟩ := Record.fills_cons_iff.mp hfills
    obtain ⟨kind, hkind, rfl⟩ := values_kindMember.mp hv
    exact messageText_of_onward hws hkind honward hfills

/-! ## Messages -/

theorem recordText_iff {t : Bytes} {m : Message} : RecordText record values t m ↔ MessageText t m := by
  constructor
  · intro h
    cases h with
    | @object t es h hdistinct _ =>
      obtain ⟨items, hitems, rfl⟩ := listed_pairs_iff.mp h
      obtain ⟨hkinds, hobserveds⟩ := (nodup_names_iff items).mp hdistinct
      obtain ⟨kind, hkind⟩ := exists_toList_iff.mp hkinds
      obtain ⟨observed, hobserved⟩ := exists_toList_iff.mp hobserveds
      have hm := MessageText.object hitems hkind hobserved
      rw [putAll_items, hkind, hobserved]
      cases kind <;> cases observed <;> exact hm
    | list h hfills => exact messageText_of_fills h hfills
  · intro h
    cases h with
    | @object t items kind observed h hkind hobserved =>
      have hdistinct : (names (items.map Item.given)).Nodup :=
        (nodup_names_iff items).mpr
          ⟨exists_toList_iff.mpr ⟨kind, hkind⟩, exists_toList_iff.mpr ⟨observed, hobserved⟩⟩
      have hm := RecordText.object (listed_pairs_iff.mpr ⟨items, h, rfl⟩) hdistinct (.inl rfl)
      rw [putAll_items, hkind, hobserved] at hm
      cases kind <;> cases observed <;> exact hm
    | empty hws =>
      exact .list (.inl ⟨hws, rfl⟩) ((Record.fills_nil_iff _).mpr ⟨.inl rfl, rfl⟩)
    | @kind ws v ws' kind hws hv hws' =>
      have hkind : values.Gives v ⟨kindMember, fun m => { m with kind }⟩ :=
        values_kindMember.mpr ⟨kind, hv, rfl⟩
      refine .list (.inr (.last hws hkind hws')) ?_
      exact Record.fills_cons_iff.mpr ⟨rfl, (Record.fills_nil_iff _).mpr ⟨.inl rfl, rfl⟩⟩
    | @both ws v ws' ws₁ v₁ ws₁' kind observed hws hv hws' hws₁ hv₁ hws₁' =>
      have hkind : values.Gives v ⟨kindMember, fun m => { m with kind }⟩ :=
        values_kindMember.mpr ⟨kind, hv, rfl⟩
      have hobserved : values.Gives v₁ ⟨observedMember, fun m => { m with observed }⟩ :=
        values_observedMember.mpr ⟨observed, hv₁, rfl⟩
      refine .list (.inr (.more hws hkind hws' (.last hws₁ hobserved hws₁'))) ?_
      exact Record.fills_cons_iff.mpr ⟨rfl, Record.fills_cons_iff.mpr
        ⟨rfl, (Record.fills_nil_iff _).mpr ⟨.inl rfl, rfl⟩⟩⟩

theorem reads_message : Reads record.read MessageText :=
  (reads_record fun _ => reads_members).congr fun _ _ => recordText_iff

theorem readAll_eq_ok_iff_datagramText {d : Bytes} {m : Message} :
    readAll record.read d = .ok m ↔ DatagramText d m :=
  reads_message.readAll_eq_ok_iff

/-- A datagram says one message only. -/
theorem DatagramText.unique {d : Bytes} {m m' : Message} (h : DatagramText d m)
    (h' : DatagramText d m') : m = m' := by
  have hread := readAll_eq_ok_iff_datagramText.mpr h
  rw [readAll_eq_ok_iff_datagramText.mpr h'] at hread
  exact (Except.ok.inj hread).symm

/-- Every message has a datagram that says it: the one that it is encoded to. -/
theorem datagramText_encode (m : Message) : DatagramText m.encode m :=
  readAll_eq_ok_iff_datagramText.mp (readAll_encode m)

namespace Message

/-- A datagram that is too large is refused whatever it holds. Any other is decoded to a message just if
the grammar says so, and is malformed if the grammar does not know it. -/
theorem decode_eq_ok_iff_datagramText (d : Bytes) :
    (1024 < d.length → decode d = .error (.tooLarge d.length)) ∧
      (d.length ≤ 1024 →
        (∀ m, decode d = .ok m ↔ DatagramText d m) ∧
          ((∀ m, ¬ DatagramText d m) → ∃ cause, decode d = .error (.malformed cause))) := by
  have hmax : maxDatagram = 1024 := rfl
  constructor
  · intro hlarge
    rw [decode, hmax, if_pos hlarge]
  · intro hsmall
    cases h : readAll record.read d with
    | error cause =>
      have hdecode : decode d = .error (.malformed cause) := by
        rw [decode, hmax, if_neg (Nat.not_lt.mpr hsmall), h]
      refine ⟨fun m => ?_, fun _ => ⟨cause, hdecode⟩⟩
      rw [hdecode, ← readAll_eq_ok_iff_datagramText, h]
      simp
    | ok m =>
      have hdecode : decode d = .ok m := by
        rw [decode, hmax, if_neg (Nat.not_lt.mpr hsmall), h]
      have hm : DatagramText d m := readAll_eq_ok_iff_datagramText.mp h
      refine ⟨fun m' => ?_, fun hnone => absurd hm (hnone m)⟩
      rw [hdecode, ← readAll_eq_ok_iff_datagramText, h]
      simp

/-- An object with an unknown member before the kind, and an escape in the key of the address. -/
def escaped : Bytes :=
  word ([' ', '{', '"', 'x', '"', ':', '[', '{', '}', ']', ','] ++
    ['"', 'R', 'e', 'q', 'T', 'y', 'p', 'e', '"', ':', '2', ','] ++
    ['"', '\\', 'u', '0', '0', '6', '1', 'd', 'd', 'r', '"', ' ', ':', '"', 'a', '"', '}'])

/-- An object that gives the address under both of its keys. -/
def repeated : Bytes :=
  word ['{', '"', 'a', 'd', 'd', 'r', '"', ':', 'n', 'u', 'l', 'l', ',', '"', 'A', 'd', 'd', 'r', '"', ':',
    'n', 'u', 'l', 'l', '}']

theorem decode_eq_ok_iff_datagramText_escaped :
    DatagramText escaped ⟨.fullConeCheck, some "a"⟩ ∧ (∀ m, ¬ DatagramText repeated m) ∧
      (∃ cause, decode repeated = .error (.malformed cause)) ∧
        decode (List.replicate 1025 0) = .error (.tooLarge 1025) := by
  have hescaped : decode escaped = .ok ⟨.fullConeCheck, some "a"⟩ := by
    decide +kernel
  have hrepeated : (decode repeated).toOption = none := by decide +kernel
  have hnone (m : Message) : ¬ DatagramText repeated m := by
    intro hm
    rw [(((decode_eq_ok_iff_datagramText repeated).2 (by decide)).1 m).mpr hm] at hrepeated
    cases hrepeated
  refine ⟨?_, hnone, ?_, ?_⟩
  · exact (((decode_eq_ok_iff_datagramText escaped).2 (by decide)).1 _).mp hescaped
  · exact ((decode_eq_ok_iff_datagramText repeated).2 (by decide)).2 hnone
  · have hlength : (List.replicate 1025 (0 : UInt8)).length = 1025 := List.length_replicate
    have hlarge := (decode_eq_ok_iff_datagramText (List.replicate 1025 0)).1 (by omega)
    rwa [hlength] at hlarge

end Message

end NatBehaviour.Wire
