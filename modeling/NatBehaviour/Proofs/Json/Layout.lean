import NatBehaviour.Json.Value
import NatBehaviour.Proofs.Json.RecordGrammar
import NatBehaviour.Proofs.Net.Numeral

/-!
Values as they are written. The two written forms differ in their blanks only; a layout says which blanks
stand where, so that what holds of every layout holds of both forms. What is written is in the grammar of
what is read: texts, numbers, the elements of lists and the members of objects.
-/

namespace NatBehaviour.Json

open NatBehaviour.Text

/-- A written form; the one over several lines is at some level. -/
inductive Layout
  | compact
  | indented (level : Nat)

namespace Layout

/-- The layout of what stands inside of a value. -/
def inner : Layout → Layout
  | .compact => .compact
  | .indented level => .indented (level + 1)

/-- The blanks in front of a member. -/
def before : Layout → List Char
  | .compact => []
  | .indented level => Value.newline (level + 1)

/-- The blanks behind the last member. -/
def after : Layout → List Char
  | .compact => []
  | .indented level => Value.newline level

/-- The blanks behind a colon. -/
def gap : Layout → List Char
  | .compact => []
  | .indented _ => [' ']

def chars : Layout → Value → List Char
  | .compact, v => v.compact
  | .indented level, v => v.indented level

def pair (l : Layout) (name : String) (v : Value) : List Char :=
  Value.quoted name ++ ':' :: (l.gap ++ l.inner.chars v)

/-- The members after the first one, and the end of the object. -/
def members : Layout → List (String × Value) → List Char
  | .compact, ms => Value.compactMembers ms
  | .indented level, ms => Value.indentedMembers level ms

/-- The elements after the first one, and the end of the list. -/
def elements : Layout → List Value → List Char
  | .compact, vs => Value.compactElements vs
  | .indented level, vs => Value.indentedElements level vs

variable {l : Layout} {name : String} {v : Value} {ms : List (String × Value)} {vs : List Value}

theorem chars_null (l : Layout) : l.chars .null = ['n', 'u', 'l', 'l'] := by
  cases l with
  | compact => exact Value.compact_null
  | indented level => exact Value.indented_null level

theorem chars_text (l : Layout) (s : String) : l.chars (.text s) = Value.quoted s := by
  cases l with
  | compact => rw [chars, Value.compact]
  | indented level => rw [chars, Value.indented]

theorem chars_integer (l : Layout) (n : Int) : l.chars (.integer n) = Value.digits n := by
  cases l with
  | compact => rw [chars, Value.compact]
  | indented level => rw [chars, Value.indented]

theorem chars_object_nil (l : Layout) : l.chars (.object []) = ['{', '}'] := by
  cases l with
  | compact => rw [chars, Value.compact]
  | indented level => rw [chars, Value.indented]

theorem chars_object_cons :
    l.chars (.object ((name, v) :: ms)) = '{' :: (l.before ++ (l.pair name v ++ l.members ms)) := by
  cases l with
  | compact => simp [chars, Value.compact, before, pair, gap, inner, members]
  | indented level => simp [chars, Value.indented, before, pair, gap, inner, members]

theorem chars_object (l : Layout) (ms : List (String × Value)) : ∃ cs, l.chars (.object ms) = '{' :: cs := by
  cases ms with
  | nil => exact ⟨_, l.chars_object_nil⟩
  | cons m ms => exact ⟨_, chars_object_cons⟩

theorem members_nil (l : Layout) : l.members [] = l.after ++ ['}'] := by
  cases l with
  | compact => exact Value.compactMembers_nil
  | indented level => exact Value.indentedMembers_nil level

theorem members_cons :
    l.members ((name, v) :: ms) = ',' :: (l.before ++ (l.pair name v ++ l.members ms)) := by
  cases l with
  | compact => simp [chars, Value.compactMembers, before, pair, gap, inner, members]
  | indented level => simp [chars, Value.indentedMembers, before, pair, gap, inner, members]

theorem chars_list_nil (l : Layout) : l.chars (.list []) = ['[', ']'] := by
  cases l with
  | compact => rw [chars, Value.compact]
  | indented level => rw [chars, Value.indented]

theorem chars_list_cons :
    l.chars (.list (v :: vs)) = '[' :: (l.before ++ (l.inner.chars v ++ l.elements vs)) := by
  cases l with
  | compact => simp [chars, Value.compact, before, inner, elements]
  | indented level => simp [chars, Value.indented, before, inner, elements]

theorem elements_nil (l : Layout) : l.elements [] = l.after ++ [']'] := by
  cases l with
  | compact => exact Value.compactElements_nil
  | indented level => exact Value.indentedElements_nil level

theorem elements_cons :
    l.elements (v :: vs) = ',' :: (l.before ++ (l.inner.chars v ++ l.elements vs)) := by
  cases l with
  | compact => simp [chars, Value.compactElements, before, inner, elements]
  | indented level => simp [chars, Value.indentedElements, before, inner, elements]

/-! ## Blanks -/

theorem blanks_newline (level : Nat) : Blanks (Utf8.encode (Value.newline level)) := by
  intro b hb
  obtain ⟨c, hc, hb⟩ := List.mem_flatMap.mp hb
  rcases List.mem_cons.mp hc with rfl | hc
  · obtain rfl := List.mem_singleton.mp hb
    rfl
  · obtain rfl := List.eq_of_mem_replicate hc
    obtain rfl := List.mem_singleton.mp hb
    rfl

theorem blanks_before (l : Layout) : Blanks (Utf8.encode l.before) := by
  cases l with
  | compact => exact .nil
  | indented level => exact blanks_newline (level + 1)

theorem blanks_after (l : Layout) : Blanks (Utf8.encode l.after) := by
  cases l with
  | compact => exact .nil
  | indented level => exact blanks_newline level

theorem blanks_gap (l : Layout) : Blanks (Utf8.encode l.gap) := by
  cases l with
  | compact => exact .nil
  | indented level =>
    intro b hb
    obtain rfl := List.mem_singleton.mp hb
    rfl

end Layout

/-! ## Texts and numbers -/

theorem textOf_quoted (s : String) : TextOf (Utf8.encode (Value.quoted s)) s := by
  obtain ⟨body, hbody, htext⟩ := readText_eq_ok_iff.mp (readText_escaped s [])
  refine ⟨body, ?_, htext⟩
  rw [encode_quoted, List.cons_append, hbody]

/-- A character of ASCII is one byte. -/
theorem encode_cons {c : Char} (hc : c.toNat < 0x80) (cs : List Char) :
    Utf8.encode (c :: cs) = code c :: Utf8.encode cs := by
  have hchar : Utf8.encodeChar c = [code c] := by
    rw [Utf8.encodeChar]
    exact if_pos hc
  rw [Utf8.encode, List.flatMap_cons, hchar]
  rfl

theorem isDigit_iff {c : Char} : c.isDigit = true ↔ 0x30 ≤ c.toNat ∧ c.toNat ≤ 0x39 := by
  simp [Char.isDigit, UInt32.le_iff_toNat_le]

theorem toNat_code {c : Char} (hc : c.isDigit = true) : (code c).toNat = c.toNat := by
  have hrange := isDigit_iff.mp hc
  exact Utf8.toNat_toUInt8 (by omega)

theorem encode_digits {ds : List Char} (h : ∀ c ∈ ds, c.isDigit = true) : Utf8.encode ds = word ds := by
  induction ds with
  | nil => rfl
  | cons c ds ih =>
    have hrange := isDigit_iff.mp (h c List.mem_cons_self)
    rw [encode_cons (by omega), ih fun d hd => h d (List.mem_cons_of_mem c hd)]
    rfl

theorem appendDigits_word {ds : List Char} (h : ∀ c ∈ ds, c.isDigit = true) (n : Nat) :
    appendDigits n (word ds) = Nat.ofDigitChars 10 ds n := by
  induction ds generalizing n with
  | nil => rfl
  | cons c ds ih =>
    have hc := toNat_code (h c List.mem_cons_self)
    rw [word, List.map_cons, appendDigits_cons, hc, ← word, ih fun d hd => h d (List.mem_cons_of_mem c hd),
      Nat.mul_comm n]
    rfl

/-- A natural number is written in its digits, without a zero in front. -/
theorem numeral_digits (n : Nat) : Numeral (Utf8.encode (Value.digits n)) n := by
  have hchars : Value.digits n = Nat.toDigits 10 n := by
    rw [Value.digits, show toString (n : Int) = toString n from rfl, Nat.toString_eq_ofList_toDigits,
      String.toList_ofList]
  have hdigits : ∀ c ∈ Nat.toDigits 10 n, c.isDigit = true :=
    fun c hc => Nat.isDigit_of_mem_toDigits (by decide) (by decide) hc
  rw [hchars, encode_digits hdigits]
  constructor
  · by_cases hn : n = 0
    · subst hn
      exact .zero
    have hzero : (Nat.toDigits 10 n).head? ≠ some '0' := Net.head_toDigits_ne_zero (by decide) hn
    cases hds : Nat.toDigits 10 n with
    | nil => exact absurd hds Nat.toDigits_ne_nil
    | cons c ds =>
      rw [hds] at hzero hdigits
      have hbyte (d : Char) (hd : d ∈ c :: ds) : isDigit (code d) = true := by
        rw [isDigit_eq_true_iff, toNat_code (hdigits d hd)]
        exact isDigit_iff.mp (hdigits d hd)
      refine .digits (hbyte c List.mem_cons_self) ?_ ?_
      · intro he
        have htoNat := congrArg UInt8.toNat he
        rw [toNat_code (hdigits c List.mem_cons_self)] at htoNat
        exact hzero (congrArg some (Char.toNat_inj.mp htoNat))
      · intro b hb
        obtain ⟨d, hd, rfl⟩ := List.mem_map.mp hb
        exact hbyte d (List.mem_cons_of_mem c hd)
  · rw [digitsValue_eq, appendDigits_word hdigits]
    exact Nat.ofDigitChars_toDigits (by decide) (by decide)

/-! ## Integers -/

theorem digits_negSucc (n : Nat) : Value.digits (Int.negSucc n) = '-' :: Value.digits (n + 1 : Nat) := by
  have htext : toString (Int.negSucc n) = "-" ++ toString (n + 1) := rfl
  rw [Value.digits, htext, String.toList_append]
  rfl

theorem integerText_digits (n : Int) : IntegerText (Utf8.encode (Value.digits n)) n := by
  cases n with
  | ofNat n => exact .natural (numeral_digits n)
  | negSucc n =>
    rw [digits_negSucc, encode_cons (by decide)]
    exact .negative (numeral_digits (n + 1)) (Nat.succ_pos n)

/-! ## Items -/

/-- How a list or an object is written, item by item: what follows the first item, and the whole. -/
structure Encloses {ι : Type} (l : Layout) (opening closing : Char) (item : ι → List Char)
    (later whole : List ι → List Char) : Prop where
  ascii : opening.toNat < 0x80
  later_nil : later [] = l.after ++ [closing]
  later_cons : ∀ i is, later (i :: is) = ',' :: (l.before ++ (item i ++ later is))
  whole_nil : whole [] = [opening, closing]
  whole_cons : ∀ i is, whole (i :: is) = opening :: (l.before ++ (item i ++ later is))

namespace Encloses

variable {ι β : Type} {P : Bytes → β → Prop} {l : Layout} {opening closing : Char} {item : ι → List Char}
  {later whole : List ι → List Char} {is : List ι} {bs : List β}

/-- Items that are written one after the other, from the comma in front of the first one on. -/
theorem onward (h : Encloses l opening closing item later whole)
    (hitems : List.Forall₂ (fun i b => P (Utf8.encode (item i)) b) is bs) :
    ∃ t, Utf8.encode (later is) = t ++ Utf8.encode [closing] ∧ Onward P t bs := by
  induction hitems with
  | nil =>
    refine ⟨Utf8.encode l.after, ?_, .inl ⟨l.blanks_after, rfl⟩⟩
    rw [h.later_nil, Utf8.encode_append]
  | @cons i b is bs hitem _ ih =>
    obtain ⟨t, ht, honward⟩ := ih
    have hmore := honward.separated l.blanks_before hitem
    refine ⟨_, ?_, .inr ⟨[], _, .nil, rfl, hmore⟩⟩
    rw [h.later_cons, encode_cons (by decide), Utf8.encode_append, Utf8.encode_append, ht]
    simp

theorem listed (h : Encloses l opening closing item later whole)
    (hitems : List.Forall₂ (fun i b => P (Utf8.encode (item i)) b) is bs) :
    ∃ t, Utf8.encode (whole is) = code opening :: (t ++ Utf8.encode [closing]) ∧ Listed P t bs := by
  cases hitems with
  | nil => exact ⟨[], by rw [h.whole_nil, encode_cons h.ascii, List.nil_append], .inl ⟨.nil, rfl⟩⟩
  | @cons i b is bs hitem hrest =>
    obtain ⟨t, ht, honward⟩ := h.onward hrest
    have hall := honward.separated l.blanks_before hitem
    refine ⟨_, ?_, .inr hall⟩
    rw [h.whole_cons, encode_cons h.ascii, Utf8.encode_append, Utf8.encode_append, ht]
    simp

end Encloses

theorem encloses_list (l : Layout) :
    Encloses l '[' ']' l.inner.chars l.elements fun vs => l.chars (.list vs) where
  ascii := by decide
  later_nil := l.elements_nil
  later_cons _ _ := Layout.elements_cons
  whole_nil := l.chars_list_nil
  whole_cons _ _ := Layout.chars_list_cons

theorem encloses_object (l : Layout) :
    Encloses l '{' '}' (fun m => l.pair m.1 m.2) l.members fun ms => l.chars (.object ms) where
  ascii := by decide
  later_nil := l.members_nil
  later_cons _ _ := Layout.members_cons
  whole_nil := l.chars_object_nil
  whole_cons _ _ := Layout.chars_object_cons

/-! ## Objects -/

variable {β : Type} {V : String → Bytes → β → Prop} {l : Layout} {ms : List (String × Value)} {bs : List β}

theorem pairText_pair {name : String} {v : Value} {b : β} (hv : V name (Utf8.encode (l.inner.chars v)) b) :
    PairText V (Utf8.encode (l.pair name v)) b := by
  have hbytes : Utf8.encode (l.pair name v) =
      Utf8.encode (Value.quoted name) ++
        ([] ++ code ':' :: (Utf8.encode l.gap ++ Utf8.encode (l.inner.chars v))) := by
    rw [Layout.pair, Utf8.encode_append, encode_cons (by decide), Utf8.encode_append, List.nil_append]
  rw [hbytes]
  exact .intro (textOf_quoted name) .nil l.blanks_gap hv

/-- A member of an object is written as the grammar has it. -/
def Writes (V : String → Bytes → β → Prop) (l : Layout) (m : String × Value) (b : β) : Prop :=
  V m.1 (Utf8.encode (l.inner.chars m.2)) b

theorem listed_object (h : List.Forall₂ (Writes V l) ms bs) :
    ∃ t, Utf8.encode (l.chars (.object ms)) = code '{' :: (t ++ [code '}']) ∧
      Listed (PairText V) t bs :=
  (encloses_object l).listed (h.imp fun _ _ hv => pairText_pair hv)

end NatBehaviour.Json
