import NatBehaviour.Proofs.Json.RecordGrammar

/-!
Texts have one reading only. Where a value ends and what it is follows from the bytes, since a reader would
find nothing else; so it is for the members of an object and the elements of a list, and for a whole text.
-/

namespace NatBehaviour.Json

variable {α β γ : Type}

/-- Nothing but one value can stand at the front of a text, if a separator or the end follows it. -/
structure Determined (G : Bytes → α → Prop) : Prop where
  starts : ∀ {t a}, G t a → Starts t
  unique : ∀ {t t' s s' a a'}, G t a → G t' a' → Ends s → Ends s' → t ++ s = t' ++ s' →
    t = t' ∧ a = a'

theorem Reads.determined {read : Reader α} {G : Bytes → α → Prop} (h : Reads read G) : Determined G where
  starts := h.starts
  unique := by
    intro t t' s s' a a' ht ht' hs hs' heq
    have hread := h.complete .nil ht hs
    have hread' := h.complete .nil ht' hs'
    rw [List.nil_append, heq] at hread
    rw [List.nil_append, hread] at hread'
    cases hread'
    exact ⟨List.append_cancel_right heq, rfl⟩

theorem Reads.eq_of_text {read : Reader α} {G : Bytes → α → Prop} (h : Reads read G) {t : Bytes} {a a' : α}
    (ht : G t a) (ht' : G t a') : a = a' :=
  (h.determined.unique ht ht' ends_nil ends_nil rfl).2

namespace Determined

variable {G : Bytes → α → Prop} {ws ws' t t' s s' : Bytes} {a a' : α}

/-- Blanks in front make no difference. -/
theorem behind_blanks (h : Determined G) (hws : Blanks ws) (hws' : Blanks ws') (ht : G t a) (ht' : G t' a')
    (hs : Ends s) (hs' : Ends s') (heq : ws ++ (t ++ s) = ws' ++ (t' ++ s')) : t = t' ∧ a = a' ∧ s = s' := by
  have hfront := congrArg skipBlanks heq
  rw [(h.starts ht).skipBlanks hws, (h.starts ht').skipBlanks hws'] at hfront
  obtain ⟨rfl, rfl⟩ := h.unique ht ht' hs hs' hfront
  exact ⟨rfl, rfl, List.append_cancel_left hfront⟩

end Determined

/-! ## Values of any kind -/

/-- A value, whatever it is. -/
def Element (t v : Bytes) : Prop := Skippable t ∧ v = t

/-- A key and a value, whatever they are. -/
def Keyed (key : String) (t : Bytes) (m : String × Bytes) : Prop := Skippable t ∧ m = (key, t)

theorem element_determined : Determined Element where
  starts h := h.1.led.1
  unique := by
    intro t t' s s' v v' h h' hs hs' heq
    obtain ⟨ht, rfl⟩ := h
    obtain ⟨ht', rfl⟩ := h'
    have hskip := ht.skipValue .nil hs
    rw [List.nil_append, heq] at hskip
    obtain rfl := Except.ok.inj (hskip.symm.trans (ht'.skipValue .nil hs'))
    obtain rfl := List.append_cancel_right heq
    exact ⟨rfl, rfl⟩

/-- Elements one after the other are what stands inside of a list that is not empty. -/
theorem skips_elements {t : Bytes} {vs : List Bytes} (h : Separated Element t vs) :
    Skips (.inside .list) t := by
  induction h with
  | last hws h hws' => exact .last .list hws h.1 hws'
  | more hws h hws' _ ih => exact .more .list hws h.1 hws' ih

theorem skips_pairs {t : Bytes} {ms : List (String × Bytes)} (h : Separated (PairText Keyed) t ms) :
    Skips (.inside .object) t := by
  induction h with
  | last hws h hws' =>
    cases h with
    | intro hkey hws₁ hws₂ hv => simpa using Skips.last (.object hws hkey.skipped hws₁) hws₂ hv.1 hws'
  | more hws h hws' _ ih =>
    cases h with
    | intro hkey hws₁ hws₂ hv => simpa using Skips.more (.object hws hkey.skipped hws₁) hws₂ hv.1 hws' ih

theorem skippable_of_pair {t : Bytes} {m : String × Bytes} (h : PairText Keyed t m) : Skippable m.2 := by
  cases h with
  | intro _ _ _ hv =>
    obtain ⟨hskip, rfl⟩ := hv
    exact hskip

theorem pairText_determined : Determined (PairText Keyed) where
  starts := by
    intro t m h
    cases h with
    | intro hkey _ _ _ =>
      obtain ⟨body, rfl, -⟩ := hkey
      exact ⟨_, _, rfl, rfl⟩
  unique := by
    intro t t' s s' m m' h h' hs hs' heq
    cases h with
    | @intro key k ws₁ ws₂ v m hkey hws₁ hws₂ hv =>
    cases h' with
    | @intro key' k' ws₁' ws₂' v' m' hkey' hws₁' hws₂' hv' =>
    obtain ⟨hv, rfl⟩ := hv
    obtain ⟨hv', rfl⟩ := hv'
    obtain ⟨body, rfl, hbody⟩ := hkey
    obtain ⟨body', rfl, hbody'⟩ := hkey'
    have htext : body ++ code '"' :: (ws₁ ++ code ':' :: (ws₂ ++ (v ++ s))) =
        body' ++ code '"' :: (ws₁' ++ code ':' :: (ws₂' ++ (v' ++ s'))) := by simpa using heq
    have hread := readText_eq_ok_iff.mpr ⟨body, htext.symm, hbody⟩
    rw [readText_eq_ok_iff.mpr ⟨body', rfl, hbody'⟩] at hread
    obtain ⟨rfl, hrest⟩ := Prod.mk.inj (Except.ok.inj hread)
    have hcolon := skipColon_eq_ok_iff.mpr ⟨ws₁, hws₁, hrest⟩
    rw [skipColon_eq_ok_iff.mpr ⟨ws₁', hws₁', rfl⟩] at hcolon
    obtain ⟨rfl, -, rfl⟩ := element_determined.behind_blanks hws₂' hws₂ ⟨hv', rfl⟩ ⟨hv, rfl⟩ hs' hs
      (Except.ok.inj hcolon)
    exact ⟨List.append_cancel_right heq, rfl⟩

/-! ## Items -/

section Items

variable {P : Bytes → β → Prop} {ws t u : Bytes} {e : β} {es es' : List β}

theorem Onward.eq_nil_of_blanks (h : Onward P u es) (hu : Blanks u) : es = [] := by
  rcases h with ⟨-, rfl⟩ | ⟨ws, u, -, rfl, -⟩
  · rfl
  · have hcomma := hu (code ',') (by simp)
    cases hcomma

theorem Onward.separated_of_comma (h : Onward P (ws ++ code ',' :: u) es) (hws : Blanks ws) :
    Separated P u es := by
  rcases h with ⟨hu, -⟩ | ⟨ws', u', hws', heq, h⟩
  · have hcomma := hu (code ',') (by simp)
    cases hcomma
  · have hfront := congrArg skipBlanks heq
    rw [skipBlanks_blanks_cons hws rfl, skipBlanks_blanks_cons hws' rfl] at hfront
    obtain rfl := (List.cons.inj hfront).2
    exact h

/-- The first item of a sequence, and what follows it. -/
theorem Separated.head_unique (hP : Determined P) {v : Bytes} (hws : Blanks ws) (hv : P v e)
    (hu : Onward P u es) (h : Separated P (ws ++ (v ++ u)) es') :
    ∃ es₁, es' = e :: es₁ ∧ Onward P u es₁ := by
  obtain ⟨ws', v', u', e', es₁, heq, rfl, hws', hv', hu'⟩ := h.first
  have hends : Ends u := by simpa using hu.ends ends_nil
  have hends' : Ends u' := by simpa using hu'.ends ends_nil
  obtain ⟨-, rfl, rfl⟩ := hP.behind_blanks hws hws' hv hv' hends hends' heq
  exact ⟨es₁, rfl, hu'⟩

theorem Separated.unique (hP : Determined P) (h : Separated P t es) (h' : Separated P t es') : es' = es := by
  induction h generalizing es' with
  | last hws hv hws' =>
    obtain ⟨es₁, rfl, honward⟩ := h'.head_unique hP hws hv (.inl ⟨hws', rfl⟩)
    rw [honward.eq_nil_of_blanks hws']
  | more hws hv hws' hrest ih =>
    obtain ⟨es₁, rfl, honward⟩ := h'.head_unique hP hws hv (.inr ⟨_, _, hws', rfl, hrest⟩)
    rw [ih (honward.separated_of_comma hws')]

theorem Separated.not_blanks (hP : Determined P) (h : Separated P t es) : ¬ Blanks t := by
  intro ht
  obtain ⟨ws, v, u, e, es', rfl, rfl, -, hv, -⟩ := h.first
  obtain ⟨b, w, rfl, hb⟩ := hP.starts hv
  have hblank := isSpace_of_not_isSeparator hb
  rw [ht b (by simp)] at hblank
  cases hblank

theorem Listed.unique (hP : Determined P) (h : Listed P t es) (h' : Listed P t es') : es' = es := by
  rcases h with ⟨ht, rfl⟩ | h
  · rcases h' with ⟨-, rfl⟩ | h'
    · rfl
    · exact absurd ht (h'.not_blanks hP)
  · rcases h' with ⟨ht, -⟩ | h'
    · exact absurd ht (h.not_blanks hP)
    · exact h.unique hP h'

end Items

/-! ## Whole texts -/

/-- A text that is one list or object with some items, and blanks around it. -/
inductive Bracketed (P : Bytes → β → Prop) (bracket : Bracket) : Bytes → List β → Prop
  | intro {ws t ws' : Bytes} {es : List β} (hws : Blanks ws) (h : Listed P t es) (hws' : Blanks ws') :
      Bracketed P bracket (ws ++ bracket.opening :: (t ++ bracket.closing :: ws')) es

/-- A text that is one object, and its keys and values in order. -/
abbrev ObjectText : Bytes → List (String × Bytes) → Prop := Bracketed (PairText Keyed) .object

/-- A text that is one list, and its elements in order. -/
abbrev ArrayText : Bytes → List Bytes → Prop := Bracketed Element .list

theorem Bracket.isSpace_opening (bracket : Bracket) : isSpace bracket.opening = false := by
  cases bracket <;> rfl

/-- The last byte that is not blank is found from behind. -/
theorem eq_of_last {t t' ws ws' : Bytes} {b : UInt8} (hb : isSpace b = false) (hws : Blanks ws)
    (hws' : Blanks ws') (h : t ++ b :: ws = t' ++ b :: ws') : t = t' := by
  have hreverse {ws : Bytes} (hws : Blanks ws) : Blanks ws.reverse := fun x hx => hws x (List.mem_reverse.mp hx)
  have hback := congrArg (fun s => skipBlanks s.reverse) h
  simp only [List.reverse_append, List.reverse_cons, List.append_assoc, List.singleton_append] at hback
  rw [skipBlanks_blanks_cons (hreverse hws) hb, skipBlanks_blanks_cons (hreverse hws') hb] at hback
  exact List.reverse_injective (List.cons.inj hback).2

namespace Bracketed

variable {P : Bytes → β → Prop} {Q : Bytes → γ → Prop} {bracket bracket' : Bracket} {s : Bytes}
  {es es' : List β} {cs : List γ}

theorem of_blanks {ws t ws' : Bytes} (hws : Blanks ws) (h : Listed P t es) (hws' : Blanks ws') :
    Bracketed P bracket (ws ++ bracket.opening :: (t ++ [bracket.closing]) ++ ws') es := by
  simpa using Bracketed.intro hws h hws'

theorem exists_blanks (h : Bracketed P bracket s es) : ∃ ws t ws', Blanks ws ∧ Listed P t es ∧ Blanks ws' ∧
    s = ws ++ bracket.opening :: (t ++ [bracket.closing]) ++ ws' := by
  cases h with
  | intro hws h hws' => exact ⟨_, _, _, hws, h, hws', by simp⟩

/-- Behind the blanks stands the opening bracket. -/
theorem front (h : Bracketed P bracket s es) : (skipBlanks s).head? = some bracket.opening := by
  obtain ⟨hws, -, -⟩ := h
  rw [skipBlanks_blanks_cons hws bracket.isSpace_opening]
  rfl

theorem bracket_unique (h : Bracketed P bracket s es) (h' : Bracketed Q bracket' s cs) :
    bracket = bracket' := by
  have hopening := Option.some.inj (h.front.symm.trans h'.front)
  cases bracket <;> cases bracket' <;> first
    | rfl
    | cases hopening

theorem unique (hP : Determined P) (h : Bracketed P bracket s es) (h' : Bracketed P bracket s es') :
    es' = es := by
  generalize hs : s = s' at h'
  cases h with
  | @intro ws t ws' es hws hes hws' =>
  cases h' with
  | @intro ws₁ t' ws₁' es' hws₁ hes' hws₁' =>
  have hfront := congrArg skipBlanks hs
  rw [skipBlanks_blanks_cons hws bracket.isSpace_opening,
    skipBlanks_blanks_cons hws₁ bracket.isSpace_opening] at hfront
  obtain rfl := eq_of_last bracket.isSpace_closing hws' hws₁' (List.cons.inj hfront).2
  exact hes.unique hP hes'

end Bracketed

/-- A text that is some value, with blanks around it. -/
def JsonText (s : Bytes) : Prop :=
  ∃ ws v ws', Blanks ws ∧ Skippable v ∧ Blanks ws' ∧ s = ws ++ v ++ ws'

theorem skippable_listed {P : Bytes → β → Prop} {bracket : Bracket} {t : Bytes} {es : List β}
    (h : Listed P t es) (hinside : ∀ {t es}, Separated P t es → Skips (.inside bracket) t) :
    Skippable (bracket.opening :: (t ++ [bracket.closing])) := by
  rcases h with ⟨ht, -⟩ | h
  · exact .empty bracket ht
  · exact .full (hinside h)

theorem Bracketed.jsonText {P : Bytes → β → Prop} {bracket : Bracket} {s : Bytes} {es : List β}
    (h : Bracketed P bracket s es)
    (hinside : ∀ {t es}, Separated P t es → Skips (.inside bracket) t) : JsonText s := by
  obtain ⟨ws, t, ws', hws, hlisted, hws', rfl⟩ := h.exists_blanks
  exact ⟨ws, _, ws', hws, skippable_listed hlisted hinside, hws', rfl⟩

end NatBehaviour.Json
