import NatBehaviour.Json.Skip
import NatBehaviour.Proofs.Json.NumberGrammar
import NatBehaviour.Proofs.Json.TextGrammar

/-!
The grammar of the values that are passed over, of any kind and nested to any depth. A run that passes
over a value is followed in both directions: what the open brackets still ask for is written down as
`Closes`, and every value leads to where the input goes on behind it.
-/

namespace NatBehaviour.Json

/-- What stands between a bracket or a comma and the next value: nothing in a list, the key in an
object. -/
inductive Lead : Bracket → Bytes → Prop
  | list : Lead .list []
  | object {ws t ws' : Bytes} (hws : Blanks ws) (ht : SkippedText t) (hws' : Blanks ws') :
      Lead .object (ws ++ (t ++ (ws' ++ [code ':'])))

def Bracket.opening : Bracket → UInt8
  | .list => code '['
  | .object => code '{'

/-- A value, or what stands inside a bracket that is not empty. -/
inductive Portion
  | value
  | inside (bracket : Bracket)

inductive Skips : Portion → Bytes → Prop
  | text {t : Bytes} (h : SkippedText t) : Skips .value t
  | number {t : Bytes} (h : NumberText t) : Skips .value t
  | null : Skips .value (word ['n', 'u', 'l', 'l'])
  | true : Skips .value (word ['t', 'r', 'u', 'e'])
  | false : Skips .value (word ['f', 'a', 'l', 's', 'e'])
  | empty (bracket : Bracket) {ws : Bytes} (hws : Blanks ws) :
      Skips .value (bracket.opening :: (ws ++ [bracket.closing]))
  | full {bracket : Bracket} {t : Bytes} (h : Skips (.inside bracket) t) :
      Skips .value (bracket.opening :: (t ++ [bracket.closing]))
  | last {bracket : Bracket} {lead ws v ws' : Bytes} (hlead : Lead bracket lead) (hws : Blanks ws)
      (hv : Skips .value v) (hws' : Blanks ws') :
      Skips (.inside bracket) (lead ++ (ws ++ (v ++ ws')))
  | more {bracket : Bracket} {lead ws v ws' t : Bytes} (hlead : Lead bracket lead) (hws : Blanks ws)
      (hv : Skips .value v) (hws' : Blanks ws') (rest : Skips (.inside bracket) t) :
      Skips (.inside bracket) (lead ++ (ws ++ (v ++ (ws' ++ code ',' :: t))))

/-- A value whose kind does not matter. -/
abbrev Skippable (t : Bytes) : Prop := Skips .value t

/-! ## What a run has passed over -/

/-- After a value: what closes the brackets that are open, with more values before their ends, and what
follows the last one. -/
inductive Closes : Enclosing → Bytes → Bytes → Prop
  | done (s : Bytes) : Closes [] s s
  | close {bracket : Bracket} {outer : Enclosing} {ws s rest : Bytes} (hws : Blanks ws)
      (h : Closes outer s rest) : Closes (bracket :: outer) (ws ++ bracket.closing :: s) rest
  | comma {bracket : Bracket} {outer : Enclosing} {ws t s rest : Bytes} (hws : Blanks ws)
      (ht : Skips (.inside bracket) t) (h : Closes outer s rest) :
      Closes (bracket :: outer) (ws ++ code ',' :: (t ++ bracket.closing :: s)) rest

/-- Before a value: the value, and what closes the open brackets. -/
def Awaits (enclosing : Enclosing) (s rest : Bytes) : Prop :=
  ∃ ws v s', Blanks ws ∧ Skippable v ∧ s = ws ++ (v ++ s') ∧ Closes enclosing s' rest

theorem skipColon_eq_ok_iff {s rest : Bytes} :
    skipColon s = .ok rest ↔ ∃ ws, Blanks ws ∧ s = ws ++ code ':' :: rest := by
  constructor
  · intro h
    unfold skipColon at h
    split at h
    · cases h
    rename_i b t hskip
    obtain ⟨ws, hws, rfl⟩ := exists_blanks_cons hskip
    split at h
    · rename_i hb
      cases h
      exact ⟨ws, hws, by rw [hb]⟩
    · cases h
  · rintro ⟨ws, hws, rfl⟩
    rw [skipColon, skipBlanks_blanks_cons hws rfl]
    dsimp only
    rw [if_pos rfl]

theorem lead_of_skipToValue {bracket : Bracket} {s s' : Bytes} (h : skipToValue bracket s = .ok s') :
    ∃ lead, Lead bracket lead ∧ s = lead ++ s' := by
  cases bracket with
  | list =>
    cases h
    exact ⟨[], .list, rfl⟩
  | object =>
    simp only [skipToValue, skipKey] at h
    split at h
    · cases h
    rename_i b t hskip
    obtain ⟨ws, hws, rfl⟩ := exists_blanks_cons hskip
    split at h
    · rename_i hb
      split at h
      · cases h
      rename_i s₁ htext
      obtain ⟨body, rfl, hbody⟩ := skipText_eq_ok_iff.mp htext
      obtain ⟨ws', hws', rfl⟩ := skipColon_eq_ok_iff.mp h
      exact ⟨_, .object hws ⟨body, rfl, hbody⟩ hws', by rw [hb]; simp⟩
    · cases h

/-- A value behind its lead begins the inside of a bracket, and what closes the bracket ends it. -/
theorem inside_of_awaits {bracket : Bracket} {outer : Enclosing} {lead s rest : Bytes}
    (hlead : Lead bracket lead) (h : Awaits (bracket :: outer) s rest) :
    ∃ t s', lead ++ s = t ++ bracket.closing :: s' ∧ Skips (.inside bracket) t ∧
      Closes outer s' rest := by
  obtain ⟨ws, v, s', hws, hv, rfl, hcloses⟩ := h
  cases hcloses with
  | @close _ _ ws' s rest hws' h =>
    exact ⟨lead ++ (ws ++ (v ++ ws')), s, by simp, .last hlead hws hv hws', h⟩
  | @comma _ _ ws' t s rest hws' ht h =>
    exact ⟨lead ++ (ws ++ (v ++ (ws' ++ code ',' :: t))), s, by simp, .more hlead hws hv hws' ht, h⟩

/-- Blanks in front make no difference inside a bracket. -/
theorem Skips.blanks {bracket : Bracket} {ws t : Bytes} (hws : Blanks ws)
    (h : Skips (.inside bracket) t) : Skips (.inside bracket) (ws ++ t) := by
  cases h with
  | @last _ lead ws₁ v ws₂ hlead hws₁ hv hws₂ =>
    cases hlead with
    | list =>
      have h := Skips.last .list (hws.append hws₁) hv hws₂
      simpa using h
    | object hws₀ ht hws' =>
      have h := Skips.last (.object (hws.append hws₀) ht hws') hws₁ hv hws₂
      simpa using h
  | @more _ lead ws₁ v ws₂ t hlead hws₁ hv hws₂ rest =>
    cases hlead with
    | list =>
      have h := Skips.more .list (hws.append hws₁) hv hws₂ rest
      simpa using h
    | object hws₀ ht hws' =>
      have h := Skips.more (.object (hws.append hws₀) ht hws') hws₁ hv hws₂ rest
      simpa using h

/-- What a step has left undone: nothing, or another value. -/
def Leaves (rest : Bytes) : Step Enclosing → Prop
  | .done _ s => s = rest
  | .more enclosing s => Awaits enclosing s rest

theorem closes_of_skipAfterValue {enclosing : Enclosing} {s rest : Bytes} {step : Step Enclosing}
    (h : skipAfterValue enclosing s = .ok step) (hleaves : Leaves rest step) :
    Closes enclosing s rest := by
  induction enclosing generalizing s with
  | nil =>
    cases h
    obtain rfl : s = rest := hleaves
    exact .done s
  | cons bracket outer ih =>
    unfold skipAfterValue at h
    split at h
    · cases h
    rename_i b t hskip
    obtain ⟨ws, hws, rfl⟩ := exists_blanks_cons hskip
    split at h
    · rename_i hb
      exact hb ▸ .close hws (ih h)
    split at h
    · rename_i hb
      split at h
      · cases h
      rename_i s' hvalue
      cases h
      obtain ⟨lead, hlead, rfl⟩ := lead_of_skipToValue hvalue
      obtain ⟨t', s'', ht', hinside, hcloses⟩ := inside_of_awaits hlead hleaves
      rw [hb, ht']
      exact .comma hws hinside hcloses
    · cases h

theorem awaits_of_skipAfterOpening {bracket : Bracket} {outer : Enclosing} {s rest : Bytes}
    {step : Step Enclosing} (h : skipAfterOpening bracket outer s = .ok step)
    (hleaves : Leaves rest step) : Awaits outer (bracket.opening :: s) rest := by
  unfold skipAfterOpening at h
  split at h
  · cases h
  rename_i b t hskip
  obtain ⟨ws, hws, rfl⟩ := exists_blanks_cons hskip
  split at h
  · rename_i hb
    exact ⟨[], _, t, .nil, .empty bracket hws, by rw [hb]; simp, closes_of_skipAfterValue h hleaves⟩
  · split at h
    · cases h
    rename_i s' hvalue
    cases h
    obtain ⟨lead, hlead, hs⟩ := lead_of_skipToValue hvalue
    obtain ⟨t', s'', ht', hinside, hcloses⟩ := inside_of_awaits hlead hleaves
    rw [hs, ht']
    exact ⟨[], _, s'', .nil, .full (hinside.blanks hws), by simp, hcloses⟩

theorem skippable_of_skipScalar {b : UInt8} {s rest : Bytes} (h : skipScalar b s = .ok rest) :
    ∃ v, b :: s = v ++ rest ∧ Skippable v := by
  unfold skipScalar at h
  split at h
  · rename_i hb
    obtain ⟨body, rfl, hbody⟩ := skipText_eq_ok_iff.mp h
    exact ⟨_, by rw [hb]; simp, .text ⟨body, rfl, hbody⟩⟩
  split at h
  · rename_i hb
    rw [hb, eq_append_of_readWord h]
    exact ⟨_, rfl, .null⟩
  split at h
  · rename_i hb
    rw [hb, eq_append_of_readWord h]
    exact ⟨_, rfl, .true⟩
  split at h
  · rename_i hb
    rw [hb, eq_append_of_readWord h]
    exact ⟨_, rfl, .false⟩
  split at h
  · obtain ⟨t, ht, hnumber⟩ := numberText_of_skipNumber h
    exact ⟨t, ht, .number hnumber⟩
  · cases h

theorem awaits_of_skipStep {enclosing : Enclosing} {s rest : Bytes} {step : Step Enclosing}
    (h : skipStep enclosing s = .ok step) (hleaves : Leaves rest step) : Awaits enclosing s rest := by
  unfold skipStep at h
  split at h
  · cases h
  rename_i b t hskip
  obtain ⟨ws, hws, rfl⟩ := exists_blanks_cons hskip
  have hblanks {s : Bytes} (ha : Awaits enclosing s rest) : Awaits enclosing (ws ++ s) rest := by
    obtain ⟨ws', v, s', hws', hv, rfl, hcloses⟩ := ha
    exact ⟨ws ++ ws', v, s', hws.append hws', hv, by simp, hcloses⟩
  split at h
  · rename_i hb
    exact hb ▸ hblanks (awaits_of_skipAfterOpening h hleaves)
  split at h
  · rename_i hb
    exact hb ▸ hblanks (awaits_of_skipAfterOpening h hleaves)
  split at h
  · cases h
  rename_i s' hscalar
  obtain ⟨v, hv, hskippable⟩ := skippable_of_skipScalar hscalar
  rw [hv]
  exact ⟨ws, v, s', hws, hskippable, rfl, closes_of_skipAfterValue h hleaves⟩

/-- Only a value is passed over. -/
theorem skippable_of_skipValue {s rest : Bytes} (h : skipValue s = .ok rest) :
    ∃ ws v, Blanks ws ∧ s = ws ++ v ++ rest ∧ Skippable v := by
  unfold skipValue at h
  split at h
  · cases h
  rename_i enclosing s' hloop
  cases h
  have hawaits : Awaits [] s rest := by
    refine loop_induction (P := fun enclosing s _ rest => Awaits enclosing s rest)
      ?_ ?_ hloop
    · intro enclosing s _ rest hstep
      exact awaits_of_skipStep hstep rfl
    · intro enclosing s _ _ _ rest hstep hrest
      exact awaits_of_skipStep hstep hrest
  obtain ⟨ws, v, s', hws, hv, rfl, hcloses⟩ := hawaits
  cases hcloses
  exact ⟨ws, v, hws, (List.append_assoc ws v rest).symm, hv⟩

/-! ## Where a value leads to -/

/-- From here on, a run gets to where it goes on behind a value. -/
def Passes (enclosing : Enclosing) (s : Bytes) (outer : Enclosing) (rest : Bytes) : Prop :=
  ∃ enclosing' s', Advances skipStep enclosing s enclosing' s' ∧
    skipStep enclosing' s' = skipAfterValue outer rest ∧ rest.length ≤ s'.length

section

variable {bracket : Bracket} {outer : Enclosing} {lead ws v s rest : Bytes}

theorem Bracket.isSpace_closing (bracket : Bracket) : isSpace bracket.closing = false := by
  cases bracket <;> decide

theorem Bracket.ends_closing (bracket : Bracket) (s : Bytes) : Ends (bracket.closing :: s) := by
  cases bracket <;> exact ends_cons (by decide) s

theorem skipToValue_lead (hlead : Lead bracket lead) (s : Bytes) :
    skipToValue bracket (lead ++ s) = .ok s := by
  cases hlead with
  | list => rfl
  | @object ws t ws' hws ht hws' =>
    obtain ⟨body, rfl, hbody⟩ := ht
    have htext : skipText (body ++ code '"' :: (ws' ++ code ':' :: s)) = .ok (ws' ++ code ':' :: s) :=
      skipText_eq_ok_iff.mpr ⟨body, rfl, hbody⟩
    have hshape : ws ++ (code '"' :: (body ++ [code '"']) ++ (ws' ++ [code ':'])) ++ s =
        ws ++ code '"' :: (body ++ code '"' :: (ws' ++ code ':' :: s)) := by simp
    rw [hshape, skipToValue, skipKey, skipBlanks_blanks_cons hws rfl]
    dsimp only
    rw [if_pos rfl, htext]
    exact skipColon_eq_ok_iff.mpr ⟨ws', hws', rfl⟩

/-- Behind an opening bracket blanks are skipped before the lead of the first value is. -/
theorem skipToValue_skipBlanks (hlead : Lead bracket lead) (hws : Blanks ws) (hv : Starts v)
    (s : Bytes) : ∃ b t ws', skipBlanks (lead ++ (ws ++ (v ++ s))) = b :: t ∧ b ≠ bracket.closing ∧
      Blanks ws' ∧ ws'.length ≤ ws.length ∧ skipToValue bracket (b :: t) = .ok (ws' ++ (v ++ s)) := by
  cases hlead with
  | list =>
    have hskip := hv.skipBlanks hws s
    obtain ⟨b, u, rfl, hb⟩ := hv
    refine ⟨b, u ++ s, [], hskip, ?_, .nil, Nat.zero_le _, rfl⟩
    rintro rfl
    exact absurd hb (by decide)
  | @object ws₀ t ws' hws₀ ht hws' =>
    have hvalue := skipToValue_lead (.object .nil ht hws') (ws ++ (v ++ s))
    obtain ⟨body, rfl, -⟩ := ht
    refine ⟨code '"', body ++ [code '"'] ++ (ws' ++ [code ':']) ++ (ws ++ (v ++ s)), ws, ?_,
      by decide, hws, Nat.le_refl _, hvalue⟩
    rw [List.append_assoc, skipBlanks_append hws₀]
    exact skipBlanks_cons rfl _

theorem skipAfterValue_closing (hws : Blanks ws) (s : Bytes) :
    skipAfterValue (bracket :: outer) (ws ++ bracket.closing :: s) = skipAfterValue outer s := by
  rw [skipAfterValue, skipBlanks_blanks_cons hws bracket.isSpace_closing]
  dsimp only
  rw [if_pos rfl]

theorem skipAfterValue_comma (hws : Blanks ws) (hlead : Lead bracket lead) (s : Bytes) :
    skipAfterValue (bracket :: outer) (ws ++ code ',' :: (lead ++ s)) =
      .ok (.more (bracket :: outer) s) := by
  have hcomma : code ',' ≠ bracket.closing := by cases bracket <;> decide
  rw [skipAfterValue, skipBlanks_blanks_cons hws rfl]
  dsimp only
  rw [if_neg hcomma, if_pos rfl, skipToValue_lead hlead]

theorem skipStep_opening (hws : Blanks ws) (s : Bytes) :
    skipStep outer (ws ++ bracket.opening :: s) = skipAfterOpening bracket outer s := by
  cases bracket with
  | list =>
    rw [skipStep, skipBlanks_blanks_cons hws rfl]
    rfl
  | object =>
    rw [skipStep, skipBlanks_blanks_cons hws rfl]
    rfl

theorem passes_of_skipScalar {b : UInt8} {t : Bytes} (hb : isSeparator b = false)
    (hlist : b ≠ code '[') (hobject : b ≠ code '{') (h : skipScalar b t = .ok rest) (hws : Blanks ws)
    (hrest : rest.length ≤ t.length) : Passes outer (ws ++ b :: t) outer rest := by
  refine ⟨outer, ws ++ b :: t, .here _ _, ?_, ?_⟩
  · rw [skipStep, skipBlanks_blanks_cons hws (isSpace_of_not_isSeparator hb)]
    dsimp only
    rw [if_neg hlist, if_neg hobject, h]
  · simp only [List.length_append, List.length_cons]
    omega

end

/-- Inside a bracket there is a first value, and from any place before it a run gets out of the
bracket. -/
def Enters (bracket : Bracket) (t : Bytes) : Prop :=
  ∃ lead ws v tail, t = lead ++ (ws ++ (v ++ tail)) ∧ Lead bracket lead ∧ Blanks ws ∧ Starts v ∧
    ∀ outer rest ws', Blanks ws' →
      Passes (bracket :: outer) (ws' ++ (v ++ (tail ++ bracket.closing :: rest))) outer rest

/-- A run gets over a value that stands in front of a separator. -/
def GetsOver (v : Bytes) : Prop :=
  Starts v ∧ ∀ outer ws rest, Blanks ws → Ends rest → Passes outer (ws ++ (v ++ rest)) outer rest

theorem getsOver_word {b : UInt8} {cs : List Char} (hb : isSeparator b = false)
    (hlist : b ≠ code '[') (hobject : b ≠ code '{')
    (h : ∀ rest, skipScalar b (word cs ++ rest) = readWord cs (word cs ++ rest)) :
    GetsOver (b :: word cs) := by
  refine ⟨⟨b, word cs, rfl, hb⟩, ?_⟩
  intro outer ws rest hws _
  have hscalar := (h rest).trans (readWord_append cs rest)
  exact passes_of_skipScalar hb hlist hobject hscalar hws (by simp)

theorem getsOver_text {t : Bytes} (h : SkippedText t) : GetsOver t := by
  obtain ⟨body, rfl, hbody⟩ := h
  refine ⟨⟨code '"', _, rfl, by decide⟩, ?_⟩
  intro outer ws rest hws _
  have hscalar : skipScalar (code '"') (body ++ [code '"'] ++ rest) = .ok rest := by
    rw [skipScalar, if_pos rfl, List.append_assoc]
    exact skipText_eq_ok_iff.mpr ⟨body, rfl, hbody⟩
  have hlength : rest.length ≤ (body ++ [code '"'] ++ rest).length := by
    rw [List.length_append]
    exact Nat.le_add_left _ _
  exact passes_of_skipScalar (by decide) (by decide) (by decide) hscalar hws hlength

theorem NumberText.head {t : Bytes} (h : NumberText t) :
    ∃ b u, t = b :: u ∧ (b = code '-' ∨ isDigit b = true) := by
  obtain ⟨l, hl⟩ := h
  cases hl with
  | @intro negative whole fraction power f p hwhole hfraction hpower =>
    cases negative with
    | true => exact ⟨_, _, rfl, .inl rfl⟩
    | false =>
      obtain ⟨b, u, rfl, hb⟩ := hwhole.head
      exact ⟨b, _, rfl, .inr hb⟩

theorem getsOver_number {t : Bytes} (h : NumberText t) : GetsOver t := by
  obtain ⟨b, u, rfl, hb⟩ := h.head
  have hsep : isSeparator b = false := by
    rcases hb with rfl | hb
    · decide
    · cases hs : isSeparator b with
      | false => rfl
      | true =>
        rw [(isDigit_separator hs).1] at hb
        cases hb
  -- A digit or a minus sign is none of the bytes that other values begin with.
  have hother {c : UInt8} (hc : c ≠ code '-' ∧ isDigit c = false) : b ≠ c := by
    rintro rfl
    rcases hb with hb | hb
    · exact hc.1 hb
    · rw [hc.2] at hb
      cases hb
  refine ⟨⟨b, u, rfl, hsep⟩, ?_⟩
  intro outer ws rest hws hrest
  have hscalar : skipScalar b (u ++ rest) = .ok rest := by
    have hnumber := skipNumber_append h hrest
    rw [List.cons_append] at hnumber
    rw [skipScalar, if_neg (hother (by decide)), if_neg (hother (by decide)),
      if_neg (hother (by decide)), if_neg (hother (by decide)), if_pos (by simpa using hb), hnumber]
  exact passes_of_skipScalar hsep (hother (by decide)) (hother (by decide)) hscalar hws (by simp)

theorem getsOver_empty (bracket : Bracket) {ws : Bytes} (hws : Blanks ws) :
    GetsOver (bracket.opening :: (ws ++ [bracket.closing])) := by
  refine ⟨⟨_, _, rfl, by cases bracket <;> decide⟩, ?_⟩
  intro outer ws' rest hws' _
  refine ⟨outer, _, .here _ _, ?_, ?_⟩
  · rw [List.cons_append, skipStep_opening hws', List.append_assoc, skipAfterOpening,
      List.singleton_append, skipBlanks_blanks_cons hws bracket.isSpace_closing]
    dsimp only
    rw [if_pos rfl]
  · simp only [List.length_append, List.length_cons]
    omega

theorem getsOver_full {bracket : Bracket} {t : Bytes} (h : Enters bracket t) :
    GetsOver (bracket.opening :: (t ++ [bracket.closing])) := by
  refine ⟨⟨_, _, rfl, by cases bracket <;> decide⟩, ?_⟩
  intro outer ws' rest hws' _
  obtain ⟨lead, ws, v, tail, rfl, hlead, hws, hv, hpasses⟩ := h
  obtain ⟨b, u, ws'', hskip, hb, hws'', hshorter, hvalue⟩ :=
    skipToValue_skipBlanks hlead hws hv (tail ++ bracket.closing :: rest)
  obtain ⟨enclosing', s', hadvances, hstep, hlength⟩ := hpasses outer rest ws'' hws''
  have hshape : lead ++ (ws ++ (v ++ tail)) ++ [bracket.closing] ++ rest =
      lead ++ (ws ++ (v ++ (tail ++ bracket.closing :: rest))) := by simp
  have hfirst : skipStep outer (ws' ++ bracket.opening ::
      (lead ++ (ws ++ (v ++ (tail ++ bracket.closing :: rest))))) =
        .ok (.more (bracket :: outer) (ws'' ++ (v ++ (tail ++ bracket.closing :: rest)))) := by
    rw [skipStep_opening hws', skipAfterOpening, hskip]
    dsimp only
    rw [if_neg hb, hvalue]
  rw [List.cons_append, hshape]
  refine ⟨enclosing', s', .more hfirst ?_ hadvances, hstep, hlength⟩
  simp only [List.length_append, List.length_cons]
  omega

theorem enters_last {bracket : Bracket} {lead ws v ws' : Bytes} (hlead : Lead bracket lead)
    (hws : Blanks ws) (hv : GetsOver v) (hws' : Blanks ws') :
    Enters bracket (lead ++ (ws ++ (v ++ ws'))) := by
  obtain ⟨hstarts, hpasses⟩ := hv
  refine ⟨lead, ws, v, ws', rfl, hlead, hws, hstarts, ?_⟩
  intro outer rest ws'' hws''
  obtain ⟨enclosing', s', hadvances, hstep, hlength⟩ :=
    hpasses (bracket :: outer) ws'' (ws' ++ bracket.closing :: rest) hws''
      (hws'.ends (bracket.ends_closing rest))
  refine ⟨enclosing', s', hadvances, hstep.trans (skipAfterValue_closing hws' rest), ?_⟩
  simp only [List.length_append, List.length_cons] at hlength
  omega

theorem enters_more {bracket : Bracket} {lead ws v ws' t : Bytes} (hlead : Lead bracket lead)
    (hws : Blanks ws) (hv : GetsOver v) (hws' : Blanks ws') (ht : Enters bracket t) :
    Enters bracket (lead ++ (ws ++ (v ++ (ws' ++ code ',' :: t)))) := by
  obtain ⟨hstarts, hpasses⟩ := hv
  obtain ⟨lead₁, ws₁, v₁, tail, rfl, hlead₁, hws₁, hstarts₁, hrest⟩ := ht
  refine ⟨lead, ws, v, _, rfl, hlead, hws, hstarts, ?_⟩
  intro outer rest ws'' hws''
  have hshape : ws' ++ code ',' :: (lead₁ ++ (ws₁ ++ (v₁ ++ tail))) ++ bracket.closing :: rest =
      ws' ++ code ',' :: (lead₁ ++ (ws₁ ++ (v₁ ++ (tail ++ bracket.closing :: rest)))) := by simp
  rw [hshape]
  obtain ⟨enclosing, s, hadvances, hstep, hlength⟩ :=
    hpasses (bracket :: outer) ws'' _ hws'' (hws'.ends (ends_cons (b := code ',') (by decide) _))
  rw [skipAfterValue_comma hws' hlead₁] at hstep
  obtain ⟨enclosing', s', hadvances', hstep', hlength'⟩ := hrest outer rest ws₁ hws₁
  refine ⟨enclosing', s', hadvances.trans (.more hstep ?_ hadvances'), hstep', hlength'⟩
  simp only [List.length_append, List.length_cons] at hlength ⊢
  omega

/-- What a run gets over, and how it gets out of a bracket. -/
def Portion.Led : Portion → Bytes → Prop
  | .value, t => GetsOver t
  | .inside bracket, t => Enters bracket t

theorem Skips.led {portion : Portion} {t : Bytes} (h : Skips portion t) : portion.Led t := by
  -- A value inside a bracket is got over with that bracket open, so the open brackets are arbitrary in
  -- what is proved of each part.
  induction h with
  | text h => exact getsOver_text h
  | number h => exact getsOver_number h
  | null => exact getsOver_word (by decide) (by decide) (by decide) fun _ => rfl
  | true => exact getsOver_word (by decide) (by decide) (by decide) fun _ => rfl
  | false => exact getsOver_word (by decide) (by decide) (by decide) fun _ => rfl
  | empty bracket hws => exact getsOver_empty bracket hws
  | full _ ih => exact getsOver_full ih
  | last hlead hws _ hws' ih => exact enters_last hlead hws ih hws'
  | more hlead hws _ hws' _ ihv iht => exact enters_more hlead hws ihv hws' iht

/-- Every value is passed over. -/
theorem Skips.skipValue {ws v rest : Bytes} (hv : Skippable v) (hws : Blanks ws) (hrest : Ends rest) :
    skipValue (ws ++ v ++ rest) = .ok rest := by
  obtain ⟨-, hpasses⟩ := hv.led
  obtain ⟨enclosing, s, hadvances, hstep, -⟩ := hpasses [] ws rest hws hrest
  rw [List.append_assoc, Json.skipValue, hadvances.loop hstep]

/-! ## What is read could be passed over -/

theorem TextBody.skipped {t u : Bytes} (h : TextBody t u) : SkippedBody t := by
  induction h with
  | nil => exact .nil
  | plain h _ ih => exact .plain h ih
  | escape h _ ih =>
    cases h with
    | short h => exact .short (Option.isSome_of_eq_some h) ih
    | unicode h _ _ => exact .unicode h ih
    | pair h _ h' _ =>
      simpa using SkippedBody.unicode h (.unicode h' ih)

theorem TextOf.skipped {t : Bytes} {s : String} (h : TextOf t s) : SkippedText t := by
  obtain ⟨body, rfl, hbody⟩ := h
  exact ⟨body, rfl, hbody.skipped⟩

theorem TextOf.skippable {t : Bytes} {s : String} (h : TextOf t s) : Skippable t := .text h.skipped

theorem Numeral.skippable {t : Bytes} {n : Nat} (h : Numeral t n) : Skippable t := by
  have htext := @LiteralText.intro false t [] [] none none h.1 .absent .absent
  exact .number ⟨_, by simpa using htext⟩

end NatBehaviour.Json
