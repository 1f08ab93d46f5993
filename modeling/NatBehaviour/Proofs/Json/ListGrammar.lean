import NatBehaviour.Proofs.Json.RecordGrammar

/-!
The grammar of lists: any number of elements with commas between them, none behind the last one.
-/

namespace NatBehaviour.Json

variable {α : Type} {read : Reader α} {G : Bytes → α → Prop}

/-- A list as it is written. -/
def ListText (G : Bytes → α → Prop) (t : Bytes) (as : List α) : Prop :=
  ∃ u, t = code '[' :: (u ++ [code ']']) ∧ Listed G u as

/-! ## One element -/

theorem elementStep_eq_done_iff {before after : List α} {s rest : Bytes} :
    elementStep read before s = .ok (.done after rest) ↔
      ∃ a ws, Blanks ws ∧ read s = .ok (a, ws ++ code ']' :: rest) ∧ after = a :: before := by
  constructor
  · intro h
    unfold elementStep at h
    split at h
    · cases h
    rename_i a s' hread
    split at h
    · cases h
    rename_i b t hskip
    obtain ⟨ws, hws, rfl⟩ := exists_blanks_cons hskip
    split at h
    · rename_i hb
      cases h
      exact ⟨a, ws, hws, hb ▸ hread, rfl⟩
    split at h
    · split at h
      · cases h
      · split at h <;> cases h
    · cases h
  · intro h
    obtain ⟨a, ws, hws, hread, rfl⟩ := h
    rw [elementStep, hread]
    dsimp only
    rw [skipBlanks_blanks_cons hws rfl]
    dsimp only
    rw [if_pos rfl]

theorem elementStep_eq_more_iff {before after : List α} {s rest : Bytes} :
    elementStep read before s = .ok (.more after rest) ↔
      ∃ a ws u, Blanks ws ∧ read s = .ok (a, ws ++ code ',' :: u) ∧ after = a :: before ∧
        rest = skipBlanks u ∧ ∃ b v, rest = b :: v ∧ b ≠ code ']' := by
  constructor
  · intro h
    unfold elementStep at h
    split at h
    · cases h
    rename_i a s' hread
    split at h
    · cases h
    rename_i b t hskip
    obtain ⟨ws, hws, rfl⟩ := exists_blanks_cons hskip
    split at h
    · cases h
    split at h
    · rename_i hb
      split at h
      · cases h
      rename_i c u hnext
      split at h
      · cases h
      · rename_i hc
        cases h
        exact ⟨a, ws, t, hws, hb ▸ hread, rfl, hnext.symm, c, u, rfl, hc⟩
    · cases h
  · intro h
    obtain ⟨a, ws, u, hws, hread, rfl, hrest, b, v, rfl, hb⟩ := h
    rw [elementStep, hread]
    dsimp only
    rw [skipBlanks_blanks_cons hws rfl]
    dsimp only
    rw [if_neg (by decide), if_pos rfl, ← hrest]
    dsimp only
    rw [if_neg hb]

/-! ## All elements -/

theorem separated_of_elements (h : Reads read G) {before after : List α} {s rest : Bytes}
    (hloop : loop (elementStep read) before s = .ok (after, rest)) :
    ∃ t as, s = t ++ code ']' :: rest ∧ Separated G t as ∧ after = as.reverse ++ before := by
  refine loop_induction (P := fun before s after rest =>
    ∃ t as, s = t ++ code ']' :: rest ∧ Separated G t as ∧ after = as.reverse ++ before) ?_ ?_ hloop
  · intro before s after rest hstep
    obtain ⟨a, ws', hws', hread, rfl⟩ := elementStep_eq_done_iff.mp hstep
    obtain ⟨ws, t, hws, rfl, ht⟩ := h.sound hread
    exact ⟨ws ++ (t ++ ws'), [a], by simp, .last hws ht hws', rfl⟩
  · intro before s before' s' after rest hstep ih
    obtain ⟨a, ws', u, hws', hread, rfl, hu, -⟩ := elementStep_eq_more_iff.mp hstep
    obtain ⟨v, as, hv, has, rfl⟩ := ih
    obtain ⟨ws, t, hws, rfl, ht⟩ := h.sound hread
    obtain ⟨blanks, hblanks, hskipped⟩ := exists_blanks u
    refine ⟨ws ++ (t ++ (ws' ++ code ',' :: (blanks ++ v))), a :: as, ?_,
      .more hws ht hws' (has.blanks hblanks), by simp⟩
    rw [hskipped, ← hu, hv]
    simp

/-- What stands behind the opening bracket or a comma is an element. -/
theorem skipBlanks_elements (h : Reads read G) {t : Bytes} {as : List α} (has : Separated G t as)
    (rest : Bytes) : ∃ b v, skipBlanks (t ++ code ']' :: rest) = b :: v ∧ b ≠ code ']' := by
  obtain ⟨ws, v, u, a, as', rfl, rfl, -⟩ := has.first
  obtain ⟨b, w, hnext, hb, -⟩ := has.skipBlanks (fun _ => h.starts) (code ']' :: rest)
  refine ⟨b, _, hnext, ?_⟩
  intro he
  rw [he] at hb
  cases hb

/-- From the first element on the loop takes all of them and the bracket behind them. -/
theorem elements_separated (h : Reads read G) {t : Bytes} {as : List α} (has : Separated G t as)
    (rest : Bytes) (before : List α) :
    ∃ before' s', Advances (elementStep read) before (skipBlanks (t ++ code ']' :: rest)) before' s' ∧
      elementStep read before' s' = .ok (.done (as.reverse ++ before) rest) := by
  induction has generalizing before with
  | @last ws t ws' a hws ht hws' =>
    have hends : Ends (ws' ++ code ']' :: rest) := hws'.ends (ends_cons rfl rest)
    have hskip : skipBlanks (ws ++ (t ++ ws') ++ code ']' :: rest) = t ++ (ws' ++ code ']' :: rest) := by
      simpa using (h.starts ht).skipBlanks hws (ws' ++ code ']' :: rest)
    rw [hskip]
    exact ⟨before, _, .here _ _,
      elementStep_eq_done_iff.mpr ⟨a, ws', hws', h.complete .nil ht hends, rfl⟩⟩
  | @more ws t ws' u a as hws ht hws' hmore ih =>
    obtain ⟨before', s', hadvances, hdone⟩ := ih (a :: before)
    have hends : Ends (ws' ++ code ',' :: (u ++ code ']' :: rest)) := hws'.ends (ends_cons rfl _)
    have hskip : skipBlanks (ws ++ (t ++ (ws' ++ code ',' :: u)) ++ code ']' :: rest) =
        t ++ (ws' ++ code ',' :: (u ++ code ']' :: rest)) := by
      simpa using (h.starts ht).skipBlanks hws (ws' ++ code ',' :: (u ++ code ']' :: rest))
    have hstep : elementStep read before (t ++ (ws' ++ code ',' :: (u ++ code ']' :: rest))) =
        .ok (.more (a :: before) (skipBlanks (u ++ code ']' :: rest))) :=
      elementStep_eq_more_iff.mpr ⟨a, ws', _, hws', h.complete .nil ht hends, rfl, rfl,
        skipBlanks_elements h hmore rest⟩
    have hshorter : (skipBlanks (u ++ code ']' :: rest)).length <
        (t ++ (ws' ++ code ',' :: (u ++ code ']' :: rest))).length := by
      have hle : (skipBlanks (u ++ code ']' :: rest)).length ≤ (u ++ code ']' :: rest).length :=
        (List.dropWhile_suffix isSpace).length_le
      simp only [List.length_append, List.length_cons] at hle ⊢
      omega
    rw [hskip, List.reverse_cons, List.append_assoc]
    exact ⟨before', s', .more hstep hshorter hadvances, hdone⟩

/-! ## Lists -/

theorem reads_list (h : Reads read G) : Reads (readList read) (ListText G) where
  sound := by
    intro s rest as hlist
    unfold readList at hlist
    split at hlist
    · cases hlist
    rename_i b t hskip
    obtain ⟨ws, hws, rfl⟩ := exists_blanks_cons hskip
    split at hlist
    · rename_i hb
      subst hb
      split at hlist
      · cases hlist
      rename_i c u hinside
      obtain ⟨ws', hws', rfl⟩ := exists_blanks_cons hinside
      split at hlist
      · rename_i hc
        cases hlist
        exact ⟨ws, _, hws, by rw [hc]; simp, ws', rfl, .inl ⟨hws', rfl⟩⟩
      · unfold Reader.map at hlist
        split at hlist
        · cases hlist
        rename_i after rest' hloop
        cases hlist
        obtain ⟨v, as, hv, has, rfl⟩ := separated_of_elements h hloop
        rw [List.append_nil, List.reverse_reverse]
        exact ⟨ws, _, hws, by rw [hv]; simp, ws' ++ v, rfl, .inr (has.blanks hws')⟩
    · unfold mismatch at hlist
      split at hlist <;> cases hlist
  complete := by
    intro ws t rest as hws hlist hrest
    obtain ⟨u, rfl, hlisted⟩ := hlist
    have hshape : ws ++ code '[' :: (u ++ [code ']']) ++ rest = ws ++ code '[' :: (u ++ code ']' :: rest) := by
      simp
    rw [hshape, readList, skipBlanks_blanks_cons hws rfl]
    dsimp only
    rw [if_pos rfl]
    rcases hlisted with ⟨hu, rfl⟩ | has
    · rw [skipBlanks_blanks_cons hu rfl]
      dsimp only
      rw [if_pos rfl]
    · obtain ⟨before, s, hadvances, hdone⟩ := elements_separated h has rest []
      have hloop := hadvances.loop hdone
      obtain ⟨b, v, hnext, hb⟩ := skipBlanks_elements h has rest
      rw [hnext, List.append_nil] at hloop
      rw [hnext]
      dsimp only
      rw [if_neg hb, Reader.map, hloop]
      dsimp only
      rw [List.reverse_reverse]
  starts := by
    intro t as hlist
    obtain ⟨u, rfl, -⟩ := hlist
    exact ⟨_, _, rfl, rfl⟩

end NatBehaviour.Json
