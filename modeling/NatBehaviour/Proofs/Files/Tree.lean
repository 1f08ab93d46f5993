import NatBehaviour.Files.Tree

/-!
What the operations on a tree leave as it was. Making directories adds directories and nothing else, also
where it fails half way. Writing a file changes what the path names and nothing else, and what was written
is there to be read.
-/

namespace NatBehaviour.Files.Tree

variable {t t' t'' : Tree} {p : Pathname} {loc start : Location} {contents : List UInt8}

/-- The contents of a file. -/
def contents? (t : Tree) (loc : Location) : Option (List UInt8) :=
  match t.entry loc with
  | some (.file contents) => some contents
  | _ => none

/-! ## Directories -/

/-- A tree with some more directories, where nothing was before. -/
structure Grown (t t' : Tree) : Prop where
  working : t'.working = t.working
  entry : ∀ loc, t'.entry loc = t.entry loc ∨ t.entry loc = none ∧ t'.entry loc = some .directory

namespace Grown

theorem refl (t : Tree) : Grown t t := ⟨rfl, fun _ => .inl rfl⟩

theorem trans (h : Grown t t') (h' : Grown t' t'') : Grown t t'' where
  working := h'.working.trans h.working
  entry := by
    intro loc
    rcases h.entry loc with hsame | ⟨hnone, hnew⟩
    · rcases h'.entry loc with hsame' | ⟨hnone', hnew'⟩
      · exact .inl (hsame'.trans hsame)
      · exact .inr ⟨hsame ▸ hnone', hnew'⟩
    · rcases h'.entry loc with hsame' | ⟨hnone', -⟩
      · exact .inr ⟨hnone, hsame'.trans hnew⟩
      · rw [hnew] at hnone'
        cases hnone'

/-- More directories make no difference to files. -/
theorem contents? (h : Grown t t') (loc : Location) : t'.contents? loc = t.contents? loc := by
  unfold Tree.contents?
  rcases h.entry loc with hsame | ⟨hnone, hnew⟩
  · rw [hsame]
  · rw [hnone, hnew]

end Grown

theorem makeDirectory_grown (h : t.makeDirectory p = .ok t') : Grown t t' := by
  simp only [makeDirectory, bind, Except.bind, throw, throwThe, MonadExceptOf.throw, pure,
    Except.pure] at h
  split at h
  · cases h
  split at h
  · cases h
  rename_i loc _
  split at h
  · cases h
  split at h
  · cases h
  rename_i hnone
  cases h
  refine ⟨rfl, fun other => ?_⟩
  by_cases hother : other = loc
  · subst hother
    exact .inr ⟨hnone, if_pos rfl⟩
  · exact .inl (if_neg hother)

theorem directoryOr_grown (t : Tree) (p : Pathname) (e : OsError) : Grown t (t.directoryOr p e).2 := by
  unfold directoryOr
  split
  · exact .refl t
  · exact .refl t

/-- Whether the directories can all be made or not, those that were made are all that is new. -/
theorem makeDirectories_grown (t : Tree) (ps : List Pathname) : Grown t (t.makeDirectories ps).2 := by
  induction ps generalizing t with
  | nil => exact .refl t
  | cons p outer ih =>
    unfold makeDirectories
    split
    · rename_i t₁ hmade
      exact makeDirectory_grown hmade
    · have houter := ih t
      split
      · rename_i e t₁ hfailed
        rw [hfailed] at houter
        exact houter
      · rename_i t₁ hmade
        rw [hmade] at houter
        split
        · rename_i t₂ hmade'
          exact houter.trans (makeDirectory_grown hmade')
        · exact houter.trans (directoryOr_grown t₁ p _)
    · exact directoryOr_grown t p _

/-! ## Files -/

theorem contents?_put (t : Tree) (loc : Location) (contents : List UInt8) :
    (t.put loc (.file contents)).contents? loc = some contents := by
  simp [contents?, put]

theorem contents?_put_of_ne (t : Tree) (contents : List UInt8) {other : Location} (h : other ≠ loc) :
    (t.put loc (.file contents)).contents? other = t.contents? other := by
  simp [contents?, put, h]

/-- A file is written where the path leads, if that is not a directory. -/
theorem write_eq_ok (h : t.write p contents = .ok t') :
    ∃ loc, t.target p = .ok (.named loc) ∧ t.entry loc ≠ some .directory ∧ nameFits loc = true ∧
      p.endsInSlash = false ∧ t' = t.put loc (.file contents) := by
  simp only [write, bind, Except.bind, throw, throwThe, MonadExceptOf.throw, pure, Except.pure] at h
  split at h
  · cases h
  rename_i target htarget
  split at h
  · cases h
  rename_i loc
  split at h
  · cases h
  rename_i hslash
  split at h
  · cases h
  rename_i hfits
  split at h
  · cases h
  rename_i hentry
  cases h
  exact ⟨loc, htarget, hentry, by simpa using hfits, by simpa using hslash, rfl⟩

/-- A file in place of no directory does not stand in the way of what could be entered before. -/
theorem enter_put {name : String} {next : Location} (hloc : t.entry loc ≠ some .directory)
    (h : t.enter start name = .ok next) : (t.put loc (.file contents)).enter start name = .ok next := by
  unfold enter at h ⊢
  split
  · rwa [if_pos ‹_›] at h
  rw [if_neg ‹_›] at h
  split
  · rwa [if_pos ‹_›] at h
  rw [if_neg ‹_›] at h
  split
  · rwa [if_pos ‹_›] at h
  rw [if_neg ‹_›] at h
  split at h
  · cases h
  · cases h
  · rename_i hdirectory
    have hne : start ++ [name] ≠ loc := by
      intro he
      exact hloc (he ▸ hdirectory)
    simp only [put, if_neg hne, hdirectory]
    exact h

theorem foldlM_enter_put {names : List String} {last : Location} (hloc : t.entry loc ≠ some .directory)
    (h : names.foldlM t.enter start = .ok last) :
    names.foldlM (t.put loc (.file contents)).enter start = .ok last := by
  induction names generalizing start with
  | nil => exact h
  | cons name rest ih =>
    rw [List.foldlM_cons] at h ⊢
    cases henter : t.enter start name with
    | error e =>
      rw [henter] at h
      cases h
    | ok next =>
      rw [henter] at h
      rw [enter_put hloc henter]
      exact ih h

theorem target_put {target : Target} (hloc : t.entry loc ≠ some .directory)
    (h : t.target p = .ok target) : (t.put loc (.file contents)).target p = .ok target := by
  simp only [Tree.target, bind, Except.bind] at h ⊢
  split at h
  · cases h
  split at h
  · cases h
  rename_i last hlast
  have hstart : (t.put loc (.file contents)).working = t.working := rfl
  rw [hstart, foldlM_enter_put hloc hlast]
  exact h

/-- What can be read is there. -/
theorem contains_of_read (h : t.read p = .ok contents) : t.contains p = true := by
  rw [contains]
  cases hfind : t.find p with
  | ok e => rfl
  | error e =>
    rw [read, hfind] at h
    cases h

/-- What was written can be read under the same path, and all other files are as they were. -/
theorem read_write (h : t.write p contents = .ok t') :
    t'.contains p = true ∧ t'.read p = .ok contents ∧
      ∃ loc, t'.target p = .ok (.named loc) ∧ t'.contents? loc = some contents ∧
        ∀ other ≠ loc, t'.contents? other = t.contents? other := by
  obtain ⟨loc, htarget, hentry, hfits, hslash, rfl⟩ := write_eq_ok h
  have htarget' : (t.put loc (.file contents)).target p = .ok (.named loc) := target_put hentry htarget
  have hput : (t.put loc (.file contents)).entry loc = some (.file contents) := if_pos rfl
  have hfind : (t.put loc (.file contents)).find p = .ok (.file contents) := by
    simp [find, htarget', hfits, hput, hslash, bind, Except.bind, pure, Except.pure]
  refine ⟨?_, ?_, loc, htarget', contents?_put t loc contents, ?_⟩
  · rw [contains, hfind]
    rfl
  · rw [read, hfind]
    rfl
  · intro other hother
    exact contents?_put_of_ne t contents hother

end NatBehaviour.Files.Tree
