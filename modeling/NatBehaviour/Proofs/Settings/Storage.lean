import NatBehaviour.Proofs.Files.Tree
import NatBehaviour.Proofs.Settings.Fields

/-!
Settings that are saved are there to be loaded, and saving them touches no other file. What is written of
settings is read back, since they are described field by field; the rest is what the operations on the tree of
files leave as it was.
-/

namespace NatBehaviour.Settings

open NatBehaviour.Files (Location Pathname Tree)
open NatBehaviour.Json (Described Layout)
open NatBehaviour.Text

namespace Format

variable {α : Type} {f : Format α} {t : Tree} {p : Pathname} {settings : α}

theorem ofContents_written (d : Described f.record f.value) (path : String) (settings : α) :
    f.ofContents path (f.written settings) = .ok settings := by
  have hread : Json.readAll f.record.read (f.written settings) = .ok settings :=
    d.codec.readAll_write (.indented 0) settings
  have htext : Utf8.toString? (f.written settings) =
      some (String.ofList ((Layout.indented 0).chars (f.value settings))) := Utf8.toString?_encode _
  have hblank : isBlankText (String.ofList ((Layout.indented 0).chars (f.value settings))) = false := by
    obtain ⟨cs, hcs⟩ := (Layout.indented 0).chars_object (d.fields.map (·.pair settings))
    rw [d.value_eq, hcs, isBlankText, String.toList_ofList, List.all_cons, show isBlank '{' = false by decide,
      Bool.false_and]
  simp [ofContents, htext, hblank, hread]

theorem load_of_read (d : Described f.record f.value) (hcontains : t.contains p = true)
    (hread : t.read p = .ok (f.written settings)) : f.load t p = .ok settings := by
  have hsource : source t p = .contents (f.written settings) := by simp [source, hcontains, hread]
  rw [load, hsource]
  exact ofContents_written d p.text settings

/-- What may come of saving settings. Either they can be loaded under the same path, and no file has changed
but the one that the path names; or something failed, and no file has changed at all. -/
def Saved (f : Format α) (t : Tree) (p : Pathname) (settings : α) : Except Failure Unit × Tree → Prop
  | (.ok (), t') =>
    f.load t' p = .ok settings ∧
      ∃ loc, t'.target p = .ok (.named loc) ∧ t'.contents? loc = some (f.written settings) ∧
        ∀ other ≠ loc, t'.contents? other = t.contents? other
  | (.error _, t') => ∀ loc, t'.contents? loc = t.contents? loc

theorem save_saved (d : Described f.record f.value) (t : Tree) (p : Pathname) (settings : α) :
    f.Saved t p settings (f.save t p settings) := by
  have hgrown := (t.makeDirectories_grown p.directories).contents?
  unfold save
  split
  · rename_i hfailed
    rw [hfailed] at hgrown
    exact hgrown
  rename_i hmade
  rw [hmade] at hgrown
  split
  · exact hgrown
  rename_i hwritten
  obtain ⟨hcontains, hread, loc, htarget, hcontents, hothers⟩ := Tree.read_write hwritten
  exact ⟨load_of_read d hcontains hread, loc, htarget, hcontents,
    fun other hother => (hothers other hother).trans (hgrown other)⟩

end Format

/-! ## Histories -/

/-- A use of settings in files. -/
inductive Use
  | load (k : Kind) (p : Pathname)
  | save (k : Kind) (p : Pathname) (settings : k.Data)

namespace Use

/-- The tree that a use leaves. To load settings takes a tree and makes none. -/
def tree (t : Tree) : Use → Tree
  | .load _ _ => t
  | .save k p settings => (k.format.save t p settings).2

/-- What a use writes to a file, if it does. -/
def written? (t : Tree) (loc : Location) : Use → Option (List UInt8)
  | .load _ _ => none
  | .save k p settings =>
    match k.format.save t p settings with
    | (.error _, _) => none
    | (.ok (), t') =>
      match t'.target p with
      | .ok (.named other) => if other = loc then some (k.format.written settings) else none
      | _ => none

/-- What is written to a file in the end. -/
def lastWritten? (t : Tree) (loc : Location) : List Use → Option (List UInt8)
  | [] => none
  | u :: uses => (lastWritten? (u.tree t) loc uses).or (u.written? t loc)

/-- A use changes those files that it writes. -/
theorem contents?_tree (t : Tree) (loc : Location) (u : Use) :
    (u.tree t).contents? loc = (u.written? t loc).or (t.contents? loc) := by
  cases u with
  | load k p => rfl
  | save k p settings =>
    have hsaved := Format.save_saved k.described t p settings
    rw [tree, written?]
    generalize k.format.save t p settings = result at hsaved ⊢
    obtain ⟨_ | _, t'⟩ := result
    · exact hsaved loc
    obtain ⟨-, other, htarget, hcontents, hothers⟩ := hsaved
    simp only [htarget]
    by_cases hloc : other = loc
    · subst hloc
      rw [if_pos rfl, Option.some_or, hcontents]
    · rw [if_neg hloc, Option.none_or, hothers loc (Ne.symm hloc)]

theorem contents?_foldl (t : Tree) (loc : Location) (uses : List Use) :
    (uses.foldl tree t).contents? loc = (lastWritten? t loc uses).or (t.contents? loc) := by
  induction uses generalizing t with
  | nil => rfl
  | cons u uses ih => rw [List.foldl_cons, ih, contents?_tree, lastWritten?, Option.or_assoc]

end Use

/-- Whatever the tree and the path, settings that are saved can be loaded, and saving them touches no other
file; where it fails, it touches none. So after any uses of settings a file holds what the last one to succeed
with it wrote, or what it held before. -/
theorem Kind.settings_kept (t : Tree) :
    (∀ (k : Kind) (p : Pathname) (settings : k.Data),
      k.format.Saved t p settings (k.format.save t p settings)) ∧
    ∀ (uses : List Use) (loc : Location),
      (uses.foldl Use.tree t).contents? loc = (Use.lastWritten? t loc uses).or (t.contents? loc) :=
  ⟨fun k => Format.save_saved k.described t, fun uses loc => Use.contents?_foldl t loc uses⟩

/-- Saving makes the directories that the path needs. -/
example : (Probe.format.save .empty ⟨"conf/client/probe.json"⟩ .default).1.isOk = true := by decide

end NatBehaviour.Settings
