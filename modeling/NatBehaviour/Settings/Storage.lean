import NatBehaviour.Files.Tree
import NatBehaviour.Settings.Probe
import NatBehaviour.Settings.Responder
import NatBehaviour.Text.Utf8

/-!
Settings kept in files. A file that is missing or blank gives the default settings; settings that are
saved are written over several lines, in a directory that is made if need be.
-/

namespace NatBehaviour.Settings

open NatBehaviour.Files (Pathname Tree)
open NatBehaviour.Json (Record Value)
open NatBehaviour.Text (Utf8.encode Utf8.ofString Utf8.toString? isBlankText)

/-- What there is at a path. -/
inductive Source
  | missing
  | unreadable (error : OsError)
  | contents (bytes : List UInt8)
  deriving DecidableEq, Repr

/-- What a tree has at a path. Whatever cannot be reached counts as missing. -/
def source (t : Tree) (p : Pathname) : Source :=
  if !t.contains p then .missing
  else
    match t.read p with
    | .error e => .unreadable e
    | .ok bytes => .contents bytes

/-- A kind of settings: how they are read and written. -/
structure Format (α : Type) where
  record : Record α
  value : α → Value

def Probe.format : Format Probe := ⟨Probe.record, Probe.value⟩

def Responder.format : Format Responder := ⟨Responder.record, Responder.value⟩

namespace Format

variable {α : Type}

def written (f : Format α) (settings : α) : List UInt8 := Utf8.encode ((f.value settings).indented 0)

/-- The settings in the contents of a file. -/
def ofContents (f : Format α) (path : String) (contents : List UInt8) : Except Failure α :=
  match Utf8.toString? contents with
  | none => .error (.config (.unreadable path .notText))
  | some text =>
    if isBlankText text then .ok f.record.initial
    else
      match Json.readAll f.record.read contents with
      | .ok settings => .ok settings
      | .error cause => .error (.config (.malformed path cause))

/-- The settings at a path where something was found, or nothing. -/
def ofSource (f : Format α) (path : String) : Source → Except Failure α
  | .missing => .ok f.record.initial
  | .unreadable e => .error (.config (.unreadable path e))
  | .contents bytes => f.ofContents path bytes

def load (f : Format α) (t : Tree) (p : Pathname) : Except Failure α := f.ofSource p.text (source t p)

/-- Saves settings. The tree keeps the directories that were made before something failed. -/
def save (f : Format α) (t : Tree) (p : Pathname) (settings : α) : Except Failure Unit × Tree :=
  match t.makeDirectories p.directories with
  | (.error e, t) => (.error (.config (.noDirectory e)), t)
  | (.ok (), t) =>
    match t.write p (f.written settings) with
    | .error e => (.error (.config (.unwritable p.text e)), t)
    | .ok t => (.ok (), t)

end Format

end NatBehaviour.Settings
