import NatBehaviour.Files.Pathname
import NatBehaviour.OsError

/-!
A tree of directories and files. A path is followed name by name from the root or from the working
directory; what stands in its way decides the error. Operations that fail half way leave what they
have done so far, so they return a tree in either case. Permission bits, special files and links are left
out: every directory may be entered and changed, every file read and written, and each has one name.
-/

namespace NatBehaviour.Files

inductive Entry
  | file (contents : List UInt8)
  | directory
  deriving DecidableEq, Repr

/-- Names from the root on. -/
abbrev Location := List String

structure Tree where
  working : Location
  entry : Location → Option Entry

namespace Tree

/-- Nothing but the root and an empty working directory. -/
def empty : Tree :=
  ⟨["work"], fun loc => if loc = [] ∨ loc = ["work"] then some .directory else none⟩

def put (t : Tree) (loc : Location) (e : Entry) : Tree :=
  { t with entry := fun other => if other = loc then some e else t.entry other }

def longestName : Nat := 255

def longestPath : Nat := 4095

/-- One step on the way to what a path names. -/
def enter (t : Tree) (loc : Location) (name : String) : Except OsError Location :=
  if name = "." then .ok loc
  else if name = ".." then .ok loc.dropLast
  else if longestName < name.utf8ByteSize then .error .nameTooLong
  else
    match t.entry (loc ++ [name]) with
    | none => .error .notFound
    | some (.file _) => .error .notADirectory
    | some .directory => .ok (loc ++ [name])

/-- Checks a path before it is followed at all. -/
def wellFormed (p : Pathname) : Except OsError Unit :=
  if p.text.toList.contains '\x00' then .error .nulInName
  else if p.text.isEmpty then .error .notFound
  else if longestPath < p.text.utf8ByteSize then .error .nameTooLong
  else .ok ()

/-- What the last name of a path refers to. -/
inductive Target
  /-- A directory that has no name here: the root, or one that dots refer to. -/
  | unnamed
  | named (loc : Location)

/-- Follows a path up to its last name. -/
def target (t : Tree) (p : Pathname) : Except OsError Target := do
  wellFormed p
  let start := if p.isAbsolute then [] else t.working
  let loc ← p.names.dropLast.foldlM t.enter start
  match p.names.getLast? with
  | none => return .unnamed
  | some name =>
    if name = "." ∨ name = ".." then return .unnamed
    else return .named (loc ++ [name])

/-- The name that a location has in its directory. -/
def nameFits (loc : Location) : Bool := (loc.getLastD "").utf8ByteSize ≤ longestName

/-- What a path names. -/
def find (t : Tree) (p : Pathname) : Except OsError Entry := do
  match ← t.target p with
  | .unnamed => return .directory
  | .named loc =>
    if !nameFits loc then throw .nameTooLong
    match t.entry loc with
    | none => throw .notFound
    | some .directory => return .directory
    | some (.file contents) =>
      if p.endsInSlash then throw .notADirectory
      return .file contents

def contains (t : Tree) (p : Pathname) : Bool := (t.find p).isOk

def isDirectory (t : Tree) (p : Pathname) : Bool :=
  match t.find p with
  | .ok .directory => true
  | _ => false

def read (t : Tree) (p : Pathname) : Except OsError (List UInt8) := do
  match ← t.find p with
  | .directory => throw .isADirectory
  | .file contents => return contents

/-- Replaces the contents of a file, or makes a new one in a directory that exists. -/
def write (t : Tree) (p : Pathname) (contents : List UInt8) : Except OsError Tree := do
  match ← t.target p with
  | .unnamed => throw .isADirectory
  | .named loc =>
    if p.endsInSlash then throw .isADirectory
    if !nameFits loc then throw .nameTooLong
    match t.entry loc with
    | some .directory => throw .isADirectory
    | _ => return t.put loc (.file contents)

def makeDirectory (t : Tree) (p : Pathname) : Except OsError Tree := do
  match ← t.target p with
  | .unnamed => throw .fileExists
  | .named loc =>
    if !nameFits loc then throw .nameTooLong
    match t.entry loc with
    | some _ => throw .fileExists
    | none => return t.put loc .directory

/-- What an attempt to make a directory comes to: one that is there already will do. -/
def directoryOr (t : Tree) (p : Pathname) (error : OsError) : Except OsError Unit × Tree :=
  if t.isDirectory p then (.ok (), t) else (.error error, t)

/-- Makes the first of some directories, if need be after those that it stands in, which follow. -/
def makeDirectories (t : Tree) : List Pathname → Except OsError Unit × Tree
  | [] => (.ok (), t)
  | p :: outer =>
    match t.makeDirectory p with
    | .ok t => (.ok (), t)
    | .error .notFound =>
      match t.makeDirectories outer with
      | (.error e, t) => (.error e, t)
      | (.ok (), t) =>
        match t.makeDirectory p with
        | .ok t => (.ok (), t)
        | .error e => t.directoryOr p e
    | .error e => t.directoryOr p e

end Tree

end NatBehaviour.Files
