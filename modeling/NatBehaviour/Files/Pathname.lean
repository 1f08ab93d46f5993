/-!
Names of files. A slash separates the parts of a path; empty parts and single dots, but for one in
front, stand for nothing.
-/

namespace NatBehaviour.Files

structure Pathname where
  text : String
  deriving DecidableEq, Repr

namespace Pathname

/-- Splits a list at every slash. -/
def splitSlashes : List Char → List (List Char)
  | [] => [[]]
  | c :: s =>
    match splitSlashes s with
    | [] => [[c]]
    | part :: parts => if c = '/' then [] :: part :: parts else (c :: part) :: parts

/-- The parts between the slashes. -/
def parts (p : Pathname) : List (List Char) := splitSlashes p.text.toList

/-- The names on the way from the directory where the path starts. -/
def names (p : Pathname) : List String := (p.parts.filter (· ≠ [])).map String.ofList

def isAbsolute (p : Pathname) : Bool := p.text.toList.head? = some '/'

/-- A slash in the end calls for a directory. -/
def endsInSlash (p : Pathname) : Bool := p.text.toList.getLast? = some '/'

/-- Whether a part at some position names something. -/
def isReal (index : Nat) (part : List Char) : Bool := part ≠ [] && (part ≠ ['.'] || index = 0)

/-- The positions of the parts that name something. -/
def realPositions (p : Pathname) : List Nat :=
  p.parts.zipIdx.filterMap fun (part, i) => if isReal i part then some i else none

/-- The path up to the part at some position. -/
def upTo (p : Pathname) (index : Nat) : Pathname :=
  ⟨String.ofList (['/'].intercalate (p.parts.take (index + 1)))⟩

/-- The directories that the path names on its way, the innermost one first. -/
def directories (p : Pathname) : List Pathname := p.realPositions.dropLast.reverse.map p.upTo

end Pathname

end NatBehaviour.Files
