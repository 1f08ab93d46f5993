import NatBehaviour.Text.Utf8

/-!
JSON values, and their two written forms: on one line without any blanks, and over several lines with
two blanks for each level. Members of an object keep their order.
-/

namespace NatBehaviour.Json

inductive Value
  | null
  | integer (n : Int)
  | text (s : String)
  | list (elements : List Value)
  | object (members : List (String × Value))

namespace Value

/-- A control character in four hexadecimal digits. -/
def controlEscape (c : Char) : List Char :=
  ['\\', 'u', '0', '0', Nat.digitChar (c.toNat / 16), Nat.digitChar (c.toNat % 16)]

/-- Only quotes, backslashes and control characters are written with a backslash. -/
def escape (c : Char) : List Char :=
  if c = '"' then ['\\', '"']
  else if c = '\\' then ['\\', '\\']
  else if c.toNat = 0x08 then ['\\', 'b']
  else if c.toNat = 0x0C then ['\\', 'f']
  else if c = '\n' then ['\\', 'n']
  else if c = '\r' then ['\\', 'r']
  else if c = '\t' then ['\\', 't']
  else if c.toNat < 0x20 then controlEscape c
  else [c]

def quoted (s : String) : List Char := '"' :: s.toList.flatMap escape ++ ['"']

def digits (n : Int) : List Char := (toString n).toList

mutual

/-- The form on one line. -/
def compact : Value → List Char
  | .null => ['n', 'u', 'l', 'l']
  | .integer n => digits n
  | .text s => quoted s
  | .list [] => ['[', ']']
  | .list (v :: vs) => '[' :: v.compact ++ compactElements vs
  | .object [] => ['{', '}']
  | .object ((name, v) :: members) => '{' :: quoted name ++ ':' :: v.compact ++ compactMembers members

/-- The elements after the first one. -/
def compactElements : List Value → List Char
  | [] => [']']
  | v :: vs => ',' :: v.compact ++ compactElements vs

/-- The members after the first one. -/
def compactMembers : List (String × Value) → List Char
  | [] => ['}']
  | (name, v) :: members => ',' :: quoted name ++ ':' :: v.compact ++ compactMembers members

end

theorem compact_null : compact .null = ['n', 'u', 'l', 'l'] := by
  rw [compact]

theorem compactElements_nil : compactElements [] = [']'] := by
  rw [compactElements]

theorem compactMembers_nil : compactMembers [] = ['}'] := by
  rw [compactMembers]

/-- The beginning of a line at some level. -/
def newline (level : Nat) : List Char := '\n' :: List.replicate (2 * level) ' '

mutual

/-- The form over several lines, for a value that stands at some level. -/
def indented (level : Nat) : Value → List Char
  | .null => ['n', 'u', 'l', 'l']
  | .integer n => digits n
  | .text s => quoted s
  | .list [] => ['[', ']']
  | .list (v :: vs) =>
    '[' :: newline (level + 1) ++ v.indented (level + 1) ++ indentedElements level vs
  | .object [] => ['{', '}']
  | .object ((name, v) :: members) =>
    '{' :: newline (level + 1) ++ quoted name ++ ':' :: ' ' :: v.indented (level + 1) ++
      indentedMembers level members

def indentedElements (level : Nat) : List Value → List Char
  | [] => newline level ++ [']']
  | v :: vs =>
    ',' :: newline (level + 1) ++ v.indented (level + 1) ++ indentedElements level vs

def indentedMembers (level : Nat) : List (String × Value) → List Char
  | [] => newline level ++ ['}']
  | (name, v) :: members =>
    ',' :: newline (level + 1) ++ quoted name ++ ':' :: ' ' :: v.indented (level + 1) ++
      indentedMembers level members

end

theorem indented_null (level : Nat) : indented level .null = ['n', 'u', 'l', 'l'] := by
  rw [indented]

theorem indentedElements_nil (level : Nat) : indentedElements level [] = newline level ++ [']'] := by
  rw [indentedElements]

theorem indentedMembers_nil (level : Nat) : indentedMembers level [] = newline level ++ ['}'] := by
  rw [indentedMembers]

def compactText (v : Value) : String := String.ofList v.compact

def prettyText (v : Value) : String := String.ofList (v.indented 0)

end Value

end NatBehaviour.Json
