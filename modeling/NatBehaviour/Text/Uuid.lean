/-!
Universally unique identifiers. They are written as five groups of hexadecimal digits with hyphens in
between, and read in that form, without the hyphens, between braces, or as a uniform resource name.
-/

namespace NatBehaviour.Text

structure Uuid where
  value : BitVec 128
  deriving DecidableEq, Repr

namespace Uuid

/-- The identifier of version 4 made of random bits. -/
def ofRandom (bits : BitVec 128) : Uuid :=
  let version := 4 <<< 76
  let variant := 2 <<< 62
  let fixed : BitVec 128 := 15 <<< 76 ||| 3 <<< 62
  ⟨(bits &&& ~~~fixed) ||| version ||| variant⟩

def version (u : Uuid) : Nat := (u.value >>> 76).toNat % 16

/-- The thirty-two hexadecimal digits, the highest one first. -/
def nibbles (u : Uuid) : List Nat :=
  (List.range 32).map fun i => u.value.toNat >>> (4 * (31 - i)) % 16

def chars (u : Uuid) : List Char :=
  let ds := u.nibbles.map Nat.digitChar
  ds.take 8 ++ '-' :: (ds.drop 8).take 4 ++ '-' :: (ds.drop 12).take 4 ++ '-' :: (ds.drop 16).take 4 ++
    '-' :: ds.drop 20

def text (u : Uuid) : String := String.ofList u.chars

/-- The lengths of the five groups. -/
def groupLengths : List Nat := [8, 4, 4, 4, 12]

/-- Why a text is no identifier. -/
inductive Fault
  | character (c : Char) (position : Nat)
  | length (found : Nat)
  | groupCount (found : Nat)
  | groupLength (group : Nat) (found : Nat)
  deriving DecidableEq, Repr

def Fault.message : Fault → String
  | .character c position => "invalid character: found `" ++ c.toString ++ s!"` at {position}"
  | .length found => s!"invalid length: found {found}"
  | .groupCount found => s!"invalid group count: expected 5, found {found}"
  | .groupLength group found =>
    let expected := groupLengths.getD group 0
    s!"invalid group length in group {group}: expected {expected}, found {found}"

def digit? (c : Char) : Option Nat :=
  if '0' ≤ c ∧ c ≤ '9' then some (c.toNat - '0'.toNat)
  else if 'a' ≤ c ∧ c ≤ 'f' then some (c.toNat - 'a'.toNat + 10)
  else if 'A' ≤ c ∧ c ≤ 'F' then some (c.toNat - 'A'.toNat + 10)
  else none

def ofDigits? (s : List Char) : Option Uuid :=
  (s.mapM digit?).map fun ds => ⟨BitVec.ofNat 128 (ds.foldl (fun n d => n * 16 + d) 0)⟩

/-- Splits a text at its hyphens. -/
def groups : List Char → List (List Char)
  | [] => [[]]
  | c :: s =>
    match groups s with
    | [] => [[c]]
    | g :: gs => if c = '-' then [] :: g :: gs else (c :: g) :: gs

/-- What stands in front of an identifier that is written as a resource name, in any case. -/
def urn : List Char := ['u', 'r', 'n', ':', 'u', 'u', 'i', 'd', ':']

/-- The number of bytes of a text. -/
def size (s : List Char) : Nat := s.foldl (fun size c => size + c.utf8Size) 0

/-- The length of the longest written form. -/
def longest : Nat := 45

def betweenBraces? (s : List Char) : Option (List Char) :=
  if s.head? = some '{' ∧ s.getLast? = some '}' ∧ 2 ≤ s.length then some s.tail.dropLast else none

def behindUrn? (s : List Char) : Option (List Char) :=
  if urn.isPrefixOf (s.map Char.toLower) then some (s.drop urn.length) else none

/-- The part of a text where the five groups stand, if the text has the length of a form that has
them. -/
def hyphenated? (s : List Char) : Option (List Char) :=
  match size s with
  | 36 => some s
  | 38 => betweenBraces? s
  | 45 => behindUrn? s
  | _ => none

/-- Five groups of the right lengths. -/
def ofGroups? (s : List Char) : Option Uuid :=
  let gs := groups s
  if gs.map (·.length) = groupLengths then ofDigits? gs.flatten else none

def ofChars? (s : List Char) : Option Uuid :=
  if size s = 32 then ofDigits? s else (hyphenated? s).bind ofGroups?

/-- The first group with the wrong length. The last one is blamed where the others are right; it is
taken to reach to the end of the text. -/
def wrongGroup (gs : List (List Char)) (length : Nat) : Fault :=
  match (gs.zip groupLengths).findIdx? fun (g, n) => g.length ≠ n with
  | some 4 | none => .groupLength 4 (length - 24)
  | some i => .groupLength i (gs.getD i []).length

/-- What is wrong with groups that begin at some position of a text: the first character that does not
belong there, their number, or the length of one. -/
def groupsFault (s : List Char) (position length : Nat) : Fault :=
  match s.findIdx? fun c => c ≠ '-' ∧ (digit? c).isNone with
  | some i => .character (s.getD i ' ') (position + i)
  | none =>
    let gs := groups s
    if gs.length ≠ 5 then .groupCount gs.length else wrongGroup gs length

/-- What is wrong with a text that does not have the length of any form with groups. A wrapping still
shows which form was meant, and mere digits mean the one without hyphens. -/
def shapeFault (s : List Char) : Fault :=
  match betweenBraces? s, behindUrn? s with
  | some inside, _ => groupsFault inside 1 (size s)
  | none, some inside => groupsFault inside urn.length (size s)
  | none, none =>
    if s.all fun c => (digit? c).isSome then .length (size s) else groupsFault s 0 (size s)

/-- What is wrong with a text that is no identifier. Positions are counted from the first group where
the text has the right length, and else from the beginning of the text. -/
def fault (s : List Char) : Fault :=
  if longest < size s then .length (size s)
  else
    match hyphenated? s with
    | some inside => groupsFault inside 0 (size inside)
    | none => shapeFault s

/-- What the identifier is called where something else was found. -/
def description : String := "a formatted UUID string"

def ofString (s : String) : Except String Uuid :=
  match ofChars? s.toList with
  | some u => .ok u
  | none => .error ("UUID parsing failed: " ++ (fault s.toList).message)

end Uuid

end NatBehaviour.Text
