import NatBehaviour.Json.Number
import NatBehaviour.Json.Text

/-!
Readers for values of one kind: numbers in a range, texts, words, lists and enumerations. A value of
another kind is read far enough to say what was found instead.
-/

namespace NatBehaviour.Json

/-- What stands at the front of the input; the inside of a list or an object is not looked at. -/
def found (s : Bytes) : Except Cause Found :=
  match s with
  | [] => .error .endInValue
  | b :: t =>
    if b = code '"' then (readText t).map fun (text, _) => .text text
    else if b = code 'n' then (readWord ['u', 'l', 'l'] t).map fun _ => .null
    else if b = code 't' then (readWord ['r', 'u', 'e'] t).map fun _ => .boolean true
    else if b = code 'f' then (readWord ['a', 'l', 's', 'e'] t).map fun _ => .boolean false
    else if b = code '-' || isDigit b then (readNumber s).map fun (n, _) => .number n
    else if b = code '[' then .ok .list
    else if b = code '{' then .ok .object
    else .error .expectedValue

/-- Refuses a value that is not of the expected kind. -/
def mismatch {α : Type} (expected : String) (s : Bytes) : Except Cause α :=
  match found s with
  | .error cause => .error cause
  | .ok found => .error (.wrongKind found expected)

/-- An integer that lies between two bounds. -/
def readInteger (least greatest : Int) (expected : String) (s : Bytes) :
    Except Cause (Int × Bytes) :=
  match skipBlanks s with
  | [] => .error .endInValue
  | b :: t =>
    if b = code '-' || isDigit b then
      match readNumber (b :: t) with
      | .error cause => .error cause
      | .ok (.real negative x, _) => .error (.wrongKind (.number (.real negative x)) expected)
      | .ok (.integer n, s) =>
        if least ≤ n ∧ n ≤ greatest then .ok (n, s) else .error (.outOfRange n expected)
    else mismatch expected (b :: t)

def readNatBelow (limit : Nat) (expected : String) (s : Bytes) : Except Cause (Nat × Bytes) :=
  match readInteger 0 (limit - 1) expected s with
  | .error cause => .error cause
  | .ok (n, s) => .ok (n.toNat, s)

/-- Applies a function to the value that a reader takes off. -/
def Reader.map {α β : Type} (f : α → β) (read : Reader α) : Reader β := fun s =>
  match read s with
  | .error cause => .error cause
  | .ok (a, s) => .ok (f a, s)

/-- Applies a function that may refuse the value, for a reason of its own. -/
def Reader.accept {α β : Type} (f : α → Except String β) (read : Reader α) : Reader β := fun s =>
  match read s with
  | .error cause => .error cause
  | .ok (a, s) =>
    match f a with
    | .error reason => .error (.refused reason)
    | .ok b => .ok (b, s)

def readUInt8 : Reader UInt8 := .map Nat.toUInt8 (readNatBelow UInt8.size "u8")

def readUInt16 : Reader UInt16 := .map Nat.toUInt16 (readNatBelow UInt16.size "u16")

def readUInt32 : Reader UInt32 := .map Nat.toUInt32 (readNatBelow UInt32.size "u32")

def readUInt64 : Reader UInt64 := .map Nat.toUInt64 (readNatBelow UInt64.size "u64")

/-- A count of things in memory: a word of 64 bits. -/
def readSize : Reader UInt64 := .map Nat.toUInt64 (readNatBelow UInt64.size "usize")

def readInt64 : Reader Int64 :=
  .map Int64.ofInt (readInteger Int64.minValue.toInt Int64.maxValue.toInt "i64")

/-- A text where one is expected. -/
def readTextAs (expected : String) (s : Bytes) : Except Cause (String × Bytes) :=
  match skipBlanks s with
  | [] => .error .endInValue
  | b :: t => if b = code '"' then readText t else mismatch expected (b :: t)

def readString : Reader String := readTextAs "a string"

/-- The word `null`, or a value. -/
def readOptional {α : Type} (read : Reader α) (s : Bytes) : Except Cause (Option α × Bytes) :=
  match skipBlanks s with
  | [] => .error .endInValue
  | b :: t =>
    if b = code 'n' then
      match readWord ['u', 'l', 'l'] t with
      | .error cause => .error cause
      | .ok s => .ok (none, s)
    else Reader.map some read (b :: t)

/-- The word `null` where nothing else is expected. -/
def readUnit (s : Bytes) : Except Cause Bytes :=
  match skipBlanks s with
  | [] => .error .endInValue
  | b :: t =>
    if b = code 'n' then readWord ['u', 'l', 'l'] t else mismatch "unit" (b :: t)

/-- Reads an element of a list and what follows it: the end of the list or the next element. The
elements before it are kept last one first. -/
def elementStep {α : Type} (read : Reader α) (before : List α) (s : Bytes) :
    Except Cause (Step (List α)) :=
  match read s with
  | .error cause => .error cause
  | .ok (a, s) =>
    match skipBlanks s with
    | [] => .error .endInList
    | b :: s =>
      if b = code ']' then .ok (.done (a :: before) s)
      else if b = code ',' then
        match skipBlanks s with
        | [] => .error .endInValue
        | c :: t => if c = code ']' then .error .trailingComma else .ok (.more (a :: before) (c :: t))
      else .error .expectedCommaOrBracket

/-- A list of any length. -/
def readList {α : Type} (read : Reader α) (s : Bytes) : Except Cause (List α × Bytes) :=
  match skipBlanks s with
  | [] => .error .endInValue
  | b :: t =>
    if b = code '[' then
      match skipBlanks t with
      | [] => .error .endInList
      | c :: u =>
        if c = code ']' then .ok ([], u)
        else Reader.map List.reverse (loop (elementStep read) []) (c :: u)
    else mismatch "a sequence" (b :: t)

/-- A value that is written as one of a few names. -/
structure Variants (α : Type) where
  all : List α
  name : α → String

namespace Variants

variable {α : Type}

def names (v : Variants α) : List String := v.all.map v.name

def ofName? (v : Variants α) (name : String) : Option α := v.all.find? (v.name · = name)

def named (v : Variants α) (name : String) : Except Cause α :=
  match v.ofName? name with
  | some a => .ok a
  | none => .error (.unknownVariant name v.names)

/-- Reads the name of a variant, from behind its opening quote. -/
def readName (v : Variants α) (s : Bytes) : Except Cause (α × Bytes) :=
  match readText s with
  | .error cause => .error cause
  | .ok (name, s) => (v.named name).map (·, s)

/-- Reads what follows a name that is the key of an object: the word `null` and the closing brace. -/
def readRest (a : α) (s : Bytes) : Except Cause (α × Bytes) :=
  match skipBlanks s with
  | [] => .error .endInObject
  | b :: s =>
    if b = code ':' then
      match readUnit s with
      | .error cause => .error cause
      | .ok s =>
        match skipBlanks s with
        | [] => .error .endInObject
        | b :: s => if b = code '}' then .ok (a, s) else .error .expectedValue
    else .error .expectedColon

/-- Reads an object whose only member has the name of a variant, from behind the opening brace. -/
def readObject (v : Variants α) (s : Bytes) : Except Cause (α × Bytes) :=
  match skipBlanks s with
  | [] => .error .endInObject
  | b :: s =>
    if b = code '"' then
      match v.readName s with
      | .error cause => .error cause
      | .ok (a, s) => readRest a s
    else if b = code '}' then .error .expectedValue
    else .error .expectedKey

/-- A variant: its name, or an object whose only member has that name and holds `null`. -/
def read (v : Variants α) (s : Bytes) : Except Cause (α × Bytes) :=
  match skipBlanks s with
  | [] => .error .endInValue
  | b :: s =>
    if b = code '"' then v.readName s
    else if b = code '{' then v.readObject s
    else .error .expectedValue

end Variants

end NatBehaviour.Json
