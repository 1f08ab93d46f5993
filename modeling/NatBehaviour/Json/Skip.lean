import NatBehaviour.Json.Number
import NatBehaviour.Json.Text

/-!
Values that are passed over, such as those of unknown members. They are checked for their syntax
only, and may be nested to any depth: the open brackets are kept on a list.
-/

namespace NatBehaviour.Json

/-- An open bracket: that of a list or that of an object. -/
inductive Bracket
  | list
  | object
  deriving DecidableEq, Repr

namespace Bracket

def closing : Bracket → UInt8
  | .list => code ']'
  | .object => code '}'

/-- The input ends where the bracket has not been closed. -/
def unclosed : Bracket → Cause
  | .list => .endInList
  | .object => .endInObject

/-- Something follows a value that neither continues nor closes what it stands in. -/
def noComma : Bracket → Cause
  | .list => .expectedCommaOrBracket
  | .object => .expectedCommaOrBrace

end Bracket

/-- Passes over the colon between a key and its value. -/
def skipColon (s : Bytes) : Except Cause Bytes :=
  match skipBlanks s with
  | [] => .error .endInObject
  | b :: s => if b = code ':' then .ok s else .error .expectedColon

/-- Passes over the key of the next member, up to its value. -/
def skipKey (s : Bytes) : Except Cause Bytes :=
  match skipBlanks s with
  | [] => .error .endInObject
  | b :: s =>
    if b = code '"' then
      match skipText s with
      | .error cause => .error cause
      | .ok s => skipColon s
    else .error .expectedKey

/-- Goes on to the next value inside a bracket. -/
def skipToValue (bracket : Bracket) (s : Bytes) : Except Cause Bytes :=
  match bracket with
  | .list => .ok s
  | .object => skipKey s

abbrev Enclosing := List Bracket

/-- After a value: closes brackets as far as possible, then goes on to the next value. -/
def skipAfterValue : Enclosing → Bytes → Except Cause (Step Enclosing)
  | [], s => .ok (.done [] s)
  | bracket :: outer, s =>
    match skipBlanks s with
    | [] => .error bracket.unclosed
    | b :: s =>
      if b = bracket.closing then skipAfterValue outer s
      else if b = code ',' then
        match skipToValue bracket s with
        | .error cause => .error cause
        | .ok s => .ok (.more (bracket :: outer) s)
      else .error bracket.noComma

/-- After an opening bracket, which may be closed at once. -/
def skipAfterOpening (bracket : Bracket) (outer : Enclosing) (s : Bytes) :
    Except Cause (Step Enclosing) :=
  match skipBlanks s with
  | [] => .error bracket.unclosed
  | b :: t =>
    if b = bracket.closing then skipAfterValue outer t
    else
      match skipToValue bracket (b :: t) with
      | .error cause => .error cause
      | .ok s => .ok (.more (bracket :: outer) s)

/-- Passes over a value that holds no other values, of which the first byte has been seen. -/
def skipScalar (b : UInt8) (s : Bytes) : Except Cause Bytes :=
  if b = code '"' then skipText s
  else if b = code 'n' then readWord ['u', 'l', 'l'] s
  else if b = code 't' then readWord ['r', 'u', 'e'] s
  else if b = code 'f' then readWord ['a', 'l', 's', 'e'] s
  else if b = code '-' || isDigit b then skipNumber (b :: s)
  else .error .expectedValue

/-- Passes over the beginning of a value, up to the next value inside or after it. -/
def skipStep (enclosing : Enclosing) (s : Bytes) : Except Cause (Step Enclosing) :=
  match skipBlanks s with
  | [] => .error .endInValue
  | b :: s =>
    if b = code '[' then skipAfterOpening .list enclosing s
    else if b = code '{' then skipAfterOpening .object enclosing s
    else
      match skipScalar b s with
      | .error cause => .error cause
      | .ok s => skipAfterValue enclosing s

/-- Passes over one value. -/
def skipValue (s : Bytes) : Except Cause Bytes :=
  match loop skipStep [] s with
  | .error cause => .error cause
  | .ok (_, s) => .ok s

end NatBehaviour.Json
