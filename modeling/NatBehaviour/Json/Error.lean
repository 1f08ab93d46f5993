import NatBehaviour.Decimal.Shortest
import NatBehaviour.Text.Quoted

/-!
Why a JSON text is refused. A reader works from left to right and reports the first cause it meets.
-/

namespace NatBehaviour.Json

open NatBehaviour.Decimal (Binary64 Layout)
open NatBehaviour.Text.Quoted (quote)

/-- Numbers in messages are positional from 0.00001 up to, but not including, ten to the 16th. -/
def realLayout : Layout := ⟨-5, 15⟩

/-- A number as it was written: without point, exponent or overflow it is an integer. -/
inductive Number
  | integer (n : Int)
  | real (negative : Bool) (magnitude : Binary64)
  deriving DecidableEq, Repr

/-- What stood in the place of the value that was expected. -/
inductive Found
  | null
  | boolean (b : Bool)
  | number (n : Number)
  | text (s : String)
  | list
  | object
  deriving DecidableEq, Repr

def Found.describe : Found → String
  | .null => "null"
  | .boolean b => s!"boolean `{b}`"
  | .number (.integer n) => s!"integer `{n}`"
  | .number (.real negative x) =>
    let sign := if negative then "-" else ""
    s!"floating point `{sign}{realLayout.text x}`"
  | .text s => "string " ++ quote s
  | .list => "sequence"
  | .object => "map"

inductive Cause
  | endInValue
  | endInObject
  | endInList
  | endInText
  | expectedWord
  | expectedValue
  | expectedKey
  | expectedColon
  | expectedCommaOrBrace
  | expectedCommaOrBracket
  | trailingComma
  | trailingCharacters
  | controlCharacter
  | invalidEscape
  | loneSurrogate
  | brokenSurrogatePair
  | invalidUtf8
  | invalidNumber
  | numberOutOfRange
  | wrongKind (found : Found) (expected : String)
  | outOfRange (n : Int) (expected : String)
  | wrongLength (length : Nat) (expected : String)
  | duplicateMember (name : String)
  | missingMember (name : String)
  | unknownVariant (name : String) (known : List String)
  /-- A well-formed value that the type it is read as does not allow, in that type's own words. -/
  | refused (reason : String)
  deriving DecidableEq, Repr

/-- A cause belongs to the syntax, to the data, or to the text having ended too soon. -/
inductive Cause.Category
  | syntactic
  | data
  | ending
  deriving DecidableEq, Repr

namespace Cause

def category : Cause → Category
  | .endInValue | .endInObject | .endInList | .endInText => .ending
  | .wrongKind .. | .outOfRange .. | .wrongLength .. | .duplicateMember _ | .missingMember _
  | .unknownVariant .. | .refused _ => .data
  | _ => .syntactic

def between (name : String) : String := "`" ++ name ++ "`"

def message : Cause → String
  | .endInValue => "EOF while parsing a value"
  | .endInObject => "EOF while parsing an object"
  | .endInList => "EOF while parsing a list"
  | .endInText => "EOF while parsing a string"
  | .expectedWord => "expected ident"
  | .expectedValue => "expected value"
  | .expectedKey => "key must be a string"
  | .expectedColon => "expected `:`"
  | .expectedCommaOrBrace => "expected `,` or `\x7d`"
  | .expectedCommaOrBracket => "expected `,` or `]`"
  | .trailingComma => "trailing comma"
  | .trailingCharacters => "trailing characters"
  | .controlCharacter => "control character (\\u0000-\\u001F) found while parsing a string"
  | .invalidEscape => "invalid escape"
  | .loneSurrogate => "lone leading surrogate in hex escape"
  | .brokenSurrogatePair => "unexpected end of hex escape"
  | .invalidUtf8 => "invalid unicode code point"
  | .invalidNumber => "invalid number"
  | .numberOutOfRange => "number out of range"
  | .wrongKind found expected => s!"invalid type: {found.describe}, expected {expected}"
  | .outOfRange n expected => s!"invalid value: integer `{n}`, expected {expected}"
  | .wrongLength length expected => s!"invalid length {length}, expected {expected}"
  | .duplicateMember name => "duplicate field " ++ between name
  | .missingMember name => "missing field " ++ between name
  | .unknownVariant name known =>
    "unknown variant " ++ between name ++ ", expected one of " ++
      ", ".intercalate (known.map between)
  | .refused reason => reason

end Cause

end NatBehaviour.Json
