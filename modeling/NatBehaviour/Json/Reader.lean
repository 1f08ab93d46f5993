import NatBehaviour.Json.Error

/-!
The common ground of all JSON readers: they work on lists of bytes, skip blanks, and repeat a step
that takes something off the front until it says that it is done.
-/

namespace NatBehaviour.Json

abbrev Bytes := List UInt8

/-- Takes a value off the front of the input and leaves the rest. -/
abbrev Reader (α : Type) := Bytes → Except Cause (α × Bytes)

/-- The code of an ASCII character. -/
def code (c : Char) : UInt8 := c.toNat.toUInt8

def isSpace (b : UInt8) : Bool := b = 0x20 || b = 0x09 || b = 0x0A || b = 0x0D

def skipBlanks (s : Bytes) : Bytes := s.dropWhile isSpace

def isDigit (b : UInt8) : Bool := 0x30 ≤ b && b ≤ 0x39

/-- The outcome of one step of a loop over the input. -/
inductive Step (σ : Type)
  | more (state : σ) (rest : Bytes)
  | done (state : σ) (rest : Bytes)

/-- Repeats a step until it is done, at most `fuel` times. -/
def repeatStep {σ : Type} (step : σ → Bytes → Except Cause (Step σ)) : Nat → σ → Reader σ
  | 0, _, _ => .error .endInValue
  | fuel + 1, state, s =>
    match step state s with
    | .error cause => .error cause
    | .ok (.more state rest) => repeatStep step fuel state rest
    | .ok (.done state rest) => .ok (state, rest)

/-- Repeats a step that takes at least one byte each time but the last, so that one step more than
there are bytes suffices. -/
def loop {σ : Type} (step : σ → Bytes → Except Cause (Step σ)) (state : σ) (s : Bytes) :
    Except Cause (σ × Bytes) :=
  repeatStep step (s.length + 1) state s

/-- Reads the rest of one of the words `null`, `true` and `false`. -/
def readWord : List Char → Bytes → Except Cause Bytes
  | [], s => .ok s
  | _ :: _, [] => .error .endInValue
  | c :: cs, b :: s => if b = code c then readWord cs s else .error .expectedWord

/-- Applies a reader to a whole text: only blanks may follow the value. -/
def readAll {α : Type} (read : Reader α) (s : Bytes) : Except Cause α :=
  match read s with
  | .error cause => .error cause
  | .ok (a, rest) => if (skipBlanks rest).isEmpty then .ok a else .error .trailingCharacters

end NatBehaviour.Json
