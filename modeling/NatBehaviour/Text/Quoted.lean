import NatBehaviour.Text.Printable

/-!
Quoted texts as they stand in messages: between double quotes, with a quote, a backslash and the
usual control characters after a backslash, and every other character that is not printable by its
number in braces.
-/

namespace NatBehaviour.Text.Quoted

/-- The number of a character in lower-case hexadecimal digits, between braces. -/
def byNumber (c : Char) : List Char :=
  ['\\', 'u', '\x7b'] ++ Nat.toDigits 16 c.toNat ++ ['\x7d']

def escape (c : Char) : List Char :=
  if c = '"' then ['\\', '"']
  else if c = '\\' then ['\\', '\\']
  else if c = '\n' then ['\\', 'n']
  else if c = '\r' then ['\\', 'r']
  else if c = '\t' then ['\\', 't']
  else if c = '\x00' then ['\\', '0']
  else if Printable.isPrintable c then [c]
  else byNumber c

def quote (s : String) : String := String.ofList ('"' :: s.toList.flatMap escape ++ ['"'])

end NatBehaviour.Text.Quoted
