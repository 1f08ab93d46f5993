/-!
White space of Unicode: the twenty-five characters with the property `White_Space`.
-/

namespace NatBehaviour.Text

def isBlank (c : Char) : Bool :=
  let n := c.toNat
  (9 ≤ n && n ≤ 13) || (0x2000 ≤ n && n ≤ 0x200A) ||
    [0x20, 0x85, 0xA0, 0x1680, 0x2028, 0x2029, 0x202F, 0x205F, 0x3000].contains n

/-- Whether nothing is left of a text once white space is cut off at both ends. -/
def isBlankText (s : String) : Bool := s.toList.all isBlank

end NatBehaviour.Text
