/-!
# Two classes of characters

Names and control lines care about two properties that Unicode assigns to characters: `White_Space`,
which ends a word, and the general category `Cc`, the control characters. Both are short, fixed
lists of ranges.
-/

namespace Skirmish.Text

/-- The property `White_Space`: the tab, the line breaks, and every kind of space. -/
def isBlank (c : Char) : Bool :=
  let n := c.toNat
  (0x09 ≤ n && n ≤ 0x0d) || n == 0x20 || n == 0x85 || n == 0xa0 || n == 0x1680 ||
    (0x2000 ≤ n && n ≤ 0x200a) || n == 0x2028 || n == 0x2029 || n == 0x202f || n == 0x205f ||
    n == 0x3000

/-- The category `Cc`: the two blocks of control codes. -/
def isControl (c : Char) : Bool :=
  let n := c.toNat
  n ≤ 0x1f || (0x7f ≤ n && n ≤ 0x9f)

end Skirmish.Text
