/-!
# Blank characters

* `isBlank` — the characters that separate words in any script.
* `isTypewriterBlank` — the six of them that are skipped around a number.
-/

namespace Contour.Text

/-- The blanks that are skipped around a number: space, tabs, line and page ends. -/
def isTypewriterBlank (c : Char) : Bool :=
  c == ' ' || (9 ≤ c.toNat && c.toNat ≤ 13)

def isBlank (c : Char) : Bool :=
  isTypewriterBlank c || (0x1c ≤ c.toNat && c.toNat ≤ 0x1f) || (0x2000 ≤ c.toNat && c.toNat ≤ 0x200a) ||
    [0x85, 0xa0, 0x1680, 0x2028, 0x2029, 0x202f, 0x205f, 0x3000].contains c.toNat

end Contour.Text
