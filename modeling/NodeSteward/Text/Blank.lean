/-!
# Blank characters

The characters that Unicode calls white space, and the trimming of texts by them.
-/

namespace NodeSteward

namespace Text

/-- Unicode's property `White_Space`. -/
def isBlank (c : Char) : Bool :=
  let code := c.toNat
  (9 ≤ code && code ≤ 13) || code == 32 || code == 0x85 || code == 0xA0 || code == 0x1680 ||
    (0x2000 ≤ code && code ≤ 0x200A) || code == 0x2028 || code == 0x2029 || code == 0x202F ||
    code == 0x205F || code == 0x3000

/-- Drops the blank characters at the front. -/
def trimStart (text : List Char) : List Char :=
  text.dropWhile isBlank

/-- True for a text of blank characters only, the empty one included. -/
def allBlank (text : String) : Bool :=
  text.toList.all isBlank

end Text

end NodeSteward
