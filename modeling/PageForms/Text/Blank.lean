/-!
# White space

The characters that separate words, and trimming them from the ends of a text. The set is
Unicode's `White_Space` property together with the four information separators U+001C to U+001F.
A zero-width space and a byte order mark are not in it.
-/

namespace PageForms.Text

def isBlank (c : Char) : Bool :=
  let n := c.toNat
  (0x09 ≤ n && n ≤ 0x0d) || (0x1c ≤ n && n ≤ 0x20) || n == 0x85 || n == 0xa0 || n == 0x1680 ||
    (0x2000 ≤ n && n ≤ 0x200a) || n == 0x2028 || n == 0x2029 || n == 0x202f || n == 0x205f ||
    n == 0x3000

def allBlank (s : String) : Bool :=
  s.toList.all isBlank

def strip (cs : List Char) : List Char :=
  ((cs.dropWhile isBlank).reverse.dropWhile isBlank).reverse

end PageForms.Text
