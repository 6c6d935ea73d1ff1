/-! White space of text: the characters that Unicode gives the property `White_Space`, and the
four information separators U+001C to U+001F. Texts are lists of characters, so that every length
and position counts code points. -/

namespace OpenApiIR.Text

def isBlank (c : Char) : Bool :=
  let n := c.toNat
  (0x09 ≤ n && n ≤ 0x0D) || (0x1C ≤ n && n ≤ 0x20) || n == 0x85 || n == 0xA0 || n == 0x1680 ||
    (0x2000 ≤ n && n ≤ 0x200A) || n == 0x2028 || n == 0x2029 || n == 0x202F || n == 0x205F ||
    n == 0x3000

def trimBy (drop : Char → Bool) (cs : List Char) : List Char :=
  ((cs.dropWhile drop).reverse.dropWhile drop).reverse

def trim (cs : List Char) : List Char := trimBy isBlank cs

def allBlank (s : String) : Bool := s.toList.all isBlank

/-- The white space that the number grammar of settings skips: `isBlank` without the separators. -/
def isProseBlank (c : Char) : Bool := isBlank c && !(0x1C ≤ c.toNat && c.toNat ≤ 0x1F)

end OpenApiIR.Text
