/-!
# Blank characters

The characters with the White_Space property, and texts made of them.  A text is horizontally
blank when it also stays on one line.
-/

namespace Stencil
namespace Text

def isBlank (c : Char) : Bool :=
  let n := c.toNat
  (9 ≤ n && n ≤ 13) || n == 0x20 || n == 0x85 || n == 0xA0 || n == 0x1680
    || (0x2000 ≤ n && n ≤ 0x200A) || n == 0x2028 || n == 0x2029 || n == 0x202F
    || n == 0x205F || n == 0x3000

def isHorizontalBlank (c : Char) : Bool :=
  isBlank c && c != '\n' && c != '\r'

/-!
## Trimming
-/

def trimLeft (cs : List Char) : List Char :=
  cs.dropWhile isBlank

def trimRight (cs : List Char) : List Char :=
  (trimLeft cs.reverse).reverse

def trim (s : String) : String :=
  String.ofList (trimRight (trimLeft s.toList))

end Text
end Stencil
