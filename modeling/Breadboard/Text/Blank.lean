import Breadboard.Text.Ranges

/-!
# Blank characters

The characters with the Unicode property White_Space, and the text that is left when they
are removed from both ends.
-/
namespace Breadboard.Text

def blankRanges : Ranges := [
  (0x9, 0xD), (0x20, 0x20), (0x85, 0x85), (0xA0, 0xA0), (0x1680, 0x1680), (0x2000, 0x200A),
  (0x2028, 0x2029), (0x202F, 0x202F), (0x205F, 0x205F), (0x3000, 0x3000)]

/-- Whether a character separates words and is otherwise ignored. -/
def isBlank (c : Char) : Bool := blankRanges.covers c.toNat

/-- The characters between the first and the last one that is not blank. -/
def trim (text : String) : String :=
  let kept := text.toList.dropWhile isBlank
  String.ofList (kept.reverse.dropWhile isBlank).reverse

end Breadboard.Text
