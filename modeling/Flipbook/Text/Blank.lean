import Flipbook.Text.Ranges

/-!
# White space

White space is the character property White_Space: the ASCII blanks and
controls, the next-line control, and the space separators. `isBlank` is used
wherever a text is trimmed or words are told apart.
-/
namespace Flipbook.Text

/-- The twenty-five characters with the property White_Space. -/
def blankRanges : Ranges :=
  [(0x9, 0xD), (0x20, 0x20), (0x85, 0x85), (0xA0, 0xA0), (0x1680, 0x1680), (0x2000, 0x200A),
   (0x2028, 0x2029), (0x202F, 0x202F), (0x205F, 0x205F), (0x3000, 0x3000)]

/-- Whether a character is white space. -/
def isBlank (c : Char) : Bool := blankRanges.holds c

end Flipbook.Text
