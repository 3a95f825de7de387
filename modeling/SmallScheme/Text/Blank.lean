import SmallScheme.Text.Ranges

/-!
# Blanks

The characters that separate data and that are trimmed around a setting: the
ASCII controls from tab to carriage return and from `U+001C` to `U+001F`, the
space, the next-line control, and every space and separator beyond ASCII.
-/

namespace SmallScheme.Text

/-- The blanks, in increasing order. -/
def blankRanges : List (Nat × Nat) :=
  [(0x9, 0xD), (0x1C, 0x20), (0x85, 0x85), (0xA0, 0xA0), (0x1680, 0x1680), (0x2000, 0x200A),
   (0x2028, 0x2029), (0x202F, 0x202F), (0x205F, 0x205F), (0x3000, 0x3000)]

/-- A character is blank. -/
def isBlank (c : Char) : Bool := inRanges blankRanges c.toNat

/-- A text without the blanks at its two ends. -/
def trimBlanks (cs : List Char) : List Char :=
  ((cs.dropWhile isBlank).reverse.dropWhile isBlank).reverse

end SmallScheme.Text
