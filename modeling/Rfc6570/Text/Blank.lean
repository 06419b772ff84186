import Rfc6570.Text.Basic

/-!
# Rfc6570 — blank characters

Two notions of blank. The ASCII blanks are tab, line feed, vertical tab, form feed, carriage
return and space. Beyond ASCII, a character is blank when the Unicode Character Database
(version 14.0) gives it the bidirectional class WS, B or S or the general category Zs; the
table lists those from U+0080 on, as inclusive ranges in ascending order.
-/

namespace Rfc6570.Text

/-- Tab, line feed, vertical tab, form feed, carriage return and space. -/
def isAsciiBlank (c : Nat) : Bool := c == 32 || (9 ≤ c && c ≤ 13)

/-- The blank code points from U+0080 on, as inclusive ranges in ascending order. -/
def wideBlankRanges : List (Nat × Nat) := [
  (0x85, 0x85), (0xA0, 0xA0), (0x1680, 0x1680), (0x2000, 0x200A),
  (0x2028, 0x2029), (0x202F, 0x202F), (0x205F, 0x205F), (0x3000, 0x3000)
]

/-- A blank code point from U+0080 on. -/
def isWideBlank (c : Nat) : Bool := wideBlankRanges.any fun r => r.1 ≤ c && c ≤ r.2

example : isWideBlank 0xA0 = true ∧ isWideBlank 0x3000 = true ∧ isWideBlank 0xE9 = false := by
  decide

end Rfc6570.Text
