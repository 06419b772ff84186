import Rfc6570.Text.Basic

/-!
# Rfc6570 — decimal digits beyond ASCII

The Unicode Character Database (version 14.0) gives a decimal digit value to the characters of
general category Nd. They come in runs of ten, zero to nine in order; the table lists the
first code point of each run from U+0080 on, in ascending order.
-/

namespace Rfc6570.Text

/-- The code points of the digit zero of each run of ten decimal digits beyond ASCII. -/
def wideDigitZeros : List Nat := [
  0x660, 0x6F0, 0x7C0, 0x966, 0x9E6, 0xA66, 0xAE6, 0xB66,
  0xBE6, 0xC66, 0xCE6, 0xD66, 0xDE6, 0xE50, 0xED0, 0xF20,
  0x1040, 0x1090, 0x17E0, 0x1810, 0x1946, 0x19D0, 0x1A80, 0x1A90,
  0x1B50, 0x1BB0, 0x1C40, 0x1C50, 0xA620, 0xA8D0, 0xA900, 0xA9D0,
  0xA9F0, 0xAA50, 0xABF0, 0xFF10, 0x104A0, 0x10D30, 0x11066, 0x110F0,
  0x11136, 0x111D0, 0x112F0, 0x11450, 0x114D0, 0x11650, 0x116C0, 0x11730,
  0x118E0, 0x11950, 0x11C50, 0x11D50, 0x11DA0, 0x16A60, 0x16AC0, 0x16B50,
  0x1D7CE, 0x1D7D8, 0x1D7E2, 0x1D7EC, 0x1D7F6, 0x1E140, 0x1E2F0, 0x1E950,
  0x1FBF0
]

/-- The decimal value of a digit beyond ASCII. -/
def wideDigitValue? (c : Nat) : Option Nat :=
  (wideDigitZeros.find? fun z => z ≤ c && c < z + 10).map (c - ·)

example : wideDigitValue? 0x663 = some 3 ∧ wideDigitValue? 0xFF19 = some 9 ∧
    wideDigitValue? 0xE9 = none := by
  decide +kernel

end Rfc6570.Text
