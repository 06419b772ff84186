import Rfc6570.Text.Printable

/-!
# Rfc6570 — quoted texts and byte strings

The quoted form of a text is how a value shows inside a container and inside an error message:
between single quotes, or double quotes when the text holds a single quote and no double quote.
Inside, the chosen quote and the backslash take a backslash; tab, line feed and carriage return
are `\t`, `\n` and `\r`; any other character that is not printable is `\xhh`, `\uhhhh` or
`\Uhhhhhhhh` (lower-case digits), by the least width that holds it.

A byte string is quoted the same way after a `b`, with every byte outside printable ASCII
written `\xhh`.
-/

namespace Rfc6570.Text

/-- The quote character around a text: `"` when the text holds `'` and no `"`, else `'`. -/
def quoteFor (t : Text) : Nat :=
  if t.contains 39 && !t.contains 34 then 34 else 39

/-- The escape `\x`, `\u` or `\U` of a code point, by the least width that holds it. -/
def hexEscape (c : Nat) : Text :=
  if c ≤ 0xFF then 92 :: 120 :: hexPadded 2 c
  else if c ≤ 0xFFFF then 92 :: 117 :: hexPadded 4 c
  else 92 :: 85 :: hexPadded 8 c

/-- How one character is written inside quotes `q`. -/
def quotedChar (q c : Nat) : Text :=
  if c = q ∨ c = 92 then [92, c]
  else if c = 9 then [92, 116]
  else if c = 10 then [92, 110]
  else if c = 13 then [92, 114]
  else if isPrintable c then [c]
  else hexEscape c

/-- The quoted form of a text. -/
def quoted (t : Text) : Text :=
  let q := quoteFor t
  q :: t.flatMap (quotedChar q) ++ [q]

/-- How one byte is written inside quotes `q`. -/
def quotedByte (q b : Nat) : Text :=
  if b = q ∨ b = 92 then [92, b]
  else if b = 9 then [92, 116]
  else if b = 10 then [92, 110]
  else if b = 13 then [92, 114]
  else if 0x20 ≤ b ∧ b < 0x7F then [b]
  else hexEscape b

/-- The quoted form of a byte string, after a `b`. -/
def quotedBytes (bs : List UInt8) : Text :=
  let t := bs.map UInt8.toNat
  let q := quoteFor t
  98 :: q :: t.flatMap (quotedByte q) ++ [q]

example : quoted (ofString "a'b") = ofString "\"a'b\"" := by decide
example : quoted (ofString "a'\"\n") = ofString "'a\\'\"\\n'" := by decide
example : quoted [0xD800, 0xE9, 0x7F] = ofString "'\\ud800é\\x7f'" := by decide +kernel
example : quotedBytes [0x61, 0xFF, 0x27] = ofString "b\"a\\xff'\"" := by decide

end Rfc6570.Text
