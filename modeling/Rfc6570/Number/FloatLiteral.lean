import Rfc6570.Number.Nearest
import Rfc6570.Number.IntLiteral

/-!
# Rfc6570 — floating-point literals

The grammar of a floating-point literal: blanks, an optional sign, then either `inf`,
`infinity` or `nan` in any case, or a decimal (digits, an optional point and more digits, at
least one digit in all, then an optional exponent: `e` or `E`, an optional sign, digits), then
blanks. A single underscore may stand between two digits anywhere in the text. Beyond ASCII,
characters count as they do in integer literals (`IntLiteral.narrow`).

A decimal reads as the double nearest to it (`Binary64.ofDecimal`); the sign of a NaN is
dropped.

## Results

* `FloatLiteral.read` — the double a literal denotes, or `none` for a text outside the grammar.
-/

namespace Rfc6570.FloatLiteral

open Text

/-- Each underscore stands between two digits. -/
def underscoresBetweenDigits : Text → Bool
  | a :: 95 :: b :: rest => isAsciiDigit a && isAsciiDigit b && underscoresBetweenDigits (b :: rest)
  | 95 :: _ => false
  | _ :: rest => underscoresBetweenDigits rest
  | [] => true

/-- A text in lower case, ASCII letters only. -/
def lower (t : Text) : Text := t.map fun c => if 65 ≤ c && c ≤ 90 then c + 32 else c

/-- The exponent of a decimal: `e` or `E`, an optional sign and digits; nothing is exponent 0. -/
def exponent? : Text → Option Int
  | [] => some 0
  | e :: rest =>
    if e == 101 || e == 69 then
      let (neg, ds) := IntLiteral.splitSign rest
      if ds.isEmpty || !ds.all isAsciiDigit then none
      else
        let v : Int := IntLiteral.digitsValue ds
        some (if neg then -v else v)
    else none

/-- The unsigned part of a literal: infinity, NaN or a decimal as its digits and exponent. -/
def magnitude? (neg : Bool) (t : Text) : Option Binary64 :=
  let word := lower t
  if word == ofString "inf" || word == ofString "infinity" then some (Binary64.infinity neg)
  else if word == ofString "nan" then some Binary64.nan
  else
    let whole := t.takeWhile isAsciiDigit
    let afterWhole := t.dropWhile isAsciiDigit
    let (fraction, rest) := match afterWhole with
      | 46 :: r => (r.takeWhile isAsciiDigit, r.dropWhile isAsciiDigit)
      | r => ([], r)
    if whole.isEmpty && fraction.isEmpty then none
    else (exponent? rest).map fun e =>
      Binary64.ofDecimal neg (IntLiteral.digitsValue (whole ++ fraction)) (e - fraction.length)

/-- The double a floating-point literal denotes, or `none` when the text is not one. -/
def read (t : Text) : Option Binary64 :=
  let n := t.map IntLiteral.narrow
  if !underscoresBetweenDigits n then none
  else
    let core := ((n.filter (· != 95)).dropWhile isAsciiBlank).reverse.dropWhile isAsciiBlank |>.reverse
    let (neg, body) := IntLiteral.splitSign core
    magnitude? neg body

example : read (ofString " 1_0.5 ") = some (Binary64.ofDecimal false 105 (-1)) := by decide +kernel
example : read (ofString "-Infinity") = some (Binary64.infinity true) := by decide +kernel
example : read (ofString "1e") = none := by decide +kernel
example : read (ofString "1_.5") = none := by decide +kernel
example : read (ofString ".") = none := by decide +kernel

end Rfc6570.FloatLiteral
