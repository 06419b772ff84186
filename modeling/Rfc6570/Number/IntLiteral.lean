import Rfc6570.Text.Blank
import Rfc6570.Text.Digit

/-!
# Rfc6570 — decimal integer literals

The grammar of a decimal integer as a prefix length accepts: blanks, an optional sign, decimal
digits with single underscores between digits, blanks. Beyond ASCII, each blank character
counts as a space and each decimal digit as its ASCII digit; any other character beyond ASCII
ends the literal. Leading zeros are allowed.

A literal of more than `digitLimit` digits is refused on its digit count alone, whatever
follows it; any other refusal is `invalid`.

## Results

* `IntLiteral.read` — the value of a literal, or why it is refused.
-/

namespace Rfc6570.IntLiteral

open Text

/-- Why a text is not a decimal integer literal. -/
inductive Fault where
  /-- The text does not follow the grammar. -/
  | invalid
  /-- The literal has more digits than `digitLimit`; the count is given. -/
  | tooManyDigits (count : Nat)
deriving DecidableEq, Repr

/-- The greatest number of digits a literal may have. -/
def digitLimit : Nat := 4300

/-- A character as the grammar sees it: ASCII as is, a wide blank as a space, a wide digit as
its ASCII digit, anything else as `?`, which no rule accepts. -/
def narrow (c : Nat) : Nat :=
  if c < 128 then c
  else if isWideBlank c then 32
  else match wideDigitValue? c with
    | some v => 48 + v
    | none => 63

/-- Two underscores stand side by side. -/
def hasDoubleUnderscore : Text → Bool
  | 95 :: 95 :: _ => true
  | _ :: rest => hasDoubleUnderscore rest
  | [] => false

/-- The value of a sequence of ASCII digits. -/
def digitsValue (ds : Text) : Nat := ds.foldl (fun n d => 10 * n + (d - 48)) 0

/-- A digit or an underscore. -/
def isDigitOrUnderscore (c : Nat) : Bool := isAsciiDigit c || c == 95

/-- The sign and the rest of a literal after its leading blanks. -/
def splitSign : Text → Bool × Text
  | 43 :: rest => (false, rest)
  | 45 :: rest => (true, rest)
  | rest => (false, rest)

/-- The value of a decimal integer literal, or why it is refused. -/
def read (t : Text) : Except Fault Int :=
  let (neg, s) := splitSign ((t.map narrow).dropWhile isAsciiBlank)
  let run := s.takeWhile isDigitOrUnderscore
  let rest := s.dropWhile isDigitOrUnderscore
  let ds := run.filter isAsciiDigit
  if s.head? = some 95 || hasDoubleUnderscore run || run.getLast? = some 95 then .error .invalid
  else if digitLimit < ds.length then .error (.tooManyDigits ds.length)
  else if ds.isEmpty || !rest.all isAsciiBlank then .error .invalid
  else
    let v : Int := digitsValue ds
    .ok (if neg then -v else v)

example : read (ofString " +1_0\n") = .ok 10 := rfl
example : read (ofString "-007") = .ok (-7) := rfl
example : read [0x663, 0xA0] = .ok 3 := rfl
example : read (ofString "1__0") = .error .invalid := rfl
example : read (ofString "_1") = .error .invalid := rfl
example : read (ofString "3.0") = .error .invalid := rfl
example : read [] = .error .invalid := rfl

end Rfc6570.IntLiteral
