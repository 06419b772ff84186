import Rfc6570.Number.Shortest
import Rfc6570.Text.Basic

/-!
# Rfc6570 — the text of a binary64 number

A number is written by its shortest decimal (`Shortest.digits`). With `n` significant digits
and the decimal point `p` places after the first digit's position (`0.d₁…dₙ · 10 ^ p`), it is
written positionally when `-4 < p ≤ 16`, else as `d₁.d₂…dₙe±XX` with at least two exponent
digits. A minus sign marks a set sign bit, negative zero included.

The format's other decisions are a `FloatFormat`: whether a whole number gets `.0`, and whether
a plus sign is written. A number on its own gets `.0`; a part of a complex number gets no `.0`,
and its imaginary part a sign whenever the real part is shown.
-/

namespace Rfc6570

/-- The choices that tell the texts of numbers apart. -/
structure FloatFormat where
  /-- A whole number written positionally ends in `.0`. -/
  pointZero : Bool
  /-- A non-negative number starts with `+`. -/
  plusSign : Bool
deriving DecidableEq, Repr

namespace FloatFormat

/-- A number on its own: `1.0`, `1e+16`, `nan`. -/
def standalone : FloatFormat := ⟨true, false⟩

/-- A part of a complex number: `1`, `1e+16`. -/
def part : FloatFormat := ⟨false, false⟩

/-- The imaginary part beside a real part: `+1`, `-0`, `+nan`. -/
def signedPart : FloatFormat := ⟨false, true⟩

end FloatFormat

namespace Binary64

open Text

/-- The positional text of the digits `ds` with the point `p` places after their start. -/
def positional (ds : Text) (p : Int) (pointZero : Bool) : Text :=
  if p ≤ 0 then ofString "0." ++ List.replicate (-p).toNat 48 ++ ds
  else if ds.length ≤ p.toNat then
    ds ++ List.replicate (p.toNat - ds.length) 48 ++ (if pointZero then ofString ".0" else [])
  else ds.take p.toNat ++ [46] ++ ds.drop p.toNat

/-- The exponent text `e±XX`, at least two digits. -/
def exponentText (x : Int) : Text :=
  let ds := ofNat x.natAbs
  101 :: (if x < 0 then 45 else 43) :: (List.replicate (2 - ds.length) 48 ++ ds)

/-- The scientific text of the digits `ds` whose first digit has exponent `x`. -/
def scientific (ds : Text) (x : Int) : Text :=
  match ds with
  | [] => exponentText x
  | d :: rest => d :: (if rest.isEmpty then [] else 46 :: rest) ++ exponentText x

/-- The text of the magnitude of a finite value `m · 2 ^ e`. -/
def magnitudeText (fmt : FloatFormat) (m : Nat) (e : Int) : Text :=
  let dec := Shortest.digits m e
  let ds := ofNat dec.digits
  let p : Int := dec.exponent + ds.length
  if -4 < p ∧ p ≤ 16 then positional ds p fmt.pointZero
  else scientific ds (p - 1)

/-- The text of a number in a format. -/
def textIn (fmt : FloatFormat) (x : Binary64) : Text :=
  let sign (neg : Bool) : Text := if neg then [45] else if fmt.plusSign then [43] else []
  match x.view with
  | .nan => (if fmt.plusSign then [43] else []) ++ ofString "nan"
  | .infinite neg => sign neg ++ ofString "inf"
  | .finite neg m e => sign neg ++ magnitudeText fmt m e

/-- The text of a number on its own. -/
def text (x : Binary64) : Text := textIn .standalone x

/-- The text of a complex number `re + im·j`: the imaginary part alone when the real part is
positive zero, else both in parentheses. -/
def complexText (re im : Binary64) : Text :=
  if re.isZero && !re.signBit then textIn .part im ++ [106]
  else [40] ++ textIn .part re ++ textIn .signedPart im ++ [106, 41]

example : text ⟨0x3FF0000000000000⟩ = ofString "1.0" := by decide +kernel
example : text ⟨0x8000000000000000⟩ = ofString "-0.0" := by decide +kernel
-- 1e16 and 1e-5
example : text ⟨0x4341C37937E08000⟩ = ofString "1e+16" := by decide +kernel
example : text ⟨0x3EE4F8B588E368F1⟩ = ofString "1e-05" := by decide +kernel
-- 0.0001 and 123456789012345680.0
example : text ⟨0x3F1A36E2EB1C432D⟩ = ofString "0.0001" := by decide +kernel
example : text ⟨0x437B69B4BA630F35⟩ = ofString "1.2345678901234568e+17" := by decide +kernel
example : complexText ⟨0⟩ ⟨0xBFF8000000000000⟩ = ofString "-1.5j" := by decide +kernel
example : complexText ⟨0x8000000000000000⟩ ⟨0xBFF8000000000000⟩ = ofString "(-0-1.5j)" := by
  decide +kernel

end Binary64

end Rfc6570
