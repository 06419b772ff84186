/-!
# Rfc6570 — binary64 numbers by their bits

A binary64 number (IEEE 754-2019 §3.4) is held as its 64-bit pattern: a sign bit, an 11-bit
biased exponent and a 52-bit trailing significand. `Binary64.view` reads the pattern as a
not-a-number, a signed infinity, or a signed finite value `m · 2 ^ e` with `m < 2 ^ 53`.

Comparisons are exact. A finite value and an integer are compared as the rationals they
denote, never through a conversion that rounds; a not-a-number is unordered with everything,
itself included, and the two zeros are equal.

## Results

* `view`       — the three kinds of pattern.
* `compare?`   — the exact order of two numbers, `none` when one is not a number.
* `compareInt?` — the exact order of a number and an integer.
-/

namespace Rfc6570

/-- A binary64 floating-point number, held as its bit pattern. -/
structure Binary64 where
  /-- The 64-bit interchange pattern. -/
  bits : UInt64
deriving DecidableEq, Repr

/-- What a binary64 pattern denotes. -/
inductive Binary64.View where
  /-- Not a number. -/
  | nan
  /-- An infinity, negative when `neg`. -/
  | infinite (neg : Bool)
  /-- The finite value `(-1) ^ neg · m · 2 ^ e`. -/
  | finite (neg : Bool) (m : Nat) (e : Int)
deriving DecidableEq, Repr

namespace Binary64

/-- The sign bit. -/
def signBit (x : Binary64) : Bool := x.bits >>> 63 == 1

/-- The biased exponent field. -/
def exponentField (x : Binary64) : Nat := ((x.bits >>> 52) &&& 0x7FF).toNat

/-- The trailing significand field. -/
def fractionField (x : Binary64) : Nat := (x.bits &&& 0xFFFFFFFFFFFFF).toNat

/-- What the pattern denotes: subnormals have exponent `-1074` and no hidden bit. -/
def view (x : Binary64) : View :=
  let be := x.exponentField
  let f := x.fractionField
  if be = 0x7FF then (if f = 0 then .infinite x.signBit else .nan)
  else if be = 0 then .finite x.signBit f (-1074)
  else .finite x.signBit (f + Nat.pow 2 52) ((be : Int) - 1075)

/-- The pattern of a quiet not-a-number with a clear sign. -/
def nan : Binary64 := ⟨0x7FF8000000000000⟩

/-- The pattern of an infinity. -/
def infinity (neg : Bool) : Binary64 := ⟨if neg then 0xFFF0000000000000 else 0x7FF0000000000000⟩

/-- The pattern is a not-a-number. -/
def isNaN (x : Binary64) : Bool := x.view == .nan

/-- The value is a zero of either sign. -/
def isZero (x : Binary64) : Bool :=
  match x.view with
  | .finite _ 0 _ => true
  | _ => false

/-- The exact order of `a · 2 ^ i` and `b · 2 ^ j`. -/
def compareScaled (a : Int) (i : Int) (b : Int) (j : Int) : Ordering :=
  let k := min i j
  compare (a * Nat.pow 2 (i - k).toNat) (b * Nat.pow 2 (j - k).toNat)

/-- A finite value as a signed significand. -/
def signedSignificand (neg : Bool) (m : Nat) : Int := if neg then -(m : Int) else m

/-- The exact order of two numbers; `none` when either is not a number. -/
def compare? (x y : Binary64) : Option Ordering :=
  match x.view, y.view with
  | .nan, _ => none
  | _, .nan => none
  | .infinite a, .infinite b => some (compare (!a) (!b))
  | .infinite a, .finite .. => some (if a then .lt else .gt)
  | .finite .., .infinite b => some (if b then .gt else .lt)
  | .finite s m e, .finite t n f =>
    some (compareScaled (signedSignificand s m) e (signedSignificand t n) f)

/-- The exact order of a number and an integer; `none` when the number is not a number. -/
def compareInt? (x : Binary64) (n : Int) : Option Ordering :=
  match x.view with
  | .nan => none
  | .infinite a => some (if a then .lt else .gt)
  | .finite s m e => some (compareScaled (signedSignificand s m) e n 0)

example : view ⟨0x3FF0000000000000⟩ = .finite false (Nat.pow 2 52) (-52) := by decide
example : compare? ⟨0x8000000000000000⟩ ⟨0⟩ = some .eq := by decide
example : compareInt? ⟨0x4340000000000000⟩ (Nat.pow 2 53 + 1) = some .lt := by decide
example : compare? nan nan = none := by decide

end Binary64

end Rfc6570
