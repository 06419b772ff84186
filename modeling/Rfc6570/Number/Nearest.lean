import Rfc6570.Number.Binary64

/-!
# Rfc6570 — the binary64 number nearest a decimal

IEEE 754-2019 §5.12.2: a decimal `m · 10 ^ e` is read as the binary64 number nearest to it,
ties going to the even significand. Values beyond the greatest finite number round to an
infinity, values below the least subnormal to a zero; the sign is kept, also on zero.

The significand is found in exact `Nat` arithmetic: the value is scaled by the power of two
that brings it into `[2 ^ 52, 2 ^ 53)` (or to the subnormal scale), and the quotient is
rounded by comparing twice the remainder with the divisor.
-/

namespace Rfc6570.Binary64

/-- The floor of the base-two logarithm of `num / den`, for positive `num` and `den`. -/
def log2Ratio (num den : Nat) : Int :=
  let b : Int := (Nat.log2 num : Int) - Nat.log2 den
  let atLeast : Bool :=
    if 0 ≤ b then num ≥ den * Nat.pow 2 b.toNat else num * Nat.pow 2 (-b).toNat ≥ den
  if atLeast then b else b - 1

/-- The quotient of `num / (den · 2 ^ k)` rounded to nearest, ties to even. -/
def roundScaled (num den : Nat) (k : Int) : Nat :=
  let (a, d) := if 0 ≤ k then (num, den * Nat.pow 2 k.toNat) else (num * Nat.pow 2 (-k).toNat, den)
  let q := a / d
  let r := a % d
  if 2 * r > d then q + 1
  else if 2 * r = d then (if q % 2 = 1 then q + 1 else q)
  else q

/-- The pattern of the value `q · 2 ^ k` with `q < 2 ^ 53`, or an infinity past the range. -/
def ofScaled (neg : Bool) (q : Nat) (k : Int) : Binary64 :=
  let (q, k) := if q = Nat.pow 2 53 then (Nat.pow 2 52, k + 1) else (q, k)
  let sign : UInt64 := if neg then 0x8000000000000000 else 0
  if k > 971 then infinity neg
  else if q < Nat.pow 2 52 then ⟨sign ||| q.toUInt64⟩
  else ⟨sign ||| ((k + 1075).toNat.toUInt64 <<< 52) ||| (q - Nat.pow 2 52).toUInt64⟩

/-- The binary64 number nearest to `num / den`, negated when `neg`; `num` and `den` positive. -/
def ofRatio (neg : Bool) (num den : Nat) : Binary64 :=
  let k := max (log2Ratio num den - 52) (-1074)
  ofScaled neg (roundScaled num den k) k

/-- The number of decimal digits of `m`. -/
def digitCount (m : Nat) : Nat := (Nat.toDigits 10 m).length

/-- The binary64 number nearest to `m · 10 ^ e`, negated when `neg`. -/
def ofDecimal (neg : Bool) (m : Nat) (e : Int) : Binary64 :=
  let zero : Binary64 := ⟨if neg then 0x8000000000000000 else 0⟩
  if m = 0 then zero
  else if (digitCount m : Int) + e > 310 then infinity neg
  else if (digitCount m : Int) + e < -330 then zero
  else if 0 ≤ e then ofRatio neg (m * Nat.pow 10 e.toNat) 1
  else ofRatio neg m (Nat.pow 10 (-e).toNat)

/-- The binary64 number nearest to an integer. -/
def ofInt (n : Int) : Binary64 := ofDecimal (n < 0) n.natAbs 0

example : ofDecimal false 1 0 = ⟨0x3FF0000000000000⟩ := by decide +kernel
example : ofDecimal false 1 (-1) = ⟨0x3FB999999999999A⟩ := by decide +kernel
example : ofDecimal true 5 (-324) = ⟨0x8000000000000001⟩ := by decide +kernel
example : ofDecimal false 17976931348623159 292 = infinity false := by decide +kernel
example : ofDecimal false 9007199254740993 0 = ⟨0x4340000000000000⟩ := by decide +kernel

end Rfc6570.Binary64
