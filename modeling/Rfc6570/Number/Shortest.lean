import Rfc6570.Number.Binary64

/-!
# Rfc6570 — the shortest decimal that reads back

A positive finite binary64 value `m · 2 ^ e` is the rounding (to nearest, ties to even) of every
real in an interval around it: half-way to each neighbour, ends included exactly when `m` is
even, the lower half-gap halved where the exponent steps down. The shortest decimal of the
value is a decimal with the fewest significant digits inside that interval; of two such, the
nearer to the value, and of two equally near, the one with the even last digit.

The search tries one significant digit, then two, up to seventeen, which always suffice. On
each grid only the two neighbours of the value can be the answer: if any point of the grid
lies in the interval, so does one of them. All arithmetic is exact, in `Nat`.

## Results

* `Shortest.digits` — the digits and the exponent of the last one, without trailing zeros.
-/

namespace Rfc6570.Shortest

/-- A decimal `digits · 10 ^ exponent`. -/
structure Decimal where
  /-- The significant digits, as a number. -/
  digits : Nat
  /-- The power of ten of the last digit. -/
  exponent : Int
deriving DecidableEq, Repr

/-- The number of decimal digits of `n` (one for zero). -/
def decimalLength (n : Nat) : Nat := (Nat.toDigits 10 n).length

/-- The interval of reals that round to `m · 2 ^ e`, scaled by a common denominator: the value
is `v / d`, the ends `lo / d` and `hi / d`. -/
structure Interval where
  /-- Four times the value, times the denominator's complement. -/
  v : Nat
  /-- The lower end. -/
  lo : Nat
  /-- The upper end. -/
  hi : Nat
  /-- The common denominator. -/
  d : Nat
  /-- Whether the ends read back too. -/
  closed : Bool

/-- The rounding interval of `m · 2 ^ e`, for `m > 0`; `narrowBelow` when the gap to the lower
neighbour is half the gap to the upper one. -/
def interval (m : Nat) (e : Int) (narrowBelow : Bool) : Interval :=
  let scale := Nat.pow 2 e.toNat
  let d := 4 * Nat.pow 2 (-e).toNat
  let lo := if narrowBelow then 4 * m - 1 else 4 * m - 2
  ⟨4 * m * scale, lo * scale, (4 * m + 2) * scale, d, m % 2 == 0⟩

/-- The power of ten of the leading digit of `v / d`, for `v > 0`. -/
def leadingExponent (v d : Nat) : Int :=
  if d ≤ v then (decimalLength (v / d) : Int) - 1
  else -(decimalLength ((d + v - 1) / v - 1) : Int)

/-- `c · 10 ^ j` scaled by `d`, beside a number `x` scaled the same way: the two numbers to
compare for the order of `c · 10 ^ j` and `x / d`. -/
def scaledPair (c : Nat) (j : Int) (d x : Nat) : Nat × Nat :=
  if 0 ≤ j then (c * Nat.pow 10 j.toNat * d, x) else (c * d, x * Nat.pow 10 (-j).toNat)

/-- `c · 10 ^ j` lies in the interval. -/
def inside (iv : Interval) (c : Nat) (j : Int) : Bool :=
  let (a, l) := scaledPair c j iv.d iv.lo
  let (b, h) := scaledPair c j iv.d iv.hi
  if iv.closed then l ≤ a && b ≤ h else l < a && b < h

/-- The distance from the value to `c · 10 ^ j`, on a common scale for a fixed `j`. -/
def distance (iv : Interval) (c : Nat) (j : Int) : Nat :=
  let (a, x) := scaledPair c j iv.d iv.v
  if a ≤ x then x - a else a - x

/-- The best decimal with its last digit at `10 ^ j`, if one lies in the interval. -/
def onGrid (iv : Interval) (j : Int) : Option Decimal :=
  let (one, x) := scaledPair 1 j iv.d iv.v
  let q := x / one
  let below := inside iv q j
  let above := inside iv (q + 1) j
  if below && above then
    let dq := distance iv q j
    let dq1 := distance iv (q + 1) j
    if dq < dq1 then some ⟨q, j⟩
    else if dq1 < dq then some ⟨q + 1, j⟩
    else if q % 2 == 0 then some ⟨q, j⟩ else some ⟨q + 1, j⟩
  else if below then some ⟨q, j⟩
  else if above then some ⟨q + 1, j⟩
  else none

/-- Drops trailing zero digits, raising the exponent. -/
def trim (x : Decimal) (fuel : Nat) : Decimal :=
  match fuel with
  | 0 => x
  | fuel + 1 => if x.digits ≠ 0 ∧ x.digits % 10 = 0 then trim ⟨x.digits / 10, x.exponent + 1⟩ fuel else x

/-- The shortest decimal of the positive value `m · 2 ^ e`. -/
def ofScaled (m : Nat) (e : Int) (narrowBelow : Bool) : Decimal :=
  let iv := interval m e narrowBelow
  let k := leadingExponent iv.v iv.d
  let found := (List.range 17).findSome? fun (n : Nat) => onGrid iv (k - n)
  let x := found.getD ⟨iv.v * Nat.pow 10 17 / iv.d, -17⟩
  trim x (decimalLength x.digits)

/-- The shortest decimal of a finite value's magnitude; zero is `0 · 10 ^ 0`. -/
def digits (m : Nat) (e : Int) : Decimal :=
  if m = 0 then ⟨0, 0⟩ else ofScaled m e (m = Nat.pow 2 52 ∧ e > -1074)

example : digits (Nat.pow 2 52) (-52) = ⟨1, 0⟩ := by decide +kernel
example : digits 1 (-1074) = ⟨5, -324⟩ := by decide +kernel
-- 0.1 is 3602879701896397 · 2 ^ -55
example : digits 3602879701896397 (-55) = ⟨1, -1⟩ := by decide +kernel
-- 0.1 + 0.2
example : digits 5404319552844596 (-54) = ⟨30000000000000004, -17⟩ := by decide +kernel
-- 2 ^ 1023 · (2 - 2 ^ -52), the greatest finite value
example : digits (Nat.pow 2 53 - 1) 971 = ⟨17976931348623157, 292⟩ := by decide +kernel

end Rfc6570.Shortest
