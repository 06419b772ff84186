import Rfc6570.Value.Basic

/-!
# Rfc6570 — the keys of texts and whole numbers

Equality of values crosses kinds (`1`, `1.0`, `true` and `1+0j` are equal), so values cannot be
looked up by their form. Two families can: texts, equal only to texts with the same code
points, and whole numbers, equal exactly when their integer values are. `Value.key?` gives
such a value its key: a text its code points, and a truth value, an integer, a finite binary64
number with no fractional part, or a complex number whose imaginary part is zero and whose
real part is whole, its integer value. Every value equal to a keyed value has the same key, and
values with different keys are unequal, so a set or a dictionary can find keyed members by key
and compare the others one by one.
-/

namespace Rfc6570

/-- The key of a text or a whole number. -/
inductive Key where
  /-- A text. -/
  | text (t : Text)
  /-- A whole number. -/
  | int (n : Int)
deriving DecidableEq, Hashable, Repr

namespace Binary64

/-- The integer value of a finite number without fractional part. -/
def toInt? (x : Binary64) : Option Int :=
  match x.view with
  | .finite neg m e =>
    let mag : Option Nat :=
      if 0 ≤ e then some (m * Nat.pow 2 e.toNat)
      else if m % Nat.pow 2 (-e).toNat = 0 then some (m / Nat.pow 2 (-e).toNat) else none
    mag.map fun k => if neg then -(k : Int) else k
  | _ => none

end Binary64

namespace Value

/-- The key of a text or a whole number; `none` for every other value. -/
def key? : Value → Option Key
  | .text t => some (.text t)
  | .bool b => some (.int (if b then 1 else 0))
  | .int n => some (.int n)
  | .float x => x.toInt?.map .int
  | .complex re im => if im.isZero then re.toInt?.map .int else Option.none
  | _ => Option.none

example : key? (.float ⟨0x4000000000000000⟩) = some (.int 2) := by decide +kernel
example : key? (.float ⟨0x3FF8000000000000⟩) = Option.none := by decide +kernel
example : key? (.float ⟨0x8000000000000000⟩) = some (.int 0) := by decide +kernel

end Value

end Rfc6570
