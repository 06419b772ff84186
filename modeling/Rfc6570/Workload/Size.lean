import Rfc6570.Value.Basic
import Rfc6570.Fault

/-!
# Rfc6570 — workload sizes

A workload's size parameter is a dynamic value. Two ways of turning it into work:

* `cycle`: the first `n` items of a fixed list repeated as often as needed. The list is
  repeated `⌊n / len⌋ + 1` times and cut after `n` items; a negative `n` cuts that many items
  off the end, which leaves nothing. A truth value counts as 0 or 1; a binary64 size cannot
  repeat a list; any other kind cannot be divided.
* `count`: the numbers `0, 1, …, n - 1`, none for `n ≤ 0`. A truth value counts as 0 or 1;
  any other kind is not an integer.
-/

namespace Rfc6570.Workload

/-- The integer a size holds, counting a truth value as 0 or 1. -/
def intSize? : Value → Option Int
  | .int n => some n
  | .bool b => some (if b then 1 else 0)
  | _ => none

/-- The first `n` items of `base` repeated `⌊n / len⌋ + 1` times; a negative `n` drops that
many items from the end. -/
def cycleInt {α : Type} (base : List α) (n : Int) : List α :=
  let times := n / (base.length : Int) + 1
  let whole := (List.replicate times.toNat base).flatten
  if 0 ≤ n then whole.take n.toNat else whole.take (whole.length - n.natAbs)

/-- The items a size selects from a fixed non-empty list, cycling through it. -/
def cycle {α : Type} (base : List α) (size : Value) : Except Fault (List α) :=
  match intSize? size with
  | some n => .ok (cycleInt base n)
  | none =>
    match size with
    | .float _ => .error (.repeatNotInteger .float)
    | v => .error (.unsupportedOperands "//" v.kind.name "int")

/-- The numbers below a size. -/
def count (size : Value) : Except Fault (List Nat) :=
  match intSize? size with
  | some n => .ok (List.range n.toNat)
  | none => .error (.notAnInteger size.kind)

example : cycleInt [1, 2, 3] 7 = [1, 2, 3, 1, 2, 3, 1] := by decide
example : cycleInt [1, 2, 3] (-2) = [] := by decide

end Rfc6570.Workload
