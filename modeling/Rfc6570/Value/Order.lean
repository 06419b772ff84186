import Rfc6570.Value.Basic
import Rfc6570.Fault

/-!
# Rfc6570 — the order of values

Values of some kinds can be ordered: numbers other than complex ones by their exact value,
texts and byte strings lexicographically by code point or byte, and lists with lists or tuples
with tuples lexicographically: at the first position where the items are not equal, by the
order of those items, else the shorter first. Asking for the order of any other two values is
a fault that names both kinds.
-/

namespace Rfc6570

namespace Value

/-- Lexicographic order of two sequences of numbers, a proper prefix first. -/
def lexLess : List Nat → List Nat → Bool
  | [], [] => false
  | [], _ :: _ => true
  | _ :: _, [] => false
  | a :: as, b :: bs => if a = b then lexLess as bs else a < b

mutual
/-- Whether `a` comes strictly before `b`, or why they cannot be ordered. -/
def lessThan : Value → Value → Except Fault Bool
  | .text s, .text t => .ok (lexLess s t)
  | .bytes s, .bytes t => .ok (lexLess (s.map UInt8.toNat) (t.map UInt8.toNat))
  | .list xs, .list ys => itemsLessThan xs ys
  | .tuple xs, .tuple ys => itemsLessThan xs ys
  | a, b =>
    match a.number?, b.number? with
    | some (x, Option.none), some (y, Option.none) => .ok (x.compare? y == some .lt)
    | _, _ => .error (.unordered "<" a.kind.name b.kind.name)
/-- Lexicographic order of two item lists. -/
def itemsLessThan : List Value → List Value → Except Fault Bool
  | [], [] => .ok false
  | [], _ :: _ => .ok true
  | _ :: _, [] => .ok false
  | x :: xs, y :: ys => if equal x y then itemsLessThan xs ys else lessThan x y
end

/-- The order of two dictionary entries as pairs: by key, then by value. -/
def entryLessThan (a b : Value × Value) : Except Fault Bool :=
  if !equal a.1 b.1 then lessThan a.1 b.1
  else if !equal a.2 b.2 then lessThan a.2 b.2
  else .ok false

example : lessThan (.int 1) (.float ⟨0x3FF8000000000000⟩) = .ok true := rfl
example : lessThan (.tuple [.int 1, .text [98]]) (.tuple [.bool true, .text [97]]) = .ok false := rfl

end Value

end Rfc6570
