import Rfc6570.ArrivalSet.Basic

/-!
# Rfc6570 — the algebra of arrival sets

Arrival sets combine with a second operand: another arrival set, the set itself, or a plain
value whose items are used. The results and their orders:

* union: the set's members, then the operand's new items in their order;
* intersection: the operand's items that are members, in the operand's order;
* difference: the members not in the operand, in the set's order;
* symmetric difference: the difference, then the operand's items not in the set.

The in-place forms change the set: union adds the items; intersection keeps the members in the
operand; difference removes the items; symmetric difference removes the items that are members
and adds the others. In-place union and difference work item by item, so an item that cannot
be hashed stops them part way and what was done before it stays.

The binary operators are undefined for a plain value without items; the in-place forms then
fail as the items are asked for, except in-place intersection, which takes a difference.

With the set itself as operand every member is found in the operand, even a value unequal to
itself: union and intersection give the set, difference and symmetric difference empty it.

Equality with another arrival set compares the member lists in order; with plain items it
holds when some item is a member. Inclusion compares two arrival sets only; against plain
items it is a fault.
-/

namespace Rfc6570

/-- The second operand of a set operation. -/
inductive Operand where
  /-- The set itself. -/
  | same
  /-- Another arrival set. -/
  | set (s : ArrivalSet)
  /-- A plain value, whose items are used. -/
  | items (v : Value)

namespace ArrivalSet

/-- The items of an operand, in order. -/
def operandItems (s : ArrivalSet) : Operand → Except Fault (List Value)
  | .same => .ok s.toList
  | .set t => .ok t.toList
  | .items v => v.items

/-- The operand as an arrival set. -/
def operandSet (s : ArrivalSet) : Operand → Except Fault ArrivalSet
  | .same => .ok s
  | .set t => .ok t
  | .items v => ofItems v

/-- The members satisfying a check that may fail, in order. -/
def keepWhere (p : Value → Except Fault Bool) (vs : List Value) : Except Fault (List Value) :=
  vs.filterM p

/-- The binary operator written `symbol` is defined for the operand: a plain value must have
items. -/
def requireItems (symbol : String) : Operand → Except Fault Unit
  | .items v => if v.items?.isSome then .ok () else .error (.unsupportedOperands symbol "OrderedSet" v.kind.name)
  | _ => .ok ()

/-- The union. -/
def union (s : ArrivalSet) : Operand → Except Fault ArrivalSet
  | .same => .ok s
  | o => do
    requireItems "|" o
    ofList (s.toList ++ (← s.operandItems o))

/-- The intersection, in the operand's order. -/
def inter (s : ArrivalSet) : Operand → Except Fault ArrivalSet
  | .same => .ok s
  | o => do
    requireItems "&" o
    ofList (← keepWhere s.contains (← s.operandItems o))

/-- The difference, in the set's order. -/
def diff (s : ArrivalSet) : Operand → Except Fault ArrivalSet
  | .same => .ok empty
  | o => do
    requireItems "-" o
    let t ← s.operandSet o
    ofList (← keepWhere (fun v => (!·) <$> t.contains v) s.toList)

/-- The symmetric difference: the difference, then the operand's members not in the set. -/
def symmDiff (s : ArrivalSet) : Operand → Except Fault ArrivalSet
  | .same => .ok empty
  | o => do
    requireItems "^" o
    let t ← s.operandSet o
    let a ← s.diff (.set t)
    let b ← t.diff (.set s)
    a.union (.set b)

/-- In-place union: the operand's items are added in turn. Plain items are added up to the
first that cannot be hashed, and the additions made before it stay. -/
def unionUpdate (s : ArrivalSet) : Operand → ArrivalSet × Option Fault
  | .same => (s, none)
  | .set t => s.addEach t.toList
  | .items v =>
    match v.items with
    | .ok xs => s.addEach xs
    | .error f => (s, some f)

/-- In-place intersection: the members not in the operand are removed, each as the member it
is, so a value unequal to itself leaves even though no lookup finds it. The operand is first
turned into a set, with the checks of a difference. -/
def interUpdate (s : ArrivalSet) : Operand → Except Fault ArrivalSet
  | .same => .ok s
  | o => do
    requireItems "-" o
    let t ← s.operandSet o
    return s.retain (t.mem ·)

/-- In-place difference: the operand's items are removed in turn. Plain items are removed up
to the first that cannot be hashed, and the removals made before it stay. -/
def diffUpdate (s : ArrivalSet) : Operand → ArrivalSet × Option Fault
  | .same => (empty, none)
  | .set t => s.discardEach t.toList
  | .items v =>
    match v.items with
    | .ok xs => s.discardEach xs
    | .error f => (s, some f)

/-- Toggles each value: removed when a member, added otherwise. -/
def toggleAll (s : ArrivalSet) : List Value → Except Fault ArrivalSet
  | [] => .ok s
  | v :: vs => do
    let s ← if ← s.contains v then s.discard v else s.add v
    toggleAll s vs

/-- In-place symmetric difference. -/
def symmDiffUpdate (s : ArrivalSet) : Operand → Except Fault ArrivalSet
  | .same => .ok empty
  | o => do s.toggleAll (← s.operandSet o).toList

/-- Some value is a member; the values are looked at in order up to the first member. -/
def anyMember (s : ArrivalSet) : List Value → Except Fault Bool
  | [] => .ok false
  | v :: vs => do if ← s.contains v then return true else s.anyMember vs

/-- No item of the operand is a member. -/
def isDisjoint (s : ArrivalSet) : Operand → Except Fault Bool
  | .same => .ok (s.size == 0)
  | o => do return !(← s.anyMember (← s.operandItems o))

/-- Equality: with an arrival set, the same members in the same order; with plain items,
some item is a member. -/
def equals (s : ArrivalSet) : Operand → Except Fault Bool
  | .same => .ok true
  | .set t => .ok (s.size == t.size && Value.equalItems s.toList t.toList)
  | .items v => (!·) <$> s.isDisjoint (.items v)

/-- Every member of `s` is in `t`. -/
def subsetOf (s t : ArrivalSet) : Bool := s.toList.all (t.mem ·)

/-- The comparisons between arrival sets. -/
inductive Comparison where
  | le | lt | ge | gt
deriving DecidableEq, Repr

/-- The symbol of a comparison. -/
def Comparison.symbol : Comparison → String
  | .le => "<="
  | .lt => "<"
  | .ge => ">="
  | .gt => ">"

/-- Inclusion between arrival sets; against plain items, a fault. A set includes itself and
is not a proper part of itself. -/
def compareWith (s : ArrivalSet) (c : Comparison) : Operand → Except Fault Bool
  | .items v => .error (.unordered c.symbol "OrderedSet" v.kind.name)
  | .same => .ok (c == .le || c == .ge)
  | .set t =>
    .ok <| match c with
      | .le => s.size ≤ t.size && s.subsetOf t
      | .lt => s.size < t.size && s.subsetOf t
      | .ge => t.size ≤ s.size && t.subsetOf s
      | .gt => t.size < s.size && t.subsetOf s

end ArrivalSet

end Rfc6570
