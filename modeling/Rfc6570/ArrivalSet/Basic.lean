import Rfc6570.Value.Text
import Rfc6570.Value.Dict
import Rfc6570.Value.Key
import Std.Data.HashSet

/-!
# Rfc6570 — arrival sets

An arrival set is a set of hashable values that remembers the order in which they arrived:
adding a value already there changes nothing, removing one closes the gap, and iteration runs
from the first arrival to the last. The set is its list of members (`toList`), with no two
members equal.

Beside the members the set keeps the keys (`Value.key?`) of its texts and whole numbers, so
that such a value is found by its key; any other value is compared with the members one by
one. A set is well formed when the keys are exactly those of its members.

Membership and every change first ask for the value's hash, so an unhashable value is a fault
even where the answer would not need it.

## Results

* `toList_push` — adding appends exactly the values not yet there.
-/

namespace Rfc6570

/-- A set of values in order of arrival. -/
structure ArrivalSet where
  /-- The members, first arrival first. -/
  members : Array Value
  /-- The keys of the members that have one. -/
  keys : Std.HashSet Key

namespace ArrivalSet

/-- The members, first arrival first. -/
def toList (s : ArrivalSet) : List Value := s.members.toList

/-- The empty set. -/
def empty : ArrivalSet := ⟨#[], ∅⟩

instance : Inhabited ArrivalSet := ⟨empty⟩

/-- The keys are exactly those of the members. -/
def WellFormed (s : ArrivalSet) : Prop :=
  ∀ k, k ∈ s.keys ↔ ∃ v ∈ s.toList, v.key? = some k

/-- The number of members. -/
def size (s : ArrivalSet) : Nat := s.members.size

/-- A member equal to `v` is there: found by key when `v` has one. -/
def mem (v : Value) (s : ArrivalSet) : Bool :=
  match v.key? with
  | some k => s.keys.contains k
  | none => s.members.any (Value.equal v)

/-- Refuses a value that cannot be hashed. -/
def hashable (v : Value) : Except Fault Unit :=
  match v.unhashableKind? with
  | some k => .error (.unhashable k)
  | none => .ok ()

/-- Whether a member equal to `v` is there. -/
def contains (s : ArrivalSet) (v : Value) : Except Fault Bool := do
  hashable v
  return s.mem v

/-- Appends `v` unless an equal member is there, without the hash check. -/
def push (s : ArrivalSet) (v : Value) : ArrivalSet :=
  if s.mem v then s
  else ⟨s.members.push v, match v.key? with | some k => s.keys.insert k | none => s.keys⟩

/-- Adds a value: last, unless an equal member is there. -/
def add (s : ArrivalSet) (v : Value) : Except Fault ArrivalSet := do
  hashable v
  return s.push v

/-- Removes the member equal to `v`, without the hash check. -/
def erase (s : ArrivalSet) (v : Value) : ArrivalSet :=
  if s.mem v then
    ⟨s.members.filter fun x => !Value.equal v x,
      match v.key? with | some k => s.keys.erase k | none => s.keys⟩
  else s

/-- Removes the member equal to `v`, if any. -/
def discard (s : ArrivalSet) (v : Value) : Except Fault ArrivalSet := do
  hashable v
  return s.erase v

/-- Removes the member equal to `v`; its absence is a fault naming it. -/
def remove (s : ArrivalSet) (v : Value) : Except Fault ArrivalSet := do
  hashable v
  if s.mem v then return s.erase v
  else .error (.missingKey ((v.repr).toOption.getD []))

/-- Removes the member at position `i`, which is `v`. -/
def eraseAt (s : ArrivalSet) (i : Nat) (v : Value) : ArrivalSet :=
  ⟨s.members.eraseIdxIfInBounds i, match v.key? with | some k => s.keys.erase k | none => s.keys⟩

/-- Removes and returns the last member, or the first when `last` is false. The member is
taken by its position, so even a value unequal to itself leaves. -/
def pop (s : ArrivalSet) (last : Bool) : Except Fault (Value × ArrivalSet) :=
  match (if last then s.toList.getLast? else s.toList.head?) with
  | none => .error (.missingKey (Text.ofString "'set is empty'"))
  | some v => .ok (v, s.eraseAt (if last then s.size - 1 else 0) v)

/-- Keeps the members that pass `keep` and removes the others, each as the member it is, so
that a value unequal to itself leaves too; the keys of the removed members go with them. -/
def retain (s : ArrivalSet) (keep : Value → Bool) : ArrivalSet :=
  ⟨s.members.filter keep,
    (s.toList.filter fun v => !keep v).foldl
      (fun ks v => match v.key? with | some k => ks.erase k | none => ks) s.keys⟩

/-- Adds each value in turn. -/
def addAll (s : ArrivalSet) : List Value → Except Fault ArrivalSet
  | [] => .ok s
  | v :: vs => do addAll (← s.add v) vs

/-- Adds each value in turn, up to the first that cannot be hashed: the set reached, and the
fault that stopped the additions, if one did. -/
def addEach (s : ArrivalSet) : List Value → ArrivalSet × Option Fault
  | [] => (s, none)
  | v :: vs =>
    match s.add v with
    | .ok t => addEach t vs
    | .error f => (s, some f)

/-- Removes each value in turn, up to the first that cannot be hashed: the set reached, and
the fault that stopped the removals, if one did. -/
def discardEach (s : ArrivalSet) : List Value → ArrivalSet × Option Fault
  | [] => (s, none)
  | v :: vs =>
    match s.discard v with
    | .ok t => discardEach t vs
    | .error f => (s, some f)

/-- The set of the items of a value, in order of first appearance. -/
def ofItems (v : Value) : Except Fault ArrivalSet := do
  empty.addAll (← v.items)

/-- The set of a list of values, in order of first appearance. -/
def ofList (vs : List Value) : Except Fault ArrivalSet := empty.addAll vs

/-- The quoted form: `OrderedSet()` when empty, else the quoted list of members inside. -/
def repr (s : ArrivalSet) : Except Fault Text := do
  if s.toList.isEmpty then return Text.ofString "OrderedSet()"
  return Text.ofString "OrderedSet(" ++ (← (Value.list s.toList).repr) ++ Text.ofString ")"

theorem toList_push (s : ArrivalSet) (v : Value) :
    (s.push v).toList = if s.mem v then s.toList else s.toList ++ [v] := by
  unfold push; split <;> simp [toList]

end ArrivalSet

end Rfc6570
