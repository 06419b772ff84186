import Rfc6570.ArrivalSet.Algebra

/-!
# Rfc6570 — changing an arrival set step by step

The changes an arrival set accepts, as data: adding, discarding and removing a value, popping
the last or the first member, clearing, and the four in-place operations with a second
operand. `ArrivalSet.mutate` makes one change and gives its answer (the member a pop took,
nothing for the other changes, or the fault that stopped it) with the set it leaves; `run`
makes a list of changes in turn.

A change that fails leaves the set as it was, except in-place union and difference, which
work item by item and keep what they did before the fault.
-/

namespace Rfc6570

/-- A change to an arrival set. -/
inductive Mutation where
  /-- Adds a value. -/
  | add (v : Value)
  /-- Removes the member equal to a value, if any. -/
  | discard (v : Value)
  /-- Removes the member equal to a value, which must be there. -/
  | remove (v : Value)
  /-- Removes and answers the last member, or the first when `last` is false. -/
  | pop (last : Bool)
  /-- Removes every member. -/
  | clear
  /-- In-place union. -/
  | unionUpdate (o : Operand)
  /-- In-place intersection. -/
  | interUpdate (o : Operand)
  /-- In-place difference. -/
  | diffUpdate (o : Operand)
  /-- In-place symmetric difference. -/
  | symmDiffUpdate (o : Operand)

namespace ArrivalSet

/-- Removes every member, popping the last one until none is left. -/
def clear (_ : ArrivalSet) : ArrivalSet := empty

/-- The answer of a change made at once: on a fault the set stays as it was. -/
def settle (s : ArrivalSet) : Except Fault ArrivalSet → Except Fault (Option Value) × ArrivalSet
  | .ok t => (.ok none, t)
  | .error f => (.error f, s)

/-- The answer of a change made item by item: on a fault the set keeps what was done. -/
def settleEach : ArrivalSet × Option Fault → Except Fault (Option Value) × ArrivalSet
  | (t, none) => (.ok none, t)
  | (t, some f) => (.error f, t)

/-- Makes one change: its answer, and the set it leaves. -/
def mutate (s : ArrivalSet) : Mutation → Except Fault (Option Value) × ArrivalSet
  | .add v => settle s (s.add v)
  | .discard v => settle s (s.discard v)
  | .remove v => settle s (s.remove v)
  | .pop last =>
    match s.pop last with
    | .ok (v, t) => (.ok (some v), t)
    | .error f => (.error f, s)
  | .clear => (.ok none, s.clear)
  | .unionUpdate o => settleEach (s.unionUpdate o)
  | .interUpdate o => settle s (s.interUpdate o)
  | .diffUpdate o => settleEach (s.diffUpdate o)
  | .symmDiffUpdate o => settle s (s.symmDiffUpdate o)

/-- Makes the changes in turn: their answers, and the set reached. -/
def run (s : ArrivalSet) : List Mutation → List (Except Fault (Option Value)) × ArrivalSet
  | [] => ([], s)
  | m :: ms =>
    let (a, t) := s.mutate m
    let (as, u) := t.run ms
    (a :: as, u)

end ArrivalSet

end Rfc6570
