import Rfc6570.Sorting.Merge

/-!
# Rfc6570 — sorting by runs

`sortBy lt` sorts a list stably by a strict order that may refuse to compare two items. It
walks the list once, left to right, cutting off one run at a time (`naturalRun`, extended to
`minRun` items by `insertAll`), and keeps a stack of runs waiting to be merged.

Which runs are merged, and when, follows their *powers*. Seen as intervals of `[0, n)`, two
neighbouring runs have midpoints `a` and `b`; the power of their boundary is the first place
at which the binary expansions of `a / n` and `b / n` differ (`boundaryPower`). Before a new
run is pushed, the boundary between it and the top run gets its power `p`, and while the run
below the top ends at a boundary of greater power than `p`, the top two runs are merged; the
top run then records `p`. At the end the stack is merged from the top, except that the second
and third runs are merged first when the third is shorter than the top.

Merges carry one gallop threshold, starting at `gallopWins`.

## Results

* `sortBy` — the sorted list, or the first refusal.
-/

namespace Rfc6570.Sorting

variable {ε α : Type}

/-- A sorted run waiting on the stack. -/
structure Pending (α : Type) where
  /-- Its items, sorted. -/
  items : Array α
  /-- Where it starts in the whole list. -/
  start : Nat
  /-- The power of the boundary after it, once the next run is known. -/
  power : Nat

/-- The first binary place at which `a / n` and `b / n` differ, for `a < b` below `2 · n`,
counting the first place after the point as 1; `fuel` bounds the places. -/
def firstDifferentPlace (n : Nat) : Nat → Nat → Nat → Nat → Nat
  | 0, _, _, place => place
  | fuel + 1, a, b, place =>
    if n ≤ a then firstDifferentPlace n fuel (2 * (a - n)) (2 * (b - n)) (place + 1)
    else if n ≤ b then place + 1
    else firstDifferentPlace n fuel (2 * a) (2 * b) (place + 1)

/-- The power of the boundary between a run of `n₁` items starting at `s₁` and the run of
`n₂` items after it, in a list of `n` items: the first binary place at which the twice-scaled
midpoints `2 · s₁ + n₁` and `2 · s₁ + 2 · n₁ + n₂` differ after division by `n`. -/
def boundaryPower (s₁ n₁ n₂ n : Nat) : Nat :=
  firstDifferentPlace n (n + 2) (2 * s₁ + n₁) (2 * s₁ + 2 * n₁ + n₂) 0

example : boundaryPower 0 32 32 64 = 1 ∧ boundaryPower 0 32 32 100 = 2 := by decide +kernel

/-- Merges the top run `current` with the runs below it while the run below ends at a boundary
of greater power than `p`. -/
def collapseAbove (lt : α → α → Except ε Bool) (p : Nat) (threshold : Nat) (current : Pending α) :
    List (Pending α) → Except ε (Pending α × List (Pending α) × Nat)
  | [] => .ok (current, [], threshold)
  | below :: rest =>
    if p < below.power then do
      let (items, threshold) ← mergeAt lt below.items current.items threshold
      collapseAbove lt p threshold { below with items := items } rest
    else .ok (current, below :: rest, threshold)

/-- Pushes a new run of `n` items in all, after merging what its boundary's power asks for. -/
def pushRun (lt : α → α → Except ε Bool) (n : Nat) (run : Pending α) (threshold : Nat) :
    List (Pending α) → Except ε (List (Pending α) × Nat)
  | [] => .ok ([run], threshold)
  | top :: rest => do
    let p := boundaryPower top.start top.items.size run.items.size n
    let (top, rest, threshold) ← collapseAbove lt p threshold top rest
    return (run :: { top with power := p } :: rest, threshold)

/-- Merges the whole stack, top first, except that the second and third runs go first when the
third is shorter than the top; `fuel` bounds the merges. -/
def collapseAll (lt : α → α → Except ε Bool) : Nat → Nat → List (Pending α) → Except ε (Array α)
  | _, _, [] => .ok #[]
  | _, _, [top] => .ok top.items
  | 0, _, top :: rest => .ok (rest.foldl (fun acc r => r.items ++ acc) top.items)
  | fuel + 1, threshold, top :: second :: rest =>
    match rest with
    | third :: rest' =>
      if third.items.size < top.items.size then do
        let (items, threshold) ← mergeAt lt third.items second.items threshold
        collapseAll lt fuel threshold (top :: { third with items := items } :: rest')
      else do
        let (items, threshold) ← mergeAt lt second.items top.items threshold
        collapseAll lt fuel threshold ({ second with items := items } :: third :: rest')
    | [] => do
      let (items, _) ← mergeAt lt second.items top.items threshold
      return items

/-- Cuts the rest of the list into runs from position `start` on, pushing each; `fuel` bounds
the runs. -/
def runsFrom (lt : α → α → Except ε Bool) (n minLen : Nat) :
    Nat → Nat → List α → List (Pending α) → Nat → Except ε (List (Pending α) × Nat)
  | 0, _, _, stack, threshold => .ok (stack, threshold)
  | _, _, [], stack, threshold => .ok (stack, threshold)
  | fuel + 1, start, xs, stack, threshold => do
    let (run, rest) ← naturalRun lt xs
    let extra := minLen - run.length
    let items ← insertAll lt run.toArray (rest.take extra)
    let (stack, threshold) ← pushRun lt n ⟨items, start, 0⟩ threshold stack
    runsFrom lt n minLen fuel (start + items.size) (rest.drop extra) stack threshold

end Sorting

/-- Sorts stably by a strict order that may refuse to compare two items. -/
def sortBy {ε α : Type} (lt : α → α → Except ε Bool) (xs : List α) : Except ε (List α) := do
  let n := xs.length
  if n < 2 then return xs
  let (stack, threshold) ← Sorting.runsFrom lt n (Sorting.minRun n) n 0 xs [] Sorting.gallopWins
  return (← Sorting.collapseAll lt stack.length threshold stack).toList

example : (sortBy (fun a b => (.ok (decide (a < b)) : Except Unit Bool)) [3, 1, 2, 5, 4, 0]).toOption =
    some [0, 1, 2, 3, 4, 5] := by decide +kernel
example : (sortBy (fun a b => (.ok (decide (a < b)) : Except Unit Bool)) [5, 4, 3, 2, 1]).toOption =
    some [1, 2, 3, 4, 5] := by decide +kernel

end Rfc6570
