/-!
# Rfc6570 — sorted runs

The first phase of an adaptive merge sort under a strict order `lt` that may refuse to compare
two items (an error of type `ε`). Since the first refusal ends the sort, and an order that is
not total (a not-a-number among numbers) lets the comparisons made decide the result, every
function here fixes exactly which pairs it compares, in which order and which way round.

* `naturalRun` — the run at the front of the list: the longest prefix that does not descend,
  or the longest strictly descending prefix, reversed. Each item is compared with the one
  before it, as `lt next previous`.
* `insertAll` — extends a run by binary insertion: each new item goes after every item it is
  not less than, found by halving (`bisect`) and asking `lt item middle`.
* `minRun` — the length a short run is extended to: the whole list below 64 items, else the
  six leading bits of the length, plus one when any bit below them is set.
-/

namespace Rfc6570.Sorting

variable {ε α : Type}

/-- The first index in `[lo, hi)` at which `goRight` fails, by halving: at the middle `m` the
search goes right of `m` when `goRight m` holds and left of it otherwise; `fuel` bounds the
halvings. -/
def bisect (goRight : Nat → Except ε Bool) : Nat → Nat → Nat → Except ε Nat
  | 0, lo, _ => .ok lo
  | fuel + 1, lo, hi =>
    if lo < hi then do
      let m := lo + (hi - lo) / 2
      if ← goRight m then bisect goRight fuel (m + 1) hi else bisect goRight fuel lo m
    else .ok hi

/-- Inserts each of `xs` into the sorted `run` by binary insertion, after every item it is not
less than. -/
def insertAll (lt : α → α → Except ε Bool) (run : Array α) : List α → Except ε (Array α)
  | [] => .ok run
  | x :: xs => do
    let i ← bisect (fun m => (!·) <$> lt x (run.getD m x)) (run.size + 1) 0 run.size
    insertAll lt (run.insertIdxIfInBounds i x) xs

/-- The longest continuation after `prev` that does not descend, and the rest. -/
def ascending (lt : α → α → Except ε Bool) (prev : α) : List α → Except ε (List α × List α)
  | [] => .ok ([], [])
  | x :: xs => do
    if ← lt x prev then .ok ([], x :: xs)
    else
      let (run, rest) ← ascending lt x xs
      .ok (x :: run, rest)

/-- The longest strictly descending continuation after `prev`, and the rest. -/
def descending (lt : α → α → Except ε Bool) (prev : α) : List α → Except ε (List α × List α)
  | [] => .ok ([], [])
  | x :: xs => do
    if ← lt x prev then
      let (run, rest) ← descending lt x xs
      .ok (x :: run, rest)
    else .ok ([], x :: xs)

/-- The natural run at the front of a list, in ascending order, and the rest. -/
def naturalRun (lt : α → α → Except ε Bool) : List α → Except ε (List α × List α)
  | [] => .ok ([], [])
  | [x] => .ok ([x], [])
  | x :: y :: rest => do
    if ← lt y x then
      let (run, rest') ← descending lt y rest
      .ok ((x :: y :: run).reverse, rest')
    else
      let (run, rest') ← ascending lt y rest
      .ok (x :: y :: run, rest')

/-- The length a short run is extended to, in a list of `n` items. -/
def minRun (n : Nat) : Nat := go n 0 n
where
  /-- Halves `n` below 64, remembering whether a bit was dropped. -/
  go (n : Nat) (dropped : Nat) : Nat → Nat
    | 0 => n + dropped
    | fuel + 1 => if n < 64 then n + dropped else go (n / 2) (dropped ||| n % 2) fuel

example : minRun 63 = 63 ∧ minRun 64 = 32 ∧ minRun 65 = 33 ∧ minRun 2000 = 63 := by decide

example : (naturalRun (fun a b => (.ok (decide (a < b)) : Except Unit Bool)) [5, 3, 1, 2]).toOption =
    some ([1, 3, 5], [2]) := by decide +kernel

example : (insertAll (fun a b => (.ok (decide (a < b)) : Except Unit Bool)) #[1, 4] [3, 0]).toOption =
    some #[0, 1, 3, 4] := by decide +kernel

end Rfc6570.Sorting
