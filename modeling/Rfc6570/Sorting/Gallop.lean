import Rfc6570.Sorting.Run

/-!
# Rfc6570 — galloping search

Where an item belongs in a sorted slice `xs[base, base + n)`, found from a starting position
`hint` by steps of 1, 3, 7, 15, … away from it (while the item stays on the same side), then
by halving the last step. Merging uses it to move many items at once when one run keeps
winning.

* `gallopLeft key` — the first position whose item is not less than `key`; items equal to the
  key stay right of it. Comparisons ask `lt item key`.
* `gallopRight key` — the first position whose item is greater than `key`; items equal to the
  key stay left of it. Comparisons ask `lt key item`.

Positions are counted from `base`; with a consistent order both give a position in `[0, n]`.
-/

namespace Rfc6570.Sorting

variable {ε α : Type}

/-- Grows an offset by `ofs ↦ 2 · ofs + 1` while it stays below `maxofs` and `test` holds at
it; the last offset at which it held (or 0) and the first at which it did not. -/
def stride (test : Nat → Except ε Bool) (maxofs : Nat) : Nat → Nat → Nat → Except ε (Nat × Nat)
  | 0, last, ofs => .ok (last, ofs)
  | fuel + 1, last, ofs =>
    if ofs < maxofs then do
      if ← test ofs then stride test maxofs fuel ofs (2 * ofs + 1) else .ok (last, ofs)
    else .ok (last, ofs)

/-- The first position in `xs[base, base + n)` whose item is not less than `key`, searched from
`hint`. -/
def gallopLeft (lt : α → α → Except ε Bool) (key : α) (xs : Array α) (base n hint : Nat) :
    Except ε Nat := do
  let item (i : Nat) : α := xs.getD (base + i) key
  let below (m : Nat) : Except ε Bool := lt (item m) key
  if ← below hint then
    -- the key lies right of the hint
    let maxofs := n - hint
    let (last, ofs) ← stride (fun o => below (hint + o)) maxofs (n + 1) 0 1
    bisect below (n + 1) (hint + last + 1) (hint + min ofs maxofs)
  else
    -- the key lies at or left of the hint
    let maxofs := hint + 1
    let (last, ofs) ← stride (fun o => (!·) <$> below (hint - o)) maxofs (n + 1) 0 1
    bisect below (n + 1) (hint + 1 - min ofs maxofs) (hint - last)

/-- The first position in `xs[base, base + n)` whose item is greater than `key`, searched from
`hint`. -/
def gallopRight (lt : α → α → Except ε Bool) (key : α) (xs : Array α) (base n hint : Nat) :
    Except ε Nat := do
  let item (i : Nat) : α := xs.getD (base + i) key
  let notAbove (m : Nat) : Except ε Bool := (!·) <$> lt key (item m)
  if ← lt key (item hint) then
    -- the key lies left of the hint
    let maxofs := hint + 1
    let (last, ofs) ← stride (fun o => lt key (item (hint - o))) maxofs (n + 1) 0 1
    bisect notAbove (n + 1) (hint + 1 - min ofs maxofs) (hint - last)
  else
    -- the key lies at or right of the hint
    let maxofs := n - hint
    let (last, ofs) ← stride (fun o => notAbove (hint + o)) maxofs (n + 1) 0 1
    bisect notAbove (n + 1) (hint + last + 1) (hint + min ofs maxofs)

/-- The order of natural numbers, never refusing. -/
private def natLess (a b : Nat) : Except Unit Bool := .ok (decide (a < b))

example : (gallopLeft natLess 5 #[1, 3, 5, 5, 7, 9, 11, 13] 0 8 0).toOption = some 2 := by decide +kernel
example : (gallopRight natLess 5 #[1, 3, 5, 5, 7, 9, 11, 13] 0 8 0).toOption = some 4 := by decide +kernel
example : (gallopLeft natLess 5 #[1, 3, 5, 5, 7, 9, 11, 13] 0 8 7).toOption = some 2 := by decide +kernel
example : (gallopRight natLess 0 #[1, 3, 5] 0 3 2).toOption = some 0 := by decide +kernel

end Rfc6570.Sorting
