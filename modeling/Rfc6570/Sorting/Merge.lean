import Rfc6570.Sorting.Gallop

/-!
# Rfc6570 — merging two runs

Two neighbouring sorted runs `a` (first) and `b` are merged stably: an item of `b` goes before
an item of `a` only when it is less. `mergeAt` first leaves in place the items of `a` that are
not greater than `b`'s first item (`gallopRight`) and the items of `b` that are not less than
`a`'s last (`gallopLeft`), then merges what remains from the end of the shorter part:

* `mergeLow` (the part of `a` is not longer) fills the result from the front, asking
  `lt (head of b) (head of a)`;
* `mergeHigh` fills it from the back, asking `lt (last of b) (last of a)`.

Both start one item at a time, counting how often each run wins in a row. When one run wins
`threshold` times in a row they gallop: they find with one search how many items of each run
go next and move them at once, lowering the threshold by one each round (not below 1), for as
long as a search moves at least `gallopWins` items; on leaving they raise it by one. The
threshold is carried from one merge to the next.
-/

namespace Rfc6570.Sorting

variable {ε α : Type}

/-- The number of items a galloping search must move to keep a merge galloping, and the
starting threshold of wins in a row. -/
def gallopWins : Nat := 7

/-- How a merge proceeds: one item at a time, with the wins in a row of each run, or by
galloping. -/
inductive Pace where
  /-- One comparison per item; `aWins` and `bWins` count the wins in a row. -/
  | single (aWins bWins : Nat)
  /-- One search per run per round. -/
  | gallop

/-- The threshold after a round of galloping: one lower, but not below 1. -/
def lower (threshold : Nat) : Nat := if threshold > 1 then threshold - 1 else threshold

/-- The result of a merge from the front: what is written, then what is left of `b`, then
what is left of `a` (at most one of the two is non-empty, or `a` has one item left, which
belongs last). -/
def finishLow (out a b : Array α) (ia ib : Nat) : Array α :=
  out ++ b.extract ib b.size ++ a.extract ia a.size

/-- Merges from the front. `out` is written, `a` is read from `ia` and `b` from `ib`; `a` has
at least two items left and `b` at least one. -/
def lowLoop (lt : α → α → Except ε Bool) (a b : Array α) :
    Nat → Array α → Nat → Nat → Nat → Pace → Except ε (Array α × Nat)
  | 0, out, ia, ib, threshold, _ => .ok (finishLow out a b ia ib, threshold)
  | fuel + 1, out, ia, ib, threshold, pace =>
    match a[ia]?, b[ib]? with
    | some x, some y =>
      let na := a.size - ia
      let nb := b.size - ib
      match pace with
      | .single aWins bWins => do
        if ← lt y x then
          let out := out.push y
          if nb == 1 then .ok (finishLow out a b ia (ib + 1), threshold)
          else if bWins + 1 ≥ threshold then lowLoop lt a b fuel out ia (ib + 1) (threshold + 1) .gallop
          else lowLoop lt a b fuel out ia (ib + 1) threshold (.single 0 (bWins + 1))
        else
          let out := out.push x
          if na - 1 == 1 then .ok (finishLow out a b (ia + 1) ib, threshold)
          else if aWins + 1 ≥ threshold then lowLoop lt a b fuel out (ia + 1) ib (threshold + 1) .gallop
          else lowLoop lt a b fuel out (ia + 1) ib threshold (.single (aWins + 1) 0)
      | .gallop => do
        let threshold := lower threshold
        -- the items of `a` not greater than `y`, then `y`
        let k ← gallopRight lt y a ia na 0
        let out := out ++ a.extract ia (ia + k)
        if na - k ≤ 1 then .ok (finishLow out a b (ia + k) ib, threshold)
        else
          let out := out.push y
          if nb == 1 then .ok (finishLow out a b (ia + k) (ib + 1), threshold)
          else
            -- the items of `b` less than the next item of `a`, then that item
            let x' := a.getD (ia + k) x
            let k' ← gallopLeft lt x' b (ib + 1) (nb - 1) 0
            let out := out ++ b.extract (ib + 1) (ib + 1 + k')
            if nb - 1 - k' == 0 then .ok (finishLow out a b (ia + k) (ib + 1 + k'), threshold)
            else
              let out := out.push x'
              if na - k - 1 == 1 then .ok (finishLow out a b (ia + k + 1) (ib + 1 + k'), threshold)
              else if k ≥ gallopWins || k' ≥ gallopWins then
                lowLoop lt a b fuel out (ia + k + 1) (ib + 1 + k') threshold .gallop
              else lowLoop lt a b fuel out (ia + k + 1) (ib + 1 + k') (threshold + 1) (.single 0 0)
    | _, _ => .ok (finishLow out a b ia ib, threshold)

/-- Merges `a` and `b` from the front, where `b`'s first item goes first. -/
def mergeLow (lt : α → α → Except ε Bool) (a b : Array α) (threshold : Nat) :
    Except ε (Array α × Nat) :=
  match b[0]? with
  | none => .ok (a, threshold)
  | some y =>
    let out := #[y]
    if b.size == 1 || a.size == 1 then .ok (finishLow out a b 0 1, threshold)
    else lowLoop lt a b (a.size + b.size) out 0 1 threshold (.single 0 0)

/-- The result of a merge from the back: what is left of `b`, then what is left of `a` (at most
one of the two is non-empty, or `b` has one item left, which belongs first), then what is
written. -/
def finishHigh (out : List α) (a b : Array α) (na nb : Nat) : List α :=
  (b.extract 0 nb).toList ++ (a.extract 0 na).toList ++ out

/-- Merges from the back. `out` is written, the first `na` items of `a` and the first `nb` of
`b` are left; `a` has at least one item left and `b` at least two. -/
def highLoop (lt : α → α → Except ε Bool) (a b : Array α) :
    Nat → List α → Nat → Nat → Nat → Pace → Except ε (List α × Nat)
  | 0, out, na, nb, threshold, _ => .ok (finishHigh out a b na nb, threshold)
  | fuel + 1, out, na, nb, threshold, pace =>
    match a[na - 1]?, b[nb - 1]? with
    | some x, some y =>
      match pace with
      | .single aWins bWins => do
        if ← lt y x then
          let out := x :: out
          if na == 1 then .ok (finishHigh out a b 0 nb, threshold)
          else if aWins + 1 ≥ threshold then highLoop lt a b fuel out (na - 1) nb (threshold + 1) .gallop
          else highLoop lt a b fuel out (na - 1) nb threshold (.single (aWins + 1) 0)
        else
          let out := y :: out
          if nb - 1 == 1 then .ok (finishHigh out a b na (nb - 1), threshold)
          else if bWins + 1 ≥ threshold then highLoop lt a b fuel out na (nb - 1) (threshold + 1) .gallop
          else highLoop lt a b fuel out na (nb - 1) threshold (.single 0 (bWins + 1))
      | .gallop => do
        let threshold := lower threshold
        -- the items of `a` greater than `y`, then `y`
        let k := na - (← gallopRight lt y a 0 na (na - 1))
        let out := (a.extract (na - k) na).toList ++ out
        let na := na - k
        if na == 0 then .ok (finishHigh out a b na nb, threshold)
        else
          let out := y :: out
          if nb - 1 == 1 then .ok (finishHigh out a b na (nb - 1), threshold)
          else
            -- the items of `b` not less than the last item left of `a`, then that item
            let x' := a.getD (na - 1) x
            let k' := (nb - 1) - (← gallopLeft lt x' b 0 (nb - 1) (nb - 2))
            let out := (b.extract (nb - 1 - k') (nb - 1)).toList ++ out
            let nb := nb - 1 - k'
            if nb ≤ 1 then .ok (finishHigh out a b na nb, threshold)
            else
              let out := x' :: out
              if na == 1 then .ok (finishHigh out a b 0 nb, threshold)
              else if k ≥ gallopWins || k' ≥ gallopWins then
                highLoop lt a b fuel out (na - 1) nb threshold .gallop
              else highLoop lt a b fuel out (na - 1) nb (threshold + 1) (.single 0 0)
    | _, _ => .ok (finishHigh out a b na nb, threshold)

/-- Merges `a` and `b` from the back, where `a`'s last item goes last. -/
def mergeHigh (lt : α → α → Except ε Bool) (a b : Array α) (threshold : Nat) :
    Except ε (Array α × Nat) :=
  match a[a.size - 1]? with
  | none => .ok (b, threshold)
  | some x =>
    let out := [x]
    if a.size == 1 || b.size == 1 then .ok ((finishHigh out a b (a.size - 1) b.size).toArray, threshold)
    else do
      let (m, threshold) ← highLoop lt a b (a.size + b.size) out (a.size - 1) b.size threshold (.single 0 0)
      return (m.toArray, threshold)

/-- Merges the neighbouring runs `a` and `b`, carrying the gallop threshold. -/
def mergeAt (lt : α → α → Except ε Bool) (a b : Array α) (threshold : Nat) :
    Except ε (Array α × Nat) :=
  match b[0]? with
  | none => .ok (a, threshold)
  | some y => do
    -- the front of `a` that is already in place
    let k ← gallopRight lt y a 0 a.size 0
    let a' := a.extract k a.size
    match a'[a'.size - 1]? with
    | none => .ok (a ++ b, threshold)
    | some x => do
      -- the back of `b` that is already in place
      let nb ← gallopLeft lt x b 0 b.size (b.size - 1)
      if nb == 0 then .ok (a ++ b, threshold)
      else
        let b' := b.extract 0 nb
        let (m, threshold) ←
          if a'.size ≤ nb then mergeLow lt a' b' threshold else mergeHigh lt a' b' threshold
        return (a.extract 0 k ++ m ++ b.extract nb b.size, threshold)

/-- The order of natural numbers, never refusing. -/
private def natOrder (a b : Nat) : Except Unit Bool := .ok (decide (a < b))

example : ((mergeAt natOrder #[1, 4, 6, 9] #[2, 3, 7] gallopWins).toOption.map (·.1)) =
    some #[1, 2, 3, 4, 6, 7, 9] := by decide +kernel
example : ((mergeAt natOrder #[5, 6, 7] #[1, 2, 3, 4, 8] gallopWins).toOption.map (·.1)) =
    some #[1, 2, 3, 4, 5, 6, 7, 8] := by decide +kernel

end Rfc6570.Sorting
