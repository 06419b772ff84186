import Rfc6570.Fault
import Rfc6570.Number.FloatText

/-!
# Rfc6570 — the text of a value

A value has two texts. Its *quoted form* (`Value.repr`) is how it shows inside a container:
texts and byte strings quoted, `None`, `True` and `False`, integers in decimal, numbers by
their shortest decimal, lists as `[a, b]`, tuples as `(a, b)` or `(a,)`, dictionaries as
`{k: v}` in insertion order. Its *plain text* (`Value.str`) is the same except that a text is
itself.

An integer of more than 4300 decimal digits has no text: writing it is a fault.
-/

namespace Rfc6570

namespace Value

open Text

/-- The decimal text of an integer, refused beyond 4300 digits. -/
def intText (n : Int) : Except Fault Text :=
  let ds := ofNat n.natAbs
  if IntLiteral.digitLimit < ds.length then .error .integerTooLong
  else .ok (if n < 0 then 45 :: ds else ds)

mutual
/-- The quoted form of a value. -/
def repr : Value → Except Fault Text
  | .none => .ok (ofString "None")
  | .bool b => .ok (ofString (if b then "True" else "False"))
  | .int n => intText n
  | .float x => .ok x.text
  | .complex re im => .ok (Binary64.complexText re im)
  | .text t => .ok (quoted t)
  | .bytes bs => .ok (quotedBytes bs)
  | .list xs => do
    let parts ← reprItems xs
    return [91] ++ join (ofString ", ") parts ++ [93]
  | .tuple xs => do
    let parts ← reprItems xs
    match parts with
    | [p] => return [40] ++ p ++ [44, 41]
    | _ => return [40] ++ join (ofString ", ") parts ++ [41]
  | .dict es => do
    let parts ← reprEntries es
    return [123] ++ join (ofString ", ") parts ++ [125]
/-- The quoted forms of items, in order. -/
def reprItems : List Value → Except Fault (List Text)
  | [] => .ok []
  | x :: xs => do
    let p ← repr x
    let ps ← reprItems xs
    return p :: ps
/-- The texts `k: v` of entries, in order. -/
def reprEntries : List (Value × Value) → Except Fault (List Text)
  | [] => .ok []
  | (k, v) :: es => do
    let pk ← repr k
    let pv ← repr v
    let ps ← reprEntries es
    return (pk ++ [58, 32] ++ pv) :: ps
end

/-- The plain text of a value: a text is itself, anything else its quoted form. -/
def str : Value → Except Fault Text
  | .text t => .ok t
  | v => v.repr

/-- A value with a text joined after it: a text is followed by it; a list, tuple or byte string
cannot be joined to a text, and no other kind has a way to join one. -/
def plusText (v : Value) (t : Text) : Except Fault Text :=
  match v with
  | .text s => .ok (s ++ t)
  | .list _ | .tuple _ => .error (.joinedToSequence v.kind)
  | .bytes _ => .error .joinedToBytes
  | v => .error (.unsupportedOperands "+" v.kind.name "str")

example : str (.list [.text (ofString "a"), .int 1, .none]) = .ok (ofString "['a', 1, None]") := rfl
example : str (.tuple [.bool true]) = .ok (ofString "(True,)") := rfl
example : str (.dict [(.text (ofString "z"), .int 1), (.int 2, .tuple [])]) =
    .ok ([123] ++ ofString "'z': 1, 2: ()" ++ [125]) := rfl

end Value

end Rfc6570
