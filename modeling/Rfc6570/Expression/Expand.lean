import Rfc6570.Expression.Basic
import Rfc6570.Value.Dict
import Rfc6570.Value.Order
import Rfc6570.Sorting.Schedule

/-!
# Rfc6570 — expanding an expression

RFC 6570 §3.2: each variable of an expression is looked up and expanded by one of four styles,
chosen by the operator; the expansions that are not undefined are joined by the operator's
separator, after the operator's first character.

A value takes one of four shapes (`Shape`): absent (`None`); a sequence (a list or tuple that
is not a non-empty list of pairs); a mapping (a dictionary, its entries sorted by key, or a
non-empty list or tuple of pairs, in its own order); or a scalar. A scalar with a prefix
length is cut to that many characters or bytes, counted from the end when negative; numbers
cannot be cut, and a length that is not an integer is refused.

The four styles differ in how they name values and treat emptiness:

* string (simple, reserved, fragment and the reserved-for-later operators): items joined by
  `,`, entries as `k,v` or exploded `k=v`;
* label and path segment: absent items and entries dropped, an empty container undefined;
* path parameter: `name=value`, or `name` alone for an empty scalar;
* query: `name=value`, or `name=` for an empty scalar, an empty container undefined.

A variable bound to a false value other than the empty text takes its default, if it has one.
-/

namespace Rfc6570

open Text

/-- What a value looks like to the expansion styles. -/
inductive Shape where
  /-- No value. -/
  | absent
  /-- A list or tuple that is not a non-empty list of pairs. -/
  | sequence (items : List Value)
  /-- A dictionary's entries sorted by key, or a non-empty list of pairs in its order. -/
  | mapping (entries : List (Value × Value))
  /-- Any other value. -/
  | scalar (v : Value)

namespace Value

/-- The pair a two-item tuple holds. -/
def pair? : Value → Option (Value × Value)
  | .tuple [a, b] => some (a, b)
  | _ => Option.none

/-- The pairs of a non-empty list or tuple whose items are all pairs. -/
def pairs? : Value → Option (List (Value × Value))
  | .list (x :: xs) => (x :: xs).mapM pair?
  | .tuple (x :: xs) => (x :: xs).mapM pair?
  | _ => Option.none

/-- The shape of a value; a dictionary's entries are sorted here. -/
def shape (v : Value) : Except Fault Shape :=
  match v, v.pairs? with
  | .none, _ => .ok .absent
  | _, some ps => .ok (.mapping ps)
  | .list xs, Option.none => .ok (.sequence xs)
  | .tuple xs, Option.none => .ok (.sequence xs)
  | .dict es, Option.none => .mapping <$> sortBy entryLessThan es
  | v, Option.none => .ok (.scalar v)

/-- The end of a slice up to `n` over `len` items: `n`, or `len + n` when `n` is negative,
never below zero. -/
def sliceEnd (n : Int) (len : Nat) : Nat := if 0 ≤ n then n.toNat else len - n.natAbs

/-- A value as a slice bound: an integer, or a boolean as 0 or 1. -/
def sliceBound? : Value → Except Fault Int
  | .int n => .ok n
  | .bool b => .ok (if b then 1 else 0)
  | _ => .error .sliceIndex

/-- Cuts a scalar to a prefix length given as a value. A false length (`None`, zero) leaves it
whole. Otherwise a text or byte string keeps its first `n` characters or bytes, all but the
last `-n` when `n` is negative, and a length that is not an integer is refused; no other value
can be cut. -/
def cut (v : Value) (n : Value) : Except Fault Value :=
  if !n.truthy then .ok v
  else match v with
    | .text t => do
      let k ← n.sliceBound?
      return .text (t.take (sliceEnd k t.length))
    | .bytes bs => do
      let k ← n.sliceBound?
      return .bytes (bs.take (sliceEnd k bs.length))
    | v => .error (.notSubscriptable v.kind)

/-- The value is present: not `None`. -/
def isPresent : Value → Bool
  | .none => false
  | _ => true

end Value

/-- The four ways of expanding a variable. -/
inductive Style where
  /-- Simple, reserved and fragment expansion. -/
  | string
  /-- Label and path segment expansion. -/
  | label
  /-- Path-style parameter expansion. -/
  | parameter
  /-- Form-style query expansion and continuation. -/
  | query
deriving DecidableEq, Repr

/-- The style of an operator. -/
def Style.ofOperator : Operator → Style
  | .label | .pathSegment => .label
  | .pathParameter => .parameter
  | .query | .queryContinuation => .query
  | _ => .string

namespace Style

/-- Encodes the items in order. -/
def encodeAll (enc : Value → Except Fault Text) (xs : List Value) : Except Fault (List Text) :=
  xs.mapM enc

/-- Writes the entries in order as `k` `mid` `v`, keys by `key`, values by `enc`. -/
def writeEntries (key enc : Value → Except Fault Text) (mid : Text)
    (es : List (Value × Value)) : Except Fault (List Text) :=
  es.mapM fun (k, v) => do
    let a ← key k
    let b ← enc v
    return a ++ mid ++ b

/-- The present entries. -/
def presentEntries (es : List (Value × Value)) : List (Value × Value) :=
  es.filter (·.2.isPresent)

/-- The present items. -/
def presentItems (xs : List Value) : List Value := xs.filter (·.isPresent)

/-- `name=` followed by a text, the name written as its plain text (`Value.str`). -/
def named (name : Value) (t : Text) : Except Fault Text := do
  return (← name.str) ++ [61] ++ t

/-- Encodes each item as `name=` and its encoding; the name is written before each item is
encoded. -/
def encodeNamed (name : Value) (enc : Value → Except Fault Text) (xs : List Value) :
    Except Fault (List Text) :=
  xs.mapM fun v => do
    let n ← name.str
    return n ++ [61] ++ (← enc v)

/-- The expansion of one variable `name` bound to `value`, under operator `op`, with a prefix
length given as a value (`Value.cut`); `none` when the variable is undefined.

The name may be any value. It is written as its plain text, except in two results that are
the name itself: the query style's `name=` for an empty scalar is the name joined to `=`
(`Value.plusText`), and the path-parameter style's bare name for an empty scalar is the name
as it is. Every other result is a text. -/
def apply (style : Style) (op : Operator) (name : Value) (value : Value) (explode : Bool)
    (limit : Value) : Except Fault (Option Value) := do
  let enc := op.encode
  let key := Value.encodeWith op.allowed
  let sep := op.separator
  let shape ← value.shape
  let text (t : Text) : Except Fault (Option Value) := return some (.text t)
  match style, shape with
  | _, .absent => return none
  -- string
  | .string, .sequence xs => text (join [44] (← encodeAll enc xs))
  | .string, .mapping es => text (join [44] (← writeEntries enc enc (if explode then [61] else [44]) es))
  | .string, .scalar v => text (← enc (← v.cut limit))
  -- label and path segment
  | .label, .sequence xs =>
    let parts ← encodeAll enc (presentItems xs)
    if parts.isEmpty then return none else text (join (if explode then sep else [44]) parts)
  | .label, .mapping es =>
    let parts ← writeEntries key enc (if explode then [61] else [44]) (presentEntries es)
    let t := join (if explode then sep else [44]) parts
    if t.isEmpty then return none else text t
  | .label, .scalar (.bytes []) => return none
  | .label, .scalar v => text (← enc (← v.cut limit))
  -- path-style parameters
  | .parameter, .sequence xs =>
    if explode then
      let t := join sep (← encodeNamed name key (presentItems xs))
      if t.isEmpty then return none else text t
    else text (← named name (join [44] (← encodeAll key xs)))
  | .parameter, .mapping es =>
    if explode then text (join sep (← writeEntries key enc [61] (presentEntries es)))
    else text (← named name (join [44] (← writeEntries key enc [44] (presentEntries es))))
  | .parameter, .scalar v =>
    let v ← v.cut limit
    if v.truthy then
      let n ← name.str
      text (n ++ [61] ++ (← enc v))
    else return some name
  -- form-style query
  | .query, .sequence xs =>
    if xs.isEmpty then return none
    else if explode then text (join sep (← encodeNamed name enc xs))
    else text (← named name (join [44] (← encodeAll enc xs)))
  | .query, .mapping es =>
    if es.isEmpty then return none
    else if explode then text (join sep (← writeEntries key enc [61] es))
    else text (← named name (join [44] (← writeEntries key enc [44] es)))
  | .query, .scalar v =>
    if v.truthy then
      let v ← v.cut limit
      let n ← name.str
      text (n ++ [61] ++ (← enc v))
    else text (← name.plusText [61])

end Style

namespace Expression

/-- The value a variable takes: its binding, or its default when the binding is false but not
the empty text. -/
def valueOf (e : Expression) (vars : Entries) (name : Text) : Value :=
  let v := (vars.find? (.text name)).getD .none
  let isEmptyText := match v with | .text [] => true | _ => false
  if !v.truthy && !isEmptyText then
    match e.defaultOf? name with
    | some d => .text d
    | Option.none => v
  else v

/-- The expansions of the defined variables, in order. -/
def expansions (e : Expression) (vars : Entries) : Except Fault (List Text) :=
  e.varspecs.filterMapM fun vs =>
    match e.valueOf vars vs.name with
    | .none => .ok Option.none
    | v => do
      let r ← (Style.ofOperator e.operator).apply e.operator (.text vs.name) v vs.explode vs.limit
      r.mapM Value.str

/-- The expansion of an expression under a dictionary of bindings. -/
def expand (e : Expression) (vars : Entries) : Except Fault Text := do
  let parts ← e.expansions vars
  return if parts.isEmpty then [] else e.operator.first ++ join e.operator.separator parts

/-- The expansion of an expression under a value that should be a dictionary of bindings:
`None` leaves the expression's own text, any other non-dictionary cannot be looked into. -/
def expandValue (e : Expression) (vars : Value) : Except Fault Text :=
  match vars with
  | .none => .ok e.source
  | .dict es => e.expand es
  | v => .error (.noAttribute v.kind "get")

example : ((parse (ofString "?x,y")).toOption.map fun e =>
    (e.expand [(.text (ofString "x"), .int 1024), (.text (ofString "y"), .list [.text (ofString "a b")])]).toOption) =
    some (some (ofString "?x=1024&y=a%20b")) := by decide
example : ((parse (ofString "/list*")).toOption.map fun e =>
    (e.expand [(.text (ofString "list"), .list [.text (ofString "red"), .none, .text (ofString "blue")])]).toOption) =
    some (some (ofString "/red/blue")) := by decide

end Expression

end Rfc6570
