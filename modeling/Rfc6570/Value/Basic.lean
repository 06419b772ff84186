import Rfc6570.Number.Binary64
import Rfc6570.Text.Basic

/-!
# Rfc6570 — values bound to variables

A variable of a template is bound to a dynamic value: nothing, a truth value, an integer of any
size, a binary64 number, a complex number, a text, a byte string, a list, a tuple or a
dictionary. A dictionary keeps its entries in insertion order, with keys pairwise unequal.

Three relations on values follow the usual rules of dynamic languages:

* truth (`truthy`): nothing, false, zero and empty containers are false, all else true;
* equality (`equal`): numbers compare by value across kinds (`1 = 1.0 = true`), a
  not-a-number equals nothing, texts never equal byte strings, lists never equal tuples, and
  dictionaries are equal when they hold the same keys with equal values, in any order;
* hashability (`unhashableKind?`): lists and dictionaries, and tuples that hold them, cannot be
  keys of a dictionary or members of a set.

## Results

* `Value.truthy`, `Value.equal`, `Value.unhashableKind?`.
-/

namespace Rfc6570

/-- A dynamic value. -/
inductive Value where
  /-- No value. -/
  | none
  /-- A truth value. -/
  | bool (b : Bool)
  /-- An integer. -/
  | int (n : Int)
  /-- A binary64 number. -/
  | float (x : Binary64)
  /-- A complex number of two binary64 parts. -/
  | complex (re im : Binary64)
  /-- A text. -/
  | text (t : Text)
  /-- A byte string. -/
  | bytes (bs : List UInt8)
  /-- A list. -/
  | list (items : List Value)
  /-- A tuple. -/
  | tuple (items : List Value)
  /-- A dictionary: its entries in insertion order, keys pairwise unequal. -/
  | dict (entries : List (Value × Value))
deriving Repr, Inhabited

/-- The kind of a value. -/
inductive Kind where
  | none | bool | int | float | complex | text | bytes | list | tuple | dict
deriving DecidableEq, Repr

/-- The name of a kind, as error messages show it. -/
def Kind.name : Kind → String
  | .none => "NoneType"
  | .bool => "bool"
  | .int => "int"
  | .float => "float"
  | .complex => "complex"
  | .text => "str"
  | .bytes => "bytes"
  | .list => "list"
  | .tuple => "tuple"
  | .dict => "dict"

namespace Value

/-- The kind of a value. -/
def kind : Value → Kind
  | .none => .none
  | .bool _ => .bool
  | .int _ => .int
  | .float _ => .float
  | .complex .. => .complex
  | .text _ => .text
  | .bytes _ => .bytes
  | .list _ => .list
  | .tuple _ => .tuple
  | .dict _ => .dict

/-- Truth: nothing, false, zero and empty containers are false. -/
def truthy : Value → Bool
  | .none => false
  | .bool b => b
  | .int n => n != 0
  | .float x => !x.isZero
  | .complex re im => !re.isZero || !im.isZero
  | .text t => !t.isEmpty
  | .bytes bs => !bs.isEmpty
  | .list xs => !xs.isEmpty
  | .tuple xs => !xs.isEmpty
  | .dict es => !es.isEmpty

/-- A real number as a value may hold it: an integer or a binary64 number. -/
inductive Real where
  | int (n : Int)
  | float (x : Binary64)

/-- The exact order of two reals; `none` when one is not a number. -/
def Real.compare? : Real → Real → Option Ordering
  | .int a, .int b => some (compare a b)
  | .int a, .float y => (y.compareInt? a).map Ordering.swap
  | .float x, .int b => x.compareInt? b
  | .float x, .float y => x.compare? y

/-- The number a value holds, as a real part and an imaginary part that is zero for reals. -/
def number? : Value → Option (Real × Option Binary64)
  | .bool b => some (.int (if b then 1 else 0), Option.none)
  | .int n => some (.int n, Option.none)
  | .float x => some (.float x, Option.none)
  | .complex re im => some (.float re, some im)
  | _ => Option.none

/-- Two imaginary parts are equal; a missing one is zero. -/
def imaginaryEqual : Option Binary64 → Option Binary64 → Bool
  | some x, some y => x.compare? y == some .eq
  | some x, Option.none => x.isZero
  | Option.none, some y => y.isZero
  | Option.none, Option.none => true

/-- Two numbers are equal: real parts equal and imaginary parts equal. -/
def numbersEqual (a b : Real × Option Binary64) : Bool :=
  a.1.compare? b.1 == some .eq && imaginaryEqual a.2 b.2

mutual
/-- Equality of values. -/
def equal : Value → Value → Bool
  | .none, .none => true
  | .text s, .text t => s == t
  | .bytes s, .bytes t => s == t
  | .list xs, .list ys => equalItems xs ys
  | .tuple xs, .tuple ys => equalItems xs ys
  | .dict es, .dict fs => es.length == fs.length && equalEntries es fs
  | a, b =>
    match a.number?, b.number? with
    | some x, some y => numbersEqual x y
    | _, _ => false
/-- Pointwise equality of two item lists of the same length. -/
def equalItems : List Value → List Value → Bool
  | [], [] => true
  | x :: xs, y :: ys => equal x y && equalItems xs ys
  | _, _ => false
/-- Every entry of the first list has an equal entry in the second. -/
def equalEntries : List (Value × Value) → List (Value × Value) → Bool
  | [], _ => true
  | (k, v) :: es, fs => fs.any (fun p => equal k p.1 && equal v p.2) && equalEntries es fs
end

mutual
/-- The kind of the first part of a value that cannot be hashed, if any. -/
def unhashableKind? : Value → Option Kind
  | .list _ => some .list
  | .dict _ => some .dict
  | .tuple xs => unhashableItem? xs
  | _ => Option.none
/-- The kind of the first part of the items that cannot be hashed, if any. -/
def unhashableItem? : List Value → Option Kind
  | [] => Option.none
  | x :: xs => (unhashableKind? x).or (unhashableItem? xs)
end

example : equal (.int 1) (.float ⟨0x3FF0000000000000⟩) = true := by decide
example : equal (.bool true) (.complex ⟨0x3FF0000000000000⟩ ⟨0⟩) = true := by decide
example : equal (.float Binary64.nan) (.float Binary64.nan) = false := by decide
example : equal (.list [.int 1]) (.tuple [.int 1]) = false := by decide
example : equal (.dict [(.text [97], .int 1), (.int 2, .none)])
    (.dict [(.int 2, .none), (.text [97], .bool true)]) = true := by decide
example : unhashableKind? (.tuple [.int 1, .tuple [.dict []], .list []]) = some .dict := by decide

end Value

end Rfc6570
