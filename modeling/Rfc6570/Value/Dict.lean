import Rfc6570.Value.Basic
import Rfc6570.Value.Key
import Rfc6570.Fault
import Std.Data.HashMap

/-!
# Rfc6570 — dictionaries

A dictionary is a list of entries in insertion order whose keys are pairwise unequal. Storing a
key that is already there replaces the value in place and keeps the first key; a new key goes
last. A key must be hashable.

Any value with items can be turned into a dictionary: a dictionary is copied; otherwise each
item must itself have exactly two items, a key and a value, checked and stored one item at a
time, so that the first bad item decides the fault.

Building a dictionary from many pairs finds a text or whole-number key (`Value.key?`) by its
key and compares other keys one by one.
-/

namespace Rfc6570

/-- The entries of a dictionary. -/
abbrev Entries := List (Value × Value)

namespace Entries

/-- The value stored under a key equal to `k`. -/
def find? (k : Value) (es : Entries) : Option Value :=
  (List.find? (fun e => Value.equal k e.1) es).map (·.2)

/-- Stores `v` under `k`: in place of the value of an equal key, else as a new last entry. -/
def insert (k v : Value) : Entries → Entries
  | [] => [(k, v)]
  | (k', v') :: es => if Value.equal k k' then (k', v) :: es else (k', v') :: insert k v es

/-- Entries being built: the entries so far and the position of each keyed entry. -/
structure Builder where
  /-- The entries so far. -/
  entries : Array (Value × Value)
  /-- The position of the entry of each key. -/
  positions : Std.HashMap Key Nat

/-- Stores `v` under `k` in a builder, as `insert` does. -/
def Builder.store (b : Builder) (k v : Value) : Builder :=
  let found : Option Nat :=
    match k.key? with
    | some key => b.positions[key]?
    | Option.none => b.entries.findIdx? fun e => Value.equal k e.1
  match found with
  | some i => { b with entries := b.entries.modify i fun e => (e.1, v) }
  | Option.none =>
    { entries := b.entries.push (k, v),
      positions := match k.key? with
        | some key => b.positions.insert key b.entries.size
        | Option.none => b.positions }

/-- Stores each pair in turn, refusing a key that cannot be hashed. -/
def Builder.storeAll (b : Builder) : List (Value × Value) → Except Fault Builder
  | [] => .ok b
  | (k, v) :: ps =>
    match k.unhashableKind? with
    | some kind => .error (.unhashable kind)
    | Option.none => (b.store k v).storeAll ps

/-- The dictionary of a list of pairs, later pairs overriding earlier ones. -/
def ofPairs (ps : List (Value × Value)) : Except Fault Entries := do
  let b ← Builder.storeAll ⟨#[], ∅⟩ ps
  return b.entries.toList

end Entries

namespace Value

/-- The items of a value: a list's or tuple's items, a text's characters, a byte string's
bytes as integers, a dictionary's keys. -/
def items? : Value → Option (List Value)
  | .list xs => some xs
  | .tuple xs => some xs
  | .text t => some (t.map fun c => .text [c])
  | .bytes bs => some (bs.map fun b => .int b.toNat)
  | .dict es => some (es.map (·.1))
  | _ => Option.none

/-- The items of a value, or the fault of asking a value without items. -/
def items (v : Value) : Except Fault (List Value) :=
  match v.items? with
  | some xs => .ok xs
  | Option.none => .error (.notIterable v.kind)

/-- Stores the items of a value turned into a dictionary, from item number `i` on: each item
must have exactly two items, a hashable key and a value, and is checked when its turn comes. -/
def storeItems (b : Entries.Builder) (i : Nat) : List Value → Except Fault Entries.Builder
  | [] => .ok b
  | x :: xs =>
    match x.items? with
    | Option.none => .error (.entryNotSequence i)
    | some [k, v] =>
      match k.unhashableKind? with
      | some kind => .error (.unhashable kind)
      | Option.none => storeItems (b.store k v) (i + 1) xs
    | some ys => .error (.entryLength i ys.length)

/-- The dictionary a value is turned into. -/
def toEntries : Value → Except Fault Entries
  | .dict es => .ok es
  | v => do
    let xs ← v.items
    let b ← storeItems ⟨#[], ∅⟩ 0 xs
    return b.entries.toList

end Value

example : Entries.find? (.text [97]) [(.int 1, .none), (.text [97], .int 2)] |>.isSome := by decide

end Rfc6570
