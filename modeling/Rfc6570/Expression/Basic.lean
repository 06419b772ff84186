import Rfc6570.Operator
import Rfc6570.Number.IntLiteral

/-!
# Rfc6570 — expressions and variable specifications

RFC 6570 §2.2–2.4: the text between braces is an expression, an optional operator character
followed by comma-separated variable specifications. A specification is read as follows:

* it is cut at its first `=`; what follows is a default value, kept when it is not empty (a
  later default for the same name replaces an earlier one and keeps its place);
* it is exploded when it ends in `*`, and all trailing `*` are then dropped;
* it has a prefix length when a `:` remains; the text after the first `:` must be a decimal
  integer literal (`IntLiteral.read`), else reading the expression fails.

An empty expression cannot be read at all.
-/

namespace Rfc6570

/-- One variable of an expression. -/
structure Varspec where
  /-- The variable's name. -/
  name : Text
  /-- The explode modifier `*`. -/
  explode : Bool
  /-- The prefix length of a `:n` modifier. -/
  maxLength : Option Int
deriving DecidableEq, Repr

/-- The prefix length as a value: the length, or `None` when there is none. -/
def Varspec.limit (vs : Varspec) : Value :=
  match vs.maxLength with
  | some n => .int n
  | Option.none => .none

/-- An expression as read from its text. -/
structure Expression where
  /-- The text between the braces. -/
  source : Text
  /-- The operator. -/
  operator : Operator
  /-- The variables, in order. -/
  varspecs : List Varspec
  /-- The non-empty default values by name, in order of first appearance. -/
  defaults : List (Text × Text)
deriving DecidableEq, Repr

namespace Expression

open Text

/-- Stores a default value: in place of an earlier one for the same name, else last. -/
def setDefault (name value : Text) : List (Text × Text) → List (Text × Text)
  | [] => [(name, value)]
  | (n, v) :: ds => if n = name then (n, value) :: ds else (n, v) :: setDefault name value ds

/-- The operator of an expression text and the rest of the text. -/
def splitOperator : Text → Operator × Text
  | [] => (.simple, [])
  | c :: rest =>
    match Operator.ofChar? c with
    | some op => (op, rest)
    | none => (.simple, c :: rest)

/-- Drops the trailing `*` characters of a name. -/
def dropStars (t : Text) : Text := (t.reverse.dropWhile (· == 42)).reverse

/-- Reads one variable specification: the varspec and its default text, empty if none. -/
def readVarspec (spec : Text) : Except Fault (Varspec × Text) := do
  let (name, dflt) := (splitFirst? 61 spec).getD (spec, [])
  let explode := name.getLast? == some 42
  let name := dropStars name
  match splitFirst? 58 name with
  | none => return (⟨name, explode, none⟩, dflt)
  | some (name, digits) =>
    match IntLiteral.read digits with
    | .ok n => return (⟨name, explode, some n⟩, dflt)
    | .error why => .error (.badInteger digits why)

/-- Reads the specifications in order, gathering the non-empty defaults. -/
def readVarspecs : List Text → List (Text × Text) → Except Fault (List Varspec × List (Text × Text))
  | [], ds => .ok ([], ds)
  | spec :: specs, ds => do
    let (v, dflt) ← readVarspec spec
    let ds := if dflt.isEmpty then ds else setDefault v.name dflt ds
    let (vs, ds) ← readVarspecs specs ds
    return (v :: vs, ds)

/-- Reads an expression from the text between its braces. -/
def parse (source : Text) : Except Fault Expression := do
  if source.isEmpty then .error .emptyExpression
  let (op, rest) := splitOperator source
  let (vs, ds) ← readVarspecs (splitAt 44 rest) []
  return ⟨source, op, vs, ds⟩

/-- The quoted form of an expression: its text after the type's name, in parentheses. -/
def quotedForm (e : Expression) : Text := ofString "URIVariable(" ++ e.source ++ [41]

/-- The names of the variables, in order, repeats kept. -/
def names (e : Expression) : List Text := e.varspecs.map (·.name)

/-- The default value of a name, if one was given. -/
def defaultOf? (e : Expression) (name : Text) : Option Text :=
  (e.defaults.find? (·.1 == name)).map (·.2)

example : (parse (ofString "?x*,y:3,z=1")).toOption.map (·.varspecs) =
    some [⟨ofString "x", true, none⟩, ⟨ofString "y", false, some 3⟩, ⟨ofString "z", false, none⟩] := by
  decide
example : (parse (ofString "a*:3*")).toOption.map (·.varspecs) =
    some [⟨ofString "a*", true, some 3⟩] := by decide
example : (parse (ofString "x=1,x=2,y=")).toOption.map (·.defaults) =
    some [(ofString "x", ofString "2")] := by decide

end Expression

end Rfc6570
