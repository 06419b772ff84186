import Rfc6570.Template.Basic
import Rfc6570.Expression.Expand

/-!
# Rfc6570 — expanding a template

A template is expanded under bindings by replacing each expression with its expansion; literal
characters stay. A partial expansion keeps an expression whose expansion is empty, braces and
all, and reads the result as a new template.

The bindings come from a value and keyword bindings: a true value is turned into a dictionary
and the keyword bindings are stored over it; a false value gives the keyword bindings alone.
-/

namespace Rfc6570

open Text

/-- The bindings of an expansion: the dictionary of `vars` when it is true, with `overrides`
stored over it; `overrides` alone otherwise. -/
def Entries.merge (vars : Value) (overrides : Entries) : Except Fault Entries :=
  if vars.truthy then do
    let es ← vars.toEntries
    return overrides.foldl (fun acc (k, v) => Entries.insert k v acc) es
  else .ok overrides

namespace Template

/-- The text of a part under bindings; with `keep`, an expression that expands to nothing stays
as it was written. -/
def renderPart (vars : Entries) (keep : Bool) : Part → Except Fault Text
  | .literal c => .ok [c]
  | .expression e => do
    let t ← e.expand vars
    return if keep && t.isEmpty then 123 :: e.source ++ [125] else t

/-- The text of a template under bindings. -/
def render (tpl : Template) (vars : Entries) (keep : Bool) : Except Fault Text := do
  let ts ← tpl.parts.mapM (renderPart vars keep)
  return ts.flatten

/-- The full expansion of a template. -/
def expand (tpl : Template) (vars : Entries) : Except Fault Text := tpl.render vars false

/-- The partial expansion of a template: a new template in which only the expressions that
expanded to nothing remain. -/
def expandPartially (tpl : Template) (vars : Entries) : Except Fault Template := do
  parse (← tpl.render vars true)

example : ((parse (ofString "x\x7ba\x7d\x7bb\x7d")).toOption.map fun tpl =>
    ((tpl.expandPartially [(.text (ofString "a"), .int 1)]).toOption.map (·.source))) =
    some (some (ofString "x1\x7bb\x7d")) := by decide

end Template

end Rfc6570
