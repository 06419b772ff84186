import Rfc6570.Template.Expand

/-!
# Rfc6570 — calling the expansion functions

Expansion is entered through four functions. Each takes its own arguments by position, a
template (or a template's text) and a value of bindings, and any further keyword bindings by
name:

* the free functions `expand` and `partial`, whose parameters are `uri` and `var_dict`; they
  read the template from the text and call the methods;
* the methods `URITemplate.expand` and `URITemplate.partial`, whose parameters are `self` and
  `var_dict`.

The keyword bindings come as one value, which must be a dictionary with text keys. A keyword
binding that names one of the function's own parameters is refused before the function
starts, for the first such binding in order. The keyword bindings are then stored over the
bindings (`Entries.merge`).

## Results

* `Entry.clash?` — the first keyword binding that names a parameter of a function.
* `Entry.keywordBindings` — the keyword bindings of a call, or why they are refused.
* `Template.call`, `Template.callPartially` — the methods.
* `callOnText`, `callOnTextPartially` — the free functions.
-/

namespace Rfc6570

open Text

/-- Full or partial expansion. -/
inductive Mode where
  /-- Every expression is replaced by its expansion. -/
  | full
  /-- Expressions that expand to nothing are kept. -/
  | partly
deriving DecidableEq, Repr

/-- How expansion is entered: a free function taking a template's text, or a method of a
template. -/
inductive Entry where
  /-- A free function taking the template's text. -/
  | free
  /-- A method of a template. -/
  | method
deriving DecidableEq, Repr

namespace Entry

/-- The name a function is known by in its faults. -/
def title : Entry → Mode → String
  | .free, .full => "expand"
  | .free, .partly => "partial"
  | .method, .full => "URITemplate.expand"
  | .method, .partly => "URITemplate.partial"

/-- The parameters a function fills from its own arguments. -/
def parameters : Entry → List String
  | .free => ["uri", "var_dict"]
  | .method => ["self", "var_dict"]

/-- The first keyword binding that names one of the function's own parameters, as a fault. -/
def clash? (e : Entry) (mode : Mode) (kw : Entries) : Option Fault :=
  kw.findSome? fun
    | (.text t, _) =>
      if e.parameters.any (fun p => ofString p == t) then some (.argumentTwice (e.title mode) t)
      else Option.none
    | _ => Option.none

/-- Refuses keyword bindings that name one of the function's own parameters. -/
def checkKeywords (e : Entry) (mode : Mode) (kw : Entries) : Except Fault Unit :=
  match e.clash? mode kw with
  | some f => .error f
  | Option.none => .ok ()

/-- The full name of a function: its module path and its name. -/
def qualifiedTitle : Entry → Mode → String
  | .free, m => "uritemplate.api." ++ title .free m
  | .method, m => "uritemplate.template." ++ title .method m

/-- The keyword bindings of a call, given as one value: a dictionary whose keys are all texts,
none of them naming one of the function's own parameters. -/
def keywordBindings (e : Entry) (mode : Mode) (kw : Value) : Except Fault Entries :=
  match kw with
  | .dict es =>
    if es.all (fun (k, _) => match k with | .text _ => true | _ => false) then do
      e.checkKeywords mode es
      return es
    else .error .parameterNotText
  | v => .error (.bindingsNotMapping (e.qualifiedTitle mode) v.kind)

end Entry

namespace Template

/-- The method for full expansion: bindings from `vars` with the keyword bindings `kw` over
them. -/
def call (tpl : Template) (vars kw : Value) : Except Fault Text := do
  let es ← Entry.method.keywordBindings .full kw
  tpl.expand (← Entries.merge vars es)

/-- The method for partial expansion: bindings from `vars` with the keyword bindings `kw` over
them. -/
def callPartially (tpl : Template) (vars kw : Value) : Except Fault Template := do
  let es ← Entry.method.keywordBindings .partly kw
  tpl.expandPartially (← Entries.merge vars es)

end Template

/-- The free function for full expansion: reads the template from `source`, then calls the
method with the same keyword bindings. -/
def callOnText (source vars kw : Value) : Except Fault Text := do
  let es ← Entry.free.keywordBindings .full kw
  (← Template.ofValue source).call vars (.dict es)

/-- The free function for partial expansion: reads the template from `source`, then calls the
method with the same keyword bindings. -/
def callOnTextPartially (source vars kw : Value) : Except Fault Template := do
  let es ← Entry.free.keywordBindings .partly kw
  (← Template.ofValue source).callPartially vars (.dict es)

example : (callOnText (.text (ofString "\x7buri\x7d")) .none (.dict [(.text (ofString "uri"), .text [120])])).toOption =
    Option.none := by decide
example : (callOnText (.text (ofString "\x7bx\x7d")) .none (.dict [(.text (ofString "x"), .text [120])])).toOption =
    some [120] := by decide

end Rfc6570
