import Rfc6570.Workload.Data
import Rfc6570.Workload.Size
import Rfc6570.Template.Expand
import Rfc6570.ArrivalSet.Algebra

/-!
# Rfc6570 — benchmark workloads

Eight workloads exercise the library on fixed data; each takes one size parameter and returns
a value built only from the library's answers, so the result is fixed by the size:

* `template_expand`, `template_partial`: full and partial expansion of the cycled templates;
* `api_functions`: expansion, partial expansion and the names of each template, then the
  expansion of a template without expressions and the library's version;
* `template_parse_and_dunder`: quoted form, text and equality of each template, then the
  number of distinct templates;
* `urivariable_expand`: expansion of each cycled expression, then the first expression
  expanded without bindings, its quoted form and text, and three styles applied to `None`;
* `operator_methods`: a tally of the texts each cycled operator gives;
* `variable_helpers`: the shapes of a list of pairs and its variants, and a few encodings;
* `orderedset_ops`: sizes and equalities of arrival sets built from numbered keys.

A workload is found by name; a parameter other than its size is refused.
-/

namespace Rfc6570.Workload

open Text

/-- The version of the library. -/
def version : Text := ofString "4.2.0"

/-- Reads a workload template. -/
def templates (size : Value) : Except Fault (List Template) := do
  (← cycle templateTexts size).mapM Template.parse

/-- Full expansion of each template. -/
def templateExpand (size : Value) : Except Fault Value := do
  let outs ← (← templates size).mapM (·.expand bindings)
  return .list (outs.map .text)

/-- Partial expansion of each template. -/
def templatePartial (size : Value) : Except Fault Value := do
  let outs ← (← templates size).mapM (·.expandPartially partialBindings)
  return .list (outs.map fun t => .text t.source)

/-- Expansion, partial expansion and names of each template, then a template without
expressions and the version. -/
def apiFunctions (size : Value) : Except Fault Value := do
  let parts ← (← templates size).mapM fun t => do
    let full ← t.expand bindings
    let part ← t.expandPartially [(str "var", str "value")]
    return [Value.text full, .text part.source, .int t.names.length]
  let static ← (← Template.parse (ofString "http://example.com/static/path")).expand []
  return .list (parts.flatten ++ [.text static, .text version])

/-- Keeps the first appearance of each text. -/
def distinct : List Text → List Text
  | [] => []
  | x :: xs => x :: (distinct xs).filter (· ≠ x)

/-- Quoted form, text and equality with a re-read copy of each template, then the number of
distinct templates. -/
def templateParseAndDunder (size : Value) : Except Fault Value := do
  let ts ← templates size
  let parts ← ts.mapM fun t => do
    let copy ← Template.parse t.source
    return [Value.text t.quotedForm, .text t.source, .bool (t.sameAs copy), .bool !(t.sameAs copy)]
  return .list (parts.flatten ++ [.int (distinct (ts.map (·.source))).length])

/-- Expansion of each cycled expression, then the first one without bindings, its quoted form
and text, and the query, label and parameter styles applied to `None`. -/
def urivariableExpand (size : Value) : Except Fault Value := do
  let es ← (← cycle variableTexts size).mapM Expression.parse
  let outs ← es.mapM fun e => do return Value.dict [(.text e.source, .text (← e.expand bindings))]
  match es with
  | [] => .error .indexOutOfRange
  | e :: _ =>
    let own ← e.expandValue .none
    let styled ← [Style.query, Style.label, Style.parameter].mapM fun st =>
      st.apply e.operator (.text (ofString "var")) .none false .none
    return .list (outs ++ [.dict [(.text e.source, .text own)], .text e.quotedForm, .text e.source] ++
      styled.map fun r => r.getD .none)

/-- The measure of one operator: the lengths of its allowed characters, its separator and its
first text. -/
def measure (op : Operator) : Nat :=
  op.allowed.length + op.separator.length + op.first.length

/-- The tally of one operator, looked up three ways (by its symbol, by its value and by its
name), each adding its measure. -/
def tally (op : Operator) : Nat := 3 * measure op

/-- The tallies of the cycled operators, after the plain encodings of a greeting and of bytes. -/
def operatorMethods (size : Value) : Except Fault Value := do
  let greeting ← Operator.simple.encode (str "Hello World!")
  let raw ← Operator.simple.encode (.bytes ((ofString "bytes-value").map Nat.toUInt8))
  let tallies := (← cycle operatorSymbols size).map fun s => tally (Operator.ofText s)
  return .int ((greeting.length + raw.length + tallies.foldl (· + ·) 0 : Nat) : Int)

/-- A number written with at least `width` digits. -/
def padded (width n : Nat) : Text :=
  let ds := ofNat n
  List.replicate (width - ds.length) 48 ++ ds

/-- The shape checks of a value: a list of pairs, a sequence, a mapping. -/
def shapeChecks (v : Value) : Nat :=
  let pairs := if v.pairs?.isSome then 1 else 0
  let seq := match v with | .list _ | .tuple _ => 1 | _ => 0
  let map := match v with | .dict _ => 1 | _ => 0
  pairs + seq + map

/-- Shape checks of numbered pairs and their variants, their number, and encodings of a
greeting, a number and bytes, and the UTF-8 size of the greeting written twice. -/
def variableHelpers (size : Value) : Except Fault Value := do
  let pairs := (← count size).map fun i => Value.tuple [.text (ofString "k" ++ padded 4 i), .text (ofNat i)]
  let variants := [Value.list pairs, .tuple pairs, .list pairs.reverse, .tuple pairs.reverse]
  let asDict ← Value.toEntries (.list pairs)
  let checks := (variants ++ [Value.dict asDict]).foldl (fun n v => n + shapeChecks v) 0
  let hello := ofString "Hello World!"
  let a ← Value.encodeWith [] (.text hello)
  let b ← Value.encodeWith [] (.int 42)
  let c ← Value.encodeWith [] (.bytes ((ofString "raw").map Nat.toUInt8))
  let twice ← match Utf8.encode (hello ++ hello) with
    | .ok bs => pure bs.length
    | .error f => .error (.unencodable (hello ++ hello) f)
  return .tuple [.int checks, .int pairs.length, .text (a ++ b ++ c), .int twice]

/-- Sizes and equalities of arrival sets of numbered keys. -/
def orderedsetOps (size : Value) : Except Fault Value := do
  let keys := (← count size).map fun i => Value.text (ofString "element-" ++ padded 4 i)
  let s ← ArrivalSet.ofList keys
  let u ← s.union .same
  let i ← s.inter (.items (.list keys))
  let d ← s.diff (.set ArrivalSet.empty)
  let t ← s.add (str "key-sentinel")
  let width (vs : List Value) : Nat :=
    vs.foldl (fun n v => n + match v with | .text x => x.length | _ => 0) 0
  let copy ← ArrivalSet.ofList t.toList
  let same ← t.equals (.set copy)
  let listed ← s.equals (.items (.list keys))
  let shown ← ArrivalSet.empty.repr
  return .list [.int s.size, .int u.size, .int i.size, .int d.size, .int (width t.toList),
    .int (width t.toList.reverse), .bool same, .bool listed, .int t.size, .text shown]

/-- A workload: its name, its size parameter, the sizes it is measured at (the middle one is
its default) and what it computes. -/
structure Spec where
  /-- The workload's name. -/
  name : String
  /-- The name of its size parameter. -/
  parameter : String
  /-- The sizes it is measured at. -/
  sizes : List Int
  /-- The computation. -/
  run : Value → Except Fault Value

/-- All workloads. -/
def all : List Spec := [
  ⟨"template_expand", "n_templates", [100, 300, 1200], templateExpand⟩,
  ⟨"template_partial", "n_templates", [100, 300, 1200], templatePartial⟩,
  ⟨"api_functions", "n_templates", [50, 200, 800], apiFunctions⟩,
  ⟨"template_parse_and_dunder", "n_templates", [50, 200, 800], templateParseAndDunder⟩,
  ⟨"urivariable_expand", "n_vars", [150, 600, 2500], urivariableExpand⟩,
  ⟨"operator_methods", "n_ops", [500, 2000, 8000], operatorMethods⟩,
  ⟨"variable_helpers", "n_items", [2000, 8000, 30000], variableHelpers⟩,
  ⟨"orderedset_ops", "n_keys", [100, 400, 1500], orderedsetOps⟩]

/-- The workload of a name. -/
def find (name : Text) : Except Fault Spec :=
  match all.find? (fun w => ofString w.name == name) with
  | some w => .ok w
  | none => .error (.noWorkload name)

/-- The default size of a workload. -/
def Spec.defaultSize (w : Spec) : Int := (w.sizes.drop 1).headD 0

/-- The parameter sets a workload is measured with. -/
def Spec.parameterSets (w : Spec) : Value :=
  .list (w.sizes.map fun n => .dict [(str w.parameter, .int n)])

/-- Runs a workload with named parameters, given as a dictionary whose keys are all texts: the
size parameter if given, else the default; any other name is refused. -/
def Spec.runWith (w : Spec) (params : Value) : Except Fault Value := do
  let es ← match params with
    | .dict es => pure es
    | v => throw (.bindingsNotMapping ("microbench.bench_" ++ w.name) v.kind)
  let names ← es.mapM fun (k, _) => match k with
    | .text key => pure key
    | _ => throw .parameterNotText
  let mut size : Value := .int w.defaultSize
  for (key, v) in names.zip (es.map (·.2)) do
    if key == ofString w.parameter then size := v
    else throw (.unexpectedParameter (ofString w.name) key)
  w.run size

/-- Runs every workload at its default size, discarding the results. -/
def runAll : Except Fault Unit :=
  all.forM fun w => do let _ ← w.runWith (.dict [])

end Rfc6570.Workload
