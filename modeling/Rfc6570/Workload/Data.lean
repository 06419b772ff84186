import Rfc6570.Value.Dict

/-!
# Rfc6570 — the fixed data of the benchmark workloads

The workloads cycle through a fixed list of expressions, each put between braces after the base
`http://e.com` and followed by a literal tail, and expand them under fixed bindings that touch
every expansion rule: texts with spaces and escapes, a number, bytes, the empty text, an
undefined name, lists and dictionaries with absent members, a list of pairs, and empty
containers. A second, smaller set of bindings leaves most expressions for a partial expansion.
-/

namespace Rfc6570.Workload

open Text

/-- The expressions the template workloads cycle through, each with the literal text after
its closing brace. -/
def expressions : List (Text × Text) := [
  (ofString "var", []),
  (ofString "var:3", []),
  (ofString "hello", []),
  (ofString "half", []),
  (ofString "num", []),
  (ofString "raw", []),
  (ofString "empty", []),
  (ofString "undef", []),
  (ofString "list", []),
  (ofString "list*", []),
  (ofString "keys", []),
  (ofString "keys*", []),
  (ofString "pairs", []),
  (ofString "pairs*", []),
  (ofString "+var", []),
  (ofString "+path", []),
  (ofString "+base", []),
  (ofString "+path:6", ofString "/here"),
  (ofString "+list", []),
  (ofString "+list*", []),
  (ofString "+keys", []),
  (ofString "#var", []),
  (ofString "#hello", []),
  (ofString "#path", []),
  (ofString "#list*", []),
  (ofString "#keys*", []),
  (ofString ".who", []),
  (ofString ".who,who", []),
  (ofString ".list", []),
  (ofString ".list*", []),
  (ofString ".keys", []),
  (ofString ".keys*", []),
  (ofString ".pairs*", []),
  (ofString ".nlist*", []),
  (ofString ".ndict*", []),
  (ofString ".empty", []),
  (ofString ".undef", []),
  (ofString ".elist", []),
  (ofString ".edict", []),
  (ofString ".var:3", []),
  (ofString "/var", []),
  (ofString "/var,x", ofString "/here"),
  (ofString "/list", []),
  (ofString "/list*", []),
  (ofString "/keys", []),
  (ofString "/keys*", []),
  (ofString "/pairs", []),
  (ofString "/pairs*", []),
  (ofString "/var:1,var", []),
  (ofString "/undef", []),
  (ofString ";x,y", []),
  (ofString ";x,y,empty", []),
  (ofString ";x,y,undef", []),
  (ofString ";list", []),
  (ofString ";list*", []),
  (ofString ";keys", []),
  (ofString ";keys*", []),
  (ofString ";pairs", []),
  (ofString ";pairs*", []),
  (ofString ";nlist*", []),
  (ofString ";ndict*", []),
  (ofString ";var:3", []),
  (ofString ";empty", []),
  (ofString "?x,y", []),
  (ofString "?x,y,empty", []),
  (ofString "?x,y,undef", []),
  (ofString "?list", []),
  (ofString "?list*", []),
  (ofString "?keys", []),
  (ofString "?keys*", []),
  (ofString "?pairs", []),
  (ofString "?pairs*", []),
  (ofString "?var:3", []),
  (ofString "?elist", []),
  (ofString "?edict", []),
  (ofString "?empty", []),
  (ofString "&x", []),
  (ofString "&x,y,empty", []),
  (ofString "&list*", []),
  (ofString "&keys*", []),
  (ofString "missing=default", []),
  (ofString "/missing=foo,var", []),
  (ofString "x,hello,y", []),
  (ofString "+x,hello,y", [])
]

/-- The text every workload template starts with. -/
def base : Text := ofString "http://e.com"

/-- The workload templates, in order. -/
def templateTexts : List Text :=
  expressions.map fun (e, tail) => base ++ [123] ++ e ++ [125] ++ tail

/-- The expressions that stand alone in their template, in order. -/
def variableTexts : List Text :=
  expressions.filterMap fun (e, tail) => if tail.isEmpty then some e else none

/-- A text value. -/
def str (s : String) : Value := .text (ofString s)

/-- The bindings every expression is expanded under. -/
def bindings : Entries := [
  (str "var", str "value"),
  (str "hello", str "Hello World!"),
  (str "half", str "50%25"),
  (str "num", .int 42),
  (str "raw", .bytes ((ofString "bytes-value").map Nat.toUInt8)),
  (str "empty", str ""),
  (str "undef", .none),
  (str "list", .list [str "red", str "green", str "blue"]),
  (str "keys", .dict [(str "semi", str ";"), (str "dot", str "."), (str "comma", str ",")]),
  (str "pairs", .list [.tuple [str "a", str "1"], .tuple [str "b", str "2"], .tuple [str "c", str "3"]]),
  (str "path", str "/foo/bar"),
  (str "base", str "http://example.com/home/"),
  (str "who", str "fred"),
  (str "nlist", .list [str "one", .none, str "two"]),
  (str "ndict", .dict [(str "k1", str "v1"), (str "k2", .none)]),
  (str "elist", .list []),
  (str "edict", .dict []),
  (str "x", .int 1024),
  (str "y", .int 768)]

/-- The bindings of the partial-expansion workload. -/
def partialBindings : Entries := [
  (str "var", str "value"),
  (str "list", .list [str "a", str "b", str "c"]),
  (str "keys", .dict [(str "k", str "v"), (str "q", str "w")]),
  (str "x", .int 1)]

/-- The operator characters, the empty text of simple expansion first. -/
def operatorSymbols : List Text :=
  [[], [43], [35], [46], [47], [59], [63], [38], [61], [44], [33], [64], [124]]

example : templateTexts.length = 84 ∧ variableTexts.length = 82 ∧ operatorSymbols.length = 13 := by
  decide

end Rfc6570.Workload
