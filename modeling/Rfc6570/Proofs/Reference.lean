/-!
# Rfc6570 — the expansion algorithm of RFC 6570, Appendix A

The expansion of a level-4 expression as Appendix A of RFC 6570 describes it, written from the
RFC and apart from the library, so that the library's expansion can be measured against it.

An expression is an operator (none, or one of `+ # . / ; ? &`) and a non-empty list of variable
specifications: a variable name (§2.3) with no modifier, an explode modifier `*`, or a prefix
modifier `:n` with `0 < n < 10000` (§2.4). A defined variable holds a string, a list of strings
or an associative array of (name, value) pairs in order (§2.3); an empty list or array counts as
undefined. Characters are Unicode scalar values; one that may not stand as it is becomes the
pct-encoded triplets of its UTF-8 octets, in upper-case hexadecimal.

The table of Appendix A gives each operator the text put first, the separator, whether
variables are named, the text of an empty named value, and the allow set: `U` (unreserved), or
`U+R` for `+` and `#`, which lets reserved characters and pct-encoded triplets pass (§3.2.1).

## Results

* `Reference.Expression.expand` — the expansion of an expression under a binding of names.
* `Reference.Expression.render` — the text of an expression, between its braces.
-/

namespace Rfc6570.Reference

/-! ## Characters and their encodings -/

/-- `unreserved` (RFC 3986 §2.3): ASCII letters and digits, `-`, `.`, `_` and `~`. -/
def isUnreserved (c : Char) : Bool :=
  c.isAlphanum || c == '-' || c == '.' || c == '_' || c == '~'

/-- `reserved` (RFC 3986 §2.2): the general delimiters and the sub-delimiters. -/
def isReserved (c : Char) : Bool := ":/?#[]@!$&'()*+,;=".toList.contains c

/-- The upper-case hexadecimal digit of a number below 16. -/
def hexDigit (n : Nat) : Char := "0123456789ABCDEF".toList.getD n '0'

/-- The pct-encoded triplet of an octet. -/
def triplet (b : UInt8) : List Char := ['%', hexDigit (b.toNat / 16), hexDigit (b.toNat % 16)]

/-- A character as the triplets of its UTF-8 octets. -/
def pctEncode (c : Char) : List Char := (String.utf8EncodeChar c).flatMap triplet

/-- The text begins with two hexadecimal digits. -/
def startsWithHexPair : List Char → Bool
  | a :: b :: _ => a.isHexDigit && b.isHexDigit
  | _ => false

/-- A character of a value stands as it is, before the text `rest`: it is unreserved, or the
allow set is `U+R` and it is reserved or the `%` of a pct-encoded triplet. -/
def passes (allowR : Bool) (c : Char) (rest : List Char) : Bool :=
  isUnreserved c || (allowR && (isReserved c || (c == '%' && startsWithHexPair rest)))

/-- "pct-encoding any characters that are not in the allow set". -/
def encode (allowR : Bool) : List Char → List Char
  | [] => []
  | c :: rest => (if passes allowR c rest then [c] else pctEncode c) ++ encode allowR rest

/-- The text holds a pct-encoded triplet. -/
def hasTriplet : List Char → Bool
  | [] => false
  | c :: rest => (c == '%' && startsWithHexPair rest) || hasTriplet rest

/-- Every character of the text is unreserved, reserved, or the `%` of a pct-encoded triplet:
the text is already encoded as a literal. -/
def isLiteralSafe : List Char → Bool
  | [] => true
  | c :: rest => passes true c rest && isLiteralSafe rest

/-- "The same encoding as for literals" (§3.1): the characters allowed anywhere in a URI, and
pct-encoded triplets, stand as they are. -/
def literal (s : List Char) : List Char := encode true s

/-! ## Expressions -/

/-- `varchar` (§2.3): a letter, a digit, `_`, or a pct-encoded triplet. -/
inductive Varchar : List Char → Prop
  | plain {c : Char} : (c.isAlphanum || c == '_') = true → Varchar [c]
  | triplet {h₁ h₂ : Char} : h₁.isHexDigit = true → h₂.isHexDigit = true → Varchar ['%', h₁, h₂]

/-- `varname = varchar *( ["."] varchar )` (§2.3). -/
inductive Varname : List Char → Prop
  | single {v : List Char} : Varchar v → Varname v
  | append {v n : List Char} : Varchar v → Varname n → Varname (v ++ n)
  | dotted {v n : List Char} : Varchar v → Varname n → Varname (v ++ '.' :: n)

/-- A non-empty word of letters, digits and `_` is a variable name. -/
theorem varname_of_plain : ∀ {s : List Char}, s ≠ [] →
    (∀ c ∈ s, (c.isAlphanum || c == '_') = true) → Varname s
  | [c], _, h => .single (.plain (h c List.mem_cons_self))
  | c :: d :: s, _, h =>
    .append (.plain (h c List.mem_cons_self))
      (varname_of_plain (List.cons_ne_nil d s) fun x hx => h x (List.mem_cons_of_mem c hx))

/-- A modifier (§2.4): none, explode, or a prefix of at most `n` characters. -/
inductive Modifier where
  | none
  | explode
  | maxLength (n : Nat) (pos : 0 < n) (lt : n < 10000)

/-- A variable specification: a name and a modifier. -/
structure Varspec where
  name : List Char
  name_ok : Varname name
  modifier : Modifier

/-- The operators of levels 1 to 4 (§2.2). -/
inductive Op where
  | simple | reserved | fragment | label | pathSegment | pathParameter | query | queryContinuation
deriving DecidableEq

/-- An expression: an operator and its variables. -/
structure Expression where
  op : Op
  varspecs : List Varspec
  nonempty : varspecs ≠ []

def Varspec.explode (vs : Varspec) : Bool :=
  match vs.modifier with
  | .explode => true
  | _ => false

def Op.symbol : Op → List Char
  | .simple => []
  | .reserved => ['+']
  | .fragment => ['#']
  | .label => ['.']
  | .pathSegment => ['/']
  | .pathParameter => [';']
  | .query => ['?']
  | .queryContinuation => ['&']

def Modifier.render : Modifier → List Char
  | .none => []
  | .explode => ['*']
  | .maxLength n _ _ => ':' :: Nat.toDigits 10 n

def Varspec.render (vs : Varspec) : List Char := vs.name ++ vs.modifier.render

/-- The text of an expression between its braces. -/
def Expression.render (e : Expression) : List Char :=
  e.op.symbol ++ [','].intercalate (e.varspecs.map Varspec.render)

/-! ## Expansion -/

/-- A row of the table of Appendix A. -/
structure Row where
  first : List Char
  sep : List Char
  named : Bool
  ifemp : List Char
  allowR : Bool

def Op.row : Op → Row
  | .simple => ⟨[], [','], false, [], false⟩
  | .reserved => ⟨[], [','], false, [], true⟩
  | .fragment => ⟨['#'], [','], false, [], true⟩
  | .label => ⟨['.'], ['.'], false, [], false⟩
  | .pathSegment => ⟨['/'], ['/'], false, [], false⟩
  | .pathParameter => ⟨[';'], [';'], true, [], false⟩
  | .query => ⟨['?'], ['&'], true, ['='], false⟩
  | .queryContinuation => ⟨['&'], ['&'], true, ['='], false⟩

/-- The value of a variable (§2.3). -/
inductive Value where
  | string (s : List Char)
  | list (items : List (List Char))
  | assoc (pairs : List (List Char × List Char))

/-- A string as a prefix modifier leaves it. -/
def Modifier.cut : Modifier → List Char → List Char
  | .maxLength n _ _, s => s.take n
  | _, s => s

/-- Appendix A for one variable with a value: its expansion, or `none` when the value counts as
undefined. -/
def Varspec.expand (r : Row) (vs : Varspec) : Value → Option (List Char)
  | .string s =>
    let t := encode r.allowR (vs.modifier.cut s)
    some (if r.named then literal vs.name ++ (if s.isEmpty then r.ifemp else '=' :: t) else t)
  | .list [] => none
  | .list items =>
    some <| if vs.explode then
      if r.named then
        r.sep.intercalate (items.map fun m =>
          literal vs.name ++ (if m.isEmpty then r.ifemp else '=' :: encode r.allowR m))
      else r.sep.intercalate (items.map (encode r.allowR))
    else
      (if r.named then literal vs.name ++ ['='] else []) ++
        [','].intercalate (items.map (encode r.allowR))
  | .assoc [] => none
  | .assoc ps =>
    some <| if vs.explode then
      if r.named then
        r.sep.intercalate (ps.map fun p =>
          literal p.1 ++ (if p.2.isEmpty then r.ifemp else '=' :: encode r.allowR p.2))
      else r.sep.intercalate (ps.map fun p => encode r.allowR p.1 ++ '=' :: encode r.allowR p.2)
    else
      (if r.named then literal vs.name ++ ['='] else []) ++
        [','].intercalate (ps.map fun p => encode r.allowR p.1 ++ ',' :: encode r.allowR p.2)

/-- Appendix A: the expansion of an expression when each name `n` is bound to `d n`, `none` for
undefined. The first defined variable is preceded by the operator's first text, the others by
its separator. -/
def Expression.expand (e : Expression) (d : List Char → Option Value) : List Char :=
  match e.varspecs.filterMap fun vs => (d vs.name).bind (vs.expand e.op.row) with
  | [] => []
  | parts => e.op.row.first ++ e.op.row.sep.intercalate parts

section Examples

/-- A variable with a plain name, for the examples of §3.2. -/
private def plainVar (name : String) (m : Modifier) (h : name.toList ≠ [] ∧
    (name.toList.all fun c => c.isAlphanum || c == '_') = true) : Varspec :=
  ⟨name.toList, varname_of_plain h.1 (List.all_eq_true.mp h.2), m⟩

/-- Some of the variables of §3.2. -/
private def rfcVars (n : List Char) : Option Value :=
  if n = "list".toList then some (.list ["red".toList, "green".toList, "blue".toList])
  else if n = "keys".toList then
    some (.assoc [("semi".toList, ";".toList), ("dot".toList, ".".toList), ("comma".toList, ",".toList)])
  else if n = "path".toList then some (.string "/foo/bar".toList)
  else if n = "empty".toList then some (.string [])
  else if n = "x".toList then some (.string "1024".toList)
  else none

example : Expression.expand ⟨.pathParameter, [plainVar "keys" .explode (by decide)], by simp⟩ rfcVars
    = ";semi=%3B;dot=.;comma=%2C".toList := by decide
example : Expression.expand ⟨.fragment, [plainVar "keys" .explode (by decide)], by simp⟩ rfcVars
    = "#semi=;,dot=.,comma=,".toList := by decide
example : Expression.expand ⟨.reserved, [plainVar "path" (.maxLength 6 (by decide) (by decide))
    (by decide)], by simp⟩ rfcVars = "/foo/b".toList := by decide
example : Expression.expand ⟨.query, [plainVar "x" .none (by decide), plainVar "undef" .none
    (by decide), plainVar "empty" .none (by decide)], by simp⟩ rfcVars = "?x=1024&empty=".toList := by
  decide
example : Expression.expand ⟨.label, [plainVar "list" .none (by decide)], by simp⟩ rfcVars
    = ".red,green,blue".toList := by decide

end Examples

end Rfc6570.Reference
