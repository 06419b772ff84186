import Rfc6570.Value.Text
import Rfc6570.Text.Percent

/-!
# Rfc6570 — operators

RFC 6570 §2.2: an expression may start with an operator character. The level-2 operators `+`
(reserved) and `#` (fragment), the level-3 operators `.` `/` `;` `?` `&`, and the characters
`=` `,` `!` `@` `|` reserved for later extensions. Any other start means simple expansion.

Each operator fixes the character put before a non-empty expansion, the separator between the
expansions of its variables, and which characters stand unencoded: for reserved expansion the
reserved set and `%`, for fragment expansion the reserved set, for all others none beyond the
unreserved ones.

A value is encoded by its text: a text as is, bytes read as UTF-8, anything else by its plain
text. Reserved and fragment expansion leave a text that already holds an escape triplet as it
is, so that expanding an expanded text again changes nothing.
-/

namespace Rfc6570

/-- The operator of an expression. -/
inductive Operator where
  /-- No operator: simple string expansion. -/
  | simple
  /-- `+`: reserved expansion. -/
  | reserved
  /-- `#`: fragment expansion. -/
  | fragment
  /-- `.`: label expansion. -/
  | label
  /-- `/`: path segment expansion. -/
  | pathSegment
  /-- `;`: path-style parameter expansion. -/
  | pathParameter
  /-- `?`: form-style query expansion. -/
  | query
  /-- `&`: form-style query continuation. -/
  | queryContinuation
  /-- `=`, reserved for later use. -/
  | reservedEquals
  /-- `,`, reserved for later use. -/
  | reservedComma
  /-- `!`, reserved for later use. -/
  | reservedBang
  /-- `@`, reserved for later use. -/
  | reservedAt
  /-- `|`, reserved for later use. -/
  | reservedPipe
deriving DecidableEq, Repr

namespace Operator

/-- The operator a character stands for, if any. -/
def ofChar? (c : Nat) : Option Operator :=
  if c = 43 then some .reserved
  else if c = 35 then some .fragment
  else if c = 46 then some .label
  else if c = 47 then some .pathSegment
  else if c = 59 then some .pathParameter
  else if c = 63 then some .query
  else if c = 38 then some .queryContinuation
  else if c = 61 then some .reservedEquals
  else if c = 44 then some .reservedComma
  else if c = 33 then some .reservedBang
  else if c = 64 then some .reservedAt
  else if c = 124 then some .reservedPipe
  else none

/-- The operator a text of one operator character stands for; simple expansion otherwise. -/
def ofText : Text → Operator
  | [c] => (ofChar? c).getD .simple
  | _ => .simple

/-- The operator character, empty for simple expansion. -/
def symbol : Operator → Text
  | .simple => []
  | .reserved => [43]
  | .fragment => [35]
  | .label => [46]
  | .pathSegment => [47]
  | .pathParameter => [59]
  | .query => [63]
  | .queryContinuation => [38]
  | .reservedEquals => [61]
  | .reservedComma => [44]
  | .reservedBang => [33]
  | .reservedAt => [64]
  | .reservedPipe => [124]

/-- The conventional name of an operator. -/
def name : Operator → String
  | .simple => "default"
  | .reserved => "reserved"
  | .fragment => "fragment"
  | .label => "label_with_dot_prefix"
  | .pathSegment => "path_segment"
  | .pathParameter => "path_style_parameter"
  | .query => "form_style_query"
  | .queryContinuation => "form_style_query_continuation"
  | .reservedEquals => "reserved_eq"
  | .reservedComma => "reserved_comma"
  | .reservedBang => "reserved_bang"
  | .reservedAt => "reserved_at"
  | .reservedPipe => "reserved_pipe"

/-- The characters that stand unencoded besides the unreserved ones. -/
def allowed : Operator → Text
  | .reserved => Text.reserved ++ [37]
  | .fragment => Text.reserved
  | _ => []

/-- The separator between the expansions of the variables of an expression. -/
def separator : Operator → Text
  | .label => [46]
  | .pathSegment => [47]
  | .pathParameter => [59]
  | .query | .queryContinuation => [38]
  | _ => [44]

/-- The text put before a non-empty expansion. -/
def first : Operator → Text
  | .reserved => []
  | op => op.symbol

/-- Reserved and fragment expansion: texts with escape triplets stay as they are. -/
def keepsEscapes : Operator → Bool
  | .reserved | .fragment => true
  | _ => false

end Operator

namespace Value

/-- The percent-encoding of a value's text: a text by its UTF-8 bytes, a byte string by its
bytes, anything else by the UTF-8 bytes of its plain text. -/
def encodeWith (safe : Text) : Value → Except Fault Text
  | .bytes bs => .ok (Percent.encode safe bs)
  | v => do
    let t ← v.str
    match Utf8.encode t with
    | .ok bs => .ok (Percent.encode safe bs)
    | .error f => .error (.unencodable t f)

/-- The text a value stands for in an expansion: bytes read as UTF-8, else its plain text. -/
def expansionText : Value → Except Fault Text
  | .bytes bs =>
    match Utf8.decode bs with
    | .ok t => .ok t
    | .error f => .error (.undecodable f)
  | v => v.str

end Value

namespace Operator

/-- The encoded text of a value under an operator. -/
def encode (op : Operator) (v : Value) : Except Fault Text := do
  let t ← v.expansionText
  if op.keepsEscapes && Percent.hasEscape t then .ok t
  else Value.encodeWith (if op.keepsEscapes then Text.reserved else []) (.text t)

example : (Operator.encode .reserved (.text (Text.ofString "a b/%41"))).toOption =
    some (Text.ofString "a b/%41") := by decide
example : (Operator.encode .reserved (.text (Text.ofString "a b/c"))).toOption =
    some (Text.ofString "a%20b/c") := by decide
example : (Operator.encode .simple (.float ⟨0x3FF8000000000000⟩)).toOption =
    some (Text.ofString "1.5") := by decide +kernel

end Operator

end Rfc6570
