import Rfc6570.Expression.Basic

/-!
# Rfc6570 — templates

A template is a text in which every `{` that has a `}` later, with at least one character
between them, opens an expression that the first such `}` closes; the expression's text is
everything between them, `{` included. Every other character is literal: a `{` directly
followed by `}`, a `{` with no `}` after it, and a `}` that closes nothing.

`Piece.scan` cuts a text into pieces one character at a time, remembering an open brace and
the characters seen since it. Reading a template reads each of its expressions in order.

## Results

* `Piece.scan`, `Piece.render` — the pieces of a text and the text of pieces.
* `render_scan`         — the pieces of a text render back to it.
-/

namespace Rfc6570

open Text

/-- A piece of a template: a literal character or the text of an expression. -/
inductive Piece where
  /-- A literal character. -/
  | literal (c : Nat)
  /-- The text of an expression, between its braces. -/
  | expression (source : Text)
deriving DecidableEq, Repr

namespace Piece

/-- The pieces of a text; `open?` holds the characters read since an open brace, if any. -/
def scanFrom : Option Text → Text → List Piece
  | none, [] => []
  | none, c :: rest => if c = 123 then scanFrom (some []) rest else literal c :: scanFrom none rest
  | some acc, [] => (123 :: acc).map literal
  | some acc, c :: rest =>
    if c = 125 then
      if acc.isEmpty then literal 123 :: literal 125 :: scanFrom none rest
      else expression acc :: scanFrom none rest
    else scanFrom (some (acc ++ [c])) rest

/-- The pieces of a template text. -/
def scan (t : Text) : List Piece := scanFrom none t

/-- The text of a piece. -/
def text : Piece → Text
  | literal c => [c]
  | expression s => 123 :: s ++ [125]

/-- The text of a sequence of pieces. -/
def render (ps : List Piece) : Text := ps.flatMap text

/-- The expression texts among pieces, in order. -/
def sources (ps : List Piece) : List Text :=
  ps.filterMap fun | expression s => some s | literal _ => none

theorem render_map_literal (t : Text) : render (t.map literal) = t := by
  induction t with
  | nil => rfl
  | cons c rest ih => simp only [render] at ih; simp [render, text, ih]

theorem render_scanFrom : ∀ (acc : Option Text) (t : Text),
    render (scanFrom acc t) = (match acc with | none => [] | some a => 123 :: a) ++ t
  | none, [] => rfl
  | some acc, [] => by simp only [scanFrom]; rw [render_map_literal]; simp
  | none, c :: rest => by
    by_cases h : c = 123
    · simp [scanFrom, h, render_scanFrom (some []) rest]
    · have ih := render_scanFrom none rest
      simp only [render] at ih
      simp [scanFrom, h, render, text, ih]
  | some acc, c :: rest => by
    have ih := render_scanFrom none rest
    simp only [render] at ih
    by_cases h : c = 125
    · by_cases ha : acc = []
      · simp [scanFrom, h, ha, render, text, ih]
      · simp [scanFrom, h, ha, render, text, ih]
    · simp [scanFrom, h, render_scanFrom (some (acc ++ [c])) rest]

/-- The pieces of a text render back to it. -/
theorem render_scan (t : Text) : render (scan t) = t := render_scanFrom none t

example : sources (scan (ofString "a\x7bb\x7d\x7b\x7d\x7b\x7bc\x7d\x7d\x7bd")) = [ofString "b", ofString "\x7bc"] := by decide

end Piece

/-- A part of a read template: a literal character or a read expression. -/
inductive Part where
  /-- A literal character. -/
  | literal (c : Nat)
  /-- A read expression. -/
  | expression (e : Expression)
deriving Repr

/-- A template: its text and its parts, expressions read. -/
structure Template where
  /-- The text of the template. -/
  source : Text
  /-- The literal characters and read expressions, in order. -/
  parts : List Part
deriving Repr

namespace Template

/-- Reads one piece. -/
def readPiece : Piece → Except Fault Part
  | .literal c => .ok (.literal c)
  | .expression s => .expression <$> Expression.parse s

/-- Reads a template: every expression of the text, in order. -/
def parse (t : Text) : Except Fault Template := do
  let ps ← (Piece.scan t).mapM readPiece
  return ⟨t, ps⟩

/-- The expressions of a template, in order. -/
def expressions (tpl : Template) : List Expression :=
  tpl.parts.filterMap fun | .expression e => some e | .literal _ => none

/-- Keeps the first appearance of each item. -/
def firstAppearances : List Text → List Text
  | [] => []
  | x :: xs => x :: (firstAppearances xs).filter (· ≠ x)

/-- The variable names of a template, each once, in order of first appearance. -/
def names (tpl : Template) : List Text :=
  firstAppearances (tpl.expressions.flatMap Expression.names)

/-- The quoted form of a template: its text in double quotes after the type's name. -/
def quotedForm (tpl : Template) : Text :=
  ofString "URITemplate(" ++ [34] ++ tpl.source ++ [34, 41]

/-- Two templates are equal when their texts are. -/
def sameAs (a b : Template) : Bool := a.source == b.source

/-- Reads a template from a value that should be a text. -/
def ofValue : Value → Except Fault Template
  | .text t => parse t
  | v => .error (.templateNotText v.kind)

example : ((parse (ofString "\x7ba,b\x7d\x7b/b,c\x7d")).toOption.map names) =
    some [ofString "a", ofString "b", ofString "c"] := by decide

end Template

end Rfc6570
