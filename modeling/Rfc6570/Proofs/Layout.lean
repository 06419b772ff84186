import Rfc6570.Proofs.Splicing

/-!
# Rfc6570 — the layout of a template text

A template text is laid out as `L₀ {e₁} L₁ … {eₙ} Lₙ`: literal texts `Lᵢ` around the texts `eᵢ`
of its expressions. Many layouts render to the same text; the one the library reads is the
*valid* one, in which every expression text is non-empty and holds no `}`, and no `{` of a
literal text could have opened an expression: each is directly followed by `}`, or has no `}`
anywhere after it in the whole text.

A valid layout is the scan of its text seen another way (`Layout.scanned_pieces_iff`): the
literal texts are the runs of literal pieces between expressions. Since the scan is the one
scanned list of pieces that renders to the text, every text has exactly one valid layout.

## Results

* `Layout.scanned_pieces_iff` — a layout is valid exactly when its pieces are scanned pieces.
* `Layout.eq_ofPieces_scan`   — a valid layout of a text is the layout of its scan.
* `Template.layout_unique`    — every text has one valid layout, and reading the template reads
  that layout's expression texts, in order.
-/

namespace Rfc6570

open Text

/-- A template text laid out as `L₀ {e₁} L₁ … {eₙ} Lₙ`: the literal text before the first
expression, then each expression's text with the literal text that follows it. -/
structure Layout where
  /-- The literal text `L₀`. -/
  head : Text
  /-- The pairs `(eᵢ, Lᵢ)`, in order. -/
  tail : List (Text × Text)
deriving DecidableEq, Repr

namespace Layout

/-- The text of the expressions and literal texts after the first literal text. -/
def renderTail (tail : List (Text × Text)) : Text :=
  tail.flatMap fun (e, l) => 123 :: e ++ 125 :: l

/-- The text of a layout. -/
def render (D : Layout) : Text := D.head ++ renderTail D.tail

/-- The expression texts of a layout, in order. -/
def sources (D : Layout) : List Text := D.tail.map Prod.fst

/-- No `{` of the literal text `l`, followed in the whole text by `rest`, opens an expression:
it is directly followed by `}`, or no `}` comes anywhere after it. -/
def Inert (l rest : Text) : Prop :=
  ∀ u w, l = u ++ 123 :: w → (w ++ rest).head? = some 125 ∨ 125 ∉ w ++ rest

/-- Every expression text of `tail` is non-empty and holds no `}`, and every literal text is
inert before what follows it. -/
def TailValid : List (Text × Text) → Prop
  | [] => True
  | (e, l) :: rest => e ≠ [] ∧ 125 ∉ e ∧ Inert l (renderTail rest) ∧ TailValid rest

/-- A layout the library can read: its first literal text is inert before the rest, and so is
every later one, with every expression text non-empty and free of `}`. -/
def Valid (D : Layout) : Prop := Inert D.head (renderTail D.tail) ∧ TailValid D.tail

/-- The pieces of the expressions and literal texts after the first literal text. -/
def tailPieces (tail : List (Text × Text)) : List Piece :=
  tail.flatMap fun (e, l) => Piece.expression e :: l.map Piece.literal

/-- The pieces of a layout: one literal piece per literal character, one per expression. -/
def pieces (D : Layout) : List Piece := D.head.map Piece.literal ++ tailPieces D.tail

/-- The layout of a list of pieces: the runs of literal pieces between expressions. -/
def ofPieces : List Piece → Layout
  | [] => ⟨[], []⟩
  | .literal c :: ps => ⟨c :: (ofPieces ps).head, (ofPieces ps).tail⟩
  | .expression e :: ps => ⟨[], (e, (ofPieces ps).head) :: (ofPieces ps).tail⟩

example : ofPieces (Piece.scan (ofString "a\x7bb\x7d\x7b\x7dc\x7b\x7bd\x7d")) =
    ⟨ofString "a", [(ofString "b", ofString "\x7b\x7dc"), (ofString "\x7bd", [])]⟩ := by decide

-- ---------------------------------------------------------------------------
-- Inert literal texts
-- ---------------------------------------------------------------------------

theorem inert_nil (rest : Text) : Inert [] rest := by
  intro u w h
  exact absurd h.symm (by simp)

/-- A character other than `{` opens nothing. -/
theorem inert_cons_of_ne {c : Nat} (hc : c ≠ 123) (l rest : Text) :
    Inert (c :: l) rest ↔ Inert l rest := by
  constructor
  · intro h u w hl
    exact h (c :: u) w (by rw [hl, List.cons_append])
  · intro h u w hl
    cases u with
    | nil => exact absurd (List.cons.inj hl).1 hc
    | cons a u => exact h u w (List.cons.inj hl).2

/-- The pair `{}` opens nothing. -/
theorem inert_brace_pair (l rest : Text) : Inert (123 :: 125 :: l) rest ↔ Inert l rest := by
  constructor
  · intro h u w hl
    exact h (123 :: 125 :: u) w (by rw [hl]; rfl)
  · intro h u w hl
    match u, hl with
    | [], hl =>
      obtain ⟨-, rfl⟩ := List.cons.inj hl
      exact .inl rfl
    | [a], hl => exact absurd (List.cons.inj (List.cons.inj hl).2).1 (by decide)
    | a :: b :: u, hl => exact h u w (List.cons.inj (List.cons.inj hl).2).2

/-- A `{` not directly followed by `}` opens nothing exactly when no `}` follows it at all. -/
theorem inert_brace_open {l rest : Text} (hl : (l ++ rest).head? ≠ some 125) :
    Inert (123 :: l) rest ↔ 125 ∉ l ++ rest := by
  constructor
  · intro h
    exact (h [] l rfl).resolve_left hl
  · intro h u w hu
    cases u with
    | nil =>
      obtain ⟨-, rfl⟩ := List.cons.inj hu
      exact .inr h
    | cons a u =>
      -- a later `{` of `l` has even less after it
      have hl' : l = u ++ 123 :: w := (List.cons.inj hu).2
      refine .inr fun hw => h ?_
      rw [hl', List.append_assoc]
      exact List.mem_append_right u (List.mem_cons_of_mem 123 hw)

-- ---------------------------------------------------------------------------
-- Pieces of layouts
-- ---------------------------------------------------------------------------

theorem tailPieces_cons (e l : Text) (rest : List (Text × Text)) :
    tailPieces ((e, l) :: rest) = Piece.expression e :: (l.map Piece.literal ++ tailPieces rest) := by
  simp [tailPieces]

theorem render_tailPieces (tail : List (Text × Text)) :
    Piece.render (tailPieces tail) = renderTail tail := by
  induction tail with
  | nil => rfl
  | cons p rest ih =>
    obtain ⟨e, l⟩ := p
    rw [tailPieces_cons, Piece.render_cons, Piece.render_append, Piece.render_map_literal, ih]
    simp [renderTail, Piece.text]

theorem render_pieces (D : Layout) : Piece.render D.pieces = D.render := by
  rw [pieces, Piece.render_append, Piece.render_map_literal, render_tailPieces, render]

/-- The pieces after the first literal text start with an expression, if with anything. -/
theorem tailPieces_eq_nil_or (tail : List (Text × Text)) :
    tailPieces tail = [] ∨ ∃ e ps, tailPieces tail = Piece.expression e :: ps := by
  cases tail with
  | nil => exact .inl rfl
  | cons p rest => exact .inr ⟨p.1, _, tailPieces_cons p.1 p.2 rest⟩

/-- An expression renders with its `}`. -/
theorem closer_mem_renderTail {tail : List (Text × Text)} (h : tail ≠ []) : 125 ∈ renderTail tail := by
  obtain ⟨⟨e, l⟩, rest, rfl⟩ := List.exists_cons_of_ne_nil h
  simp [renderTail]

theorem sources_append (ps qs : List Piece) :
    Piece.sources (ps ++ qs) = Piece.sources ps ++ Piece.sources qs :=
  List.filterMap_append

theorem sources_map_literal (x : Text) : Piece.sources (x.map Piece.literal) = [] := by
  simp [Piece.sources]

theorem sources_expression_cons (e : Text) (ps : List Piece) :
    Piece.sources (Piece.expression e :: ps) = e :: Piece.sources ps := rfl

theorem sources_tailPieces (tail : List (Text × Text)) :
    Piece.sources (tailPieces tail) = tail.map Prod.fst := by
  induction tail with
  | nil => rfl
  | cons p rest ih =>
    rw [tailPieces_cons, sources_expression_cons, sources_append, sources_map_literal,
      List.nil_append, ih, List.map_cons]

theorem sources_pieces (D : Layout) : Piece.sources D.pieces = D.sources := by
  rw [pieces, sources_append, sources_map_literal, sources_tailPieces, List.nil_append, sources]

-- ---------------------------------------------------------------------------
-- Layouts and lists of pieces
-- ---------------------------------------------------------------------------

theorem pieces_ofPieces : ∀ ps : List Piece, (ofPieces ps).pieces = ps
  | [] => rfl
  | .literal c :: ps => by
    have ih := pieces_ofPieces ps
    rw [pieces] at ih
    rw [ofPieces, pieces, List.map_cons, List.cons_append, ih]
  | .expression e :: ps => by
    have ih := pieces_ofPieces ps
    rw [pieces] at ih
    rw [ofPieces, pieces, List.map_nil, List.nil_append, tailPieces_cons, ih]

/-- Literal characters before pieces join the layout's first literal text. -/
theorem ofPieces_literals (x : Text) (ps : List Piece) :
    ofPieces (x.map Piece.literal ++ ps) = ⟨x ++ (ofPieces ps).head, (ofPieces ps).tail⟩ := by
  induction x with
  | nil => rfl
  | cons c x ih => rw [List.map_cons, List.cons_append, ofPieces, ih]; rfl

theorem ofPieces_tailPieces (tail : List (Text × Text)) : ofPieces (tailPieces tail) = ⟨[], tail⟩ := by
  induction tail with
  | nil => rfl
  | cons p rest ih =>
    obtain ⟨e, l⟩ := p
    rw [tailPieces_cons, ofPieces, ofPieces_literals, ih, List.append_nil]

/-- A layout is read back from its pieces. -/
theorem ofPieces_pieces (D : Layout) : ofPieces D.pieces = D := by
  rw [pieces, ofPieces_literals, ofPieces_tailPieces, List.append_nil]

-- ---------------------------------------------------------------------------
-- Valid layouts are scans
-- ---------------------------------------------------------------------------

/-- What an expression piece can head: only the `expression` rule makes one. -/
theorem scanned_expression_cons_iff (e : Text) (ps : List Piece) :
    Piece.Scanned (Piece.expression e :: ps) ↔ e ≠ [] ∧ 125 ∉ e ∧ Piece.Scanned ps := by
  constructor
  · intro h
    generalize hq : Piece.expression e :: ps = qs at h
    cases h with
    | nil => cases hq
    | literal => cases hq
    | braces => cases hq
    | expression he he' hps =>
      obtain ⟨⟨⟩, rfl⟩ := List.cons.inj hq
      exact ⟨he, he', hps⟩
    | unclosed => cases hq
  · rintro ⟨he, he', hps⟩
    exact .expression he he' hps

/-- What a literal piece can head: a character other than `{`, the pair `{}`, or a `{` that
nothing closes. -/
theorem scanned_literal_cons_iff (c : Nat) (ps : List Piece) :
    Piece.Scanned (Piece.literal c :: ps) ↔ (c ≠ 123 ∧ Piece.Scanned ps) ∨
      (c = 123 ∧ ∃ qs, ps = Piece.literal 125 :: qs ∧ Piece.Scanned qs) ∨
      (c = 123 ∧ ∃ r : Text, 125 ∉ r ∧ ps = r.map Piece.literal) := by
  constructor
  · intro h
    generalize hq : Piece.literal c :: ps = qs at h
    cases h with
    | nil => cases hq
    | literal hc hps =>
      obtain ⟨⟨⟩, rfl⟩ := List.cons.inj hq
      exact .inl ⟨hc, hps⟩
    | braces hps =>
      obtain ⟨⟨⟩, rfl⟩ := List.cons.inj hq
      exact .inr (.inl ⟨rfl, _, rfl, hps⟩)
    | expression => cases hq
    | unclosed hr =>
      rw [List.map_cons] at hq
      obtain ⟨⟨⟩, rfl⟩ := List.cons.inj hq
      exact .inr (.inr ⟨rfl, _, hr, rfl⟩)
  · rintro (⟨hc, hps⟩ | ⟨rfl, qs, rfl, hqs⟩ | ⟨rfl, r, hr, rfl⟩)
    · exact .literal hc hps
    · exact .braces hqs
    · exact .unclosed hr

/-- Literal pieces followed by the pieces of expressions are literal pieces only when there
are no expressions. -/
theorem tail_eq_nil_of_literals {x r : Text} {tail : List (Text × Text)}
    (h : x.map Piece.literal ++ tailPieces tail = r.map Piece.literal) : tail = [] := by
  rcases tailPieces_eq_nil_or tail with ht | ⟨e, ps, ht⟩
  · cases tail with
    | nil => rfl
    | cons p rest => simp [tailPieces] at ht
  · have : Piece.expression e ∈ r.map Piece.literal := by
      rw [← h, ht]
      exact List.mem_append_right _ List.mem_cons_self
    simp at this

/-- A rendered tail starts with a brace when it starts at all, so a `}` right after literal
text is the text's own. -/
theorem eq_closer_cons_of_head? {x : Text} {tail : List (Text × Text)}
    (h : (x ++ renderTail tail).head? = some 125) : ∃ y, x = 125 :: y := by
  cases x with
  | nil =>
    rcases tailPieces_eq_nil_or tail with ht | ⟨e, ps, ht⟩
    · rw [← render_tailPieces, ht] at h
      exact absurd h (by simp [Piece.render])
    · rw [← render_tailPieces, ht, Piece.render_cons] at h
      exact absurd h (by simp [Piece.text])
  | cons d y =>
    simp only [List.cons_append, List.head?_cons, Option.some.injEq] at h
    exact ⟨y, by rw [h]⟩

/-- Literal pieces before the pieces of expressions, or before nothing, are scanned exactly
when they form an inert literal text. -/
theorem scanned_literals_iff (tail : List (Text × Text)) :
    ∀ x : Text, Piece.Scanned (x.map Piece.literal ++ tailPieces tail) ↔
      Inert x (renderTail tail) ∧ Piece.Scanned (tailPieces tail)
  | [] => by simp [inert_nil]
  | c :: x => by
    rw [List.map_cons, List.cons_append, scanned_literal_cons_iff]
    by_cases hc : c = 123
    · subst hc
      by_cases hx : (x ++ renderTail tail).head? = some 125
      · -- the brace is directly closed: the pair `{}`
        obtain ⟨y, rfl⟩ := eq_closer_cons_of_head? hx
        rw [inert_brace_pair, ← scanned_literals_iff tail y, List.map_cons, List.cons_append]
        constructor
        · rintro (⟨h, -⟩ | ⟨-, qs, hqs, h⟩ | ⟨-, r, hr, hrx⟩)
          · exact absurd rfl h
          · rw [(List.cons.inj hqs).2]
            exact h
          · -- a brace left open cannot be followed by `}`
            cases r with
            | nil => cases hrx
            | cons d r =>
              obtain ⟨hd, -⟩ := List.cons.inj hrx
              cases hd
              exact absurd List.mem_cons_self hr
        · exact fun h => .inr (.inl ⟨rfl, _, rfl, h⟩)
      · -- the brace is not directly closed: it must stay open to the end
        rw [inert_brace_open hx]
        constructor
        · rintro (⟨h, -⟩ | ⟨-, qs, hqs, -⟩ | ⟨-, r, hr, hrx⟩)
          · exact absurd rfl h
          · -- a `}` right after the brace contradicts `hx`
            refine absurd ?_ hx
            rw [← render_tailPieces, ← Piece.render_map_literal x, ← Piece.render_append, hqs]
            simp [Piece.render, Piece.text]
          · obtain rfl := tail_eq_nil_of_literals hrx
            have hxr : x = r := List.map_injective_iff.mpr (fun _ _ h => Piece.literal.inj h)
              (by simpa [tailPieces] using hrx)
            subst hxr
            simpa [renderTail, tailPieces] using And.intro hr Piece.Scanned.nil
        · rintro ⟨hr, hs⟩
          -- no `}` after the brace: no expression follows, and the brace stays open
          have ht : tail = [] := by
            by_contra ht
            exact hr (List.mem_append_right x (closer_mem_renderTail ht))
          subst ht
          exact .inr (.inr ⟨rfl, x, by simpa [renderTail] using hr, by simp [tailPieces]⟩)
    · rw [inert_cons_of_ne hc, ← scanned_literals_iff tail x]
      constructor
      · rintro (⟨-, h⟩ | ⟨h, -⟩ | ⟨h, -⟩)
        · exact h
        · exact absurd h hc
        · exact absurd h hc
      · exact fun h => .inl ⟨hc, h⟩

/-- The pieces after the first literal text are scanned exactly when the tail is valid. -/
theorem scanned_tailPieces_iff : ∀ tail : List (Text × Text),
    Piece.Scanned (tailPieces tail) ↔ TailValid tail
  | [] => by simp only [tailPieces, List.flatMap_nil, TailValid, iff_true]; exact .nil
  | (e, l) :: rest => by
    rw [tailPieces_cons, scanned_expression_cons_iff, scanned_literals_iff,
      scanned_tailPieces_iff rest, TailValid]

/-- A layout is valid exactly when its pieces are scanned pieces. -/
theorem scanned_pieces_iff (D : Layout) : Piece.Scanned D.pieces ↔ D.Valid := by
  rw [pieces, scanned_literals_iff, scanned_tailPieces_iff, Valid]

/-- The pieces of a valid layout are the scan of its text. -/
theorem scan_render {D : Layout} (hD : D.Valid) : Piece.scan D.render = D.pieces :=
  (Piece.scan_eq_iff _ _).mpr ⟨(scanned_pieces_iff D).mpr hD, render_pieces D⟩

/-- A valid layout of a text is the layout of the text's scan. -/
theorem eq_ofPieces_scan {D : Layout} (hD : D.Valid) : D = ofPieces (Piece.scan D.render) := by
  rw [scan_render hD, ofPieces_pieces]

/-- The layout of a text's scan is valid and renders to the text. -/
theorem valid_ofPieces_scan (T : Text) :
    (ofPieces (Piece.scan T)).Valid ∧ (ofPieces (Piece.scan T)).render = T := by
  have hp := pieces_ofPieces (Piece.scan T)
  have hs : Piece.Scanned (ofPieces (Piece.scan T)).pieces := by
    rw [hp]
    exact Piece.scanned_scan T
  refine ⟨(scanned_pieces_iff _).mp hs, ?_⟩
  rw [← render_pieces, hp, Piece.render_scan]

end Layout

namespace Template

/-- Reading pieces reads their expression texts in order, and fails with the first of them
that cannot be read. -/
theorem expressions_mapM_readPiece (t : Text) : ∀ ps : List Piece,
    (fun parts => (Template.mk t parts).expressions) <$> ps.mapM readPiece =
      (Piece.sources ps).mapM Expression.parse
  | [] => rfl
  | .literal c :: ps => by
    have ih := expressions_mapM_readPiece t ps
    rw [List.mapM_cons, readPiece, ok_bind]
    show _ = (Piece.sources ps).mapM Expression.parse
    rw [← ih]
    cases ps.mapM readPiece <;> rfl
  | .expression s :: ps => by
    have ih := expressions_mapM_readPiece t ps
    rw [List.mapM_cons, readPiece, Layout.sources_expression_cons, List.mapM_cons, ← ih]
    cases Expression.parse s <;> cases ps.mapM readPiece <;> rfl

/-- **A template text has one valid layout, and the template's expressions are its
expressions**: exactly one layout `L₀ {e₁} L₁ … {eₙ} Lₙ` of the text has non-empty expression
texts free of `}` and no `{` in a literal text that a later `}` could close except one directly
before it; the template keeps the text, and its expressions are those read from `e₁, …, eₙ`
in order, reading failing with the first that cannot be read. -/
theorem layout_unique (T : Text) :
    ∃ D : Layout, D.Valid ∧ D.render = T ∧ (∀ D' : Layout, D'.Valid → D'.render = T → D' = D) ∧
      (fun tpl => (tpl.source, tpl.expressions)) <$> parse T =
        (fun es => (T, es)) <$> D.sources.mapM Expression.parse := by
  obtain ⟨hv, hr⟩ := Layout.valid_ofPieces_scan T
  refine ⟨_, hv, hr, fun D' hD' hT => ?_, ?_⟩
  · rw [Layout.eq_ofPieces_scan hD', hT]
  · rw [← Layout.sources_pieces, Layout.pieces_ofPieces, ← expressions_mapM_readPiece T]
    unfold parse
    cases (Piece.scan T).mapM readPiece <;> rfl

end Template

end Rfc6570
