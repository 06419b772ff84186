import Rfc6570.Template.Basic
import Mathlib.Data.List.Forall2

/-!
# Rfc6570 — what a scan produces

`Piece.scan` reads a template text left to right, remembering only whether a brace is open and
what was read since. Its output is described here by a grammar of its own, `Piece.Scanned`,
written without the scanner: literal characters other than `{`, the pair `{}`, expressions whose
text is not empty and holds no `}`, and, only at the end, a `{` that nothing closes followed by
literal characters none of which is `}`.

A scan always produces such pieces, and scanning the text of such pieces gives them back, so the
pieces of a text are the one scanned list that renders to it. A text in which every `{` has a `}`
somewhere after it (`Text.BracesClosed`) leaves no brace open, and the scan of a longer text
starts afresh after it.

## Results

* `scanned_scan`   — a scan produces scanned pieces.
* `scan_render`    — scanning the text of scanned pieces gives them back.
* `scan_eq_iff`    — the pieces of a text are the scanned pieces that render to it.
* `scan_append`    — after a text whose braces all close, the scan starts afresh.
* `Scanned.splice` — expressions replaced by themselves or by literal characters other than `{`
  leave pieces that a scan of their text finds again.
-/

namespace Rfc6570

namespace Text

/-- Every `{` of the text has a `}` somewhere after it. -/
def BracesClosed (t : Text) : Prop := ∀ l r, t = l ++ 123 :: r → 125 ∈ r

/-- Every `{` of the text has a `}` somewhere after it, as a check. -/
def bracesClosed : Text → Bool
  | [] => true
  | c :: rest => (c != 123 || rest.contains 125) && bracesClosed rest

theorem bracesClosed_iff (t : Text) : bracesClosed t = true ↔ BracesClosed t := by
  induction t with
  | nil => simp [bracesClosed, BracesClosed]
  | cons c rest ih =>
    simp only [bracesClosed, Bool.and_eq_true, Bool.or_eq_true, bne_iff_ne, ne_eq,
      List.contains_iff_mem, ih]
    constructor
    · rintro ⟨hc, hrest⟩ l r h
      cases l with
      | nil =>
        obtain ⟨rfl, rfl⟩ := List.cons.inj h
        exact hc.resolve_left (· rfl)
      | cons a l => exact hrest l r (List.cons.inj h).2
    · intro h
      refine ⟨?_, fun l r hr => h (c :: l) r (by rw [hr, List.cons_append])⟩
      by_cases hc : c = 123
      · exact .inr (h [] rest (by rw [hc, List.nil_append]))
      · exact .inl hc

instance : DecidablePred BracesClosed := fun t => decidable_of_iff _ (bracesClosed_iff t)

/-- What follows a text whose braces all close has its braces closed too. -/
theorem BracesClosed.of_append {u t : Text} (h : BracesClosed (u ++ t)) : BracesClosed t :=
  fun l r hr => h (u ++ l) r (by rw [hr, List.append_assoc])

theorem BracesClosed.append {u v : Text} (hu : BracesClosed u) (hv : BracesClosed v) :
    BracesClosed (u ++ v) := by
  intro l r h
  rcases List.append_eq_append_iff.mp h with ⟨a, rfl, hv'⟩ | ⟨c, rfl, hc⟩
  · -- the brace lies in `v`
    exact hv a r hv'
  · -- the brace lies in `u`, and its `}` in `u` too
    cases c with
    | nil => exact hv [] r (by rw [List.nil_append] at hc ⊢; exact hc.symm)
    | cons b c =>
      obtain ⟨rfl, rfl⟩ := List.cons.inj hc
      exact List.mem_append_left v (hu l c rfl)

theorem bracesClosed_of_not_mem {x : Text} (hx : 123 ∉ x) : BracesClosed x := by
  rintro l r rfl
  exact absurd (List.mem_append_right l List.mem_cons_self) hx

/-- A text that ends in `}` has its braces closed, with or without a `{` before it. -/
theorem bracesClosed_enclosed (s : Text) :
    BracesClosed (s ++ [125]) ∧ BracesClosed (123 :: s ++ [125]) := by
  have h : bracesClosed (s ++ [125]) = true := by
    induction s with
    | nil => rfl
    | cons c s ih => simp [bracesClosed, ih]
  refine ⟨(bracesClosed_iff _).mp h, (bracesClosed_iff _).mp ?_⟩
  simp [bracesClosed, h]

end Text

namespace Piece

open Text

/-- The pieces a scan can produce: a grammar for the scanner's output. -/
inductive Scanned : List Piece → Prop
  /-- No pieces. -/
  | nil : Scanned []
  /-- A literal character that does not open a brace. -/
  | literal {c : Nat} {ps : List Piece} : c ≠ 123 → Scanned ps → Scanned (literal c :: ps)
  /-- The pair `{}`, which encloses nothing and stays literal. -/
  | braces {ps : List Piece} : Scanned ps → Scanned (literal 123 :: literal 125 :: ps)
  /-- An expression: a text that is not empty and holds no `}`. -/
  | expression {s : Text} {ps : List Piece} :
      s ≠ [] → 125 ∉ s → Scanned ps → Scanned (expression s :: ps)
  /-- A `{` that nothing closes, and the literal characters after it, none of them `}`. -/
  | unclosed {r : Text} : 125 ∉ r → Scanned ((123 :: r).map literal)

-- ---------------------------------------------------------------------------
-- The scanner with a brace open
-- ---------------------------------------------------------------------------

/-- With a brace open, characters other than `}` are gathered. -/
theorem scanFrom_some_append {u : Text} (hu : 125 ∉ u) (acc w : Text) :
    scanFrom (some acc) (u ++ w) = scanFrom (some (acc ++ u)) w := by
  induction u generalizing acc with
  | nil => simp
  | cons c u ih =>
    have hc : c ≠ 125 := fun h => hu (h ▸ List.mem_cons_self)
    rw [List.cons_append, scanFrom, if_neg hc, ih (fun h => hu (List.mem_cons_of_mem _ h))]
    simp

/-- A `}` closes the open brace: an expression, or the literal pair `{}` when nothing was read. -/
theorem scanFrom_some_close (acc w : Text) :
    scanFrom (some acc) (125 :: w) =
      (if acc = [] then [literal 123, literal 125] else [expression acc]) ++ scanFrom none w := by
  by_cases h : acc = [] <;> simp [scanFrom, h]

/-- A brace that stays open to the end leaves everything read as literal characters. -/
theorem scanFrom_some_of_not_mem {u : Text} (hu : 125 ∉ u) (acc : Text) :
    scanFrom (some acc) u = (123 :: acc ++ u).map literal := by
  rw [← List.append_nil u, scanFrom_some_append hu, List.append_nil]
  rfl

-- ---------------------------------------------------------------------------
-- Scanning produces scanned pieces, and scanned pieces scan back
-- ---------------------------------------------------------------------------

/-- A scan produces scanned pieces. -/
theorem scanned_scanFrom_none : ∀ t : Text, Scanned (scanFrom none t)
  | [] => .nil
  | c :: rest => by
    by_cases hc : c = 123
    · subst hc
      rw [scanFrom, if_pos rfl]
      by_cases hr : 125 ∈ rest
      · -- the first `}` after the brace closes it
        obtain ⟨u, w, hu, hrest, -⟩ := List.exists_erase_eq hr
        have : w.length < rest.length := by
          rw [hrest, List.length_append, List.length_cons]
          omega
        have hw := scanned_scanFrom_none w
        rw [hrest, scanFrom_some_append hu, scanFrom_some_close, List.nil_append]
        by_cases hu0 : u = []
        · rw [if_pos hu0]
          exact .braces hw
        · rw [if_neg hu0]
          exact .expression hu0 hu hw
      · rw [scanFrom_some_of_not_mem hr]
        exact .unclosed hr
    · rw [scanFrom, if_neg hc]
      exact .literal hc (scanned_scanFrom_none rest)
termination_by t => t.length
decreasing_by all_goals (simp_wf <;> omega)

theorem scanned_scan (t : Text) : Scanned (scan t) := scanned_scanFrom_none t

theorem render_cons (p : Piece) (ps : List Piece) : render (p :: ps) = p.text ++ render ps := by
  simp [render]

theorem render_append (ps qs : List Piece) : render (ps ++ qs) = render ps ++ render qs := by
  simp [render]

/-- Scanning the text of scanned pieces gives them back. -/
theorem scan_render {ps : List Piece} (h : Scanned ps) : scan (render ps) = ps := by
  induction h with
  | nil => rfl
  | literal hc _ ih =>
    rw [render_cons, scan, text, List.singleton_append, scanFrom, if_neg hc, ← scan, ih]
  | braces _ ih =>
    rw [render_cons, render_cons, scan, text, text, List.singleton_append, List.singleton_append,
      scanFrom, if_pos rfl, scanFrom_some_close, if_pos rfl, ← scan, ih]
    rfl
  | expression hs hs' _ ih =>
    simp only [render_cons, scan, text, List.cons_append, List.append_assoc, List.nil_append]
    rw [scanFrom, if_pos rfl, scanFrom_some_append hs', scanFrom_some_close, List.nil_append,
      if_neg hs, ← scan, ih]
    rfl
  | unclosed hr =>
    rw [render_map_literal, scan, scanFrom, if_pos rfl, scanFrom_some_of_not_mem hr]
    rfl

/-- The pieces of a text are the one scanned list of pieces that renders to it. -/
theorem scan_eq_iff (t : Text) (ps : List Piece) : scan t = ps ↔ Scanned ps ∧ render ps = t := by
  constructor
  · rintro rfl
    exact ⟨scanned_scan t, render_scan t⟩
  · rintro ⟨h, rfl⟩
    exact scan_render h

-- ---------------------------------------------------------------------------
-- Concatenation
-- ---------------------------------------------------------------------------

/-- Scanned pieces whose text leaves no brace open can be followed by any scanned pieces. -/
theorem Scanned.append {ps qs : List Piece} (hp : Scanned ps) (hq : Scanned qs)
    (hc : BracesClosed (render ps)) : Scanned (ps ++ qs) := by
  induction hp with
  | nil => exact hq
  | literal h _ ih =>
    rw [render_cons] at hc
    exact .literal h (ih hc.of_append)
  | braces _ ih =>
    rw [render_cons, render_cons, ← List.append_assoc] at hc
    exact .braces (ih hc.of_append)
  | expression h h' _ ih =>
    rw [render_cons] at hc
    exact .expression h h' (ih hc.of_append)
  | unclosed hr =>
    -- the brace that nothing closes contradicts the hypothesis
    rw [render_map_literal] at hc
    exact absurd (hc [] _ rfl) hr

/-- After a text whose braces all close, the scan starts afresh. -/
theorem scan_append {A : Text} (hA : BracesClosed A) (B : Text) :
    scan (A ++ B) = scan A ++ scan B := by
  have hAB : Scanned (scan A ++ scan B) :=
    (scanned_scan A).append (scanned_scan B) (by rwa [render_scan])
  rw [← scan_render hAB, render_append, render_scan, render_scan]

-- ---------------------------------------------------------------------------
-- Replacing expressions
-- ---------------------------------------------------------------------------

/-- `qs` may stand in place of the piece `p` once expanded: a literal character stays, and an
expression stays or becomes literal characters none of which is `{`. -/
def Replaces : Piece → List Piece → Prop
  | literal c, qs => qs = [literal c]
  | expression s, qs => qs = [expression s] ∨ ∃ x : Text, 123 ∉ x ∧ qs = x.map literal

/-- Literal characters none of which is `{` may stand before any scanned pieces. -/
theorem Scanned.literals {x : Text} (hx : 123 ∉ x) {ps : List Piece} (h : Scanned ps) :
    Scanned (x.map Piece.literal ++ ps) := by
  induction x with
  | nil => exact h
  | cons c x ih =>
    have hc : c ≠ 123 := fun hc => hx (hc ▸ List.mem_cons_self)
    exact .literal hc (ih fun h' => hx (List.mem_cons_of_mem _ h'))

/-- Literal characters can only be replaced by themselves. -/
theorem flatten_of_replaces_literals {x : Text} {pss : List (List Piece)}
    (h : List.Forall₂ Replaces (x.map literal) pss) : pss.flatten = x.map literal := by
  induction x generalizing pss with
  | nil =>
    rw [List.map_nil, List.forall₂_nil_left_iff] at h
    rw [h, List.flatten_nil, List.map_nil]
  | cons c x ih =>
    obtain ⟨qs, pss', hq, hr, rfl⟩ := List.forall₂_cons_left_iff.mp h
    rw [Replaces] at hq
    rw [List.flatten_cons, hq, ih hr]
    rfl

/-- Replacing the expressions of scanned pieces keeps them scanned, and keeps every brace
closed when every brace was closed. -/
theorem Scanned.splice {ps : List Piece} (h : Scanned ps) {pss : List (List Piece)}
    (hr : List.Forall₂ Replaces ps pss) :
    Scanned pss.flatten ∧ (BracesClosed (render ps) → BracesClosed (render pss.flatten)) := by
  induction h generalizing pss with
  | nil =>
    rw [List.forall₂_nil_left_iff] at hr
    subst hr
    exact ⟨.nil, id⟩
  | @literal c _ hc _ ih =>
    obtain ⟨qs, rest, hq, htail, rfl⟩ := List.forall₂_cons_left_iff.mp hr
    rw [Replaces] at hq
    subst hq
    obtain ⟨hs, hcl⟩ := ih htail
    have hc' : BracesClosed [c] := bracesClosed_of_not_mem (by simpa using Ne.symm hc)
    refine ⟨.literal hc hs, fun hb => ?_⟩
    rw [render_cons] at hb
    rw [List.flatten_cons, List.singleton_append, render_cons]
    exact hc'.append (hcl hb.of_append)
  | braces _ ih =>
    obtain ⟨qs, rest, hq, htail, rfl⟩ := List.forall₂_cons_left_iff.mp hr
    obtain ⟨qs', rest', hq', htail', rfl⟩ := List.forall₂_cons_left_iff.mp htail
    rw [Replaces] at hq hq'
    subst hq hq'
    obtain ⟨hs, hcl⟩ := ih htail'
    refine ⟨.braces hs, fun hb => ?_⟩
    rw [render_cons, render_cons, ← List.append_assoc] at hb
    rw [List.flatten_cons, List.flatten_cons, List.singleton_append, List.singleton_append,
      render_cons, render_cons, ← List.append_assoc]
    exact (bracesClosed_enclosed []).2.append (hcl hb.of_append)
  | expression hs hs' _ ih =>
    obtain ⟨qs, rest, hq, htail, rfl⟩ := List.forall₂_cons_left_iff.mp hr
    obtain ⟨hs₁, hcl⟩ := ih htail
    rw [Replaces] at hq
    rcases hq with rfl | ⟨x, hx, rfl⟩
    · -- the expression stays
      refine ⟨.expression hs hs' hs₁, fun hb => ?_⟩
      rw [render_cons] at hb
      rw [List.flatten_cons, List.singleton_append, render_cons]
      exact (bracesClosed_enclosed _).2.append (hcl hb.of_append)
    · -- the expression becomes literal characters
      refine ⟨.literals hx hs₁, fun hb => ?_⟩
      rw [render_cons] at hb
      rw [List.flatten_cons, render_append, render_map_literal]
      exact (bracesClosed_of_not_mem hx).append (hcl hb.of_append)
  | unclosed hr' =>
    rw [flatten_of_replaces_literals hr]
    exact ⟨.unclosed hr', id⟩

end Piece

end Rfc6570
