import Rfc6570.Proofs.Scan
import Rfc6570.Proofs.Except
import Rfc6570.Template.Call

/-!
# Rfc6570 — splicing template texts

Two operations put texts side by side and read the result again as a template. Concatenation
reads `A ++ B`; partial expansion writes each expansion in place of its expression, keeps an
expression whose expansion is empty as it was written, and reads the text it wrote.

Both come down to the scan (`Piece.Scanned`). When every `{` of `A` has a `}` after it,
reading `A ++ B` reads `A` and `B` apart, so the expressions, the expansions and the partial
expansions of the two add up. The text a partial expansion writes is the text of the *spliced*
parts (`Part.splice`): a kept expression, or the literal characters of an expansion. It scans
back to those parts as long as no expansion holds a `{`, which could open an expression that
the template did not have. Expansions can hold one: `;`, `?` and `&` write a variable's name as
it is, and `+` and `#` copy a value that holds an escape triplet unchanged.

## Results

* `Template.parse_eq_ok_iff`   — a template is read from its text piece by piece.
* `Template.parse_append`      — reading `A ++ B` reads `A`, then `B`.
* `Template.render_splice`     — spliced parts render as the parts they replace.
* `Template.expandPartially_eq_splice` — a partial expansion reads back the spliced parts.
* `template_concatenation`     — expressions, expansions and partial expansions of `A ++ B`.
* `partial_expansion_stable`   — a partial expansion expands as the template did, and a second
  partial expansion changes nothing.
-/

namespace Rfc6570

open Text

-- ---------------------------------------------------------------------------
-- Reading expressions and templates
-- ---------------------------------------------------------------------------

namespace Expression

/-- An expression is read from a text that is not empty, by reading its specifications. -/
theorem parse_eq_ok_iff (s : Text) (e : Expression) :
    parse s = .ok e ↔ s ≠ [] ∧ ∃ vs ds,
      readVarspecs (splitAt 44 (splitOperator s).2) [] = .ok (vs, ds) ∧
      e = ⟨s, (splitOperator s).1, vs, ds⟩ := by
  unfold parse
  by_cases hs : s = []
  · subst hs
    simp [bind, Except.bind]
  · have : s.isEmpty = false := List.isEmpty_eq_false_iff.mpr hs
    simp only [this, Bool.false_eq_true, if_false, ne_eq, hs, not_false_eq_true, true_and]
    cases readVarspecs (splitAt 44 (splitOperator s).2) [] with
    | error f => simp [bind, Except.bind]
    | ok r =>
      obtain ⟨vs, ds⟩ := r
      simp [bind, Except.bind, pure, Except.pure, eq_comm]

/-- An expression keeps the text it was read from. -/
theorem source_of_parse {s : Text} {e : Expression} (h : parse s = .ok e) : e.source = s := by
  obtain ⟨-, vs, ds, -, rfl⟩ := (parse_eq_ok_iff s e).mp h
  rfl

end Expression

/-- The piece a part is read from. -/
def Part.piece : Part → Piece
  | .literal c => .literal c
  | .expression e => .expression e.source

namespace Template

/-- A part is read from its own piece. -/
theorem piece_of_readPiece {p : Piece} {q : Part} (h : readPiece p = .ok q) : q.piece = p := by
  cases p with
  | literal c =>
    cases h
    rfl
  | expression s =>
    simp only [readPiece] at h
    cases he : Expression.parse s with
    | error f => simp [he, Functor.map, Except.map] at h
    | ok e =>
      simp only [he, Functor.map, Except.map, Except.ok.injEq] at h
      subst h
      rw [Part.piece, Expression.source_of_parse he]

/-- A template is read from its text piece by piece: its parts are those of the text's pieces,
and each part is what its own piece reads as. -/
theorem parse_eq_ok_iff (t : Text) (tpl : Template) :
    parse t = .ok tpl ↔ tpl.source = t ∧ Piece.scan t = tpl.parts.map Part.piece ∧
      ∀ q ∈ tpl.parts, readPiece q.piece = .ok q := by
  have hread : parse t = .ok tpl ↔
      tpl.source = t ∧ List.Forall₂ (fun p q => readPiece p = .ok q) (Piece.scan t) tpl.parts := by
    rw [← mapM_eq_ok_iff]
    unfold parse
    obtain ⟨s, qs⟩ := tpl
    cases (Piece.scan t).mapM readPiece with
    | error f => simp [bind, Except.bind]
    | ok ps => simp [bind, Except.bind, pure, Except.pure, eq_comm]
  rw [hread]
  constructor
  · rintro ⟨hs, hr⟩
    have hp : Piece.scan t = tpl.parts.map Part.piece := by
      rw [← List.forall₂_eq_eq_eq, List.forall₂_map_right_iff]
      exact hr.imp fun _ _ h => (piece_of_readPiece h).symm
    refine ⟨hs, hp, ?_⟩
    rw [hp, List.forall₂_map_left_iff, List.forall₂_same] at hr
    exact hr
  · rintro ⟨hs, hp, hq⟩
    refine ⟨hs, ?_⟩
    rw [hp, List.forall₂_map_left_iff, List.forall₂_same]
    exact hq

/-- A template keeps the text it was read from. -/
theorem source_of_parse {t : Text} {tpl : Template} (h : parse t = .ok tpl) : tpl.source = t :=
  ((parse_eq_ok_iff t tpl).mp h).1

-- ---------------------------------------------------------------------------
-- Concatenation
-- ---------------------------------------------------------------------------

/-- Reading `A ++ B`, when every brace of `A` closes in `A`, reads `A` and then `B`. -/
theorem parse_append {A : Text} (hA : BracesClosed A) (B : Text) :
    parse (A ++ B) = do
      let a ← parse A
      let b ← parse B
      return ⟨A ++ B, a.parts ++ b.parts⟩ := by
  unfold parse
  rw [Piece.scan_append hA, List.mapM_append]
  cases (Piece.scan A).mapM readPiece <;> cases (Piece.scan B).mapM readPiece <;> rfl

/-- Rendering parts one after the other renders each in turn. -/
theorem render_parts_append (s : Text) (a b : Template) (vars : Entries) (keep : Bool) :
    render ⟨s, a.parts ++ b.parts⟩ vars keep = do
      let x ← a.render vars keep
      let y ← b.render vars keep
      return x ++ y := by
  unfold render
  rw [List.mapM_append]
  cases a.parts.mapM (renderPart vars keep) <;> cases b.parts.mapM (renderPart vars keep) <;>
    simp [bind, Except.bind, pure, Except.pure]

end Template

/-- A dictionary with no keyword bindings is the bindings themselves. -/
theorem Entries.merge_dict_nil (es : Entries) : Entries.merge (.dict es) [] = .ok es := by
  unfold Entries.merge
  cases es with
  | nil => rfl
  | cons e es => rfl

theorem Entry.keywordBindings_dict_nil (e : Entry) (mode : Mode) :
    e.keywordBindings mode (.dict []) = .ok [] := by
  cases e <;> rfl

theorem Template.call_dict (tpl : Template) (es : Entries) :
    tpl.call (.dict es) (.dict []) = tpl.expand es := by
  simp only [Template.call, Entry.keywordBindings_dict_nil]
  show Entries.merge (.dict es) [] >>= tpl.expand = _
  rw [Entries.merge_dict_nil]
  rfl

theorem Template.callPartially_dict (tpl : Template) (es : Entries) :
    tpl.callPartially (.dict es) (.dict []) = tpl.expandPartially es := by
  simp only [Template.callPartially, Entry.keywordBindings_dict_nil]
  show Entries.merge (.dict es) [] >>= tpl.expandPartially = _
  rw [Entries.merge_dict_nil]
  rfl

/-- Expanding a template text under a dictionary, with no keyword bindings. -/
theorem callOnText_dict (t : Text) (es : Entries) :
    callOnText (.text t) (.dict es) (.dict []) = Template.parse t >>= (·.expand es) := by
  simp only [callOnText, Entry.keywordBindings_dict_nil, Template.ofValue]
  cases Template.parse t with
  | error f => rfl
  | ok tpl => exact Template.call_dict tpl es

/-- Partially expanding a template text under a dictionary, with no keyword bindings. -/
theorem callOnTextPartially_dict (t : Text) (es : Entries) :
    callOnTextPartially (.text t) (.dict es) (.dict []) =
      Template.parse t >>= (·.expandPartially es) := by
  simp only [callOnTextPartially, Entry.keywordBindings_dict_nil, Template.ofValue]
  cases Template.parse t with
  | error f => rfl
  | ok tpl => exact Template.callPartially_dict tpl es

-- ---------------------------------------------------------------------------
-- Partial expansion
-- ---------------------------------------------------------------------------

/-- What a part becomes in a partial expansion under `vars`: a literal character stays, an
expression whose expansion is empty stays, and any other expression becomes the literal
characters of its expansion. -/
def Part.splice (vars : Entries) : Part → Except Fault (List Part)
  | .literal c => .ok [.literal c]
  | .expression e => do
    let t ← e.expand vars
    return if t.isEmpty then [.expression e] else t.map .literal

namespace Template

/-- What splicing an expression gives, by its expansion. -/
theorem splice_expression {vars : Entries} {e : Expression} {qs : List Part}
    (h : (Part.expression e).splice vars = .ok qs) :
    ∃ t, e.expand vars = .ok t ∧ qs = if t.isEmpty then [.expression e] else t.map .literal := by
  simp only [Part.splice] at h
  cases he : e.expand vars with
  | error f => simp [he, bind, Except.bind] at h
  | ok t =>
    simp only [he, bind, Except.bind, pure, Except.pure, Except.ok.injEq] at h
    exact ⟨t, rfl, h.symm⟩

/-- Literal characters render as themselves. -/
theorem mapM_renderPart_literals (vars : Entries) (keep : Bool) (t : Text) :
    ((t.map Part.literal).mapM (renderPart vars keep)).map List.flatten = .ok t := by
  rw [List.mapM_map]
  have : (renderPart vars keep ∘ Part.literal) = fun c => pure [c] := rfl
  rw [this, List.mapM_pure]
  show Except.ok (t.map fun c => [c]).flatten = .ok t
  congr 1
  induction t with
  | nil => rfl
  | cons c t ih => rw [List.map_cons, List.flatten_cons, ih]; rfl

/-- A spliced part renders as the part it replaces, fully or partially. -/
theorem renderPart_splice {vars : Entries} {q : Part} {qs : List Part}
    (h : q.splice vars = .ok qs) (keep : Bool) :
    (qs.mapM (renderPart vars keep)).map List.flatten = renderPart vars keep q := by
  cases q with
  | literal c =>
    cases h
    rfl
  | expression e =>
    obtain ⟨t, he, rfl⟩ := splice_expression h
    by_cases ht : t.isEmpty
    · -- the expression stays as it is
      rw [if_pos ht, List.mapM_cons, List.mapM_nil]
      cases renderPart vars keep (.expression e) <;>
        simp [Except.map, bind, Except.bind, pure, Except.pure]
    · rw [if_neg ht, mapM_renderPart_literals]
      simp [renderPart, he, ht, bind, Except.bind, pure, Except.pure]

/-- The text of a part partially expanded is the text of its spliced parts' pieces. -/
theorem renderPart_keep {vars : Entries} (q : Part) :
    renderPart vars true q = (fun qs => Piece.render (qs.map Part.piece)) <$> q.splice vars := by
  cases q with
  | literal c => rfl
  | expression e =>
    simp only [renderPart, Part.splice]
    cases e.expand vars with
    | error f => rfl
    | ok t =>
      by_cases ht : t.isEmpty
      · simp [ht, bind, Except.bind, pure, Except.pure, Functor.map, Except.map, Part.piece,
          Piece.render, Piece.text]
      · have hcomp : Part.piece ∘ Part.literal = Piece.literal := rfl
        simp [ht, bind, Except.bind, pure, Except.pure, Functor.map, Except.map, hcomp,
          Piece.render_map_literal]

/-- The text of a partial expansion is the text of the spliced parts' pieces. -/
theorem render_keep (tpl : Template) (vars : Entries) :
    tpl.render vars true =
      (fun qss => Piece.render (qss.flatten.map Part.piece)) <$> tpl.parts.mapM (Part.splice vars) := by
  unfold render
  have : renderPart vars true = fun q => (fun qs => Piece.render (qs.map Part.piece)) <$> q.splice vars :=
    funext renderPart_keep
  rw [this, mapM_map_results]
  cases tpl.parts.mapM (Part.splice vars) with
  | error f => rfl
  | ok qss =>
    simp only [Functor.map, Except.map, bind, Except.bind, pure, Except.pure, Except.ok.injEq]
    simp [Piece.render, List.flatMap, List.map_flatten, List.flatten_flatten]
    rfl

/-- Spliced parts render as the parts they replace, fully or partially. -/
theorem render_splice {tpl : Template} {vars : Entries} {qss : List (List Part)}
    (h : tpl.parts.mapM (Part.splice vars) = .ok qss) (s : Text) (keep : Bool) :
    render ⟨s, qss.flatten⟩ vars keep = tpl.render vars keep := by
  obtain ⟨s₀, parts⟩ := tpl
  unfold render
  replace h : List.Forall₂ (fun q qs => q.splice vars = .ok qs) parts qss := (mapM_eq_ok_iff _ _ _).mp h
  show (qss.flatten.mapM (renderPart vars keep)).map List.flatten =
    (parts.mapM (renderPart vars keep)).map List.flatten
  -- one part at a time: the induction follows the spliced parts
  induction h with
  | nil => rfl
  | @cons q qs ps qss hq _ ih =>
    have hpart := renderPart_splice hq keep
    rw [List.flatten_cons, List.mapM_append, List.mapM_cons]
    revert hpart ih
    cases qs.mapM (renderPart vars keep) <;> cases (qss.flatten).mapM (renderPart vars keep) <;>
      cases renderPart vars keep q <;> cases ps.mapM (renderPart vars keep) <;>
      simp [Except.map, bind, Except.bind, pure, Except.pure] <;>
      intro h₁ h₂ <;> simp [h₁, h₂]

/-- A spliced part is the part itself or a literal character. -/
theorem mem_splice {vars : Entries} {q q' : Part} {qs : List Part} (h : q.splice vars = .ok qs)
    (hq' : q' ∈ qs) : q' = q ∨ ∃ c, q' = .literal c := by
  cases q with
  | literal c =>
    cases h
    exact .inl (List.mem_singleton.mp hq')
  | expression e =>
    obtain ⟨t, -, rfl⟩ := splice_expression h
    split at hq'
    · exact .inl (List.mem_singleton.mp hq')
    · obtain ⟨c, -, rfl⟩ := List.mem_map.mp hq'
      exact .inr ⟨c, rfl⟩

/-- The pieces of a spliced part may replace the part's piece, when its expansion holds no `{`. -/
theorem replaces_splice {vars : Entries} {q : Part} {qs : List Part} (h : q.splice vars = .ok qs)
    (hno : ∀ e, q = .expression e → ∀ t, e.expand vars = .ok t → 123 ∉ t) :
    Piece.Replaces q.piece (qs.map Part.piece) := by
  cases q with
  | literal c =>
    cases h
    rfl
  | expression e =>
    obtain ⟨t, he, rfl⟩ := splice_expression h
    by_cases ht : t.isEmpty
    · rw [if_pos ht]
      exact .inl rfl
    · rw [if_neg ht]
      have hcomp : Part.piece ∘ Part.literal = Piece.literal := rfl
      exact .inr ⟨t, hno e rfl t he, by rw [List.map_map, hcomp]⟩

/-- The pieces of the spliced parts of a template read from `T` are scanned, and their text
leaves no brace open when `T` left none, as long as no expansion holds `{`. -/
theorem spliced_scanned {T : Text} {tpl : Template} (hT : parse T = .ok tpl) {vars : Entries}
    {qss : List (List Part)} (h : tpl.parts.mapM (Part.splice vars) = .ok qss)
    (hno : ∀ e ∈ tpl.expressions, ∀ t, e.expand vars = .ok t → 123 ∉ t) :
    Piece.Scanned (qss.flatten.map Part.piece) ∧
      (BracesClosed T → BracesClosed (Piece.render (qss.flatten.map Part.piece))) := by
  obtain ⟨-, hscan, -⟩ := (parse_eq_ok_iff T tpl).mp hT
  have hr : List.Forall₂ Piece.Replaces (tpl.parts.map Part.piece) (qss.map (List.map Part.piece)) := by
    rw [List.forall₂_map_left_iff, List.forall₂_map_right_iff]
    refine forall₂_of_mapM_eq_ok h fun q hq qs hs => replaces_splice hs ?_
    -- an expression part stands for an expression of the template
    rintro e rfl
    exact hno e (List.mem_filterMap.mpr ⟨_, hq, rfl⟩)
  have hs := (hscan ▸ Piece.scanned_scan T).splice hr
  rw [← List.map_flatten] at hs
  refine ⟨hs.1, fun hc => hs.2 ?_⟩
  rwa [← hscan, Piece.render_scan]

/-- **Partial expansion reads back the spliced parts**, when no expansion holds `{`. -/
theorem expandPartially_eq_splice {T : Text} {tpl : Template} (hT : parse T = .ok tpl)
    {vars : Entries} {qss : List (List Part)} (h : tpl.parts.mapM (Part.splice vars) = .ok qss)
    (hno : ∀ e ∈ tpl.expressions, ∀ t, e.expand vars = .ok t → 123 ∉ t) :
    tpl.expandPartially vars = .ok ⟨Piece.render (qss.flatten.map Part.piece), qss.flatten⟩ := by
  have hrender : tpl.render vars true = .ok (Piece.render (qss.flatten.map Part.piece)) := by
    rw [render_keep, h]
    rfl
  rw [expandPartially, hrender]
  show parse _ = _
  rw [parse_eq_ok_iff]
  refine ⟨rfl, Piece.scan_render (spliced_scanned hT h hno).1, ?_⟩
  -- each spliced part is a part of the template or a literal character
  intro q' hq'
  obtain ⟨qs, hqs, hq'⟩ := List.mem_flatten.mp hq'
  obtain ⟨q, hq, hsq⟩ := exists_of_mapM_eq_ok h hqs
  rcases mem_splice hsq hq' with rfl | ⟨c, rfl⟩
  · exact ((parse_eq_ok_iff T tpl).mp hT).2.2 q' hq
  · rfl

end Template

namespace Template

/-- A part that renders can be spliced. -/
theorem exists_splice_of_renderPart {vars : Entries} {keep : Bool} {q : Part} {r : Text}
    (h : renderPart vars keep q = .ok r) : ∃ qs, q.splice vars = .ok qs := by
  cases q with
  | literal c => exact ⟨_, rfl⟩
  | expression e =>
    simp only [renderPart] at h
    cases he : e.expand vars with
    | error f => simp [he, bind, Except.bind] at h
    | ok t =>
      exact ⟨if t.isEmpty then [.expression e] else t.map .literal,
        by simp [Part.splice, he, bind, Except.bind, pure, Except.pure]⟩

/-- A template that expands can be spliced. -/
theorem exists_splice_of_expand {tpl : Template} {vars : Entries} {x : Text}
    (h : tpl.expand vars = .ok x) : ∃ qss, tpl.parts.mapM (Part.splice vars) = .ok qss := by
  obtain ⟨ts, hts⟩ : ∃ ts, tpl.parts.mapM (renderPart vars false) = .ok ts := by
    unfold expand render at h
    cases hm : tpl.parts.mapM (renderPart vars false) with
    | error f => simp [hm, bind, Except.bind] at h
    | ok ts => exact ⟨ts, rfl⟩
  rw [exists_mapM_eq_ok]
  intro q hq
  obtain ⟨r, hr⟩ := (exists_mapM_eq_ok _ _).mp ⟨ts, hts⟩ q hq
  exact exists_splice_of_renderPart hr

/-- The expansion of `A ++ B` is the expansion of `A` followed by that of `B`. -/
theorem expand_append {A : Text} (hA : BracesClosed A) (B : Text) (vars : Entries) :
    parse (A ++ B) >>= (·.expand vars) = do
      let a ← parse A
      let b ← parse B
      let x ← a.expand vars
      let y ← b.expand vars
      return x ++ y := by
  rw [parse_append hA]
  cases parse A with
  | error f => rfl
  | ok a =>
    cases parse B with
    | error f => rfl
    | ok b => exact render_parts_append (A ++ B) a b vars false

/-- The partial expansion of `A ++ B`, when no expression of `A` expands to a text with `{`:
the texts of both partial expansions, read as one. -/
theorem expandPartially_append {A : Text} (hA : BracesClosed A) (B : Text) (vars : Entries)
    (hno : ∀ a, parse A = .ok a → ∀ e ∈ a.expressions, ∀ t, e.expand vars = .ok t → 123 ∉ t) :
    parse (A ++ B) >>= (·.expandPartially vars) = do
      let a ← parse A
      let b ← parse B
      let ra ← a.render vars true
      let rb ← b.render vars true
      let pa ← parse ra
      let pb ← parse rb
      return ⟨ra ++ rb, pa.parts ++ pb.parts⟩ := by
  rw [parse_append hA]
  cases hpa : parse A with
  | error f => rfl
  | ok a =>
    cases parse B with
    | error f => rfl
    | ok b =>
      simp only [bind, Except.bind]
      show (render ⟨A ++ B, a.parts ++ b.parts⟩ vars true >>= parse) = _
      rw [render_parts_append]
      cases hra : a.render vars true with
      | error f => rfl
      | ok ra =>
        cases b.render vars true with
        | error f => rfl
        | ok rb =>
          -- the partial text of `A` leaves no brace open, so the two texts are read apart
          have hclosed : BracesClosed ra := by
            rw [render_keep] at hra
            cases hs : a.parts.mapM (Part.splice vars) with
            | error f => rw [hs] at hra; cases hra
            | ok qss =>
              rw [hs] at hra
              cases hra
              exact (spliced_scanned hpa hs (hno a hpa)).2 hA
          exact parse_append hclosed rb

end Template

/-- **Concatenating template texts.** When every `{` of `A` has a `}` after it in `A`, the
template read from `A ++ B` has the expressions of `A` followed by those of `B`, and it expands
to the expansion of `A` followed by that of `B`; each fails exactly when one of the two does.
Its partial expansion is the partial expansion of `A` followed by that of `B`, failing exactly
when one of them does, as long as no expression of `A` expands to a text holding `{`. -/
theorem template_concatenation {A : Text} (hA : BracesClosed A) (B : Text) (es : Entries) :
    (Template.parse (A ++ B)).toOption.map Template.expressions =
      (do let a ← (Template.parse A).toOption
          let b ← (Template.parse B).toOption
          return a.expressions ++ b.expressions) ∧
    (callOnText (.text (A ++ B)) (.dict es) (.dict [])).toOption =
      (do let x ← (callOnText (.text A) (.dict es) (.dict [])).toOption
          let y ← (callOnText (.text B) (.dict es) (.dict [])).toOption
          return x ++ y) ∧
    ((∀ a ∈ (Template.parse A).toOption, ∀ e ∈ a.expressions, ∀ t ∈ (e.expand es).toOption,
        123 ∉ t) →
      (callOnTextPartially (.text (A ++ B)) (.dict es) (.dict [])).toOption.map Template.source =
        (do let pa ← (callOnTextPartially (.text A) (.dict es) (.dict [])).toOption
            let pb ← (callOnTextPartially (.text B) (.dict es) (.dict [])).toOption
            return pa.source ++ pb.source)) := by
  refine ⟨?_, ?_, fun hno => ?_⟩
  · -- the expressions
    rw [Template.parse_append hA]
    cases Template.parse A <;> cases Template.parse B <;>
      simp [Template.expressions, List.filterMap_append]
  · -- the full expansions
    rw [callOnText_dict, callOnText_dict, callOnText_dict, Template.expand_append hA]
    cases Template.parse A with
    | error f => rfl
    | ok a =>
      cases Template.parse B with
      | error f => simp
      | ok b =>
        simp only [toOption_bind, toOption_ok, Option.bind_some]
        cases a.expand es <;> cases b.expand es <;> rfl
  · -- the partial expansions
    rw [callOnTextPartially_dict, callOnTextPartially_dict, callOnTextPartially_dict,
      Template.expandPartially_append hA B es fun a ha e he t ht =>
        hno a (mem_toOption.mpr ha) e he t (mem_toOption.mpr ht)]
    cases Template.parse A with
    | error f => rfl
    | ok a =>
      cases Template.parse B with
      | error f => simp
      | ok b =>
        simp only [toOption_bind, toOption_ok, Option.bind_some, Template.expandPartially]
        cases a.render es true with
        | error f => rfl
        | ok ra =>
          cases b.render es true with
          | error f => simp
          | ok rb =>
            -- a partial expansion is the template read from the text it writes
            simp only [toOption_ok, Option.bind_some]
            cases hpa : Template.parse ra with
            | error f => rfl
            | ok pa =>
              cases hpb : Template.parse rb with
              | error f => simp
              | ok pb =>
                simp [Template.source_of_parse hpa, Template.source_of_parse hpb]

/-- `a{b}` followed by `{c}x`, expanded with `b = 1`: the two halves are read, expanded and
partially expanded apart. -/
theorem template_concatenation_of_closed_prefix :
    BracesClosed (ofString "a\x7bb\x7d") ∧
    ((Template.parse (ofString "a\x7bb\x7d" ++ ofString "\x7bc\x7dx")).toOption.map Template.expressions =
      (do let a ← (Template.parse (ofString "a\x7bb\x7d")).toOption
          let b ← (Template.parse (ofString "\x7bc\x7dx")).toOption
          return a.expressions ++ b.expressions) ∧
    (callOnText (.text (ofString "a\x7bb\x7d" ++ ofString "\x7bc\x7dx"))
        (.dict [(.text (ofString "b"), .text (ofString "1"))]) (.dict [])).toOption =
      (do let x ← (callOnText (.text (ofString "a\x7bb\x7d"))
                    (.dict [(.text (ofString "b"), .text (ofString "1"))]) (.dict [])).toOption
          let y ← (callOnText (.text (ofString "\x7bc\x7dx"))
                    (.dict [(.text (ofString "b"), .text (ofString "1"))]) (.dict [])).toOption
          return x ++ y) ∧
    ((∀ a ∈ (Template.parse (ofString "a\x7bb\x7d")).toOption, ∀ e ∈ a.expressions,
        ∀ t ∈ (e.expand [(.text (ofString "b"), .text (ofString "1"))]).toOption, 123 ∉ t) →
      (callOnTextPartially (.text (ofString "a\x7bb\x7d" ++ ofString "\x7bc\x7dx"))
          (.dict [(.text (ofString "b"), .text (ofString "1"))]) (.dict [])).toOption.map
          Template.source =
        (do let pa ← (callOnTextPartially (.text (ofString "a\x7bb\x7d"))
                      (.dict [(.text (ofString "b"), .text (ofString "1"))]) (.dict [])).toOption
            let pb ← (callOnTextPartially (.text (ofString "\x7bc\x7dx"))
                      (.dict [(.text (ofString "b"), .text (ofString "1"))]) (.dict [])).toOption
            return pa.source ++ pb.source))) :=
  ⟨by decide, template_concatenation (by decide) _ _⟩

/-- The partial part fails without the condition on `A`: `{+x}` copies `x = "%20{y"` as it is,
so the partial expansion of `{+x}:z}` writes `%20{y:z}`, whose expression `y:z` has no prefix
length and cannot be read, while `{+x}` and `:z}` apart partially expand to `%20{y` and `:z}`. -/
theorem concatenated_partial_expansion_opens_expression :
    BracesClosed (ofString "\x7b+x\x7d") ∧
    (callOnTextPartially (.text (ofString "\x7b+x\x7d" ++ ofString ":z\x7d"))
        (.dict [(.text (ofString "x"), .text (ofString "%20\x7by"))]) (.dict [])).toOption.map
        Template.source = none ∧
    (callOnTextPartially (.text (ofString "\x7b+x\x7d"))
        (.dict [(.text (ofString "x"), .text (ofString "%20\x7by"))]) (.dict [])).toOption.map
        Template.source = some (ofString "%20\x7by") ∧
    (callOnTextPartially (.text (ofString ":z\x7d"))
        (.dict [(.text (ofString "x"), .text (ofString "%20\x7by"))]) (.dict [])).toOption.map
        Template.source = some (ofString ":z\x7d") := by
  decide

/-- **Partial expansion is stable.** When a template text expands under a dictionary, and none
of its expressions expands to a text holding `{`, its partial expansion expands to the same
text, and partially expanding it again gives it back. -/
theorem partial_expansion_stable (T : Text) (es : Entries) (x : Text)
    (hx : callOnText (.text T) (.dict es) (.dict []) = .ok x)
    (hno : ∀ tpl ∈ (Template.parse T).toOption, ∀ e ∈ tpl.expressions,
      ∀ t ∈ (e.expand es).toOption, 123 ∉ t) :
    ∃ P, callOnTextPartially (.text T) (.dict es) (.dict []) = .ok P ∧
      P.call (.dict es) (.dict []) = .ok x ∧ P.callPartially (.dict es) (.dict []) = .ok P := by
  rw [callOnText_dict] at hx
  obtain ⟨tpl, hT, hexp⟩ : ∃ tpl, Template.parse T = .ok tpl ∧ tpl.expand es = .ok x := by
    cases h : Template.parse T with
    | error f => rw [h] at hx; cases hx
    | ok tpl => rw [h] at hx; exact ⟨tpl, rfl, hx⟩
  obtain ⟨qss, hqss⟩ := Template.exists_splice_of_expand hexp
  have hP := Template.expandPartially_eq_splice hT hqss fun e he t ht =>
    hno tpl (mem_toOption.mpr hT) e he t (mem_toOption.mpr ht)
  refine ⟨_, by rw [callOnTextPartially_dict, hT]; exact hP, ?_, ?_⟩
  · -- the spliced parts expand as the template did
    rw [Template.call_dict, Template.expand, Template.render_splice hqss]
    exact hexp
  · -- and partially expanding them writes the same text, read as the same template
    rw [Template.callPartially_dict, Template.expandPartially, Template.render_splice hqss]
    exact hP

/-- `x{y}{z}` with `y = 1`: the partial expansion `x1{z}` expands as the template did and is
its own partial expansion. -/
theorem partial_expansion_stable_of_one_binding :
    (callOnText (.text (ofString "x\x7by\x7d\x7bz\x7d"))
        (.dict [(.text (ofString "y"), .text (ofString "1"))]) (.dict [])) = .ok (ofString "x1") ∧
    (∀ tpl ∈ (Template.parse (ofString "x\x7by\x7d\x7bz\x7d")).toOption, ∀ e ∈ tpl.expressions,
      ∀ t ∈ (e.expand [(.text (ofString "y"), .text (ofString "1"))]).toOption, 123 ∉ t) ∧
    ∃ P, callOnTextPartially (.text (ofString "x\x7by\x7d\x7bz\x7d"))
        (.dict [(.text (ofString "y"), .text (ofString "1"))]) (.dict []) = .ok P ∧
      P.call (.dict [(.text (ofString "y"), .text (ofString "1"))]) (.dict []) = .ok (ofString "x1") ∧
      P.callPartially (.dict [(.text (ofString "y"), .text (ofString "1"))]) (.dict []) = .ok P := by
  have hx : callOnText (.text (ofString "x\x7by\x7d\x7bz\x7d"))
      (.dict [(.text (ofString "y"), .text (ofString "1"))]) (.dict []) = .ok (ofString "x1") :=
    eq_ok_of_toOption_eq_some (by decide)
  have hno : ∀ tpl ∈ (Template.parse (ofString "x\x7by\x7d\x7bz\x7d")).toOption,
      ∀ e ∈ tpl.expressions,
      ∀ t ∈ (e.expand [(.text (ofString "y"), .text (ofString "1"))]).toOption, 123 ∉ t := by
    decide
  exact ⟨hx, hno, partial_expansion_stable _ _ _ hx hno⟩

/-- Without the condition the law fails: `{+x}` with `x = "%20{y}"` and `y = "a"` expands to
`%20{y}`, but its partial expansion, the template `%20{y}`, expands to `%20a`. -/
theorem partial_expansion_reads_copied_braces :
    (callOnText (.text (ofString "\x7b+x\x7d"))
        (.dict [(.text (ofString "x"), .text (ofString "%20\x7by\x7d")),
          (.text (ofString "y"), .text (ofString "a"))]) (.dict [])).toOption =
      some (ofString "%20\x7by\x7d") ∧
    ((callOnTextPartially (.text (ofString "\x7b+x\x7d"))
        (.dict [(.text (ofString "x"), .text (ofString "%20\x7by\x7d")),
          (.text (ofString "y"), .text (ofString "a"))]) (.dict [])).toOption.bind fun P =>
      (P.call (.dict [(.text (ofString "x"), .text (ofString "%20\x7by\x7d")),
          (.text (ofString "y"), .text (ofString "a"))]) (.dict [])).toOption) =
      some (ofString "%20a") := by
  decide

end Rfc6570
