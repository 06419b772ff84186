import Mathlib.Data.List.DropRight
import Rfc6570.Proofs.Layout

/-!
# Rfc6570 — the templates that reading refuses

Reading a template reads every expression the scan finds, and an expression is read
specification by specification. Only one step can fail: the prefix length, the text after the
first `:` of a specification, must be a decimal integer literal (`IntLiteral.read`). Which text
that is depends on the order of the cuts: the operator character is dropped, the rest is split
at `,`, each piece is cut at its first `=`, and its trailing `*` are dropped
(`Expression.prefixSpecs`). The scan never finds an empty expression, so the failure of an
expression without text never occurs.

## Results

* `Expression.parse_refused_iff` — an expression is refused exactly when one of its
  specifications has a bad prefix length, and then for a bad integer.
* `template_refused_iff` — the same for a whole template, whose expressions are never empty.
-/

namespace Rfc6570

open Text

/-! ## Failing computations -/

theorem exists_error_iff {ε α : Type} (m : Except ε α) : (∃ e, m = .error e) ↔ ¬∃ a, m = .ok a := by
  cases m <;> simp

/-- A traversal that fails fails at one of its items, with that item's fault. -/
theorem exists_of_mapM_eq_error {ε α β : Type} {f : α → Except ε β} {e : ε} :
    ∀ {xs : List α}, xs.mapM f = .error e → ∃ x ∈ xs, f x = .error e
  | [], h => by cases h
  | x :: xs, h => by
    rw [List.mapM_cons] at h
    cases hx : f x with
    | error e' =>
      simp only [hx, bind, Except.bind, Except.error.injEq] at h
      exact ⟨x, List.mem_cons_self, h ▸ hx⟩
    | ok y =>
      cases hxs : xs.mapM f with
      | error e' =>
        simp only [hx, hxs, bind, Except.bind, Except.error.injEq] at h
        obtain ⟨x', hx', hfx'⟩ := exists_of_mapM_eq_error hxs
        exact ⟨x', List.mem_cons_of_mem x hx', h ▸ hfx'⟩
      | ok ys => simp [hx, hxs, bind, Except.bind, pure, Except.pure] at h

/-- A traversal fails exactly when one of its items does. -/
theorem exists_mapM_eq_error_iff {ε α β : Type} (f : α → Except ε β) (xs : List α) :
    (∃ e, xs.mapM f = .error e) ↔ ∃ x ∈ xs, ∃ e, f x = .error e := by
  simp only [exists_error_iff, exists_mapM_eq_ok, not_forall, exists_prop]

/-! ## Cutting at a character -/

/-- The text before and after the first `sep`, when there is one. -/
theorem splitFirst?_eq (sep : Nat) (t : Text) :
    splitFirst? sep t =
      if sep ∈ t then some (t.takeWhile (· != sep), (t.dropWhile (· != sep)).tail) else none := by
  induction t with
  | nil => rfl
  | cons c t ih =>
    by_cases hc : c = sep
    · subst hc
      simp [splitFirst?]
    · have hne : (c != sep) = true := bne_iff_ne.mpr hc
      rw [splitFirst?, if_neg hc, ih]
      by_cases ht : sep ∈ t
      · simp [ht, hne]
      · simp [ht, Ne.symm hc]

/-- The text before the first `sep`, or the whole text when there is none. -/
theorem splitFirst?_getD_fst (sep : Nat) (t : Text) :
    ((splitFirst? sep t).getD (t, [])).1 = t.takeWhile (· != sep) := by
  rw [splitFirst?_eq]
  split
  · rfl
  · rename_i ht
    refine (List.takeWhile_eq_self_iff.mpr fun c hc => ?_).symm
    exact bne_iff_ne.mpr fun h => ht (h ▸ hc)

/-! ## The specifications a prefix length is read from -/

namespace Expression

/-- The operator characters: `+ # . / ; ? &` and the reserved `! | @ = ,`. -/
def operatorChars : Text := ofString "+#./;?&!|@=,"

/-- An expression text without its leading operator character, if it has one. -/
def afterOperator : Text → Text
  | [] => []
  | c :: rest => if c ∈ operatorChars then rest else c :: rest

/-- A specification cut at its first `=`, without its trailing `*`. -/
def cutSpec (spec : Text) : Text := (spec.takeWhile (· != 61)).rdropWhile (· == 42)

/-- The specifications of an expression text as its prefix lengths are read from them. -/
def prefixSpecs (s : Text) : List Text := ((afterOperator s).splitOn 44).map cutSpec

/-- A specification whose prefix length is refused: it holds a `:`, and the text after its
first `:` is not a decimal integer literal. -/
def BadPrefix (spec : Text) : Prop :=
  58 ∈ spec ∧ ∃ why, IntLiteral.read (spec.dropWhile (· != 58)).tail = .error why

theorem ofChar?_isSome (c : Nat) : (Operator.ofChar? c).isSome = operatorChars.contains c := by
  have hchars : operatorChars = [43, 35, 46, 47, 59, 63, 38, 33, 124, 64, 61, 44] := by decide
  rw [hchars]
  by_cases hc : c ∈ [43, 35, 46, 47, 59, 63, 38, 33, 124, 64, 61, 44]
  · -- one of the twelve operator characters
    simp only [List.mem_cons, List.not_mem_nil, or_false] at hc
    rcases hc with rfl | rfl | rfl | rfl | rfl | rfl | rfl | rfl | rfl | rfl | rfl | rfl <;> rfl
  · simp only [List.mem_cons, List.not_mem_nil, or_false, not_or] at hc
    obtain ⟨h1, h2, h3, h4, h5, h6, h7, h8, h9, h10, h11, h12⟩ := hc
    simp [Operator.ofChar?, h1, h2, h3, h4, h5, h6, h7, h8, h9, h10, h11, h12]

/-- Dropping the operator is dropping a leading operator character. -/
theorem splitOperator_snd (s : Text) : (splitOperator s).2 = afterOperator s := by
  cases s with
  | nil => rfl
  | cons c rest =>
    have hsome := ofChar?_isSome c
    simp only [splitOperator, afterOperator]
    cases hop : Operator.ofChar? c with
    | none =>
      have hc : c ∉ operatorChars := fun hc => by simp [hop, hc] at hsome
      simp [hc]
    | some op =>
      have hc : c ∈ operatorChars := List.elem_iff.mp (by simpa [hop] using hsome.symm)
      simp [hc]

/-- The name of a specification as its prefix length is looked for in it: cut at its first
`=`, without its trailing `*`. -/
theorem dropStars_name (spec : Text) :
    dropStars ((splitFirst? 61 spec).getD (spec, [])).1 = cutSpec spec := by
  rw [splitFirst?_getD_fst]
  rfl

/-- A specification is refused exactly when its prefix length is. -/
theorem readVarspec_refused_iff (spec : Text) :
    (∃ f, readVarspec spec = .error f) ↔ BadPrefix (cutSpec spec) := by
  have hname := dropStars_name spec
  unfold readVarspec
  generalize (splitFirst? 61 spec).getD (spec, []) = p at hname ⊢
  obtain ⟨name, dflt⟩ := p
  simp only at hname ⊢
  rw [hname, splitFirst?_eq]
  by_cases hcolon : 58 ∈ cutSpec spec
  · simp only [hcolon, if_true, BadPrefix, true_and]
    cases IntLiteral.read _ <;> simp [pure, Except.pure]
  · simp [hcolon, BadPrefix, pure, Except.pure]

/-- A refused specification is refused for a bad integer. -/
theorem readVarspec_fault {spec : Text} {f : Fault} (h : readVarspec spec = .error f) :
    ∃ digits why, f = .badInteger digits why := by
  unfold readVarspec at h
  generalize (splitFirst? 61 spec).getD (spec, []) = p at h
  obtain ⟨name, dflt⟩ := p
  simp only at h
  cases hcolon : splitFirst? 58 (dropStars name) with
  | none => simp [hcolon, pure, Except.pure] at h
  | some r =>
    obtain ⟨name', digits⟩ := r
    rw [hcolon] at h
    cases hread : IntLiteral.read digits with
    | ok n => simp [hread, pure, Except.pure] at h
    | error why =>
      simp only [hread, Except.error.injEq] at h
      exact ⟨digits, why, h.symm⟩

/-- Reading the specifications in turn fails exactly when one of them is refused, with that
one's fault. -/
theorem readVarspecs_refused_iff (specs : List Text) (ds : List (Text × Text)) :
    (∃ f, readVarspecs specs ds = .error f) ↔ ∃ spec ∈ specs, ∃ f, readVarspec spec = .error f := by
  induction specs generalizing ds with
  | nil => simp [readVarspecs]
  | cons spec specs ih =>
    rw [readVarspecs]
    cases hspec : readVarspec spec with
    | error f => simp [bind, Except.bind, hspec]
    | ok r =>
      obtain ⟨v, dflt⟩ := r
      simp only [bind, Except.bind]
      have hrest := ih (if dflt.isEmpty then ds else setDefault v.name dflt ds)
      cases hvs : readVarspecs specs (if dflt.isEmpty then ds else setDefault v.name dflt ds) with
      | error f =>
        rw [hvs] at hrest
        simpa [hspec] using hrest
      | ok r =>
        rw [hvs] at hrest
        simpa [hspec, pure, Except.pure] using hrest

theorem readVarspecs_fault {specs : List Text} {ds : List (Text × Text)} {f : Fault}
    (h : readVarspecs specs ds = .error f) : ∃ spec ∈ specs, readVarspec spec = .error f := by
  induction specs generalizing ds with
  | nil => cases h
  | cons spec specs ih =>
    rw [readVarspecs] at h
    cases hspec : readVarspec spec with
    | error f' =>
      simp only [hspec, bind, Except.bind, Except.error.injEq] at h
      exact ⟨spec, List.mem_cons_self, h ▸ hspec⟩
    | ok r =>
      obtain ⟨v, dflt⟩ := r
      simp only [hspec, bind, Except.bind] at h
      split at h
      · rename_i hvs
        cases h
        obtain ⟨spec', hspec', hf⟩ := ih hvs
        exact ⟨spec', List.mem_cons_of_mem spec hspec', hf⟩
      · cases h

/-- **An expression is refused exactly when one of its specifications has a bad prefix
length**, and then for a bad integer. -/
theorem parse_refused_iff {s : Text} (hs : s ≠ []) :
    ((∃ f, parse s = .error f) ↔ ∃ spec ∈ prefixSpecs s, BadPrefix spec) ∧
      ∀ f, parse s = .error f → ∃ digits why, f = .badInteger digits why := by
  have hne : s.isEmpty = false := List.isEmpty_eq_false_iff.mpr hs
  have hparse : parse s = (fun r => (⟨s, (splitOperator s).1, r.1, r.2⟩ : Expression)) <$>
      readVarspecs (splitAt 44 (splitOperator s).2) [] := by
    unfold parse
    simp only [hne, Bool.false_eq_true, if_false]
    cases readVarspecs (splitAt 44 (splitOperator s).2) [] <;> rfl
  have herror : ∀ f, parse s = .error f ↔ readVarspecs (splitAt 44 (splitOperator s).2) [] = .error f := by
    intro f
    rw [hparse]
    cases readVarspecs (splitAt 44 (splitOperator s).2) [] <;> simp [Functor.map, Except.map]
  refine ⟨?_, fun f h => ?_⟩
  · simp only [herror, readVarspecs_refused_iff, readVarspec_refused_iff, prefixSpecs, List.mem_map,
      splitAt, splitOperator_snd]
    constructor
    · rintro ⟨spec, hspec, hbad⟩
      exact ⟨cutSpec spec, ⟨spec, hspec, rfl⟩, hbad⟩
    · rintro ⟨_, ⟨spec, hspec, rfl⟩, hbad⟩
      exact ⟨spec, hspec, hbad⟩
  · obtain ⟨spec, -, hspec⟩ := readVarspecs_fault ((herror f).mp h)
    exact readVarspec_fault hspec

end Expression

/-! ## Templates -/

/-- The scan finds no empty expression. -/
theorem Piece.Scanned.sources_ne_nil {ps : List Piece} (h : Piece.Scanned ps) :
    ∀ s ∈ Piece.sources ps, s ≠ [] := by
  induction h with
  | nil => simp [Piece.sources]
  | literal _ _ ih => exact ih
  | braces _ ih => exact ih
  | expression hs _ _ ih =>
    intro s' hs'
    rw [Layout.sources_expression_cons] at hs'
    rcases List.mem_cons.mp hs' with rfl | hs'
    · exact hs
    · exact ih s' hs'
  | @unclosed r _ =>
    rw [Layout.sources_map_literal (123 :: r)]
    simp

/-- Reading a template fails exactly as reading its expression texts in order does. -/
theorem Template.parse_eq_error_iff (T : Text) (f : Fault) :
    Template.parse T = .error f ↔ (Piece.sources (Piece.scan T)).mapM Expression.parse = .error f := by
  rw [← Template.expressions_mapM_readPiece T]
  unfold Template.parse
  cases (Piece.scan T).mapM Template.readPiece <;> simp [bind, Except.bind, Functor.map, Except.map,
    pure, Except.pure]

/-- A template is refused exactly when one of its expression texts is. -/
theorem Template.refused_iff (T : Text) :
    (∃ f, Template.parse T = .error f) ↔
      ∃ s ∈ Piece.sources (Piece.scan T), ∃ f, Expression.parse s = .error f := by
  simp only [Template.parse_eq_error_iff]
  exact exists_mapM_eq_error_iff _ _

/-- **Reading a template is refused exactly at a bad prefix length.** Every expression the
scan finds is non-empty; reading fails exactly when some specification of some expression,
cut at its first `=` and stripped of its trailing `*`, holds a `:` followed by a text that is
not a decimal integer literal; and the fault is then a `ValueError`. -/
theorem template_refused_iff (T : Text) :
    (∀ s ∈ Piece.sources (Piece.scan T), s ≠ []) ∧
      ((∃ f, Template.parse T = .error f) ↔
        ∃ s ∈ Piece.sources (Piece.scan T), ∃ spec ∈ Expression.prefixSpecs s,
          Expression.BadPrefix spec) ∧
      ∀ f, Template.parse T = .error f → f.className = "ValueError" := by
  have hne := (Piece.scanned_scan T).sources_ne_nil
  refine ⟨hne, ?_, fun f h => ?_⟩
  · rw [Template.refused_iff]
    constructor
    · rintro ⟨s, hs, hrefused⟩
      obtain ⟨spec, hspec, hbad⟩ := (Expression.parse_refused_iff (hne s hs)).1.mp hrefused
      exact ⟨s, hs, spec, hspec, hbad⟩
    · rintro ⟨s, hs, spec, hspec, hbad⟩
      exact ⟨s, hs, (Expression.parse_refused_iff (hne s hs)).1.mpr ⟨spec, hspec, hbad⟩⟩
  · -- the fault is that of the first expression refused, a bad integer
    obtain ⟨s, hs, hf⟩ := exists_of_mapM_eq_error ((Template.parse_eq_error_iff T f).mp h)
    obtain ⟨digits, why, rfl⟩ := (Expression.parse_refused_iff (hne s hs)).2 f hf
    rfl

end Rfc6570
