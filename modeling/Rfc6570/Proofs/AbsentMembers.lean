import Rfc6570.Proofs.Rebinding
import Rfc6570.Proofs.Sorting.Sorted

/-!
# Rfc6570 — absent members of lists and dictionaries

A list or tuple may hold `None` members and a dictionary `None` values. The label and path
segment styles leave them out, and so does the path-parameter style for an exploded list and
for a dictionary. Where a style leaves them out, a value expands as the same value without them
(`Value.withoutNone`), with three exceptions that the expansion's own rules make:

* a default replaces a false binding, and a list of `None` members is true while the list left
  without them is empty and false (`none_member_keeps_default_away`);
* a non-empty list whose members are all pairs is expanded as a mapping, so a list of pairs and
  `None` members is a list, but without its `None` members a mapping;
* a dictionary's entries are sorted before its `None` values are left out, so an entry with a
  `None` value still takes part in the sort.

The simple, reserved, fragment and query styles, and the path-parameter style for a list that
is not exploded, write every member, `None` ones included.

## Results

* `sortBy_filter_of_totallyOrdered` — when the sort compares entries by a strict total order,
  leaving entries out before sorting leaves them out of the sorted list.
* `Style.apply_withoutNone` — a style that leaves out absent members expands a value as the
  value without them.
* `expand_without_none_members` — rebinding a variable to its value without absent members
  leaves the expansion as it was.
-/

namespace Rfc6570

open Text

namespace Value

/-- A list or tuple without its `None` members, a dictionary without its `None`-valued entries;
any other value as it is. -/
def withoutNone : Value → Value
  | .list xs => .list (Style.presentItems xs)
  | .tuple xs => .tuple (Style.presentItems xs)
  | .dict es => .dict (Style.presentEntries es)
  | v => v

/-- The entries of a dictionary are sorted by a strict order that the comparison answers on
each two of them, an entry with itself included, and under which any two different entries
are ordered one way or the other. -/
def EntriesTotallyOrdered (es : List (Value × Value)) : Prop :=
  ∃ less : Value × Value → Value × Value → Bool,
    Sorting.WeakOrder entryLessThan (· ∈ es) less ∧
      ∀ p ∈ es, ∀ q ∈ es, less p q = false → less q p = false → p = q

end Value

/-! ## Sorting what is left -/

/-- **Leaving entries out commutes with sorting them**: when the comparison orders the entries
strictly and totally, sorting succeeds, and the entries that pass a test, sorted, are the
sorted entries that pass it. -/
theorem sortBy_filter_of_totallyOrdered {es : List (Value × Value)}
    (h : Value.EntriesTotallyOrdered es) (p : Value × Value → Bool) :
    ∃ ys, sortBy Value.entryLessThan es = .ok ys ∧
      sortBy Value.entryLessThan (es.filter p) = .ok (ys.filter p) := by
  obtain ⟨less, o, htotal⟩ := h
  obtain ⟨ys, hys, hperm, hsorted⟩ := Sorting.sortBy_sorted o fun z hz => hz
  obtain ⟨zs, hzs, hperm', hsorted'⟩ :=
    Sorting.sortBy_sorted o fun z hz => (List.mem_filter.mp hz).1
  refine ⟨ys, hys, ?_⟩
  rw [hzs]
  congr 1
  -- two sorted permutations of the same entries agree when no two different entries tie
  refine List.Perm.eq_of_pairwise (fun a b ha hb hab hba => ?_) hsorted'
    (hsorted.sublist List.filter_sublist) (hperm'.trans (hperm.filter p).symm)
  have ha' : a ∈ es := (List.mem_filter.mp (hperm'.subset ha)).1
  have hb' : b ∈ es := hperm.subset (List.mem_filter.mp hb).1
  exact htotal a ha' b hb' hba hab

/-! ## One variable -/

/-- The styles that leave out absent members themselves: the label style always, and the
path-parameter style for a dictionary or an exploded list. -/
def Style.DropsNone : Style → Value → Bool → Prop
  | .label, _, _ => True
  | .parameter, .dict _, _ => True
  | .parameter, _, explode => explode = true
  | _, _, _ => False

namespace Style

theorem presentItems_idem (xs : List Value) : presentItems (presentItems xs) = presentItems xs := by
  simp [presentItems, List.filter_filter]

theorem presentEntries_idem (es : List (Value × Value)) :
    presentEntries (presentEntries es) = presentEntries es := by
  simp [presentEntries, List.filter_filter]

end Style

namespace Value

/-- A list or tuple with all its members pairs holds no `None`. -/
theorem presentItems_of_mapM_pair? {xs : List Value} {ps : List (Value × Value)}
    (h : xs.mapM pair? = some ps) : Style.presentItems xs = xs := by
  induction xs generalizing ps with
  | nil => rfl
  | cons x xs ih =>
    simp only [List.mapM_cons, Option.bind_eq_bind, Option.bind_eq_some_iff, Option.pure_def,
      Option.some.injEq] at h
    obtain ⟨p, hp, qs, hqs, -⟩ := h
    have hx : x.isPresent = true := by
      cases x <;> first | rfl | cases hp
    rw [Style.presentItems, List.filter_cons, hx, if_pos rfl, ← Style.presentItems, ih hqs]

/-- A list or tuple that is not a list of pairs is a sequence. -/
theorem shape_of_pairs?_none {v : Value} {xs : List Value} (hv : v = .list xs ∨ v = .tuple xs)
    (h : v.pairs? = Option.none) : v.shape = .ok (.sequence xs) := by
  rcases hv with rfl | rfl <;> simp only [shape, h]

theorem shape_dict (es : List (Value × Value)) :
    (Value.dict es).shape = Shape.mapping <$> sortBy entryLessThan es := rfl

end Value

/-- A style that leaves out absent members expands a sequence as the sequence without them. -/
theorem Style.apply_sequence_presentItems {style : Style} {op : Operator} {name v w limit : Value}
    {explode : Bool} {xs : List Value} (hv : v.shape = .ok (.sequence xs))
    (hw : w.shape = .ok (.sequence (presentItems xs)))
    (hdrop : style = .label ∨ (style = .parameter ∧ explode = true)) :
    style.apply op name w explode limit = style.apply op name v explode limit := by
  rcases hdrop with rfl | ⟨rfl, rfl⟩
  · simp only [Style.apply, hv, hw, ok_bind, presentItems_idem]
  · simp only [Style.apply, hv, hw, ok_bind, presentItems_idem, if_true]

/-- A list or tuple of pairs has no absent member, so it is its own value without them. -/
theorem Value.withoutNone_of_pairs? {v : Value} {xs : List Value} {ps : List (Value × Value)}
    (hv : v = .list xs ∨ v = .tuple xs) (h : v.pairs? = some ps) : v.withoutNone = v := by
  rcases hv with rfl | rfl <;>
  · cases xs with
    | nil => cases h
    | cons x xs => simp only [Value.withoutNone, presentItems_of_mapM_pair? h]

/-- The same for a list or tuple: a list of pairs has no absent member, and any other list is a
sequence with or without them. -/
theorem Style.apply_withoutNone_items {style : Style} {op : Operator} {name v limit : Value}
    {explode : Bool} {xs : List Value} (hv : v = .list xs ∨ v = .tuple xs)
    (hdrop : style.DropsNone v explode)
    (hpairs : v.withoutNone.pairs?.isSome → v.pairs?.isSome) :
    style.apply op name v.withoutNone explode limit = style.apply op name v explode limit := by
  have hw : v.withoutNone = .list (presentItems xs) ∨ v.withoutNone = .tuple (presentItems xs) := by
    rcases hv with rfl | rfl
    · exact .inl rfl
    · exact .inr rfl
  have hstyle : style = .label ∨ (style = .parameter ∧ explode = true) := by
    rcases hv with rfl | rfl <;> cases style <;> simp_all [DropsNone]
  cases hp : v.pairs? with
  | some ps => rw [Value.withoutNone_of_pairs? hv hp]
  | none =>
    have hp' : v.withoutNone.pairs? = Option.none := by
      cases h : v.withoutNone.pairs? with
      | none => rfl
      | some _ => simp [h, hp] at hpairs
    exact apply_sequence_presentItems (Value.shape_of_pairs?_none hv hp)
      (Value.shape_of_pairs?_none hw hp') hstyle

/-- **A style that leaves out absent members expands a value as the value without them**, when
leaving them out does not turn a list into a list of pairs, and a dictionary's entries are
sorted by a strict total order. -/
theorem Style.apply_withoutNone {style : Style} {op : Operator} {name v limit : Value}
    {explode : Bool} (hdrop : style.DropsNone v explode)
    (hpairs : v.withoutNone.pairs?.isSome → v.pairs?.isSome)
    (hsort : ∀ es, v = .dict es → Value.EntriesTotallyOrdered es) :
    style.apply op name v.withoutNone explode limit = style.apply op name v explode limit := by
  cases v with
  | dict es =>
    obtain ⟨ys, hys, hys'⟩ := sortBy_filter_of_totallyOrdered (hsort es rfl) (·.2.isPresent)
    have hpresent : sortBy Value.entryLessThan (presentEntries es) = .ok (presentEntries ys) := hys'
    simp only [Value.withoutNone]
    rw [Style.apply, Style.apply, Value.shape_dict, Value.shape_dict, hpresent, hys]
    -- both styles that leave out absent members do so for the sorted entries themselves
    cases style with
    | label | parameter => simp only [Functor.map, Except.map, ok_bind, presentEntries_idem]
    | string | query => exact absurd hdrop id
  | list xs => exact apply_withoutNone_items (.inl rfl) hdrop hpairs
  | tuple xs => exact apply_withoutNone_items (.inr rfl) hdrop hpairs
  | _ => rfl

/-- A list, tuple or dictionary is present, with or without its absent members. -/
theorem Value.isPresent_of_container {v : Value}
    (hv : (∃ xs, v = .list xs ∨ v = .tuple xs) ∨ ∃ es, v = .dict es) :
    v.isPresent = true ∧ v.withoutNone.isPresent = true := by
  rcases hv with ⟨xs, rfl | rfl⟩ | ⟨es, rfl⟩ <;> exact ⟨rfl, rfl⟩

/-- A container is not the empty text, with or without its absent members. -/
theorem Value.isEmptyText_of_container {v : Value}
    (hv : (∃ xs, v = .list xs ∨ v = .tuple xs) ∨ ∃ es, v = .dict es) :
    v.isEmptyText = false ∧ v.withoutNone.isEmptyText = false := by
  rcases hv with ⟨xs, rfl | rfl⟩ | ⟨es, rfl⟩ <;> exact ⟨rfl, rfl⟩

/-- **`None` members are left out where the style leaves them out**: rebinding a variable from a
list, tuple or dictionary to the same value without its `None` members (or `None`-valued
entries) leaves the expansion as it was, when every varspec of the variable is expanded by a
style that leaves them out (label and path segment, or path parameters for a dictionary or an
exploded list), the default, if any, replaces both values or neither, leaving the members out
does not turn a list into a list of pairs, and a dictionary's entries are sorted by a strict
total order. -/
theorem expand_without_none_members {e : Expression} {vars vars' : Entries} {x : Text} {v : Value}
    (hv : (∃ xs, v = .list xs ∨ v = .tuple xs) ∨ ∃ es, v = .dict es)
    (hx : vars.lookup x = v) (hx' : vars'.lookup x = v.withoutNone)
    (hother : ∀ y, y ≠ x → vars'.lookup y = vars.lookup y)
    (hstyle : ∀ vs ∈ e.varspecs, vs.name = x → (Style.ofOperator e.operator).DropsNone v vs.explode)
    (hdef : e.defaultOf? x = Option.none ∨ v.withoutNone.truthy = v.truthy)
    (hpairs : v.withoutNone.pairs?.isSome → v.pairs?.isSome)
    (hsort : ∀ es, v = .dict es → Value.EntriesTotallyOrdered es) :
    e.expand vars' = e.expand vars := by
  refine e.expand_rebind hother fun vs hvs hname => ?_
  obtain ⟨hpresent, hpresent'⟩ := Value.isPresent_of_container hv
  obtain ⟨htext, htext'⟩ := Value.isEmptyText_of_container hv
  have happly : e.contribution vs v.withoutNone = e.contribution vs v := by
    rw [e.contribution_of_isPresent vs hpresent, e.contribution_of_isPresent vs hpresent',
      Style.apply_withoutNone (hstyle vs hvs hname) hpairs hsort]
  rcases hdef with hdef | htruth
  · rw [e.valueOf_of_defaultOf? vars' hdef, e.valueOf_of_defaultOf? vars hdef, hx, hx', happly]
  · -- a default replaces both values or neither
    rw [Expression.valueOf_eq, Expression.valueOf_eq, hx, hx', htruth, htext, htext']
    split
    · cases e.defaultOf? x
      · exact happly
      · rfl
    · exact happly

/-- `{/x}`. -/
private def pathSegmentX : Expression :=
  ⟨ofString "/x", .pathSegment, [⟨ofString "x", false, none⟩], []⟩

/-- `x` bound to `["a", None, "b"]`. -/
private def withNoneMember : Value := .list [.text (ofString "a"), .none, .text (ofString "b")]

theorem expand_without_none_members_path :
    pathSegmentX.expand [(.text (ofString "x"), withNoneMember.withoutNone)] =
      pathSegmentX.expand [(.text (ofString "x"), withNoneMember)] :=
  @expand_without_none_members pathSegmentX _ _ (ofString "x") withNoneMember
    (.inl ⟨_, .inl rfl⟩) rfl rfl
    (fun y hy => by
      have hne : (y == ofString "x") = false := beq_eq_false_iff_ne.mpr hy
      simp [Entries.lookup, Entries.find?, Value.equal, hne])
    (fun _ _ _ => trivial) (.inl rfl) (by decide) (fun _ h => by cases h)

/-- A `None` member keeps a default away: under `{/x=d}` the list `[None]` is true and expands to
nothing, while the same list without its `None` member is empty, so the default `d` is used. -/
theorem none_member_keeps_default_away :
    (Expression.parse (ofString "/x=d") >>= fun e => e.expand [(.text (ofString "x"), .list [.none])]) =
        .ok [] ∧
      (Expression.parse (ofString "/x=d") >>= fun e =>
        e.expand [(.text (ofString "x"), (Value.list [.none]).withoutNone)]) = .ok (ofString "/d") :=
  ⟨rfl, rfl⟩

end Rfc6570
