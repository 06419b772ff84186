import Rfc6570.Proofs.SetRuns

/-!
# Rfc6570 — the algebra of arrival sets, on the member list

The binary operators of an arrival set build a new set from the set and an operand (another
set, a value's items, or the set itself); being functions of their operands, they change
neither. Measured on the member lists, with `M` the set's members and `T` the operand's values:

* the union is `M` followed by the values of `T` that no earlier member equals;
* the intersection is `T` without repeats, restricted to values some member equals;
* the difference is `M` restricted to members no value of `T` equals;
* the symmetric difference is the difference followed by `T` without repeats, restricted to
  values no member equals.

The set itself as operand finds each member where it is, a value unequal to itself included:
union and intersection give the set, difference and symmetric difference the empty set.

Comparisons between two sets count before they search: `s ≤ t` asks that `s` have no more
members than `t` and that every member of `s` be found in `t`. For lists of pairwise unequal
values the count follows from the search (`Proper.length_le_of_within`), so the comparisons
are inclusion of contents, whatever the orders. Equality with plain items is not equality of
contents: it holds when some item is a member (`equals_list`).

## Results

* `set_operators_follow_member_list` — the binary operators, their contents and the
  comparisons, on the member list.
* `equals_list` — equality with a list holds exactly when some item is a member.
-/

namespace Rfc6570

namespace MemberList

variable {M N L : List Value} {v w : Value} {p : Value → Bool}

theorem addAll_append (M xs ys : List Value) : addAll M (xs ++ ys) = addAll (addAll M xs) ys :=
  List.foldl_append

/-- A test that gives equal hashable values the same answer. -/
def Respects (p : Value → Bool) : Prop :=
  ∀ a b, a.unhashableKind? = Option.none → b.unhashableKind? = Option.none → a.equal b = true →
    p a = p b

theorem respects_has (M : List Value) : Respects (has M) := fun _ _ ha hb h => has_congr ha hb h M

theorem Respects.not (hp : Respects p) : Respects fun v => !p v := fun a b ha hb h => by
  simp only [hp a b ha hb h]

/-- Filtered by a test that respects equality, a list has the members that pass it. -/
theorem has_filter (hp : Respects p) (hL : ∀ m ∈ L, m.unhashableKind? = Option.none)
    (hw : w.unhashableKind? = Option.none) : has (L.filter p) w = (has L w && p w) := by
  apply Bool.eq_iff_iff.mpr
  simp only [has_eq_true_iff, List.mem_filter, Bool.and_eq_true]
  constructor
  · rintro ⟨m, ⟨hm, hpm⟩, hwm⟩
    exact ⟨⟨m, hm, hwm⟩, (hp w m hw (hL m hm) hwm).trans hpm⟩
  · rintro ⟨⟨m, hm, hwm⟩, hpw⟩
    exact ⟨m, ⟨hm, (hp w m hw (hL m hm) hwm).symm.trans hpw⟩, hwm⟩

/-- Filtering after an addition is adding to the filtered list, when the value passes. -/
theorem filter_add (hp : Respects p) (hM : ∀ m ∈ M, m.unhashableKind? = Option.none)
    (hv : v.unhashableKind? = Option.none) :
    (add M v).filter p = if p v then add (M.filter p) v else M.filter p := by
  unfold MemberList.add
  have hfilter := has_filter hp hM hv
  cases hMv : has M v with
  | true =>
    -- `v` is not added, and it is found in the filtered list exactly when it passes
    rw [hMv, Bool.true_and] at hfilter
    cases hpv : p v <;> simp [hfilter, hpv]
  | false =>
    rw [hMv, Bool.false_and] at hfilter
    cases hpv : p v <;> simp [hfilter, hpv, List.filter_append]

theorem hashable_add (hM : ∀ m ∈ M, m.unhashableKind? = Option.none)
    (hv : v.unhashableKind? = Option.none) : ∀ m ∈ add M v, m.unhashableKind? = Option.none := by
  unfold MemberList.add
  split
  · exact hM
  · intro m hm
    rcases List.mem_append.mp hm with hm | hm
    · exact hM m hm
    · rw [List.mem_singleton.mp hm]
      exact hv

/-- Filtering the values added is filtering the result, for a test that respects equality. -/
theorem filter_addAll (hp : Respects p) (hM : ∀ m ∈ M, m.unhashableKind? = Option.none)
    (hL : ∀ v ∈ L, v.unhashableKind? = Option.none) :
    (addAll M L).filter p = addAll (M.filter p) (L.filter p) := by
  induction L generalizing M with
  | nil => rfl
  | cons v L ih =>
    obtain ⟨hv, hL⟩ := List.forall_mem_cons.mp hL
    rw [addAll_cons, ih (hashable_add hM hv) hL, filter_add hp hM hv, List.filter_cons]
    cases p v <;> rfl

/-- Every member of `M` is found in `N`. -/
def Within (M N : List Value) : Prop := ∀ m ∈ M, has N m = true

instance (M N : List Value) : Decidable (Within M N) :=
  inferInstanceAs (Decidable (∀ m ∈ M, has N m = true))

/-- Pairwise unequal values all found in a list of pairwise unequal values are no more than
it: each is found at its own member. -/
theorem Proper.length_le_of_within (hM : Proper M) (hN : Proper N) (h : Within M N) :
    M.length ≤ N.length := by
  induction M generalizing N with
  | nil => simp
  | cons m M ih =>
    have hm := hM.hashable m List.mem_cons_self
    obtain ⟨n, hn, hmn⟩ := has_eq_true_iff.mp (h m List.mem_cons_self)
    -- the rest is found among the members of `N` that `m` does not equal
    have hrest : Within M (delete N m) := by
      intro m' hm'
      obtain ⟨n', hn', hmn'⟩ := has_eq_true_iff.mp (h m' (List.mem_cons_of_mem m hm'))
      refine has_eq_true_iff.mpr ⟨n', List.mem_filter.mpr ⟨hn', ?_⟩, hmn'⟩
      cases hmn'' : m.equal n' with
      | false => rfl
      | true =>
        -- `m'` would equal `m` through `n'`
        have hn'm : n'.equal m = true :=
          (Value.equal_comm hm (hN.hashable n' hn')).symm.trans hmn''
        have := Value.equal_trans (hM.hashable m' (List.mem_cons_of_mem m hm'))
          (hN.hashable n' hn') hmn' hn'm
        rw [(hM.head_unequal hm').2] at this
        cases this
    have hshorter : (delete N m).length < N.length :=
      List.length_filter_lt_length_iff_exists.mpr ⟨n, hn, by simp [hmn]⟩
    have hle : M.length ≤ (delete N m).length := ih hM.tail (hN.filter _) hrest
    simp only [List.length_cons]
    omega

/-- Of two lists of pairwise unequal values, the first all found in the second, the first is
shorter exactly when some member of the second is not found in it. -/
theorem Proper.length_lt_iff (hM : Proper M) (hN : Proper N) (h : Within M N) :
    M.length < N.length ↔ ¬Within N M := by
  constructor
  · intro hlt hNM
    exact absurd (hN.length_le_of_within hM hNM) (by omega)
  · intro hNM
    obtain ⟨n, hn, hnM⟩ : ∃ n ∈ N, has M n = false := by
      simpa [Within] using hNM
    -- `M` is found among the members of `N` found in `M`, which leave `n` out
    have hwithin : Within M (N.filter (has M)) := by
      intro m hm
      obtain ⟨n', hn', hmn'⟩ := has_eq_true_iff.mp (h m hm)
      have hn'M : has M n' = true := has_eq_true_iff.mpr ⟨m, hm,
        (Value.equal_comm (hN.hashable n' hn') (hM.hashable m hm)).trans hmn'⟩
      exact has_eq_true_iff.mpr ⟨n', List.mem_filter.mpr ⟨hn', hn'M⟩, hmn'⟩
    have hshorter : (N.filter (has M)).length < N.length :=
      List.length_filter_lt_length_iff_exists.mpr ⟨n, hn, by simp [hnM]⟩
    have := hM.length_le_of_within (hN.filter _) hwithin
    omega

/-- The count a comparison makes before it searches adds nothing to the search. -/
theorem Proper.count_le_and_within (hM : Proper M) (hN : Proper N) :
    (decide (M.length ≤ N.length) && decide (Within M N)) = decide (Within M N) := by
  by_cases h : Within M N
  · simp [h, hM.length_le_of_within hN h]
  · simp [h]

theorem Proper.count_lt_and_within (hM : Proper M) (hN : Proper N) :
    (decide (M.length < N.length) && decide (Within M N)) = decide (Within M N ∧ ¬Within N M) := by
  by_cases h : Within M N
  · simp [h, hM.length_lt_iff hN h]
  · simp [h]

end MemberList

/-! ## The binary operators on the member list -/

namespace Operand

open MemberList

/-- The values an operand stands for beside the member list `M`: `M` itself for the set. -/
def valuesOn (M : List Value) : Operand → List Value
  | .same => M
  | o => o.members

/-- The members of the union with an operand: the set's members, then the operand's values
that no earlier member equals. -/
def unionOn (M : List Value) : Operand → List Value
  | .same => M
  | o => addAll M o.members

/-- The members of the intersection: the operand's values without repeats, restricted to those
some member equals. -/
def interOn (M : List Value) : Operand → List Value
  | .same => M
  | o => (addAll [] o.members).filter (has M)

/-- The members of the difference: the set's members that no value of the operand equals. -/
def diffOn (M : List Value) : Operand → List Value
  | .same => []
  | o => M.filter fun m => !has o.members m

/-- The members of the symmetric difference: the difference, then the operand's values without
repeats that no member equals. -/
def symmDiffOn (M : List Value) : Operand → List Value
  | .same => []
  | o => M.filter (fun m => !has o.members m) ++ (addAll [] o.members).filter fun v => !has M v

variable {o : Operand} {M : List Value}

theorem valuesOn_of_ne (hne : o ≠ .same) (M : List Value) : o.valuesOn M = o.members := by
  cases o <;> first | exact absurd rfl hne | rfl

theorem unionOn_of_ne (hne : o ≠ .same) (M : List Value) : o.unionOn M = addAll M o.members := by
  cases o <;> first | exact absurd rfl hne | rfl

theorem interOn_of_ne (hne : o ≠ .same) (M : List Value) :
    o.interOn M = (addAll [] o.members).filter (has M) := by
  cases o <;> first | exact absurd rfl hne | rfl

theorem diffOn_of_ne (hne : o ≠ .same) (M : List Value) :
    o.diffOn M = M.filter fun m => !has o.members m := by
  cases o <;> first | exact absurd rfl hne | rfl

theorem symmDiffOn_of_ne (hne : o ≠ .same) (M : List Value) :
    o.symmDiffOn M =
      M.filter (fun m => !has o.members m) ++ (addAll [] o.members).filter fun v => !has M v := by
  cases o <;> first | exact absurd rfl hne | rfl

section Contents

/-! The list functions hold the union, intersection, difference and symmetric difference of
the contents: a hashable value is found in the result exactly when the corresponding
combination of "found in `M`" and "found among the operand's values" holds. -/

variable (ho : o.Admissible) {w : Value} (hw : w.unhashableKind? = Option.none)
include ho hw

theorem has_unionOn : has (o.unionOn M) w = (has M w || has (o.valuesOn M) w) := by
  by_cases hne : o = .same
  · subst hne
    exact (Bool.or_self _).symm
  · rw [unionOn_of_ne hne, valuesOn_of_ne hne, has_addAll hw (ArrivalSet.members_hashable ho)]

theorem has_interOn : has (o.interOn M) w = (has M w && has (o.valuesOn M) w) := by
  by_cases hne : o = .same
  · subst hne
    exact (Bool.and_self _).symm
  · have hvals := ArrivalSet.members_hashable ho
    rw [interOn_of_ne hne, valuesOn_of_ne hne,
      has_filter (respects_has M) (Proper.nil.addAll hvals).hashable hw, has_addAll hw hvals,
      has_nil, Bool.false_or, Bool.and_comm]

theorem has_diffOn (hM : ∀ m ∈ M, m.unhashableKind? = Option.none) :
    has (o.diffOn M) w = (has M w && !has (o.valuesOn M) w) := by
  by_cases hne : o = .same
  · subst hne
    exact (Bool.and_not_self _).symm
  · rw [diffOn_of_ne hne, valuesOn_of_ne hne, has_filter (respects_has _).not hM hw]

theorem has_symmDiffOn (hM : ∀ m ∈ M, m.unhashableKind? = Option.none) :
    has (o.symmDiffOn M) w = (has M w ^^ has (o.valuesOn M) w) := by
  by_cases hne : o = .same
  · subst hne
    exact (Bool.xor_self _).symm
  · have hvals := ArrivalSet.members_hashable ho
    rw [symmDiffOn_of_ne hne, valuesOn_of_ne hne, has_append, has_filter (respects_has _).not hM hw,
      has_filter (respects_has M).not (Proper.nil.addAll hvals).hashable hw, has_addAll hw hvals,
      has_nil, Bool.false_or]
    cases has M w <;> cases has o.members w <;> rfl

end Contents

theorem unionOn_set (t : ArrivalSet) (M : List Value) :
    (Operand.set t).unionOn M = addAll M t.toList := rfl

theorem diffOn_set (t : ArrivalSet) (M : List Value) :
    (Operand.set t).diffOn M = M.filter fun m => !has t.toList m := rfl

end Operand

/-! ## The operators on a valid set -/

/-- A filter whose every check succeeds keeps the items whose check answers `true`; the
accumulator holds the items kept so far, last first. -/
theorem filterAuxM_eq_ok {ε α : Type} {p : α → Except ε Bool} {q : α → Bool} :
    ∀ {xs : List α} (acc : List α), (∀ x ∈ xs, p x = .ok (q x)) →
      List.filterAuxM p xs acc = .ok ((xs.filter q).reverse ++ acc)
  | [], _, _ => rfl
  | x :: xs, acc, h => by
    rw [List.filterAuxM, h x List.mem_cons_self, ok_bind,
      filterAuxM_eq_ok _ fun y hy => h y (List.mem_cons_of_mem x hy), List.filter_cons]
    cases q x <;> simp

theorem filterM_eq_ok {ε α : Type} {p : α → Except ε Bool} {q : α → Bool} {xs : List α}
    (h : ∀ x ∈ xs, p x = .ok (q x)) : xs.filterM p = .ok (xs.filter q) := by
  rw [List.filterM, filterAuxM_eq_ok [] h, ok_bind, List.append_nil, List.reverse_reverse]
  rfl

namespace ArrivalSet

open MemberList

variable {s t : ArrivalSet} {o : Operand}

/-- The set of a list of hashable values is valid and holds them in order of first
appearance. -/
theorem ofList_eq {vs : List Value} (hvs : ∀ v ∈ vs, v.unhashableKind? = Option.none) :
    ∃ u, ofList vs = .ok u ∧ u.Valid ∧ u.toList = MemberList.addAll [] vs :=
  ⟨vs.foldl push empty, addAll_eq hvs, valid_empty.foldl_push hvs⟩

theorem operandItems_eq (ho : o.Admissible) (s : ArrivalSet) :
    s.operandItems o = .ok (o.valuesOn s.toList) := by
  cases o with
  | same => rfl
  | set t => rfl
  | items v => exact items_eq_members ho

theorem keepWhere_contains (hs : s.WellFormed) {vs : List Value}
    (hvs : ∀ v ∈ vs, v.unhashableKind? = Option.none) :
    keepWhere s.contains vs = .ok (vs.filter (has s.toList)) :=
  filterM_eq_ok fun v hv => by rw [contains_eq (hvs v hv), mem_eq_has hs (hvs v hv)]

theorem keepWhere_not_contains (ht : t.WellFormed) {vs : List Value}
    (hvs : ∀ v ∈ vs, v.unhashableKind? = Option.none) :
    keepWhere (fun v => (!·) <$> t.contains v) vs = .ok (vs.filter fun v => !has t.toList v) :=
  filterM_eq_ok fun v hv => by
    rw [contains_eq (hvs v hv), mem_eq_has ht (hvs v hv)]
    rfl

theorem union_of_ne (hne : o ≠ .same) (s : ArrivalSet) :
    s.union o = (do requireItems "|" o; ofList (s.toList ++ (← s.operandItems o))) := by
  cases o <;> first | exact absurd rfl hne | rfl

theorem inter_of_ne (hne : o ≠ .same) (s : ArrivalSet) :
    s.inter o = (do requireItems "&" o; ofList (← keepWhere s.contains (← s.operandItems o))) := by
  cases o <;> first | exact absurd rfl hne | rfl

theorem diff_of_ne (hne : o ≠ .same) (s : ArrivalSet) :
    s.diff o = (do
      requireItems "-" o
      let t ← s.operandSet o
      ofList (← keepWhere (fun v => (!·) <$> t.contains v) s.toList)) := by
  cases o <;> first | exact absurd rfl hne | rfl

theorem symmDiff_of_ne (hne : o ≠ .same) (s : ArrivalSet) :
    s.symmDiff o = (do
      requireItems "^" o
      let t ← s.operandSet o
      let a ← s.diff (.set t)
      let b ← t.diff (.set s)
      a.union (.set b)) := by
  cases o <;> first | exact absurd rfl hne | rfl

/-- The union of a valid set with an admissible operand is a valid set with the members of
`Operand.unionOn`. -/
theorem Valid.union (hs : s.Valid) (ho : o.Admissible) :
    ∃ u, s.union o = .ok u ∧ u.Valid ∧ u.toList = o.unionOn s.toList := by
  by_cases hne : o = .same
  · subst hne
    exact ⟨s, rfl, hs, rfl⟩
  have hjoined : ∀ v ∈ s.toList ++ o.members, v.unhashableKind? = Option.none :=
    List.forall_mem_append.mpr ⟨hs.proper.hashable, members_hashable ho⟩
  obtain ⟨u, hu, hvalid, hlist⟩ := ofList_eq hjoined
  refine ⟨u, ?_, hvalid, ?_⟩
  · simp only [union_of_ne hne, requireItems_eq ho, operandItems_eq ho, Operand.valuesOn_of_ne hne,
      ok_bind, hu]
  · rw [hlist, addAll_append, addAll_nil_of_proper hs.proper, Operand.unionOn_of_ne hne]

theorem Valid.inter (hs : s.Valid) (ho : o.Admissible) :
    ∃ u, s.inter o = .ok u ∧ u.Valid ∧ u.toList = o.interOn s.toList := by
  by_cases hne : o = .same
  · subst hne
    exact ⟨s, rfl, hs, rfl⟩
  have hvals := members_hashable ho
  have hkept : ∀ v ∈ o.members.filter (has s.toList), v.unhashableKind? = Option.none :=
    fun v hv => hvals v (List.mem_filter.mp hv).1
  obtain ⟨u, hu, hvalid, hlist⟩ := ofList_eq hkept
  refine ⟨u, ?_, hvalid, ?_⟩
  · simp only [inter_of_ne hne, requireItems_eq ho, operandItems_eq ho, Operand.valuesOn_of_ne hne,
      keepWhere_contains hs.wellFormed hvals, ok_bind, hu]
  · rw [hlist, Operand.interOn_of_ne hne, filter_addAll (respects_has _) (by simp) hvals,
      List.filter_nil]

theorem Valid.diff (hs : s.Valid) (ho : o.Admissible) :
    ∃ u, s.diff o = .ok u ∧ u.Valid ∧ u.toList = o.diffOn s.toList := by
  by_cases hne : o = .same
  · subst hne
    exact ⟨empty, rfl, valid_empty, rfl⟩
  obtain ⟨t, ht, htvalid, htlist⟩ := operandSet_eq ho hne s
  -- the operand's set finds a member exactly when one of the operand's values equals it
  have hfilter : (s.toList.filter fun m => !has t.toList m) = o.diffOn s.toList := by
    rw [Operand.diffOn_of_ne hne]
    refine List.filter_congr fun m hm => ?_
    rw [htlist, has_addAll (hs.proper.hashable m hm) (members_hashable ho), has_nil, Bool.false_or]
  have hkept : ∀ v ∈ s.toList.filter (fun m => !has t.toList m), v.unhashableKind? = Option.none :=
    fun v hv => hs.proper.hashable v (List.mem_filter.mp hv).1
  obtain ⟨u, hu, hvalid, hlist⟩ := ofList_eq hkept
  refine ⟨u, ?_, hvalid, ?_⟩
  · simp only [diff_of_ne hne, requireItems_eq ho, ht,
      keepWhere_not_contains htvalid.wellFormed hs.proper.hashable, ok_bind, hu]
  · rw [hlist, addAll_nil_of_proper (hs.proper.filter _), hfilter]

/-- The symmetric difference is built from the two differences, the second appended to the
first. -/
theorem Valid.symmDiff (hs : s.Valid) (ho : o.Admissible) :
    ∃ u, s.symmDiff o = .ok u ∧ u.Valid ∧ u.toList = o.symmDiffOn s.toList := by
  by_cases hne : o = .same
  · subst hne
    exact ⟨empty, rfl, valid_empty, rfl⟩
  obtain ⟨t, ht, htvalid, htlist⟩ := operandSet_eq ho hne s
  obtain ⟨a, ha, havalid, halist⟩ := hs.diff (o := .set t) htvalid
  obtain ⟨b, hb, hbvalid, hblist⟩ := htvalid.diff (o := .set s) hs
  obtain ⟨u, hu, hvalid, hlist⟩ := havalid.union (o := .set b) hbvalid
  refine ⟨u, ?_, hvalid, ?_⟩
  · simp only [symmDiff_of_ne hne, requireItems_eq ho, ht, ha, hb, hu, ok_bind]
  rw [Operand.diffOn_set] at halist hblist
  -- what the second difference holds the set does not, so the first does not either
  have hfresh : ∀ v ∈ b.toList, has a.toList v = false := by
    intro v hv
    rw [hblist] at hv
    obtain ⟨hvt, hvs⟩ := List.mem_filter.mp hv
    have hvs : has s.toList v = false := by simpa using hvs
    rw [halist, has_filter (respects_has _).not hs.proper.hashable (htvalid.proper.hashable v hvt),
      hvs, Bool.false_and]
  rw [hlist, Operand.unionOn_set, addAll_of_fresh hbvalid.proper hfresh, halist, hblist,
    Operand.symmDiffOn_of_ne hne, htlist]
  congr 1
  refine List.filter_congr fun m hm => ?_
  rw [has_addAll (hs.proper.hashable m hm) (members_hashable ho), has_nil, Bool.false_or]

/-! ### Comparisons -/

theorem size_eq (s : ArrivalSet) : s.size = s.toList.length :=
  Array.length_toList.symm

theorem subsetOf_eq (hs : s.Valid) (ht : t.WellFormed) :
    s.subsetOf t = decide (Within s.toList t.toList) := by
  apply Bool.eq_iff_iff.mpr
  rw [subsetOf, List.all_eq_true, decide_eq_true_iff]
  exact forall₂_congr fun m hm => by rw [mem_eq_has ht (hs.proper.hashable m hm)]

/-- Against another valid set the comparisons are inclusions of contents: the count they make
first follows from the search. -/
theorem compareWith_set (hs : s.Valid) (ht : t.Valid) :
    s.compareWith .le (.set t) = .ok (decide (Within s.toList t.toList)) ∧
      s.compareWith .lt (.set t) =
        .ok (decide (Within s.toList t.toList ∧ ¬Within t.toList s.toList)) ∧
      s.compareWith .ge (.set t) = .ok (decide (Within t.toList s.toList)) ∧
      s.compareWith .gt (.set t) =
        .ok (decide (Within t.toList s.toList ∧ ¬Within s.toList t.toList)) := by
  simp only [compareWith, size_eq, subsetOf_eq hs ht.wellFormed, subsetOf_eq ht hs.wellFormed,
    hs.proper.count_le_and_within ht.proper, ht.proper.count_le_and_within hs.proper,
    hs.proper.count_lt_and_within ht.proper, ht.proper.count_lt_and_within hs.proper, and_self]

theorem anyMember_eq (hs : s.WellFormed) {vs : List Value}
    (hvs : ∀ v ∈ vs, v.unhashableKind? = Option.none) :
    s.anyMember vs = .ok (vs.any (has s.toList)) := by
  induction vs with
  | nil => rfl
  | cons v vs ih =>
    obtain ⟨hv, hvs⟩ := List.forall_mem_cons.mp hvs
    rw [anyMember, contains_eq hv, ok_bind, mem_eq_has hs hv, List.any_cons]
    cases has s.toList v
    · exact ih hvs
    · rfl

theorem isDisjoint_set (hs : s.WellFormed) (ht : t.Valid) :
    s.isDisjoint (.set t) = .ok (decide (∀ v ∈ t.toList, has s.toList v = false)) := by
  simp only [isDisjoint, operandItems, anyMember_eq hs ht.proper.hashable, ok_bind]
  refine congrArg Except.ok ?_
  rw [List.not_any_eq_all_not, List.all_eq]
  simp

theorem isDisjoint_same (s : ArrivalSet) : s.isDisjoint .same = .ok s.toList.isEmpty := by
  rw [isDisjoint, size_eq]
  cases s.toList <;> rfl

/-- Equality with plain items asks whether some item is a member. -/
theorem equals_items {v : Value} (hs : s.WellFormed) (hv : (Operand.items v).Admissible) :
    s.equals (.items v) = .ok ((Operand.items v).members.any (has s.toList)) := by
  simp only [equals, isDisjoint, operandItems, items_eq_members hv,
    anyMember_eq hs (members_hashable hv), ok_bind]
  exact congrArg Except.ok (Bool.not_not _)

end ArrivalSet

section

open MemberList ArrivalSet

/-- **The binary operators of a valid set follow its member list.** With an admissible operand
(the set itself, a valid set, or a value whose items are all hashable) union, intersection,
difference and symmetric difference build valid sets whose members are given, in order, by
`Operand.unionOn`, `Operand.interOn`, `Operand.diffOn` and `Operand.symmDiffOn`; these hold the
union, intersection, difference and symmetric difference of the contents; and the comparisons
with a valid set are inclusions of contents, whatever the orders. -/
theorem set_operators_follow_member_list {s : ArrivalSet} {o : Operand} (hs : s.Valid)
    (ho : o.Admissible) :
    (∃ u, s.union o = .ok u ∧ u.Valid ∧ u.toList = o.unionOn s.toList) ∧
      (∃ u, s.inter o = .ok u ∧ u.Valid ∧ u.toList = o.interOn s.toList) ∧
      (∃ u, s.diff o = .ok u ∧ u.Valid ∧ u.toList = o.diffOn s.toList) ∧
      (∃ u, s.symmDiff o = .ok u ∧ u.Valid ∧ u.toList = o.symmDiffOn s.toList) ∧
      (∀ w, w.unhashableKind? = Option.none →
        has (o.unionOn s.toList) w = (has s.toList w || has (o.valuesOn s.toList) w) ∧
        has (o.interOn s.toList) w = (has s.toList w && has (o.valuesOn s.toList) w) ∧
        has (o.diffOn s.toList) w = (has s.toList w && !has (o.valuesOn s.toList) w) ∧
        has (o.symmDiffOn s.toList) w = (has s.toList w ^^ has (o.valuesOn s.toList) w)) ∧
      (∀ t : ArrivalSet, t.Valid →
        s.compareWith .le (.set t) = .ok (decide (Within s.toList t.toList)) ∧
        s.compareWith .lt (.set t) =
          .ok (decide (Within s.toList t.toList ∧ ¬Within t.toList s.toList)) ∧
        s.compareWith .ge (.set t) = .ok (decide (Within t.toList s.toList)) ∧
        s.compareWith .gt (.set t) =
          .ok (decide (Within t.toList s.toList ∧ ¬Within s.toList t.toList)) ∧
        s.isDisjoint (.set t) = .ok (decide (∀ v ∈ t.toList, has s.toList v = false))) ∧
      -- the set itself includes it and is not a proper part of it
      s.compareWith .le .same = .ok true ∧ s.compareWith .lt .same = .ok false ∧
      s.compareWith .ge .same = .ok true ∧ s.compareWith .gt .same = .ok false ∧
      s.isDisjoint .same = .ok s.toList.isEmpty := by
  have hM := hs.proper.hashable
  refine ⟨hs.union ho, hs.inter ho, hs.diff ho, hs.symmDiff ho, fun w hw => ?_, fun t ht => ?_,
    rfl, rfl, rfl, rfl, isDisjoint_same s⟩
  · exact ⟨Operand.has_unionOn ho hw, Operand.has_interOn ho hw, Operand.has_diffOn ho hw hM,
      Operand.has_symmDiffOn ho hw hM⟩
  · exact ⟨(compareWith_set hs ht).1, (compareWith_set hs ht).2.1, (compareWith_set hs ht).2.2.1,
      (compareWith_set hs ht).2.2.2, isDisjoint_set hs.wellFormed ht⟩

/-- The set `{"a", 1}` with the list `[1, "b", "b"]`: the union appends `"b"` once, the
symmetric difference keeps `"a"` and then `"b"`. -/
theorem set_operators_follow_member_list_pair :
    ((empty.push (.text [97])).push (.int 1)).Valid ∧
      (Operand.items (.list [.int 1, .text [98], .text [98]])).Admissible ∧
      (∃ u, ((empty.push (.text [97])).push (.int 1)).union
          (.items (.list [.int 1, .text [98], .text [98]])) = .ok u ∧
        u.toList = [.text [97], .int 1, .text [98]]) ∧
      ∃ u, ((empty.push (.text [97])).push (.int 1)).symmDiff
          (.items (.list [.int 1, .text [98], .text [98]])) = .ok u ∧
        u.toList = [.text [97], .text [98]] := by
  have h1 := valid_empty.push (v := .text [97]) rfl
  have h2 := h1.1.push (v := .int 1) rfl
  have ho : (Operand.items (.list [.int 1, .text [98], .text [98]])).Admissible :=
    ⟨_, rfl, by decide⟩
  obtain ⟨⟨u, hu, -, hul⟩, -, -, ⟨x, hx, -, hxl⟩, -⟩ := set_operators_follow_member_list h2.1 ho
  refine ⟨h2.1, ho, ⟨u, hu, ?_⟩, x, hx, ?_⟩
  · rw [hul, h2.2, h1.2]
    rfl
  · rw [hxl, h2.2, h1.2]
    rfl

/-- **Equality with a list is overlap.** A set equals a list of hashable values exactly when
some value of the list is a member: neither the other values nor the members missing from the
list count. -/
theorem equals_list {s : ArrivalSet} {l : List Value} (hs : s.WellFormed)
    (hl : ∀ x ∈ l, x.unhashableKind? = Option.none) :
    s.equals (.items (.list l)) = .ok (l.any (has s.toList)) :=
  equals_items hs ⟨l, rfl, hl⟩

theorem equals_list_of_shared_member :
    ((empty.push (.text [97])).WellFormed ∧ ∀ x ∈ [Value.text [98], .text [97]],
      x.unhashableKind? = Option.none) ∧
      (empty.push (.text [97])).equals (.items (.list [.text [98], .text [97]])) = .ok true := by
  have h1 := valid_empty.push (v := .text [97]) rfl
  have hl : ∀ x ∈ [Value.text [98], .text [97]], x.unhashableKind? = Option.none := by decide
  refine ⟨⟨h1.1.wellFormed, hl⟩, ?_⟩
  rw [equals_list h1.1.wellFormed hl, h1.2]
  rfl

/-- Equality with a list does not compare contents: the empty set is unequal to the empty list,
and `{"a"}` is equal to `["a", "b"]`. -/
theorem list_equality_is_overlap :
    empty.equals (.items (.list [])) = .ok false ∧
      (empty.push (.text [97])).equals (.items (.list [.text [97], .text [98]])) = .ok true := by
  have h1 := valid_empty.push (v := .text [97]) rfl
  refine ⟨rfl, ?_⟩
  rw [equals_items h1.1.wellFormed ⟨_, rfl, by decide⟩, h1.2]
  rfl

end

end Rfc6570
