import Rfc6570.ArrivalSet.Mutation
import Rfc6570.Proofs.Canonical
import Rfc6570.Proofs.Except

/-!
# Rfc6570 — the member list of an arrival set

An arrival set is meant to behave as a list of pairwise unequal hashable values, changed only
as follows: adding appends a value no member equals; discarding deletes the members equal to
a value; the in-place operations add, keep, delete or toggle the operand's values. This module
states that list model (`MemberList`) and proves that every operation of an arrival set keeps
the set well formed and changes its members exactly as the model says.

The set finds a value with a key (`Value.key?`) by key and any other value by comparing it
with the members, so the two searches must agree; they do because keys are read off the
canonical form that equality compares (`Value.key?_eq_some_iff`). In-place intersection
removes members as the members they are, so a value unequal to itself leaves too.
-/

namespace Rfc6570

namespace MemberList

/-- Some member equals `v`. -/
def has (M : List Value) (v : Value) : Bool := M.any (Value.equal v)

/-- Appends `v` unless some member equals it. -/
def add (M : List Value) (v : Value) : List Value := if has M v then M else M ++ [v]

/-- Appends the values in turn, each unless some member equals it. -/
def addAll (M vs : List Value) : List Value := vs.foldl add M

/-- Deletes the members equal to `v`. -/
def delete (M : List Value) (v : Value) : List Value := M.filter fun m => !v.equal m

/-- Deletes `v` when some member equals it, and adds it otherwise. -/
def toggleOne (M : List Value) (v : Value) : List Value :=
  if has M v then delete M v else add M v

/-- Deletes the members equal to one of `vs`. -/
def deleteAll (M vs : List Value) : List Value := M.filter fun m => !has vs m

/-- Keeps the members equal to one of `vs`. -/
def keepAll (M vs : List Value) : List Value := M.filter fun m => has vs m

/-- Deletes the members equal to one of `vs`, then appends the values of `vs` that no member
equals. -/
def toggle (M vs : List Value) : List Value := deleteAll M vs ++ vs.filter fun v => !has M v

/-- The member lists an arrival set keeps: hashable values, no two equal. -/
structure Proper (M : List Value) : Prop where
  hashable : ∀ v ∈ M, v.unhashableKind? = Option.none
  distinct : M.Pairwise fun a b => a.equal b = false

variable {M N vs : List Value} {v w : Value}

@[simp] theorem has_nil (v : Value) : has [] v = false := rfl

theorem has_eq_true_iff : has M v = true ↔ ∃ m ∈ M, v.equal m = true := by
  simp [has]

theorem has_append (M N : List Value) (v : Value) : has (M ++ N) v = (has M v || has N v) := by
  simp [has, List.any_append]

theorem has_cons (m : Value) (M : List Value) (v : Value) :
    has (m :: M) v = (v.equal m || has M v) := by
  simp [has]

/-- Equal values have the same members. -/
theorem has_congr (hv : v.unhashableKind? = Option.none) (hw : w.unhashableKind? = Option.none)
    (h : v.equal w = true) (M : List Value) : has M v = has M w := by
  have hwv : w.equal v = true := (Value.equal_comm hv hw).symm.trans h
  -- a member equal to one of the two is equal to the other, through it
  apply Bool.eq_iff_iff.mpr
  simp only [has_eq_true_iff]
  exact ⟨fun ⟨m, hm, hvm⟩ => ⟨m, hm, Value.equal_trans hw hv hwv hvm⟩,
    fun ⟨m, hm, hwm⟩ => ⟨m, hm, Value.equal_trans hv hw h hwm⟩⟩

@[simp] theorem deleteAll_nil (M : List Value) : deleteAll M [] = M :=
  List.filter_eq_self.mpr fun _ _ => rfl

theorem Proper.nil : Proper [] := ⟨by simp, List.Pairwise.nil⟩

theorem Proper.sublist (hM : Proper M) (h : N.Sublist M) : Proper N :=
  ⟨fun v hv => hM.hashable v (h.subset hv), hM.distinct.sublist h⟩

theorem Proper.filter (hM : Proper M) (p : Value → Bool) : Proper (M.filter p) :=
  hM.sublist List.filter_sublist

/-- Two members that are different values are unequal. -/
theorem Proper.unequal (hM : Proper M) (hv : v ∈ M) (hw : w ∈ M) (hne : v ≠ w) :
    v.equal w = false := by
  -- the pairs are unequal in both orders, since equality of hashable values is symmetric
  have hflip : M.Pairwise (flip fun a b => a ≠ b → a.equal b = false) := by
    refine hM.distinct.imp_of_mem ?_
    intro a b ha hb hab _
    show b.equal a = false
    rw [Value.equal_comm (hM.hashable b hb) (hM.hashable a ha), hab]
  have hpair : M.Pairwise fun a b => a ≠ b → a.equal b = false := by
    refine hM.distinct.imp ?_
    intro a b hab _
    exact hab
  exact hpair.forall_of_forall_of_flip (fun _ _ h => absurd rfl h) hflip hv hw hne

/-- Appending a hashable value that no member equals keeps the list proper. -/
theorem Proper.append_fresh (hM : Proper M) (hv : v.unhashableKind? = Option.none)
    (hnew : has M v = false) : Proper (M ++ [v]) := by
  refine ⟨fun u hu => ?_, ?_⟩
  · rcases List.mem_append.mp hu with hu | hu
    · exact hM.hashable u hu
    · rw [List.mem_singleton.mp hu]
      exact hv
  · refine List.pairwise_append.mpr ⟨hM.distinct, List.pairwise_singleton _ _, ?_⟩
    intro m hm u hu
    rw [List.mem_singleton.mp hu, Value.equal_comm (hM.hashable m hm) hv]
    simpa [has] using (List.any_eq_false.mp hnew) m hm

theorem Proper.add (hM : Proper M) (hv : v.unhashableKind? = Option.none) : Proper (add M v) := by
  unfold MemberList.add
  split
  · exact hM
  · exact hM.append_fresh hv (by simpa using ‹¬has M v = true›)

theorem Proper.addAll (hM : Proper M) (hvs : ∀ v ∈ vs, v.unhashableKind? = Option.none) :
    Proper (addAll M vs) := by
  induction vs generalizing M with
  | nil => exact hM
  | cons v vs ih =>
    obtain ⟨hv, hvs⟩ := List.forall_mem_cons.mp hvs
    exact ih (hM.add hv) hvs

@[simp] theorem addAll_nil (M : List Value) : addAll M [] = M := rfl

@[simp] theorem addAll_cons (M : List Value) (v : Value) (vs : List Value) :
    addAll M (v :: vs) = addAll (add M v) vs := rfl

/-- After adding `v`, the members are the old ones and the equals of `v`. -/
theorem has_add (hv : v.unhashableKind? = Option.none) (hw : w.unhashableKind? = Option.none)
    (M : List Value) : has (add M v) w = (has M w || w.equal v) := by
  unfold MemberList.add
  split
  · -- `v` is already there, so whatever equals `v` is there too
    rename_i hMv
    cases hwv : w.equal v with
    | false => simp
    | true => simp [has_congr hw hv hwv M, hMv]
  · simp [has]

theorem has_addAll (hw : w.unhashableKind? = Option.none)
    (hvs : ∀ v ∈ vs, v.unhashableKind? = Option.none) (M : List Value) :
    has (addAll M vs) w = (has M w || has vs w) := by
  induction vs generalizing M with
  | nil => simp
  | cons v vs ih =>
    obtain ⟨hv, hvs⟩ := List.forall_mem_cons.mp hvs
    rw [addAll_cons, ih hvs, has_add hv hw, has_cons, Bool.or_assoc]

/-- A member of a proper list is equal to none of the members at other positions. -/
theorem Proper.unequal_rest {A B : List Value} {w : Value}
    (hM : Proper (A ++ w :: B)) : ∀ m ∈ A ++ B, w.equal m = false := by
  obtain ⟨-, hwB, hAwB⟩ := List.pairwise_append.mp hM.distinct
  intro m hm
  rcases List.mem_append.mp hm with hmA | hmB
  · rw [Value.equal_comm (hM.hashable w (by simp)) (hM.hashable m (by simp [hmA]))]
    exact hAwB m hmA w List.mem_cons_self
  · exact (List.pairwise_cons.mp hwB).1 m hmB

/-- The first value of a proper list is equal to none of the others, from either side. -/
theorem Proper.head_unequal (hvs : Proper (v :: vs)) {u : Value} (hu : u ∈ vs) :
    v.equal u = false ∧ u.equal v = false := by
  have hvu : v.equal u = false := @Proper.unequal_rest [] vs v hvs u hu
  refine ⟨hvu, ?_⟩
  rw [Value.equal_comm (hvs.hashable u (List.mem_cons_of_mem v hu))
    (hvs.hashable v List.mem_cons_self), hvu]

theorem Proper.tail (hvs : Proper (v :: vs)) : Proper vs :=
  hvs.sublist (List.sublist_cons_self v vs)

theorem Proper.not_has_tail (hvs : Proper (v :: vs)) : has vs v = false := by
  rw [has, List.any_eq_false]
  intro u hu
  simp [(hvs.head_unequal hu).1]

/-- Pairwise unequal values that no member equals are all appended. -/
theorem addAll_of_fresh (hvs : Proper vs) (hfresh : ∀ v ∈ vs, has M v = false) :
    addAll M vs = M ++ vs := by
  induction vs generalizing M with
  | nil => simp
  | cons v vs ih =>
    have hv : has M v = false := hfresh v List.mem_cons_self
    rw [addAll_cons, MemberList.add, if_neg (by simp [hv]), ih hvs.tail]
    · simp
    · intro u hu
      rw [has_append, hfresh u (List.mem_cons_of_mem v hu), has_cons, (hvs.head_unequal hu).2]
      rfl

theorem addAll_nil_of_proper (hvs : Proper vs) : addAll [] vs = vs := by
  simpa using addAll_of_fresh hvs fun v _ => has_nil v

/-- Deleting the operand's values one at a time deletes them all. -/
theorem deleteAll_cons (hM : ∀ m ∈ M, m.unhashableKind? = Option.none)
    (hv : v.unhashableKind? = Option.none) (vs : List Value) :
    deleteAll M (v :: vs) = deleteAll (delete M v) vs := by
  unfold deleteAll delete
  rw [List.filter_filter]
  apply List.filter_congr
  intro m hm
  rw [has_cons, Value.equal_comm (hM m hm) hv]
  cases v.equal m <;> cases has vs m <;> rfl

theorem foldl_delete (hM : ∀ m ∈ M, m.unhashableKind? = Option.none)
    (hvs : ∀ v ∈ vs, v.unhashableKind? = Option.none) : vs.foldl delete M = deleteAll M vs := by
  induction vs generalizing M with
  | nil => exact (deleteAll_nil M).symm
  | cons v vs ih =>
    obtain ⟨hv, hvs⟩ := List.forall_mem_cons.mp hvs
    rw [List.foldl_cons, deleteAll_cons hM hv]
    exact ih (fun m hm => hM m (List.mem_filter.mp hm).1) hvs

theorem delete_of_not_has (h : has M v = false) : delete M v = M := by
  unfold delete
  rw [List.filter_eq_self]
  intro m hm
  simp [(List.any_eq_false.mp h) m hm]

/-- Deleting `v` does not touch the members equal to a value unequal to `v`. -/
theorem has_delete (hM : ∀ m ∈ M, m.unhashableKind? = Option.none)
    (hv : v.unhashableKind? = Option.none) (hw : w.unhashableKind? = Option.none)
    (hwv : w.equal v = false) : has (delete M v) w = has M w := by
  apply Bool.eq_iff_iff.mpr
  simp only [delete, has_eq_true_iff, List.mem_filter, Bool.not_eq_eq_eq_not, Bool.not_true]
  constructor
  · rintro ⟨m, ⟨hm, -⟩, hwm⟩
    exact ⟨m, hm, hwm⟩
  · rintro ⟨m, hm, hwm⟩
    refine ⟨m, ⟨hm, ?_⟩, hwm⟩
    cases hvm : v.equal m with
    | false => rfl
    | true =>
      -- were `m` equal to `v`, `w` would be equal to `v` through it
      have hmv : m.equal v = true := (Value.equal_comm (hM m hm) hv).trans hvm
      rw [Value.equal_trans hw (hM m hm) hwm hmv] at hwv
      cases hwv

theorem Proper.toggleOne (hM : Proper M) (hv : v.unhashableKind? = Option.none) :
    Proper (toggleOne M v) := by
  unfold MemberList.toggleOne
  split
  · exact hM.filter _
  · exact hM.add hv

/-- Toggling `v` and then the rest of a proper operand toggles the whole operand. -/
theorem toggle_toggleOne (hM : Proper M) (hvs : Proper (v :: vs)) :
    toggle (toggleOne M v) vs = toggle M (v :: vs) := by
  have hv : v.unhashableKind? = Option.none := hvs.hashable v List.mem_cons_self
  have hrest : ∀ u ∈ vs, u.unhashableKind? = Option.none := hvs.tail.hashable
  unfold toggle toggleOne
  rw [deleteAll_cons hM.hashable hv]
  cases hMv : has M v with
  | true =>
    -- `v` leaves; what the rest of the operand finds is what it found before
    rw [if_pos rfl, List.filter_cons_of_neg (by simp [hMv])]
    congr 1
    apply List.filter_congr
    intro u hu
    rw [has_delete hM.hashable hv (hrest u hu) (hvs.head_unequal hu).2]
  | false =>
    -- `v` is appended, and no value of the rest of the operand equals it
    have hrest_fresh : vs.filter (fun u => !has (M ++ [v]) u) = vs.filter fun u => !has M u := by
      apply List.filter_congr
      intro u hu
      rw [has_append, has_cons, (hvs.head_unequal hu).2]
      simp
    rw [if_neg (by simp), delete_of_not_has hMv, MemberList.add, if_neg (by simp [hMv]),
      List.filter_cons_of_pos (by simp [hMv]), hrest_fresh]
    unfold deleteAll
    rw [List.filter_append, List.filter_cons_of_pos (by simp [hvs.not_has_tail])]
    simp

/-- Toggling the values of a proper operand one at a time toggles them all. -/
theorem foldl_toggleOne (hM : Proper M) (hvs : Proper vs) : vs.foldl toggleOne M = toggle M vs := by
  -- on the operand, from any proper list: each toggle keeps the list proper
  induction vs generalizing M with
  | nil => simp [toggle]
  | cons v vs ih =>
    rw [List.foldl_cons, ih (hM.toggleOne (hvs.hashable v List.mem_cons_self)) hvs.tail,
      toggle_toggleOne hM hvs]

end MemberList

namespace ArrivalSet

open MemberList

/-- A well-formed set whose member list is proper. -/
structure Valid (s : ArrivalSet) : Prop where
  wellFormed : s.WellFormed
  proper : Proper s.toList

variable {s : ArrivalSet} {v : Value}

/-- **Lookup agrees with the member list**: a well-formed set finds a hashable value exactly
when some member equals it, whether it looks by key or compares. -/
theorem mem_eq_has (hs : s.WellFormed) (hv : v.unhashableKind? = Option.none) :
    s.mem v = has s.toList v := by
  unfold mem
  cases hk : v.key? with
  | none => simp [has, toList]
  | some k =>
    -- the keyed members with key `k` are exactly the members equal to `v`
    apply Bool.eq_iff_iff.mpr
    rw [Std.HashSet.contains_iff_mem, hs k, has_eq_true_iff]
    constructor
    · rintro ⟨m, hm, hmk⟩
      exact ⟨m, hm, (Value.equal_iff_key?_eq hv hmk).mpr hk⟩
    · rintro ⟨m, hm, hvm⟩
      exact ⟨m, hm, (Value.key?_eq_of_equal hv hvm).symm.trans hk⟩

theorem valid_empty : empty.Valid :=
  ⟨fun k => by simp [empty, toList], Proper.nil⟩

theorem WellFormed.push (hs : s.WellFormed) (v : Value) : (s.push v).WellFormed := by
  unfold ArrivalSet.push
  split
  · exact hs
  · intro k
    cases hk : v.key? with
    | none => simp [toList, hs k, hk]
    | some k' =>
      rw [Std.HashSet.mem_insert, beq_iff_eq, hs k]
      simp only [toList, Array.toList_push, List.mem_append, List.mem_singleton, or_and_right,
        exists_or, exists_eq_left, hk, Option.some.injEq]
      exact or_comm

/-- Pushing a hashable value keeps a set valid and adds the value to its member list. -/
theorem Valid.push (hs : s.Valid) (hv : v.unhashableKind? = Option.none) :
    (s.push v).Valid ∧ (s.push v).toList = MemberList.add s.toList v := by
  have hlist : (s.push v).toList = MemberList.add s.toList v := by
    rw [toList_push, mem_eq_has hs.wellFormed hv]
    rfl
  refine ⟨⟨hs.wellFormed.push v, ?_⟩, hlist⟩
  rw [hlist]
  exact hs.proper.add hv

theorem toList_erase (hs : s.WellFormed) (hv : v.unhashableKind? = Option.none) :
    (s.erase v).toList = delete s.toList v := by
  unfold ArrivalSet.erase
  split
  · simp [toList, delete]
  · -- not found, so no member equals `v`
    rw [delete_of_not_has (by rwa [← mem_eq_has hs hv, Bool.not_eq_true] at *)]

/-- **Removal keeps a set well formed**: a set whose keys are a well-formed set's keys less the
keys that go, and whose members are that set's members less those with a key that goes (the
members without a key being free to go or stay), is well formed. -/
theorem WellFormed.of_drop (hs : s.WellFormed) {t : ArrivalSet} (gone : Key → Prop)
    (hkeys : ∀ k, k ∈ t.keys ↔ k ∈ s.keys ∧ ¬gone k)
    (hmem : ∀ m k, m.key? = some k → (m ∈ t.toList ↔ m ∈ s.toList ∧ ¬gone k)) :
    t.WellFormed := by
  intro k
  rw [hkeys, hs k]
  constructor
  · rintro ⟨⟨m, hm, hmk⟩, hk⟩
    exact ⟨m, (hmem m k hmk).mpr ⟨hm, hk⟩, hmk⟩
  · rintro ⟨m, hm, hmk⟩
    obtain ⟨hm, hk⟩ := (hmem m k hmk).mp hm
    exact ⟨⟨m, hm, hmk⟩, hk⟩

/-- Erasing a member drops its key. -/
theorem mem_erase_keys (h : s.mem v = true) (k : Key) :
    k ∈ (s.erase v).keys ↔ k ∈ s.keys ∧ v.key? ≠ some k := by
  unfold ArrivalSet.erase
  rw [if_pos h]
  cases v.key? with
  | none => simp
  | some kv =>
    simp only [Std.HashSet.mem_erase, beq_eq_false_iff_ne, ne_eq, Option.some.injEq]
    exact and_comm

theorem WellFormed.erase (hs : s.WellFormed) (hv : v.unhashableKind? = Option.none) :
    (s.erase v).WellFormed := by
  by_cases hmem : s.mem v = true
  · -- a member with key `k` goes exactly when `v` has key `k`
    refine hs.of_drop (fun k => v.key? = some k) (mem_erase_keys hmem) fun m k hmk => ?_
    rw [toList_erase hs hv, delete, List.mem_filter, Bool.not_eq_true', ← Bool.not_eq_true,
      Value.equal_iff_key?_eq hv hmk]
  · rw [ArrivalSet.erase, if_neg hmem]
    exact hs

/-- Erasing keeps a set valid and deletes the members equal to the value. -/
theorem Valid.erase (hs : s.Valid) (hv : v.unhashableKind? = Option.none) :
    (s.erase v).Valid ∧ (s.erase v).toList = delete s.toList v := by
  have hlist := toList_erase hs.wellFormed hv
  refine ⟨⟨hs.wellFormed.erase hv, ?_⟩, hlist⟩
  rw [hlist]
  exact hs.proper.filter _

theorem toList_eraseAt {A B : List Value} {w : Value} (hM : s.toList = A ++ w :: B) :
    (s.eraseAt A.length w).toList = A ++ B := by
  show (s.members.eraseIdxIfInBounds A.length).toList = A ++ B
  rw [Array.toList_eraseIdxIfInBounds, ← toList, hM, List.eraseIdx_append_of_length_le le_rfl]
  simp

/-- Erasing at a position drops the key of the value given. -/
theorem mem_eraseAt_keys (s : ArrivalSet) (i : Nat) (w : Value) (k : Key) :
    k ∈ (s.eraseAt i w).keys ↔ k ∈ s.keys ∧ w.key? ≠ some k := by
  unfold ArrivalSet.eraseAt
  cases w.key? with
  | none => simp
  | some kw =>
    simp only [Std.HashSet.mem_erase, beq_eq_false_iff_ne, ne_eq, Option.some.injEq]
    exact and_comm

/-- Removing one member, with its key, keeps a set well formed when no other member equals
it. -/
theorem WellFormed.eraseAt (hs : s.WellFormed) {A B : List Value} {w : Value}
    (hM : s.toList = A ++ w :: B) (hw : w.unhashableKind? = Option.none)
    (hne : ∀ m ∈ A ++ B, w.equal m = false) : (s.eraseAt A.length w).WellFormed := by
  refine hs.of_drop (fun k => w.key? = some k) (mem_eraseAt_keys s A.length w) fun m k hmk => ?_
  rw [toList_eraseAt hM, hM]
  constructor
  · intro hm
    refine ⟨by rcases List.mem_append.mp hm with h | h <;> simp [h], fun hwk => ?_⟩
    -- another member with the key of `w` would be equal to `w`
    have hwm := hne m hm
    rw [(Value.equal_iff_key?_eq hw hmk).mpr hwk] at hwm
    cases hwm
  · rintro ⟨hm, hwk⟩
    rcases List.mem_append.mp hm with hmA | hmwB
    · exact List.mem_append_left B hmA
    · rcases List.mem_cons.mp hmwB with rfl | hmB
      · exact absurd hmk hwk
      · exact List.mem_append_right A hmB

theorem Valid.eraseAt {A B : List Value} {w : Value} (hs : s.Valid)
    (hM : s.toList = A ++ w :: B) :
    (s.eraseAt A.length w).Valid ∧ (s.eraseAt A.length w).toList = A ++ B := by
  have hproper : Proper (A ++ w :: B) := hM ▸ hs.proper
  have hlist := toList_eraseAt hM
  refine ⟨⟨hs.wellFormed.eraseAt hM (hproper.hashable w (by simp)) hproper.unequal_rest, ?_⟩, hlist⟩
  rw [hlist]
  exact hproper.sublist (List.Sublist.append_left (List.sublist_cons_self w B) A)

/-- **Popping** takes the last member, or the first when `last` is false, and leaves a valid
set of the others. -/
theorem Valid.pop {last : Bool} {w : Value} {t : ArrivalSet} (hs : s.Valid)
    (h : s.pop last = .ok (w, t)) :
    (if last then s.toList.getLast? else s.toList.head?) = some w ∧ t.Valid ∧
      t.toList = if last then s.toList.dropLast else s.toList.tail := by
  unfold ArrivalSet.pop at h
  split at h
  · cases h
  · rename_i w' hw'
    obtain ⟨rfl, rfl⟩ : w' = w ∧ s.eraseAt (if last then s.size - 1 else 0) w' = t := by
      simpa using h
    refine ⟨hw', ?_⟩
    cases last with
    | true =>
      -- the last member sits after all the others
      obtain ⟨A, hA⟩ := List.getLast?_eq_some_iff.mp hw'
      have hsize : s.size - 1 = A.length := by
        rw [size, ← Array.length_toList, ← toList, hA]
        simp
      have hM : s.toList = A ++ w' :: [] := hA
      simp only [if_true, hsize, hA, List.dropLast_concat]
      simpa using hs.eraseAt hM
    | false =>
      obtain ⟨B, hB⟩ := List.head?_eq_some_iff.mp hw'
      have hM : s.toList = [] ++ w' :: B := hB
      simp only [Bool.false_eq_true, if_false, hB, List.tail_cons]
      simpa using hs.eraseAt hM

/-- Popping fails exactly on an empty set. -/
theorem pop_eq_error_iff (last : Bool) :
    (∃ f, s.pop last = .error f) ↔ s.toList = [] := by
  unfold ArrivalSet.pop
  split
  · rename_i hnone
    simp only [Except.error.injEq, exists_eq', true_iff]
    cases last <;> simpa using hnone
  · rename_i w hw
    simp only [reduceCtorEq, exists_false, false_iff]
    intro hnil
    cases last <;> simp [hnil] at hw

/-- Retaining drops the keys of the removed members, and only those. -/
theorem mem_retain_keys (s : ArrivalSet) (keep : Value → Bool) (k : Key) :
    k ∈ (s.retain keep).keys ↔
      k ∈ s.keys ∧ ¬∃ w ∈ s.toList, keep w = false ∧ w.key? = some k := by
  unfold ArrivalSet.retain
  -- the keys are erased one removed member at a time, by any step that erases the member's key
  have hfold : ∀ (step : Std.HashSet Key → Value → Std.HashSet Key),
      (∀ ks w, k ∈ step ks w ↔ k ∈ ks ∧ w.key? ≠ some k) →
      ∀ (ws : List Value) (ks : Std.HashSet Key),
        k ∈ ws.foldl step ks ↔ k ∈ ks ∧ ∀ w ∈ ws, w.key? ≠ some k := by
    intro step hstep ws
    induction ws with
    | nil => simp
    | cons w ws ih =>
      intro ks
      rw [List.foldl_cons, ih, hstep, List.forall_mem_cons, and_assoc]
  refine (hfold _ (fun ks w => ?_) _ s.keys).trans ?_
  · cases hw : w.key? with
    | none => simp
    | some kw =>
      simp only [Std.HashSet.mem_erase, beq_eq_false_iff_ne, ne_eq, Option.some.injEq]
      exact and_comm
  simp

theorem Valid.retain (hs : s.Valid) (keep : Value → Bool) :
    (s.retain keep).Valid ∧ (s.retain keep).toList = s.toList.filter keep := by
  have hlist : (s.retain keep).toList = s.toList.filter keep := by
    show (s.members.filter keep).toList = _
    simp [toList]
  refine ⟨⟨?_, hlist ▸ hs.proper.filter keep⟩, hlist⟩
  refine hs.wellFormed.of_drop (fun k => ∃ w ∈ s.toList, keep w = false ∧ w.key? = some k)
    (mem_retain_keys s keep) fun m k hmk => ?_
  rw [hlist, List.mem_filter]
  constructor
  · rintro ⟨hm, hkeep⟩
    refine ⟨hm, ?_⟩
    rintro ⟨w, hw, hgone, hwk⟩
    -- a removed member with the key of `m` would be a second member equal to `m`
    have hne : m ≠ w := fun h => by simp [h, hgone] at hkeep
    have hmw := hs.proper.unequal hm hw hne
    rw [Value.equal_of_key?_eq hmk hwk] at hmw
    cases hmw
  · rintro ⟨hm, hk⟩
    -- a kept-out member with key `k` would make `k` go
    cases hkeep : keep m with
    | false => exact absurd ⟨m, hm, hkeep, hmk⟩ hk
    | true => exact ⟨hm, rfl⟩

/-! ## Checked changes and changes made value by value -/

theorem hashable_eq (hv : v.unhashableKind? = Option.none) : hashable v = .ok () := by
  simp [hashable, hv]

theorem add_eq (hv : v.unhashableKind? = Option.none) : s.add v = .ok (s.push v) := by
  simp [ArrivalSet.add, hashable_eq hv]

theorem discard_eq (hv : v.unhashableKind? = Option.none) : s.discard v = .ok (s.erase v) := by
  simp [ArrivalSet.discard, hashable_eq hv]

theorem contains_eq (hv : v.unhashableKind? = Option.none) : s.contains v = .ok (s.mem v) := by
  simp [ArrivalSet.contains, hashable_eq hv]

theorem remove_eq (hv : v.unhashableKind? = Option.none) :
    s.remove v =
      if s.mem v then .ok (s.erase v) else .error (.missingKey ((v.repr).toOption.getD [])) := by
  rw [ArrivalSet.remove, hashable_eq hv]
  rfl

/-- A change made value by value, where each value's step follows a step of the member list,
keeps a set valid and follows the fold of the list steps. -/
theorem Valid.foldl {f : ArrivalSet → Value → ArrivalSet} {g : List Value → Value → List Value}
    (hstep : ∀ s v, s.Valid → v.unhashableKind? = Option.none →
      (f s v).Valid ∧ (f s v).toList = g s.toList v)
    {vs : List Value} (hvs : ∀ v ∈ vs, v.unhashableKind? = Option.none) (hs : s.Valid) :
    (vs.foldl f s).Valid ∧ (vs.foldl f s).toList = vs.foldl g s.toList := by
  induction vs generalizing s with
  | nil => exact ⟨hs, rfl⟩
  | cons v vs ih =>
    obtain ⟨hv, hvs⟩ := List.forall_mem_cons.mp hvs
    obtain ⟨hvalid, hlist⟩ := hstep s v hs hv
    rw [List.foldl_cons, List.foldl_cons, ← hlist]
    exact ih hvs hvalid

variable {vs : List Value}

theorem addEach_eq (hvs : ∀ v ∈ vs, v.unhashableKind? = Option.none) :
    s.addEach vs = (vs.foldl push s, Option.none) := by
  induction vs generalizing s with
  | nil => rfl
  | cons v vs ih =>
    obtain ⟨hv, hvs⟩ := List.forall_mem_cons.mp hvs
    rw [addEach, add_eq hv, List.foldl_cons]
    exact ih hvs

theorem addAll_eq (hvs : ∀ v ∈ vs, v.unhashableKind? = Option.none) :
    s.addAll vs = .ok (vs.foldl push s) := by
  induction vs generalizing s with
  | nil => rfl
  | cons v vs ih =>
    obtain ⟨hv, hvs⟩ := List.forall_mem_cons.mp hvs
    rw [addAll, add_eq hv, List.foldl_cons]
    exact ih hvs

theorem discardEach_eq (hvs : ∀ v ∈ vs, v.unhashableKind? = Option.none) :
    s.discardEach vs = (vs.foldl erase s, Option.none) := by
  induction vs generalizing s with
  | nil => rfl
  | cons v vs ih =>
    obtain ⟨hv, hvs⟩ := List.forall_mem_cons.mp hvs
    rw [discardEach, discard_eq hv, List.foldl_cons]
    exact ih hvs

/-- One toggle: erase a member, push a value that is not one. -/
def toggleStep (s : ArrivalSet) (v : Value) : ArrivalSet := if s.mem v then s.erase v else s.push v

theorem toggleAll_cons (hv : v.unhashableKind? = Option.none) (vs : List Value) :
    s.toggleAll (v :: vs) = (toggleStep s v).toggleAll vs := by
  rw [toggleAll, contains_eq hv, discard_eq hv, add_eq hv, toggleStep]
  cases s.mem v <;> rfl

theorem toggleAll_eq (hvs : ∀ v ∈ vs, v.unhashableKind? = Option.none) :
    s.toggleAll vs = .ok (vs.foldl toggleStep s) := by
  induction vs generalizing s with
  | nil => rfl
  | cons v vs ih =>
    obtain ⟨hv, hvs⟩ := List.forall_mem_cons.mp hvs
    rw [toggleAll_cons hv, List.foldl_cons]
    exact ih hvs

theorem Valid.foldl_push (hs : s.Valid) (hvs : ∀ v ∈ vs, v.unhashableKind? = Option.none) :
    (vs.foldl ArrivalSet.push s).Valid ∧
      (vs.foldl ArrivalSet.push s).toList = MemberList.addAll s.toList vs :=
  Valid.foldl (fun _ _ hs hv => hs.push hv) hvs hs

theorem Valid.foldl_erase (hs : s.Valid) (hvs : ∀ v ∈ vs, v.unhashableKind? = Option.none) :
    (vs.foldl ArrivalSet.erase s).Valid ∧
      (vs.foldl ArrivalSet.erase s).toList = deleteAll s.toList vs := by
  rw [← foldl_delete hs.proper.hashable hvs]
  exact Valid.foldl (fun _ _ hs hv => hs.erase hv) hvs hs

theorem Valid.foldl_toggleStep (hs : s.Valid) (hvs : Proper vs) :
    (vs.foldl toggleStep s).Valid ∧ (vs.foldl toggleStep s).toList = toggle s.toList vs := by
  rw [← foldl_toggleOne hs.proper hvs]
  refine Valid.foldl (fun t v ht hv => ?_) hvs.hashable hs
  unfold toggleStep toggleOne
  rw [mem_eq_has ht.wellFormed hv]
  split
  · exact ht.erase hv
  · exact ht.push hv

/-- **Construction**: the set of a value's hashable items is valid, and its member list holds
the items in order of first appearance. -/
theorem ofItems_eq {x : Value} (hx : x.items? = some vs)
    (hvs : ∀ v ∈ vs, v.unhashableKind? = Option.none) :
    ∃ s, ofItems x = .ok s ∧ s.Valid ∧ s.toList = MemberList.addAll [] vs := by
  refine ⟨vs.foldl ArrivalSet.push empty, ?_, valid_empty.foldl_push hvs⟩
  rw [ofItems, Value.items, hx, ok_bind, addAll_eq hvs]

end ArrivalSet

end Rfc6570
