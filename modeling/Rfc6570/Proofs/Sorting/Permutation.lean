import Rfc6570.Sorting.Schedule
import Rfc6570.Proofs.Sorting.Search

/-!
# Rfc6570 — sorting keeps the items

Every step of the sort moves items and never makes or loses one, whatever the comparisons
answer: a natural run and the rest of the list are the list; binary insertion inserts; a merge
from the front or from the back writes what it holds; merging the stack merges neighbours. So a
sort that succeeds returns a permutation of its input (`sortBy_perm`), with any comparison at
all: one that is not an order, or one that refuses some pairs and happens not to be asked
about them.

Each merge loop is followed through a list of the items it still holds (`lowItems`,
`highItems`); each way the loop can write items is one lemma about that list.

## Results

* `sortBy_perm` — a sort that succeeds returns a permutation of its input.
* `mergeAt_perm`, `collapseAll_perm` — merging keeps the items of the runs merged.
-/

namespace Rfc6570.Sorting

variable {ε α : Type}

/-! ## Runs -/

theorem ascending_append {lt : α → α → Except ε Bool} (prev : α) (xs : List α) {run rest : List α}
    (h : ascending lt prev xs = .ok (run, rest)) : run ++ rest = xs := by
  induction xs generalizing prev run rest with
  | nil =>
    simp only [ascending, Except.ok.injEq, Prod.mk.injEq] at h
    obtain ⟨rfl, rfl⟩ := h
    rfl
  | cons x xs ih =>
    simp only [ascending] at h
    obtain ⟨c, -, h⟩ := bind_eq_ok.mp h
    cases c
    · obtain ⟨⟨run', rest'⟩, h1, h2⟩ := bind_eq_ok.mp (by simpa using h)
      simp only [Except.ok.injEq, Prod.mk.injEq] at h2
      obtain ⟨rfl, rfl⟩ := h2
      simp [ih x h1]
    · simp only [if_true, Except.ok.injEq, Prod.mk.injEq] at h
      obtain ⟨rfl, rfl⟩ := h
      rfl

theorem descending_append {lt : α → α → Except ε Bool} (prev : α) (xs : List α) {run rest : List α}
    (h : descending lt prev xs = .ok (run, rest)) : run ++ rest = xs := by
  induction xs generalizing prev run rest with
  | nil =>
    simp only [descending, Except.ok.injEq, Prod.mk.injEq] at h
    obtain ⟨rfl, rfl⟩ := h
    rfl
  | cons x xs ih =>
    simp only [descending] at h
    obtain ⟨c, -, h⟩ := bind_eq_ok.mp h
    cases c
    · simp only [Bool.false_eq_true, if_false, Except.ok.injEq, Prod.mk.injEq] at h
      obtain ⟨rfl, rfl⟩ := h
      rfl
    · obtain ⟨⟨run', rest'⟩, h1, h2⟩ := bind_eq_ok.mp (by simpa using h)
      simp only [Except.ok.injEq, Prod.mk.injEq] at h2
      obtain ⟨rfl, rfl⟩ := h2
      simp [ih x h1]

/-- A natural run and the rest hold the items of the list; a list with items has a run with
items. -/
theorem naturalRun_perm {lt : α → α → Except ε Bool} {xs run rest : List α}
    (h : naturalRun lt xs = .ok (run, rest)) : (run ++ rest).Perm xs ∧ (xs = [] ∨ run ≠ []) := by
  match xs, h with
  | [], h =>
    simp only [naturalRun, Except.ok.injEq, Prod.mk.injEq] at h
    obtain ⟨rfl, rfl⟩ := h
    exact ⟨List.Perm.refl _, .inl rfl⟩
  | [x], h =>
    simp only [naturalRun, Except.ok.injEq, Prod.mk.injEq] at h
    obtain ⟨rfl, rfl⟩ := h
    exact ⟨List.Perm.refl _, .inr (List.cons_ne_nil _ _)⟩
  | x :: y :: zs, h =>
    simp only [naturalRun] at h
    obtain ⟨c, -, h⟩ := bind_eq_ok.mp h
    cases c
    · -- not descending: an ascending run
      obtain ⟨⟨run', rest'⟩, h1, h2⟩ := bind_eq_ok.mp (by simpa using h)
      simp only [Except.ok.injEq, Prod.mk.injEq] at h2
      obtain ⟨rfl, rfl⟩ := h2
      refine ⟨?_, .inr (List.cons_ne_nil _ _)⟩
      simp [← ascending_append y zs h1]
    · -- a strictly descending run, reversed
      obtain ⟨⟨run', rest'⟩, h1, h2⟩ := bind_eq_ok.mp (by simpa using h)
      simp only [Except.ok.injEq, Prod.mk.injEq] at h2
      obtain ⟨rfl, rfl⟩ := h2
      refine ⟨?_, .inr (by simp)⟩
      rw [← descending_append y zs h1]
      simpa using (List.reverse_perm (x :: y :: run')).append_right rest'


/-- Binary insertion keeps the items. -/
theorem insertAll_perm {lt : α → α → Except ε Bool} (run : Array α) (xs : List α) {r : Array α}
    (h : insertAll lt run xs = .ok r) : r.toList.Perm (run.toList ++ xs) := by
  induction xs generalizing run with
  | nil =>
    simp only [insertAll, Except.ok.injEq] at h
    subst h
    simp
  | cons x xs ih =>
    simp only [insertAll] at h
    obtain ⟨i, hi, h⟩ := bind_eq_ok.mp h
    -- the place found is inside the run, so the item is inserted
    have hle : i ≤ run.size := bisect_le hi (.inl (Nat.zero_le _))
    have hins : run.insertIdxIfInBounds i x = run.insertIdx i x hle := by
      simp [Array.insertIdxIfInBounds, hle]
    rw [hins] at h
    refine (ih _ h).trans ?_
    rw [Array.toList_insertIdx]
    exact ((List.perm_insertIdx x run.toList (by simpa using hle)).append_right xs).trans
      List.perm_middle.symm

/-! ## Merging from the front -/

/-- The items a merge from the front holds: those written, then those left in `a` from `ia`,
then those left in `b` from `ib`. -/
def lowItems (a b out : Array α) (ia ib : Nat) : List α :=
  out.toList ++ a.toList.drop ia ++ b.toList.drop ib

theorem lowItems_take_a (a b out : Array α) (ia ib k : Nat) :
    lowItems a b (out ++ a.extract ia (ia + k)) (ia + k) ib = lowItems a b out ia ib := by
  simp only [lowItems, Array.toList_append, Array.toList_extract, List.extract_eq_take_drop,
    Nat.add_sub_cancel_left, List.append_assoc]
  rw [← List.drop_drop, ← List.append_assoc (List.take k _), List.take_append_drop]

theorem lowItems_take_b (a b out : Array α) (ia ib k : Nat) :
    (lowItems a b (out ++ b.extract ib (ib + k)) ia (ib + k)).Perm (lowItems a b out ia ib) := by
  simp only [lowItems, Array.toList_append, Array.toList_extract, List.extract_eq_take_drop,
    Nat.add_sub_cancel_left, List.append_assoc]
  refine List.Perm.append_left _ ((List.perm_append_comm_assoc _ _ _).trans ?_)
  rw [← List.drop_drop, List.take_append_drop]

theorem lowItems_push_a (a b out : Array α) {ia : Nat} {x : α} (ib : Nat) (hx : a[ia]? = some x) :
    lowItems a b (out.push x) (ia + 1) ib = lowItems a b out ia ib := by
  obtain ⟨hia, rfl⟩ := Array.getElem?_eq_some_iff.mp hx
  simp only [lowItems, Array.toList_push, List.append_assoc, List.singleton_append]
  rw [List.drop_eq_getElem_cons (by simpa using hia : ia < a.toList.length)]
  simp

theorem lowItems_push_b (a b out : Array α) (ia : Nat) {ib : Nat} {y : α} (hy : b[ib]? = some y) :
    (lowItems a b (out.push y) ia (ib + 1)).Perm (lowItems a b out ia ib) := by
  obtain ⟨hib, rfl⟩ := Array.getElem?_eq_some_iff.mp hy
  simp only [lowItems, Array.toList_push, List.append_assoc, List.singleton_append]
  rw [List.drop_eq_getElem_cons (by simpa using hib : ib < b.toList.length)]
  exact List.Perm.append_left _ List.perm_middle.symm

theorem finishLow_perm (out a b : Array α) (ia ib : Nat) :
    (finishLow out a b ia ib).toList.Perm (lowItems a b out ia ib) := by
  simp only [finishLow, lowItems, Array.toList_append, Array.toList_extract,
    List.extract_eq_take_drop, List.append_assoc]
  rw [List.take_of_length_le (by simp), List.take_of_length_le (by simp)]
  exact List.Perm.append_left _ List.perm_append_comm

/-- A merge from the front writes the items it holds, whatever the comparisons answer. -/
theorem lowLoop_perm {lt : α → α → Except ε Bool} {a b : Array α} (fuel : Nat) :
    ∀ {out : Array α} {ia ib threshold : Nat} {pace : Pace} {r : Array α} {t : Nat},
      lowLoop lt a b fuel out ia ib threshold pace = .ok (r, t) →
        r.toList.Perm (lowItems a b out ia ib) := by
  induction fuel with
  | zero =>
    intro out ia ib threshold pace r t h
    simp only [lowLoop, Except.ok.injEq, Prod.mk.injEq] at h
    rw [← h.1]
    exact finishLow_perm _ _ _ _ _
  | succ fuel ih =>
    intro out ia ib threshold pace r t h
    simp only [lowLoop] at h
    split at h
    · rename_i x y hx hy
      split at h
      · -- one item at a time
        obtain ⟨c, -, h⟩ := bind_eq_ok.mp h
        cases c
        · -- the item of `a` is written
          have hmove := lowItems_push_a a b out ib hx
          simp only [Bool.false_eq_true, if_false] at h
          split at h
          · simp only [Except.ok.injEq, Prod.mk.injEq] at h
            rw [← h.1, ← hmove]
            exact finishLow_perm _ _ _ _ _
          · split at h <;> exact hmove ▸ ih h
        · -- the item of `b` is written
          have hmove := lowItems_push_b a b out ia hy
          simp only [if_true] at h
          split at h
          · simp only [Except.ok.injEq, Prod.mk.injEq] at h
            rw [← h.1]
            exact (finishLow_perm _ _ _ _ _).trans hmove
          · split at h <;> exact (ih h).trans hmove
      · -- galloping: a block of `a`, the item of `b`, a block of `b`, the item of `a`
        obtain ⟨k, -, h⟩ := bind_eq_ok.mp h
        have hmove1 := lowItems_take_a a b out ia ib k
        split at h
        · simp only [Except.ok.injEq, Prod.mk.injEq] at h
          rw [← h.1, ← hmove1]
          exact finishLow_perm _ _ _ _ _
        · rename_i hk
          have hmove2 := (lowItems_push_b a b (out ++ a.extract ia (ia + k)) (ia + k) hy).trans
            (List.Perm.of_eq hmove1)
          split at h
          · simp only [Except.ok.injEq, Prod.mk.injEq] at h
            rw [← h.1]
            exact (finishLow_perm _ _ _ _ _).trans hmove2
          · obtain ⟨k', -, h⟩ := bind_eq_ok.mp h
            have hmove3 := (lowItems_take_b a b ((out ++ a.extract ia (ia + k)).push y) (ia + k)
              (ib + 1) k').trans hmove2
            split at h
            · simp only [Except.ok.injEq, Prod.mk.injEq] at h
              rw [← h.1]
              exact (finishLow_perm _ _ _ _ _).trans hmove3
            · -- the next item of `a` is inside `a`, since at least two were left
              have hx' : a[ia + k]? = some (a.getD (ia + k) x) := by
                have : ia + k < a.size := by omega
                simp [this]
              rw [← lowItems_push_a _ _ _ _ hx'] at hmove3
              split at h
              · simp only [Except.ok.injEq, Prod.mk.injEq] at h
                rw [← h.1]
                exact (finishLow_perm _ _ _ _ _).trans hmove3
              · split at h <;> exact (ih h).trans hmove3
    · simp only [Except.ok.injEq, Prod.mk.injEq] at h
      rw [← h.1]
      exact finishLow_perm _ _ _ _ _

/-! ## Merging from the back -/

/-- The items a merge from the back holds: the first `na` of `a`, the first `nb` of `b`, then
those written. -/
def highItems (a b : Array α) (out : List α) (na nb : Nat) : List α :=
  a.toList.take na ++ b.toList.take nb ++ out

theorem highItems_push_a (a b : Array α) (out : List α) {na : Nat} {x : α} (nb : Nat)
    (hx : a[na]? = some x) :
    (highItems a b (x :: out) na nb).Perm (highItems a b out (na + 1) nb) := by
  simp only [highItems, List.take_add_one, Array.getElem?_toList, hx, Option.toList_some,
    List.append_assoc, List.singleton_append]
  exact List.Perm.append_left _ List.perm_middle

theorem highItems_push_b (a b : Array α) (out : List α) (na : Nat) {nb : Nat} {y : α}
    (hy : b[nb]? = some y) :
    (highItems a b (y :: out) na nb).Perm (highItems a b out na (nb + 1)) := by
  simp only [highItems, List.take_add_one, Array.getElem?_toList, hy, Option.toList_some,
    List.append_assoc, List.singleton_append, List.Perm.refl]

theorem highItems_give_a (a b : Array α) (out : List α) {na k : Nat} (nb : Nat) (hk : k ≤ na) :
    (highItems a b ((a.extract (na - k) na).toList ++ out) (na - k) nb).Perm
      (highItems a b out na nb) := by
  simp only [highItems, Array.toList_extract, List.extract_eq_take_drop, Nat.sub_sub_self hk,
    List.append_assoc]
  conv => rhs; rw [← Nat.sub_add_cancel hk, List.take_add, List.append_assoc]
  exact List.Perm.append_left _ (List.perm_append_comm_assoc _ _ _)

theorem highItems_give_b (a b : Array α) (out : List α) (na : Nat) {nb k : Nat} (hk : k ≤ nb) :
    highItems a b ((b.extract (nb - k) nb).toList ++ out) na (nb - k) = highItems a b out na nb := by
  simp only [highItems, Array.toList_extract, List.extract_eq_take_drop, Nat.sub_sub_self hk,
    List.append_assoc]
  conv => rhs; rw [← Nat.sub_add_cancel hk, List.take_add, List.append_assoc]

theorem finishHigh_perm (out : List α) (a b : Array α) (na nb : Nat) :
    (finishHigh out a b na nb).Perm (highItems a b out na nb) := by
  simp only [finishHigh, highItems, Array.toList_extract, List.extract_eq_take_drop,
    List.drop_zero, Nat.sub_zero]
  exact List.perm_append_comm.append_right _

/-- A merge from the back writes the items it holds, whatever the comparisons answer, as long
as `a` has an item left and `b` two (or `b` is empty). -/
theorem highLoop_perm {lt : α → α → Except ε Bool} {a b : Array α} (fuel : Nat) :
    ∀ {out : List α} {na nb threshold : Nat} {pace : Pace} {r : List α} {t : Nat},
      1 ≤ na → (2 ≤ nb ∨ b.size = 0) →
      highLoop lt a b fuel out na nb threshold pace = .ok (r, t) →
        r.Perm (highItems a b out na nb) := by
  induction fuel with
  | zero =>
    intro out na nb threshold pace r t _ _ h
    simp only [highLoop, Except.ok.injEq, Prod.mk.injEq] at h
    rw [← h.1]
    exact finishHigh_perm _ _ _ _ _
  | succ fuel ih =>
    intro out na nb threshold pace r t hna hnb h
    simp only [highLoop] at h
    split at h
    · rename_i x y hx hy
      -- `b` has an item left, so it has two
      have hnb2 : 2 ≤ nb := by
        rcases hnb with hnb | hnb
        · exact hnb
        · have := (Array.getElem?_eq_some_iff.mp hy).1
          omega
      have hA := highItems_push_a a b out nb hx
      rw [Nat.sub_add_cancel hna] at hA
      have hB := highItems_push_b a b out na hy
      rw [Nat.sub_add_cancel (by omega : 1 ≤ nb)] at hB
      split at h
      · -- one item at a time
        obtain ⟨c, -, h⟩ := bind_eq_ok.mp h
        cases c
        · -- the item of `b` is written
          simp only [Bool.false_eq_true, if_false, beq_iff_eq] at h
          split_ifs at h with h1 h2
          · simp only [Except.ok.injEq, Prod.mk.injEq] at h
            rw [← h.1]
            exact (finishHigh_perm _ _ _ _ _).trans hB
          all_goals exact (ih hna (.inl (by omega)) h).trans hB
        · -- the item of `a` is written
          simp only [if_true, beq_iff_eq] at h
          split_ifs at h with h1 h2
          · simp only [Except.ok.injEq, Prod.mk.injEq] at h
            rw [← h.1]
            rw [h1] at hA ⊢
            exact (finishHigh_perm _ _ _ _ _).trans hA
          all_goals exact (ih (by omega) hnb h).trans hA
      · -- galloping: a block of `a`, the item of `b`, a block of `b`, the item of `a`
        obtain ⟨p, -, h⟩ := bind_eq_ok.mp h
        have h1 := highItems_give_a a b out nb (Nat.sub_le na p)
        have h2 := highItems_push_b a b ((a.extract (na - (na - p)) na).toList ++ out)
          (na - (na - p)) hy
        rw [Nat.sub_add_cancel (by omega : 1 ≤ nb)] at h2
        replace h2 := h2.trans h1
        simp only [beq_iff_eq] at h
        by_cases c1 : na - (na - p) = 0
        · rw [if_pos c1, Except.ok.injEq, Prod.mk.injEq] at h
          rw [← h.1]
          exact (finishHigh_perm _ _ _ _ _).trans h1
        rw [if_neg c1] at h
        by_cases c2 : nb - 1 = 1
        · rw [if_pos c2, Except.ok.injEq, Prod.mk.injEq] at h
          rw [← h.1]
          exact (finishHigh_perm _ _ _ _ _).trans h2
        rw [if_neg c2] at h
        obtain ⟨q, -, h⟩ := bind_eq_ok.mp h
        have h3 := highItems_give_b a b
          (y :: ((a.extract (na - (na - p)) na).toList ++ out)) (na - (na - p))
          (Nat.sub_le (nb - 1) q)
        rw [← h3] at h2
        -- the last item left of `a` is inside `a`
        have hx' : a[na - (na - p) - 1]? = some (a.getD (na - (na - p) - 1) x) := by
          have := (Array.getElem?_eq_some_iff.mp hx).1
          have : na - (na - p) - 1 < a.size := by omega
          simp [this]
        have h4 := highItems_push_a a b ((b.extract (nb - 1 - (nb - 1 - q)) (nb - 1)).toList ++
          y :: ((a.extract (na - (na - p)) na).toList ++ out)) (nb - 1 - (nb - 1 - q)) hx'
        rw [Nat.sub_add_cancel (by omega : 1 ≤ na - (na - p))] at h4
        replace h4 := h4.trans h2
        by_cases c3 : nb - 1 - (nb - 1 - q) ≤ 1
        · rw [if_pos c3, Except.ok.injEq, Prod.mk.injEq] at h
          rw [← h.1]
          exact (finishHigh_perm _ _ _ _ _).trans h2
        rw [if_neg c3] at h
        by_cases c4 : na - (na - p) = 1
        · rw [if_pos c4, Except.ok.injEq, Prod.mk.injEq] at h
          rw [← h.1]
          generalize a.getD (na - (na - p) - 1) x = x'' at h4 ⊢
          rw [show na - (na - p) - 1 = 0 by omega] at h4
          exact (finishHigh_perm _ _ _ _ _).trans h4
        rw [if_neg c4] at h
        split at h <;> exact (ih (by omega) (.inl (by omega)) h).trans h4
    · simp only [Except.ok.injEq, Prod.mk.injEq] at h
      rw [← h.1]
      exact finishHigh_perm _ _ _ _ _

/-! ## Merging two runs -/

theorem mergeLow_perm {lt : α → α → Except ε Bool} {a b : Array α} {threshold : Nat}
    {r : Array α} {t : Nat} (h : mergeLow lt a b threshold = .ok (r, t)) :
    r.toList.Perm (a.toList ++ b.toList) := by
  simp only [mergeLow] at h
  split at h
  · rename_i hb
    simp only [Except.ok.injEq, Prod.mk.injEq] at h
    rw [← h.1]
    have : b.toList = [] := by simpa using hb
    simp [this]
  · rename_i y hy
    -- at the start, the first item of `b` is written
    have hstart : (lowItems a b #[y] 0 1).Perm (a.toList ++ b.toList) := by
      simpa [lowItems] using lowItems_push_b a b #[] 0 hy
    split at h
    · simp only [Except.ok.injEq, Prod.mk.injEq] at h
      rw [← h.1]
      exact (finishLow_perm _ _ _ _ _).trans hstart
    · exact (lowLoop_perm _ h).trans hstart

theorem mergeHigh_perm {lt : α → α → Except ε Bool} {a b : Array α} {threshold : Nat}
    {r : Array α} {t : Nat} (h : mergeHigh lt a b threshold = .ok (r, t)) :
    r.toList.Perm (a.toList ++ b.toList) := by
  simp only [mergeHigh] at h
  split at h
  · rename_i ha
    simp only [Except.ok.injEq, Prod.mk.injEq] at h
    rw [← h.1]
    have : a.toList = [] := by
      simp only [Array.getElem?_eq_none_iff] at ha
      simpa using (show a.size = 0 by omega)
    simp [this]
  · rename_i x hx
    have hsize := (Array.getElem?_eq_some_iff.mp hx).1
    -- at the start, the last item of `a` is written
    have hstart : (highItems a b [x] (a.size - 1) b.size).Perm (a.toList ++ b.toList) := by
      have := highItems_push_a a b [] b.size hx
      rw [Nat.sub_add_cancel (by omega : 1 ≤ a.size)] at this
      refine this.trans ?_
      simp [highItems, List.take_of_length_le]
    split at h
    · simp only [Except.ok.injEq, Prod.mk.injEq] at h
      rw [← h.1, List.toList_toArray]
      exact (finishHigh_perm _ _ _ _ _).trans hstart
    · rename_i hne
      obtain ⟨⟨m, t'⟩, hm, h⟩ := bind_eq_ok.mp h
      simp only [pure, Except.pure, Except.ok.injEq, Prod.mk.injEq] at h
      rw [← h.1, List.toList_toArray]
      simp only [Bool.or_eq_true, beq_iff_eq, not_or] at hne
      exact (highLoop_perm _ (by omega) (by omega) hm).trans hstart

/-- Merging the rest of `a` with the front of `b`, between the front of `a` and the rest of `b`,
keeps the items of both. -/
theorem extract_merge_perm (a b m : Array α) (k nb : Nat)
    (hm : m.toList.Perm ((a.extract k a.size).toList ++ (b.extract 0 nb).toList)) :
    (a.extract 0 k ++ m ++ b.extract nb b.size).toList.Perm (a.toList ++ b.toList) := by
  simp only [Array.toList_append]
  refine ((hm.append_left _).append_right _).trans ?_
  simp only [Array.toList_extract, List.extract_eq_take_drop, List.drop_zero, Nat.sub_zero,
    List.append_assoc]
  have ha : (a.toList.drop k).take (a.size - k) = a.toList.drop k := List.take_of_length_le (by simp)
  have hb : (b.toList.drop nb).take (b.size - nb) = b.toList.drop nb :=
    List.take_of_length_le (by simp)
  rw [ha, hb, ← List.append_assoc (List.take k _), List.take_append_drop, List.take_append_drop]

/-- Merging two neighbouring runs keeps their items, whatever the comparisons answer. -/
theorem mergeAt_perm {lt : α → α → Except ε Bool} {a b : Array α} {threshold : Nat}
    {r : Array α} {t : Nat} (h : mergeAt lt a b threshold = .ok (r, t)) :
    r.toList.Perm (a.toList ++ b.toList) := by
  simp only [mergeAt] at h
  split at h
  · rename_i hb
    simp only [Except.ok.injEq, Prod.mk.injEq] at h
    rw [← h.1]
    have : b.toList = [] := by simpa using hb
    simp [this]
  · obtain ⟨k, -, h⟩ := bind_eq_ok.mp h
    split at h
    · simp only [Except.ok.injEq, Prod.mk.injEq] at h
      rw [← h.1, Array.toList_append]
    · obtain ⟨nb, -, h⟩ := bind_eq_ok.mp h
      split at h
      · simp only [Except.ok.injEq, Prod.mk.injEq] at h
        rw [← h.1, Array.toList_append]
      · -- the merged middle holds the rest of `a` and the front of `b`
        split at h
        all_goals
          obtain ⟨⟨m, t'⟩, hm, h⟩ := bind_eq_ok.mp h
          simp only [pure, Except.pure, Except.ok.injEq, Prod.mk.injEq] at h
          rw [← h.1]
        · exact extract_merge_perm a b m k nb (mergeLow_perm hm)
        · exact extract_merge_perm a b m k nb (mergeHigh_perm hm)

/-! ## The stack of runs -/

/-- The items of the runs on a stack. -/
def stackItems (stack : List (Pending α)) : List α := stack.flatMap (·.items.toList)

@[simp] theorem stackItems_nil : stackItems ([] : List (Pending α)) = [] := rfl

@[simp] theorem stackItems_cons (r : Pending α) (stack : List (Pending α)) :
    stackItems (r :: stack) = r.items.toList ++ stackItems stack := rfl

theorem collapseAbove_perm {lt : α → α → Except ε Bool} {p : Nat} :
    ∀ {stack : List (Pending α)} {threshold : Nat} {current top : Pending α}
      {rest : List (Pending α)} {t : Nat},
      collapseAbove lt p threshold current stack = .ok (top, rest, t) →
        (top.items.toList ++ stackItems rest).Perm (current.items.toList ++ stackItems stack)
  | [], threshold, current, top, rest, t, h => by
    simp only [collapseAbove, Except.ok.injEq, Prod.mk.injEq] at h
    obtain ⟨rfl, rfl, -⟩ := h
    exact List.Perm.refl _
  | below :: stack, threshold, current, top, rest, t, h => by
    simp only [collapseAbove] at h
    split_ifs at h with hp
    · -- the top run is merged into the run below it, and the merging goes on
      obtain ⟨⟨items, t'⟩, hm, h⟩ := bind_eq_ok.mp h
      refine (collapseAbove_perm h).trans ?_
      simp only [stackItems_cons, ← List.append_assoc]
      exact ((mergeAt_perm hm).trans List.perm_append_comm).append_right _
    · simp only [Except.ok.injEq, Prod.mk.injEq] at h
      obtain ⟨rfl, rfl, -⟩ := h
      exact List.Perm.refl _

theorem pushRun_perm {lt : α → α → Except ε Bool} {n : Nat} {run : Pending α} {threshold : Nat}
    {stack stack' : List (Pending α)} {t : Nat}
    (h : pushRun lt n run threshold stack = .ok (stack', t)) :
    (stackItems stack').Perm (run.items.toList ++ stackItems stack) := by
  cases stack with
  | nil =>
    simp only [pushRun, Except.ok.injEq, Prod.mk.injEq] at h
    obtain ⟨rfl, -⟩ := h
    simp
  | cons top rest =>
    simp only [pushRun] at h
    obtain ⟨⟨top', rest', t'⟩, hc, h⟩ := bind_eq_ok.mp h
    simp only [pure, Except.pure, Except.ok.injEq, Prod.mk.injEq] at h
    obtain ⟨rfl, -⟩ := h
    simp only [stackItems_cons]
    exact (collapseAbove_perm hc).append_left _

theorem foldl_items_perm (rest : List (Pending α)) (init : Array α) :
    (rest.foldl (fun acc r => r.items ++ acc) init).toList.Perm (init.toList ++ stackItems rest) := by
  induction rest generalizing init with
  | nil => simp
  | cons r rest ih =>
    refine (ih _).trans ?_
    simp only [Array.toList_append, stackItems_cons, ← List.append_assoc]
    exact List.perm_append_comm.append_right _

/-- Collapsing the stack keeps the items of its runs. -/
theorem collapseAll_perm {lt : α → α → Except ε Bool} (fuel : Nat) :
    ∀ {threshold : Nat} {stack : List (Pending α)} {r : Array α},
      collapseAll lt fuel threshold stack = .ok r → r.toList.Perm (stackItems stack) := by
  induction fuel with
  | zero =>
    intro threshold stack r h
    match stack with
    | [] =>
      simp only [collapseAll, Except.ok.injEq] at h
      simp [← h]
    | [top] =>
      simp only [collapseAll, Except.ok.injEq] at h
      simp [← h]
    | top :: second :: rest =>
      simp only [collapseAll, Except.ok.injEq] at h
      rw [← h]
      exact foldl_items_perm _ _
  | succ fuel ih =>
    intro threshold stack r h
    match stack with
    | [] =>
      simp only [collapseAll, Except.ok.injEq] at h
      simp [← h]
    | [top] =>
      simp only [collapseAll, Except.ok.injEq] at h
      simp [← h]
    | top :: second :: rest =>
      simp only [collapseAll] at h
      split at h
      · split_ifs at h with hs
        · -- the second and third runs are merged first
          obtain ⟨⟨items, t'⟩, hm, h⟩ := bind_eq_ok.mp h
          refine (ih h).trans ?_
          simp only [stackItems_cons]
          refine List.Perm.append_left _ ?_
          exact (((mergeAt_perm hm).trans List.perm_append_comm).append_right _).trans
            (List.Perm.of_eq (List.append_assoc _ _ _))
        · -- the top two runs are merged
          obtain ⟨⟨items, t'⟩, hm, h⟩ := bind_eq_ok.mp h
          refine (ih h).trans ?_
          simp only [stackItems_cons]
          exact (((mergeAt_perm hm).trans List.perm_append_comm).append_right _).trans
            (List.Perm.of_eq (List.append_assoc _ _ _))
      · obtain ⟨⟨items, t'⟩, hm, h⟩ := bind_eq_ok.mp h
        simp only [pure, Except.pure, Except.ok.injEq] at h
        rw [← h]
        simpa using (mergeAt_perm hm).trans List.perm_append_comm

/-- Cutting the list into runs and pushing them keeps the items, when the fuel is no less than
the number of items. -/
theorem runsFrom_perm {lt : α → α → Except ε Bool} {n minLen : Nat} (fuel : Nat) :
    ∀ {start : Nat} {xs : List α} {stack stack' : List (Pending α)} {threshold t : Nat},
      xs.length ≤ fuel → runsFrom lt n minLen fuel start xs stack threshold = .ok (stack', t) →
        (stackItems stack').Perm (xs ++ stackItems stack) := by
  induction fuel with
  | zero =>
    intro start xs stack stack' threshold t hlen h
    obtain rfl : xs = [] := List.eq_nil_of_length_eq_zero (by omega)
    simp only [runsFrom, Except.ok.injEq, Prod.mk.injEq] at h
    obtain ⟨rfl, -⟩ := h
    exact List.Perm.refl _
  | succ fuel ih =>
    intro start xs stack stack' threshold t hlen h
    cases xs with
    | nil =>
      simp only [runsFrom, Except.ok.injEq, Prod.mk.injEq] at h
      obtain ⟨rfl, -⟩ := h
      exact List.Perm.refl _
    | cons x xs =>
      simp only [runsFrom] at h
      obtain ⟨⟨run, rest⟩, hrun, h⟩ := bind_eq_ok.mp h
      obtain ⟨items, hitems, h⟩ := bind_eq_ok.mp h
      obtain ⟨⟨stack'', t''⟩, hpush, h⟩ := bind_eq_ok.mp h
      obtain ⟨hperm, hne⟩ := naturalRun_perm hrun
      -- the run takes at least one item, so the fuel left covers the rest
      have hlen' : (rest.drop (minLen - run.length)).length ≤ fuel := by
        have hl := hperm.length_eq
        have : run.length ≠ 0 := by simpa [List.length_eq_zero_iff] using hne
        simp only [List.length_append, List.length_cons] at hl hlen
        simp only [List.length_drop]
        omega
      refine (ih hlen' h).trans ?_
      calc (rest.drop (minLen - run.length) ++ stackItems stack'').Perm
            (rest.drop (minLen - run.length) ++ (items.toList ++ stackItems stack)) :=
            (pushRun_perm hpush).append_left _
        List.Perm _ (rest.drop (minLen - run.length) ++
              ((run ++ rest.take (minLen - run.length)) ++ stackItems stack)) := by
            simpa using (((insertAll_perm _ _ hitems).append_right _).append_left _)
        List.Perm _ ((run ++ rest.take (minLen - run.length)) ++
              (rest.drop (minLen - run.length) ++ stackItems stack)) :=
            List.perm_append_comm_assoc _ _ _
        _ = (run ++ rest) ++ stackItems stack := by
            rw [← List.append_assoc, List.append_assoc run, List.take_append_drop]
        List.Perm _ ((x :: xs) ++ stackItems stack) := hperm.append_right _

/-- **Sorting keeps the items**: whatever the comparisons answer, a sort that succeeds returns a
permutation of its input. -/
theorem sortBy_perm {lt : α → α → Except ε Bool} {xs ys : List α} (h : sortBy lt xs = .ok ys) :
    ys.Perm xs := by
  simp only [sortBy] at h
  split_ifs at h
  · simp only [pure, Except.pure, Except.ok.injEq] at h
    rw [← h]
  · obtain ⟨⟨stack, t⟩, hr, h⟩ := bind_eq_ok.mp h
    obtain ⟨r, hc, h⟩ := bind_eq_ok.mp h
    simp only [pure, Except.pure, Except.ok.injEq] at h
    rw [← h]
    simpa using (collapseAll_perm _ hc).trans (runsFrom_perm _ (Nat.le_refl _) hr)

end Rfc6570.Sorting
