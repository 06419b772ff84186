import Rfc6570.Proofs.Sorting.Permutation

/-!
# Rfc6570 — sorting puts the items in order

When the comparison answers every pair of items by a strict weak order (`WeakOrder`: it never
refuses, no item is less than itself, and both "less" and "not less" are transitive), `sortBy`
succeeds and returns its items in order. The proof follows the phases of the sort: a natural run
is sorted, binary insertion keeps a run sorted, a galloping search finds the exact place of a key
in a sorted slice, both merge loops write in order (`LowSorted`, `HighSorted`: what is written is
sorted and at most what is left), and every run on the stack stays sorted and non-empty
(`RunReady`). The fuel of each loop is one step per item or per run, and the invariants carry
the bound, so where a loop would stop early the result is in order already.

## Results

* `sortBy_sorted` — the sort succeeds with a sorted permutation of its input.
* `mergeAt_sorted` — merging two neighbouring runs gives one run.
* `gallopLeft_sorted`, `gallopRight_sorted` — where a key belongs in a sorted slice.
* `insertAll_sorted`, `naturalRun_sorted` — the runs before any merge are sorted.
-/

namespace Rfc6570.Sorting

variable {ε α : Type}

/-- A comparison that, on the items `dom` allows, answers by a strict weak order `less`: it
never refuses them, no item is less than itself, `less` is transitive, and when `a` is less than
`c`, any `b` is above `a` or below `c`. -/
structure WeakOrder (lt : α → α → Except ε Bool) (dom : α → Prop) (less : α → α → Bool) :
    Prop where
  answers : ∀ a b, dom a → dom b → lt a b = .ok (less a b)
  irrefl : ∀ a, dom a → less a a = false
  trans : ∀ a b c, dom a → dom b → dom c → less a b = true → less b c = true → less a c = true
  split : ∀ a b c, dom a → dom b → dom c → less a c = true → less a b = true ∨ less b c = true

/-- A list in order: no item is less than one before it. -/
def Sorted (less : α → α → Bool) (l : List α) : Prop := l.Pairwise fun a b => less b a = false

/-- Every item of `u` is at most every item of `v`. -/
def AllLe (less : α → α → Bool) (u v : List α) : Prop := ∀ a ∈ u, ∀ b ∈ v, less b a = false

section Order

variable {lt : α → α → Except ε Bool} {dom : α → Prop} {less : α → α → Bool}

theorem WeakOrder.asymm (o : WeakOrder lt dom less) {a b : α} (ha : dom a) (hb : dom b)
    (h : less a b = true) : less b a = false := by
  cases hba : less b a
  · rfl
  · have := o.trans a b a ha hb ha h hba
    rw [o.irrefl a ha] at this
    exact absurd this Bool.false_ne_true

/-- Not less is transitive. -/
theorem WeakOrder.le_trans (o : WeakOrder lt dom less) {a b c : α} (ha : dom a) (hb : dom b)
    (hc : dom c) (hab : less b a = false) (hbc : less c b = false) : less c a = false := by
  cases hca : less c a
  · rfl
  · rcases o.split c b a hc hb ha hca with h | h
    · rw [hbc] at h
      exact absurd h Bool.false_ne_true
    · rw [hab] at h
      exact absurd h Bool.false_ne_true

theorem WeakOrder.lt_of_lt_of_le (o : WeakOrder lt dom less) {a b c : α} (ha : dom a)
    (hb : dom b) (hc : dom c) (hab : less a b = true) (hbc : less c b = false) :
    less a c = true := by
  rcases o.split a c b ha hc hb hab with h | h
  · exact h
  · rw [hbc] at h
    exact absurd h Bool.false_ne_true

theorem WeakOrder.lt_of_le_of_lt (o : WeakOrder lt dom less) {a b c : α} (ha : dom a)
    (hb : dom b) (hc : dom c) (hab : less b a = false) (hbc : less b c = true) :
    less a c = true := by
  rcases o.split b a c hb ha hc hbc with h | h
  · rw [hab] at h
    exact absurd h Bool.false_ne_true
  · exact h

end Order

/-! ## Sorted lists and slices -/

theorem Sorted.sublist {less : α → α → Bool} {l l' : List α} (h : Sorted less l)
    (hs : l'.Sublist l) : Sorted less l' :=
  List.Pairwise.sublist hs h

theorem sorted_append {less : α → α → Bool} {u v : List α} :
    Sorted less (u ++ v) ↔ Sorted less u ∧ Sorted less v ∧ AllLe less u v :=
  List.pairwise_append

theorem Sorted.allLe_take_drop {less : α → α → Bool} {l : List α} (h : Sorted less l) (k : Nat) :
    AllLe less (l.take k) (l.drop k) := by
  rw [← List.take_append_drop k l] at h
  exact (sorted_append.mp h).2.2

/-- The items at positions `i ≤ j` of a sorted list are in order. -/
theorem Sorted.getElem_le {lt : α → α → Except ε Bool} {dom : α → Prop} {less : α → α → Bool}
    (o : WeakOrder lt dom less) {l : List α} (h : Sorted less l) (hd : ∀ z ∈ l, dom z) {i j : Nat}
    (hij : i ≤ j) (hj : j < l.length) : less l[j] l[i] = false := by
  rcases Nat.lt_or_eq_of_le hij with hij | rfl
  · exact List.pairwise_iff_getElem.mp h i j (by omega) hj hij
  · exact o.irrefl _ (hd _ (List.getElem_mem _))

/-- A property of every item of a slice follows from the property at every position. -/
theorem forall_mem_take_drop {l : List α} {P : α → Prop} {i k : Nat}
    (h : ∀ m < k, ∀ hm : i + m < l.length, P l[i + m]) : ∀ z ∈ (l.drop i).take k, P z := by
  intro z hz
  obtain ⟨m, hm, rfl⟩ := List.mem_iff_getElem.mp hz
  simp only [List.length_take, List.length_drop] at hm
  simpa using h m (by omega) (by omega)

theorem forall_mem_drop_take_drop {l : List α} {P : α → Prop} {i n k : Nat}
    (h : ∀ m, k ≤ m → m < n → ∀ hm : i + m < l.length, P l[i + m]) :
    ∀ z ∈ ((l.drop i).take n).drop k, P z := by
  intro z hz
  obtain ⟨m, hm, rfl⟩ := List.mem_iff_getElem.mp hz
  simp only [List.length_drop, List.length_take] at hm
  simpa [Nat.add_assoc] using h (k + m) (by omega) (by omega) (by omega)

theorem getD_of_lt {xs : Array α} {i : Nat} (d : α) (h : i < xs.size) : xs.getD i d = xs[i] := by
  simp [Array.getD, h]

/-! ## Searches on sorted slices -/

section Searches

variable {lt : α → α → Except ε Bool} {dom : α → Prop} {less : α → α → Bool}

/-- On a sorted slice, "not above the key" holds up to a place and fails after it. -/
theorem falls_notAbove (o : WeakOrder lt dom less) {xs : Array α} (hs : Sorted less xs.toList)
    (hd : ∀ z ∈ xs.toList, dom z) {key : α} (hk : dom key) {base n : Nat}
    (hn : base + n ≤ xs.size) : Falls (fun m => !less key (xs.getD (base + m) key)) n := by
  intro i j hij hj htj
  dsimp only at htj ⊢
  rw [getD_of_lt key (by omega)] at htj ⊢
  simp only [Bool.not_eq_eq_eq_not, Bool.not_true] at htj ⊢
  have hle := Sorted.getElem_le o hs hd (show base + i ≤ base + j by omega) (by simp; omega)
  simp only [Array.getElem_toList] at hle
  cases h : less key xs[base + i]
  · rfl
  · rcases o.split key xs[base + j] xs[base + i] hk (hd _ (by simp)) (hd _ (by simp)) h with h' | h'
    · rw [htj] at h'
      exact absurd h' Bool.false_ne_true
    · rw [hle] at h'
      exact absurd h' Bool.false_ne_true

/-- On a sorted slice, "below the key" holds up to a place and fails after it. -/
theorem falls_below (o : WeakOrder lt dom less) {xs : Array α} (hs : Sorted less xs.toList)
    (hd : ∀ z ∈ xs.toList, dom z) {key : α} (hk : dom key) {base n : Nat}
    (hn : base + n ≤ xs.size) : Falls (fun m => less (xs.getD (base + m) key) key) n := by
  intro i j hij hj htj
  dsimp only at htj ⊢
  rw [getD_of_lt key (by omega)] at htj ⊢
  have hle := Sorted.getElem_le o hs hd (show base + i ≤ base + j by omega) (by simp; omega)
  simp only [Array.getElem_toList] at hle
  exact o.lt_of_le_of_lt (hd _ (by simp)) (hd _ (by simp)) hk hle htj

/-- Galloping for the first item greater than the key, in a sorted slice. -/
theorem gallopRight_sorted (o : WeakOrder lt dom less) {xs : Array α} (hs : Sorted less xs.toList)
    (hd : ∀ z ∈ xs.toList, dom z) {key : α} (hk : dom key) {base n hint : Nat}
    (hn : base + n ≤ xs.size) (hhint : hint < n) :
    ∃ k, gallopRight lt key xs base n hint = .ok k ∧ k ≤ n ∧
      (∀ z ∈ (xs.toList.drop base).take k, less key z = false) ∧
      (∀ z ∈ ((xs.toList.drop base).take n).drop k, less key z = true) := by
  have hlt : ∀ m < n, lt key (xs.getD (base + m) key) =
      .ok (!!less key (xs.getD (base + m) key)) := by
    intro m hm
    rw [getD_of_lt key (by omega), o.answers _ _ hk (hd _ (by simp)), Bool.not_not]
  obtain ⟨k, hg, hc⟩ := gallopRight_cut (falls_notAbove o hs hd hk hn) hlt hhint
  refine ⟨k, hg, hc.le_hi, forall_mem_take_drop fun m hm hm' => ?_,
    forall_mem_drop_take_drop fun m h1 h2 hm' => ?_⟩
  · have := hc.before m (Nat.zero_le _) hm
    rw [getD_of_lt key (by simpa using hm')] at this
    simpa using this
  · have := hc.after m h1 h2
    rw [getD_of_lt key (by simpa using hm')] at this
    simpa using this

/-- Galloping for the first item not less than the key, in a sorted slice. -/
theorem gallopLeft_sorted (o : WeakOrder lt dom less) {xs : Array α} (hs : Sorted less xs.toList)
    (hd : ∀ z ∈ xs.toList, dom z) {key : α} (hk : dom key) {base n hint : Nat}
    (hn : base + n ≤ xs.size) (hhint : hint < n) :
    ∃ k, gallopLeft lt key xs base n hint = .ok k ∧ k ≤ n ∧
      (∀ z ∈ (xs.toList.drop base).take k, less z key = true) ∧
      (∀ z ∈ ((xs.toList.drop base).take n).drop k, less z key = false) := by
  have hlt : ∀ m < n, lt (xs.getD (base + m) key) key =
      .ok (less (xs.getD (base + m) key) key) := by
    intro m hm
    rw [getD_of_lt key (by omega), o.answers _ _ (hd _ (by simp)) hk]
  obtain ⟨k, hg, hc⟩ := gallopLeft_cut (falls_below o hs hd hk hn) hlt hhint
  refine ⟨k, hg, hc.le_hi, forall_mem_take_drop fun m hm hm' => ?_,
    forall_mem_drop_take_drop fun m h1 h2 hm' => ?_⟩
  · have := hc.before m (Nat.zero_le _) hm
    rw [getD_of_lt key (by simpa using hm')] at this
    simpa using this
  · have := hc.after m h1 h2
    rw [getD_of_lt key (by simpa using hm')] at this
    simpa using this

end Searches

/-! ## Runs -/

section Runs

variable {lt : α → α → Except ε Bool} {dom : α → Prop} {less : α → α → Bool}

theorem ascending_sorted (o : WeakOrder lt dom less) {prev : α} (hprev : dom prev) {xs : List α}
    (hd : ∀ z ∈ xs, dom z) :
    ∃ run rest, ascending lt prev xs = .ok (run, rest) ∧ Sorted less (prev :: run) := by
  induction xs generalizing prev with
  | nil => exact ⟨[], [], rfl, List.pairwise_singleton _ _⟩
  | cons x xs ih =>
    have hx := hd x List.mem_cons_self
    simp only [ascending]
    rw [o.answers x prev hx hprev, ok_bind]
    cases hxp : less x prev
    · -- the run goes on with `x`
      obtain ⟨run, rest, h, hs⟩ := ih hx fun z hz => hd z (List.mem_cons_of_mem _ hz)
      refine ⟨x :: run, rest, by rw [h]; rfl, List.Pairwise.cons ?_ hs⟩
      intro z hz
      rcases List.mem_cons.mp hz with rfl | hz
      · exact hxp
      · have hzx := List.rel_of_pairwise_cons hs hz
        have hzdom : dom z := hd z (List.mem_cons_of_mem _
          (by rw [← ascending_append x xs h]; exact List.mem_append_left rest hz))
        exact o.le_trans hprev hx hzdom hxp hzx
    · exact ⟨[], x :: xs, rfl, List.pairwise_singleton _ _⟩

theorem descending_sorted (o : WeakOrder lt dom less) {prev : α} (hprev : dom prev)
    {xs : List α} (hd : ∀ z ∈ xs, dom z) :
    ∃ run rest, descending lt prev xs = .ok (run, rest) ∧
      (prev :: run).Pairwise fun a b => less b a = true := by
  induction xs generalizing prev with
  | nil => exact ⟨[], [], rfl, List.pairwise_singleton _ _⟩
  | cons x xs ih =>
    have hx := hd x List.mem_cons_self
    simp only [descending]
    rw [o.answers x prev hx hprev, ok_bind]
    cases hxp : less x prev
    · exact ⟨[], x :: xs, rfl, List.pairwise_singleton _ _⟩
    · -- the run goes on with `x`, strictly below `prev`
      obtain ⟨run, rest, h, hs⟩ := ih hx fun z hz => hd z (List.mem_cons_of_mem _ hz)
      refine ⟨x :: run, rest, by rw [h]; rfl, List.Pairwise.cons ?_ hs⟩
      intro z hz
      rcases List.mem_cons.mp hz with rfl | hz
      · exact hxp
      · have hzx := List.rel_of_pairwise_cons hs hz
        have hzdom : dom z := hd z (List.mem_cons_of_mem _
          (by rw [← descending_append x xs h]; exact List.mem_append_left rest hz))
        exact o.trans z x prev hzdom hx hprev hzx hxp

/-- The natural run at the front of a list is sorted. -/
theorem naturalRun_sorted (o : WeakOrder lt dom less) {xs : List α} (hd : ∀ z ∈ xs, dom z) :
    ∃ run rest, naturalRun lt xs = .ok (run, rest) ∧ Sorted less run := by
  match xs, hd with
  | [], _ => exact ⟨[], [], rfl, List.Pairwise.nil⟩
  | [x], _ => exact ⟨[x], [], rfl, List.pairwise_singleton _ _⟩
  | x :: y :: zs, hd =>
    have hx := hd x List.mem_cons_self
    have hy := hd y (List.mem_cons_of_mem _ List.mem_cons_self)
    have hzs : ∀ z ∈ zs, dom z := fun z hz => hd z (List.mem_cons_of_mem _ (List.mem_cons_of_mem _ hz))
    simp only [naturalRun]
    rw [o.answers y x hy hx, ok_bind]
    cases hyx : less y x
    · obtain ⟨run, rest, h, hs⟩ := ascending_sorted o hy hzs
      refine ⟨x :: y :: run, rest, by rw [h]; rfl, List.Pairwise.cons ?_ hs⟩
      intro z hz
      rcases List.mem_cons.mp hz with rfl | hz
      · exact hyx
      · have hzdom : dom z :=
          hzs z (by rw [← ascending_append y zs h]; exact List.mem_append_left rest hz)
        exact o.le_trans hx hy hzdom hyx (List.rel_of_pairwise_cons hs hz)
    · obtain ⟨run, rest, h, hs⟩ := descending_sorted o hy hzs
      refine ⟨(x :: y :: run).reverse, rest, by rw [h]; rfl, ?_⟩
      -- a strictly descending run, reversed, is sorted
      have hdom : ∀ z ∈ x :: y :: run, dom z := by
        intro z hz
        rcases List.mem_cons.mp hz with rfl | hz
        · exact hx
        rcases List.mem_cons.mp hz with rfl | hz
        · exact hy
        · exact hzs z (by rw [← descending_append y zs h]; exact List.mem_append_left rest hz)
      have hdesc : (x :: y :: run).Pairwise fun a b => less b a = true :=
        List.Pairwise.cons (fun z hz => ?_) hs
      · unfold Sorted
        rw [List.pairwise_reverse]
        exact hdesc.imp_of_mem fun ha hb hab => o.asymm (hdom _ hb) (hdom _ ha) hab
      · rcases List.mem_cons.mp hz with rfl | hz
        · exact hyx
        · exact o.trans z y x (hdom z (List.mem_cons_of_mem _ (List.mem_cons_of_mem _ hz))) hy hx
            (List.rel_of_pairwise_cons hs hz) hyx

theorem insertIdx_eq_take_drop (l : List α) (x : α) {i : Nat} (h : i ≤ l.length) :
    l.insertIdx i x = l.take i ++ x :: l.drop i := by
  induction l generalizing i with
  | nil =>
    obtain rfl : i = 0 := by simpa using h
    simp [List.insertIdx_zero]
  | cons y l ih =>
    cases i with
    | zero => simp [List.insertIdx_zero]
    | succ i => simp [List.insertIdx_succ_cons, ih (by simpa using h)]

/-- Binary insertion into a sorted run keeps it sorted. -/
theorem insertAll_sorted (o : WeakOrder lt dom less) {run : Array α} (hs : Sorted less run.toList)
    (hd : ∀ z ∈ run.toList, dom z) {xs : List α} (hx : ∀ z ∈ xs, dom z) :
    ∃ r, insertAll lt run xs = .ok r ∧ Sorted less r.toList := by
  induction xs generalizing run with
  | nil => exact ⟨run, rfl, hs⟩
  | cons x xs ih =>
    have hxd := hx x List.mem_cons_self
    -- halving finds the place after every item `x` is not less than
    have hg : ∀ m < run.size, (fun x => !x) <$> lt x (run.getD m x) =
        .ok (!less x (run.getD (0 + m) x)) := by
      intro m hm
      rw [Nat.zero_add, getD_of_lt x hm, o.answers _ _ hxd (hd _ (by simp))]
      rfl
    obtain ⟨i, hi, hc⟩ := bisect_cut (falls_notAbove o hs hd hxd (Nat.le_of_eq (Nat.zero_add _))) hg
      (run.size + 1) 0 run.size (Nat.zero_le _) (Nat.le_refl _) (by omega)
    have hle : i ≤ run.size := hc.le_hi
    have hbefore : ∀ z ∈ (run.toList.drop 0).take i, less x z = false :=
      forall_mem_take_drop fun m hm hm' => by
        have := hc.before m (Nat.zero_le _) hm
        rw [getD_of_lt x (by simpa using hm')] at this
        simpa using this
    have hafter : ∀ z ∈ ((run.toList.drop 0).take run.size).drop i, less x z = true :=
      forall_mem_drop_take_drop fun m h1 h2 hm' => by
        have := hc.after m h1 h2
        rw [getD_of_lt x (by simpa using hm')] at this
        simpa using this
    simp only [List.drop_zero, List.take_of_length_le (Nat.le_of_eq (Array.length_toList))] at hbefore hafter
    -- the run with `x` in its place
    have hins : run.insertIdxIfInBounds i x = run.insertIdx i x hle := by
      simp [Array.insertIdxIfInBounds, hle]
    have hlist : (run.insertIdx i x hle).toList = run.toList.take i ++ x :: run.toList.drop i := by
      rw [Array.toList_insertIdx, insertIdx_eq_take_drop _ _ (by simpa using hle)]
    have hdrop : ∀ z ∈ run.toList.drop i, dom z := fun z hz => hd z (List.mem_of_mem_drop hz)
    have hsorted : Sorted less (run.insertIdx i x hle).toList := by
      rw [hlist]
      refine sorted_append.mpr ⟨hs.sublist (List.take_sublist _ _),
        List.Pairwise.cons (fun z hz => o.asymm hxd (hdrop z hz) (hafter z hz))
          (hs.sublist (List.drop_sublist _ _)), ?_⟩
      intro z hz w hw
      rcases List.mem_cons.mp hw with rfl | hw
      · exact hbefore z hz
      · exact hs.allLe_take_drop i z hz w hw
    have hdom : ∀ z ∈ (run.insertIdx i x hle).toList, dom z := by
      intro z hz
      rw [hlist] at hz
      rcases List.mem_append.mp hz with hz | hz
      · exact hd z (List.mem_of_mem_take hz)
      · rcases List.mem_cons.mp hz with rfl | hz
        · exact hxd
        · exact hdrop z hz
    obtain ⟨r, hr, hrs⟩ := ih hsorted hdom fun z hz => hx z (List.mem_cons_of_mem _ hz)
    refine ⟨r, ?_, hrs⟩
    simp only [insertAll]
    rw [hi, ok_bind, hins, hr]

end Runs

/-! ## Writing blocks in order -/

section Blocks

variable {less : α → α → Bool}

/-- Writing a block from the front of what is left of one run keeps the items written sorted
and at most everything left, when the block is at most the other run. -/
theorem write_block {out blk rest other : List α} (hs : Sorted less out)
    (h1 : AllLe less out (blk ++ rest)) (h2 : AllLe less out other)
    (hsrc : Sorted less (blk ++ rest)) (hb : AllLe less blk other) :
    Sorted less (out ++ blk) ∧ AllLe less (out ++ blk) rest ∧ AllLe less (out ++ blk) other := by
  obtain ⟨hblk, -, hrest⟩ := sorted_append.mp hsrc
  refine ⟨sorted_append.mpr ⟨hs, hblk, fun z hz w hw => h1 z hz w (List.mem_append_left _ hw)⟩,
    fun z hz w hw => ?_, fun z hz w hw => ?_⟩
  · rcases List.mem_append.mp hz with hz | hz
    · exact h1 z hz w (List.mem_append_right _ hw)
    · exact hrest z hz w hw
  · rcases List.mem_append.mp hz with hz | hz
    · exact h2 z hz w hw
    · exact hb z hz w hw

/-- The mirror of `write_block`: a block from the back of what is left of one run, written in
front of the items written. -/
theorem prepend_block {out blk rest other : List α} (hs : Sorted less out)
    (h1 : AllLe less (rest ++ blk) out) (h2 : AllLe less other out)
    (hsrc : Sorted less (rest ++ blk)) (hb : AllLe less other blk) :
    Sorted less (blk ++ out) ∧ AllLe less rest (blk ++ out) ∧ AllLe less other (blk ++ out) := by
  obtain ⟨-, hblk, hrest⟩ := sorted_append.mp hsrc
  refine ⟨sorted_append.mpr ⟨hblk, hs, fun z hz w hw => h1 z (List.mem_append_right _ hz) w hw⟩,
    fun z hz w hw => ?_, fun z hz w hw => ?_⟩
  · rcases List.mem_append.mp hw with hw | hw
    · exact hrest z hz w hw
    · exact h1 z (List.mem_append_left _ hz) w hw
  · rcases List.mem_append.mp hw with hw | hw
    · exact hb z hz w hw
    · exact h2 z hz w hw

end Blocks

section Places

variable {lt : α → α → Except ε Bool} {dom : α → Prop} {less : α → α → Bool}

/-- In a sorted list, an item is at most every item from its place on. -/
theorem Sorted.le_drop (o : WeakOrder lt dom less) {l : List α} (h : Sorted less l)
    (hd : ∀ z ∈ l, dom z) {i : Nat} {x : α} (hx : l[i]? = some x) :
    ∀ w ∈ l.drop i, less w x = false := by
  obtain ⟨hi, rfl⟩ := List.getElem?_eq_some_iff.mp hx
  intro w hw
  have hs : Sorted less (l.drop i) := h.sublist (List.drop_sublist i l)
  rw [List.drop_eq_getElem_cons hi] at hs hw
  rcases List.mem_cons.mp hw with rfl | hw
  · exact o.irrefl _ (hd _ (List.getElem_mem _))
  · exact List.rel_of_pairwise_cons hs hw

/-- In a sorted list, an item is at least every item up to its place. -/
theorem Sorted.le_take (o : WeakOrder lt dom less) {l : List α} (h : Sorted less l)
    (hd : ∀ z ∈ l, dom z) {i : Nat} {x : α} (hx : l[i]? = some x) :
    ∀ w ∈ l.take (i + 1), less x w = false := by
  obtain ⟨hi, rfl⟩ := List.getElem?_eq_some_iff.mp hx
  intro w hw
  obtain ⟨j, hj, rfl⟩ := List.mem_iff_getElem.mp hw
  simp only [List.length_take] at hj
  rw [List.getElem_take]
  exact h.getElem_le o hd (by omega) hi

end Places

/-! ## Merging in order -/

/-- Two runs as `mergeLow` and `mergeHigh` take them: both sorted, the first item of `b` below
every item of `a`, and the last item of `a` above every item of `b`. -/
structure Mergeable (dom : α → Prop) (less : α → α → Bool) (a b : Array α) : Prop where
  sorted_a : Sorted less a.toList
  sorted_b : Sorted less b.toList
  dom_a : ∀ z ∈ a.toList, dom z
  dom_b : ∀ z ∈ b.toList, dom z
  first : ∀ y ∈ b.toList.take 1, ∀ z ∈ a.toList, less y z = true
  last : ∀ y ∈ b.toList, ∀ z ∈ a.toList.drop (a.size - 1), less y z = true

/-- What a merge from the front keeps: the items written are sorted, and none is above an item
left in `a` (from `ia`) or in `b` (from `ib`). -/
structure LowSorted (less : α → α → Bool) (a b out : Array α) (ia ib : Nat) : Prop where
  sorted : Sorted less out.toList
  below_a : AllLe less out.toList (a.toList.drop ia)
  below_b : AllLe less out.toList (b.toList.drop ib)

section Low

variable {lt : α → α → Except ε Bool} {dom : α → Prop} {less : α → α → Bool}
  {a b out : Array α} {ia ib : Nat}

theorem toList_extract_add (xs : Array α) (i k : Nat) :
    (xs.extract i (i + k)).toList = (xs.toList.drop i).take k := by
  simp [Array.toList_extract, List.extract_eq_take_drop]

theorem LowSorted.take_a (h : LowSorted less a b out ia ib) (hsa : Sorted less a.toList) (k : Nat)
    (hb : AllLe less ((a.toList.drop ia).take k) (b.toList.drop ib)) :
    LowSorted less a b (out ++ a.extract ia (ia + k)) (ia + k) ib := by
  have hsplit := List.take_append_drop k (a.toList.drop ia)
  obtain ⟨hs, h1, h2⟩ := write_block h.sorted (by rw [hsplit]; exact h.below_a) h.below_b
    (by rw [hsplit]; exact hsa.sublist (List.drop_sublist _ _)) hb
  rw [List.drop_drop] at h1
  rw [← toList_extract_add] at hs h1 h2
  exact ⟨by simpa using hs, by simpa using h1, by simpa using h2⟩

theorem LowSorted.take_b (h : LowSorted less a b out ia ib) (hsb : Sorted less b.toList) (k : Nat)
    (hb : AllLe less ((b.toList.drop ib).take k) (a.toList.drop ia)) :
    LowSorted less a b (out ++ b.extract ib (ib + k)) ia (ib + k) := by
  have hsplit := List.take_append_drop k (b.toList.drop ib)
  obtain ⟨hs, h1, h2⟩ := write_block h.sorted (by rw [hsplit]; exact h.below_b) h.below_a
    (by rw [hsplit]; exact hsb.sublist (List.drop_sublist _ _)) hb
  rw [List.drop_drop] at h1
  rw [← toList_extract_add] at hs h1 h2
  exact ⟨by simpa using hs, by simpa using h2, by simpa using h1⟩

theorem push_eq_extract {xs : Array α} {i : Nat} {x : α} (hx : xs[i]? = some x) (out : Array α) :
    out.push x = out ++ xs.extract i (i + 1) := by
  obtain ⟨hi, rfl⟩ := Array.getElem?_eq_some_iff.mp hx
  apply Array.toList_inj.mp
  rw [Array.toList_push, Array.toList_append, toList_extract_add,
    List.drop_eq_getElem_cons (by simpa using hi)]
  simp

theorem LowSorted.push_a (h : LowSorted less a b out ia ib) (hsa : Sorted less a.toList) {x : α}
    (hx : a[ia]? = some x) (hb : ∀ w ∈ b.toList.drop ib, less w x = false) :
    LowSorted less a b (out.push x) (ia + 1) ib := by
  rw [push_eq_extract hx]
  refine h.take_a hsa 1 fun z hz w hw => ?_
  obtain ⟨hi, rfl⟩ := Array.getElem?_eq_some_iff.mp hx
  rw [List.drop_eq_getElem_cons (by simpa using hi)] at hz
  simp only [List.take_succ_cons, List.take_zero, List.mem_singleton] at hz
  subst hz
  simpa using hb w hw

theorem LowSorted.push_b (h : LowSorted less a b out ia ib) (hsb : Sorted less b.toList) {y : α}
    (hy : b[ib]? = some y) (hb : ∀ w ∈ a.toList.drop ia, less w y = false) :
    LowSorted less a b (out.push y) ia (ib + 1) := by
  rw [push_eq_extract hy]
  refine h.take_b hsb 1 fun z hz w hw => ?_
  obtain ⟨hi, rfl⟩ := Array.getElem?_eq_some_iff.mp hy
  rw [List.drop_eq_getElem_cons (by simpa using hi)] at hz
  simp only [List.take_succ_cons, List.take_zero, List.mem_singleton] at hz
  subst hz
  simpa using hb w hw

/-- A merge from the front ends in order once `b` is used up or `a` has one item left. -/
theorem LowSorted.finish (o : WeakOrder lt dom less) (m : Mergeable dom less a b)
    (h : LowSorted less a b out ia ib) (hend : b.size ≤ ib ∨ a.size ≤ ia + 1) :
    Sorted less (finishLow out a b ia ib).toList := by
  have hlist : (finishLow out a b ia ib).toList =
      out.toList ++ (b.toList.drop ib ++ a.toList.drop ia) := by
    simp only [finishLow, Array.toList_append, Array.toList_extract, List.extract_eq_take_drop,
      List.append_assoc]
    rw [List.take_of_length_le (by simp), List.take_of_length_le (by simp)]
  rw [hlist]
  refine sorted_append.mpr ⟨h.sorted, sorted_append.mpr ⟨m.sorted_b.sublist (List.drop_sublist _ _),
    m.sorted_a.sublist (List.drop_sublist _ _), ?_⟩, ?_⟩
  · -- what is left of `b` is below the last item of `a`
    intro y hy z hz
    rcases hend with hend | hend
    · rw [List.drop_eq_nil_of_le (by simpa using hend)] at hy
      exact absurd hy List.not_mem_nil
    · have hz' : z ∈ a.toList.drop (a.size - 1) := by
        have : a.toList.drop ia = (a.toList.drop (a.size - 1)).drop (ia - (a.size - 1)) := by
          rw [List.drop_drop]
          congr 1
          omega
        rw [this] at hz
        exact List.mem_of_mem_drop hz
      exact o.asymm (m.dom_b y (List.mem_of_mem_drop hy)) (m.dom_a z (List.mem_of_mem_drop hz'))
        (m.last y (List.mem_of_mem_drop hy) z hz')
  · intro z hz w hw
    rcases List.mem_append.mp hw with hw | hw
    · exact h.below_b z hz w hw
    · exact h.below_a z hz w hw

/-- A merge from the front of two mergeable runs writes them in order, when its fuel covers the
items left. -/
theorem lowLoop_sorted (o : WeakOrder lt dom less) (m : Mergeable dom less a b) (fuel : Nat) :
    ∀ {out : Array α} {ia ib threshold : Nat} {pace : Pace}, LowSorted less a b out ia ib →
      a.size - ia + (b.size - ib) ≤ fuel + 1 →
      ∃ r t, lowLoop lt a b fuel out ia ib threshold pace = .ok (r, t) ∧ Sorted less r.toList := by
  induction fuel with
  | zero =>
    intro out ia ib threshold pace h hfuel
    exact ⟨_, _, rfl, h.finish o m (by omega)⟩
  | succ fuel ih =>
    intro out ia ib threshold pace h hfuel
    simp only [lowLoop]
    split
    · rename_i x y hx hy
      have hia := (Array.getElem?_eq_some_iff.mp hx).1
      have hib := (Array.getElem?_eq_some_iff.mp hy).1
      have hxd : dom x := m.dom_a x (by simpa using Array.mem_of_getElem? hx)
      have hyd : dom y := m.dom_b y (by simpa using Array.mem_of_getElem? hy)
      have hda : ∀ w ∈ a.toList.drop ia, dom w := fun w hw => m.dom_a w (List.mem_of_mem_drop hw)
      have hdb : ∀ w ∈ b.toList.drop ib, dom w := fun w hw => m.dom_b w (List.mem_of_mem_drop hw)
      -- `x` is at most what is left of `a`, and `y` at most what is left of `b`
      have hxa := m.sorted_a.le_drop o m.dom_a (by simpa using hx : a.toList[ia]? = some x)
      have hyb := m.sorted_b.le_drop o m.dom_b (by simpa using hy : b.toList[ib]? = some y)
      split
      · -- one item at a time
        rw [o.answers y x hyd hxd, ok_bind]
        cases hyx : less y x
        · -- `x` is not above `y`, so not above what is left of `b`
          have h' := h.push_a m.sorted_a hx fun w hw => o.le_trans hxd hyd (hdb w hw) hyx (hyb w hw)
          simp only [Bool.false_eq_true, if_false, beq_iff_eq]
          by_cases c : a.size - ia - 1 = 1
          · rw [if_pos c]
            exact ⟨_, _, rfl, h'.finish o m (.inr (by omega))⟩
          · rw [if_neg c]
            split <;> exact ih h' (by omega)
        · -- `y` is below `x`, so below what is left of `a`
          have h' := h.push_b m.sorted_b hy fun w hw =>
            o.asymm hyd (hda w hw) (o.lt_of_lt_of_le hyd hxd (hda w hw) hyx (hxa w hw))
          simp only [if_true, beq_iff_eq]
          by_cases c : b.size - ib = 1
          · rw [if_pos c]
            exact ⟨_, _, rfl, h'.finish o m (.inl (by omega))⟩
          · rw [if_neg c]
            split <;> exact ih h' (by omega)
      · -- galloping: the items of `a` not above `y`, then `y`
        obtain ⟨k, hk, hkn, hkb, hka⟩ :=
          gallopRight_sorted o m.sorted_a m.dom_a hyd (by omega : ia + (a.size - ia) ≤ a.size)
            (by omega : 0 < a.size - ia)
        rw [List.take_of_length_le (by simp), List.drop_drop] at hka
        rw [hk, ok_bind]
        have h1 := h.take_a m.sorted_a k fun z hz w hw =>
          o.le_trans (m.dom_a z (List.mem_of_mem_drop (List.mem_of_mem_take hz))) hyd (hdb w hw)
            (hkb z hz) (hyb w hw)
        by_cases c1 : a.size - ia - k ≤ 1
        · rw [if_pos c1]
          exact ⟨_, _, rfl, h1.finish o m (.inr (by omega))⟩
        rw [if_neg c1]
        have h2 := h1.push_b m.sorted_b hy fun w hw =>
          o.asymm hyd (m.dom_a w (List.mem_of_mem_drop hw)) (hka w hw)
        simp only [beq_iff_eq]
        by_cases c2 : b.size - ib = 1
        · rw [if_pos c2]
          exact ⟨_, _, rfl, h2.finish o m (.inl (by omega))⟩
        rw [if_neg c2]
        -- the items of `b` below the next item `x'` of `a`, then `x'`
        have hx' : a[ia + k]? = some (a.getD (ia + k) x) := by
          rw [getD_of_lt x (by omega)]
          exact Array.getElem?_eq_getElem (by omega)
        have hx'd : dom (a.getD (ia + k) x) := m.dom_a _ (by simpa using Array.mem_of_getElem? hx')
        have hx'a := m.sorted_a.le_drop o m.dom_a (by rw [Array.getElem?_toList]; exact hx')
        obtain ⟨k', hk', hkn', hkb', hka'⟩ :=
          gallopLeft_sorted o m.sorted_b m.dom_b hx'd
            (by omega : ib + 1 + (b.size - ib - 1) ≤ b.size) (by omega : 0 < b.size - ib - 1)
        rw [List.take_of_length_le (by simp; omega), List.drop_drop] at hka'
        rw [hk', ok_bind]
        have h3 := h2.take_b m.sorted_b k' fun z hz w hw =>
          have hzd := m.dom_b z (List.mem_of_mem_drop (List.mem_of_mem_take hz))
          have hwd := m.dom_a w (List.mem_of_mem_drop hw)
          o.asymm hzd hwd (o.lt_of_lt_of_le hzd hx'd hwd (hkb' z hz) (hx'a w hw))
        by_cases c3 : b.size - ib - 1 - k' = 0
        · rw [if_pos c3]
          exact ⟨_, _, rfl, h3.finish o m (.inl (by omega))⟩
        rw [if_neg c3]
        have h4 := h3.push_a m.sorted_a hx' hka'
        by_cases c4 : a.size - ia - k - 1 = 1
        · rw [if_pos c4]
          exact ⟨_, _, rfl, h4.finish o m (.inr (by omega))⟩
        rw [if_neg c4]
        split <;> exact ih h4 (by omega)
    · -- nothing is left in `a` or in `b`
      rename_i hne
      refine ⟨_, _, rfl, h.finish o m ?_⟩
      by_contra hc
      exact hne a[ia] b[ib] (Array.getElem?_eq_getElem (by omega))
        (Array.getElem?_eq_getElem (by omega))

end Low

/-- What a merge from the back keeps: the items written are sorted, and none is below an item
left in `a` (its first `na`) or in `b` (its first `nb`). -/
structure HighSorted (less : α → α → Bool) (a b : Array α) (out : List α) (na nb : Nat) : Prop where
  sorted : Sorted less out
  above_a : AllLe less (a.toList.take na) out
  above_b : AllLe less (b.toList.take nb) out

section High

variable {lt : α → α → Except ε Bool} {dom : α → Prop} {less : α → α → Bool}
  {a b : Array α} {out : List α} {na nb : Nat}

theorem toList_extract_eq_drop_take (xs : Array α) (p n : Nat) :
    (xs.extract p n).toList = (xs.toList.take n).drop p := by
  rw [Array.toList_extract, List.extract_eq_take_drop, List.drop_take]

theorem HighSorted.give_a (h : HighSorted less a b out na nb) (hsa : Sorted less a.toList)
    {p : Nat} (hp : p ≤ na) (hb : AllLe less (b.toList.take nb) ((a.toList.take na).drop p)) :
    HighSorted less a b ((a.extract p na).toList ++ out) p nb := by
  have hsplit := List.take_append_drop p (a.toList.take na)
  obtain ⟨hs, h1, h2⟩ := prepend_block h.sorted (by rw [hsplit]; exact h.above_a) h.above_b
    (by rw [hsplit]; exact hsa.sublist (List.take_sublist _ _)) hb
  rw [List.take_take, Nat.min_eq_left hp] at h1
  rw [toList_extract_eq_drop_take a p na]
  exact ⟨hs, h1, h2⟩

theorem HighSorted.give_b (h : HighSorted less a b out na nb) (hsb : Sorted less b.toList)
    {q : Nat} (hq : q ≤ nb) (hb : AllLe less (a.toList.take na) ((b.toList.take nb).drop q)) :
    HighSorted less a b ((b.extract q nb).toList ++ out) na q := by
  have hsplit := List.take_append_drop q (b.toList.take nb)
  obtain ⟨hs, h1, h2⟩ := prepend_block h.sorted (by rw [hsplit]; exact h.above_b) h.above_a
    (by rw [hsplit]; exact hsb.sublist (List.take_sublist _ _)) hb
  rw [List.take_take, Nat.min_eq_left hq] at h1
  rw [toList_extract_eq_drop_take b q nb]
  exact ⟨hs, h2, h1⟩

theorem take_succ_drop_of_getElem? {l : List α} {i : Nat} {x : α} (hx : l[i]? = some x) :
    (l.take (i + 1)).drop i = [x] := by
  have hi := (List.getElem?_eq_some_iff.mp hx).1
  rw [List.take_add_one, hx, List.drop_append_of_le_length (by rw [List.length_take]; omega),
    List.drop_of_length_le (by rw [List.length_take]; omega), List.nil_append, Option.toList_some]

theorem HighSorted.push_a (h : HighSorted less a b out (na + 1) nb) (hsa : Sorted less a.toList)
    {x : α} (hx : a[na]? = some x) (hb : ∀ w ∈ b.toList.take nb, less x w = false) :
    HighSorted less a b (x :: out) na nb := by
  have hblk : (a.toList.take (na + 1)).drop na = [x] := by
    rw [take_succ_drop_of_getElem? (by rw [Array.getElem?_toList]; exact hx)]
  have h' := h.give_a hsa (Nat.le_succ na) (by rw [hblk]; simpa [AllLe] using hb)
  rwa [toList_extract_eq_drop_take a na (na + 1), hblk] at h'

theorem HighSorted.push_b (h : HighSorted less a b out na (nb + 1)) (hsb : Sorted less b.toList)
    {y : α} (hy : b[nb]? = some y) (hb : ∀ w ∈ a.toList.take na, less y w = false) :
    HighSorted less a b (y :: out) na nb := by
  have hblk : (b.toList.take (nb + 1)).drop nb = [y] := by
    rw [take_succ_drop_of_getElem? (by rw [Array.getElem?_toList]; exact hy)]
  have h' := h.give_b hsb (Nat.le_succ nb) (by rw [hblk]; simpa [AllLe] using hb)
  rwa [toList_extract_eq_drop_take b nb (nb + 1), hblk] at h'

/-- A merge from the back ends in order once `a` is used up or `b` has one item left. -/
theorem HighSorted.finish (o : WeakOrder lt dom less) (m : Mergeable dom less a b)
    (h : HighSorted less a b out na nb) (hend : na = 0 ∨ nb ≤ 1) :
    Sorted less (finishHigh out a b na nb) := by
  simp only [finishHigh, Array.toList_extract, List.extract_eq_take_drop, List.drop_zero,
    Nat.sub_zero]
  refine sorted_append.mpr ⟨sorted_append.mpr ⟨m.sorted_b.sublist (List.take_sublist _ _),
    m.sorted_a.sublist (List.take_sublist _ _), ?_⟩, h.sorted, ?_⟩
  · -- what is left of `b` is below what is left of `a`
    intro y hy z hz
    rcases hend with hend | hend
    · rw [hend, List.take_zero] at hz
      exact absurd hz List.not_mem_nil
    · have hy' : y ∈ b.toList.take 1 := List.take_subset_take_left _ hend hy
      exact o.asymm (m.dom_b y (List.mem_of_mem_take hy)) (m.dom_a z (List.mem_of_mem_take hz))
        (m.first y hy' z (List.mem_of_mem_take hz))
  · intro z hz w hw
    rcases List.mem_append.mp hz with hz | hz
    · exact h.above_b z hz w hw
    · exact h.above_a z hz w hw

/-- A merge from the back of two mergeable runs writes them in order, while `a` has an item left
and `b` two, when its fuel covers the items left. -/
theorem highLoop_sorted (o : WeakOrder lt dom less) (m : Mergeable dom less a b) (fuel : Nat) :
    ∀ {out : List α} {na nb threshold : Nat} {pace : Pace}, HighSorted less a b out na nb →
      1 ≤ na → na ≤ a.size → 2 ≤ nb → nb ≤ b.size → na + nb ≤ fuel + 1 →
      ∃ r t, highLoop lt a b fuel out na nb threshold pace = .ok (r, t) ∧ Sorted less r := by
  induction fuel with
  | zero =>
    intro out na nb threshold pace _ hna _ hnb _ hfuel
    omega
  | succ fuel ih =>
    intro out na nb threshold pace h hna hna' hnb hnb' hfuel
    simp only [highLoop]
    split
    · rename_i x y hx hy
      have hxd : dom x := m.dom_a x (by simpa using Array.mem_of_getElem? hx)
      have hyd : dom y := m.dom_b y (by simpa using Array.mem_of_getElem? hy)
      -- `x` is at least what is left of `a`, and `y` at least what is left of `b`
      have hxa := m.sorted_a.le_take o m.dom_a (by rw [Array.getElem?_toList]; exact hx)
      have hyb := m.sorted_b.le_take o m.dom_b (by rw [Array.getElem?_toList]; exact hy)
      rw [Nat.sub_add_cancel hna] at hxa
      rw [Nat.sub_add_cancel (by omega : 1 ≤ nb)] at hyb
      have hA : HighSorted less a b out (na - 1 + 1) nb := by rwa [Nat.sub_add_cancel hna]
      have hB : HighSorted less a b out na (nb - 1 + 1) := by
        rwa [Nat.sub_add_cancel (by omega : 1 ≤ nb)]
      split
      · -- one item at a time
        rw [o.answers y x hyd hxd, ok_bind]
        cases hyx : less y x
        · -- `y` is not below `x`, so not below what is left of `a`
          have h' := hB.push_b m.sorted_b hy fun w hw =>
            o.le_trans (m.dom_a w (List.mem_of_mem_take hw)) hxd hyd (hxa w hw) hyx
          simp only [Bool.false_eq_true, if_false, beq_iff_eq]
          by_cases c : nb - 1 = 1
          · rw [if_pos c]
            exact ⟨_, _, rfl, h'.finish o m (.inr (by omega))⟩
          · rw [if_neg c]
            split <;> exact ih h' hna hna' (by omega) (by omega) (by omega)
        · -- `x` is above `y`, so above what is left of `b`
          have h' := hA.push_a m.sorted_a hx fun w hw =>
            have hwd := m.dom_b w (List.mem_of_mem_take hw)
            o.asymm hwd hxd (o.lt_of_le_of_lt hwd hyd hxd (hyb w hw) hyx)
          simp only [if_true, beq_iff_eq]
          by_cases c : na = 1
          · rw [if_pos c]
            rw [c] at h'
            exact ⟨_, _, rfl, h'.finish o m (.inl rfl)⟩
          · rw [if_neg c]
            split <;> exact ih h' (by omega) (by omega) hnb hnb' (by omega)
      · -- galloping: the items of `a` above `y`, then `y`
        obtain ⟨p, hp, hpn, hpb, hpa⟩ :=
          gallopRight_sorted o m.sorted_a m.dom_a hyd (by omega : 0 + na ≤ a.size)
            (by omega : na - 1 < na)
        simp only [List.drop_zero] at hpb hpa
        rw [hp, ok_bind, Nat.sub_sub_self hpn]
        have h1 := h.give_a m.sorted_a hpn fun w hw z hz =>
          have hwd := m.dom_b w (List.mem_of_mem_take hw)
          have hzd := m.dom_a z (List.mem_of_mem_take (List.mem_of_mem_drop hz))
          o.asymm hwd hzd (o.lt_of_le_of_lt hwd hyd hzd (hyb w hw) (hpa z hz))
        simp only [beq_iff_eq]
        by_cases c1 : p = 0
        · rw [if_pos c1]
          exact ⟨_, _, rfl, h1.finish o m (.inl c1)⟩
        rw [if_neg c1]
        have h1' : HighSorted less a b ((a.extract p na).toList ++ out) p (nb - 1 + 1) := by
          rwa [Nat.sub_add_cancel (by omega : 1 ≤ nb)]
        have h2 := h1'.push_b m.sorted_b hy hpb
        by_cases c2 : nb - 1 = 1
        · rw [if_pos c2]
          exact ⟨_, _, rfl, h2.finish o m (.inr (by omega))⟩
        rw [if_neg c2]
        -- the items of `b` not below the last item `x'` left of `a`, then `x'`
        have hx' : a[p - 1]? = some (a.getD (p - 1) x) := by
          rw [getD_of_lt x (by omega)]
          exact Array.getElem?_eq_getElem (by omega)
        have hx'd : dom (a.getD (p - 1) x) := m.dom_a _ (by simpa using Array.mem_of_getElem? hx')
        have hx'a := m.sorted_a.le_take o m.dom_a (by rw [Array.getElem?_toList]; exact hx')
        rw [Nat.sub_add_cancel (by omega : 1 ≤ p)] at hx'a
        obtain ⟨q, hq, hqn, hqb, hqa⟩ :=
          gallopLeft_sorted o m.sorted_b m.dom_b hx'd (by omega : 0 + (nb - 1) ≤ b.size)
            (by omega : nb - 2 < nb - 1)
        simp only [List.drop_zero] at hqb hqa
        rw [hq, ok_bind, Nat.sub_sub_self hqn]
        have h3 := h2.give_b m.sorted_b hqn fun w hw z hz =>
          o.le_trans (m.dom_a w (List.mem_of_mem_take hw)) hx'd
            (m.dom_b z (List.mem_of_mem_take (List.mem_of_mem_drop hz))) (hx'a w hw) (hqa z hz)
        by_cases c3 : q ≤ 1
        · rw [if_pos c3]
          exact ⟨_, _, rfl, h3.finish o m (.inr c3)⟩
        rw [if_neg c3]
        have h3' : HighSorted less a b ((b.extract q (nb - 1)).toList ++
            y :: ((a.extract p na).toList ++ out)) (p - 1 + 1) q := by
          rwa [Nat.sub_add_cancel (by omega : 1 ≤ p)]
        have h4 := h3'.push_a m.sorted_a hx' fun w hw =>
          o.asymm (m.dom_b w (List.mem_of_mem_take hw)) hx'd (hqb w hw)
        by_cases c4 : p = 1
        · rw [if_pos c4]
          rw [show p - 1 = 0 by omega] at h4 ⊢
          exact ⟨_, _, rfl, h4.finish o m (.inl rfl)⟩
        rw [if_neg c4]
        split <;> exact ih h4 (by omega) (by omega) (by omega) (by omega) (by omega)
    · -- both runs have an item left
      rename_i hne
      exact absurd (hne a[na - 1] b[nb - 1] (Array.getElem?_eq_getElem (by omega))
        (Array.getElem?_eq_getElem (by omega))) id

end High

/-! ## Merging two runs in order -/

section Merge

variable {lt : α → α → Except ε Bool} {dom : α → Prop} {less : α → α → Bool} {a b : Array α}

theorem mem_take_one_of_getElem? {xs : Array α} {y : α} (hy : xs[0]? = some y) :
    y ∈ xs.toList.take 1 := by
  rw [List.take_one, List.head?_eq_getElem?, Array.getElem?_toList, hy]
  exact List.mem_singleton_self y

theorem drop_last_eq {xs : Array α} {x : α} (hx : xs[xs.size - 1]? = some x) :
    xs.toList.drop (xs.size - 1) = [x] := by
  obtain ⟨hi, rfl⟩ := Array.getElem?_eq_some_iff.mp hx
  rw [List.drop_eq_getElem_cons (by simpa using hi), List.drop_of_length_le (by simp; omega)]
  simp

/-- Merging two mergeable runs from the front writes them in order. -/
theorem mergeLow_sorted (o : WeakOrder lt dom less) (m : Mergeable dom less a b) (threshold : Nat) :
    ∃ r t, mergeLow lt a b threshold = .ok (r, t) ∧ Sorted less r.toList := by
  simp only [mergeLow]
  split
  · exact ⟨_, _, rfl, m.sorted_a⟩
  · rename_i y hy
    have hyd : dom y := m.dom_b y (by simpa using Array.mem_of_getElem? hy)
    -- the first item of `b` goes first
    have h0 : LowSorted less a b #[] 0 0 := ⟨List.Pairwise.nil, by simp [AllLe], by simp [AllLe]⟩
    have hstart := h0.push_b m.sorted_b hy fun w hw =>
      have hwd := m.dom_a w (List.mem_of_mem_drop hw)
      o.asymm hyd hwd (m.first y (mem_take_one_of_getElem? hy) w (List.mem_of_mem_drop hw))
    simp only [Nat.zero_add, Array.push_empty] at hstart
    split
    · rename_i hend
      simp only [Bool.or_eq_true, beq_iff_eq] at hend
      exact ⟨_, _, rfl, hstart.finish o m (by omega)⟩
    · exact lowLoop_sorted o m _ hstart (by omega)

/-- Merging two mergeable runs from the back writes them in order, when `b` is not empty. -/
theorem mergeHigh_sorted (o : WeakOrder lt dom less) (m : Mergeable dom less a b)
    (hb : 0 < b.size) (threshold : Nat) :
    ∃ r t, mergeHigh lt a b threshold = .ok (r, t) ∧ Sorted less r.toList := by
  simp only [mergeHigh]
  split
  · exact ⟨_, _, rfl, m.sorted_b⟩
  · rename_i x hx
    have hsize := (Array.getElem?_eq_some_iff.mp hx).1
    have hxd : dom x := m.dom_a x (by simpa using Array.mem_of_getElem? hx)
    -- the last item of `a` goes last
    have h0 : HighSorted less a b [] (a.size - 1 + 1) b.size :=
      ⟨List.Pairwise.nil, by simp [AllLe], by simp [AllLe]⟩
    have hstart := h0.push_a m.sorted_a hx fun w hw =>
      have hwd := m.dom_b w (List.mem_of_mem_take hw)
      o.asymm hwd hxd (m.last w (List.mem_of_mem_take hw) x
        (by rw [drop_last_eq hx]; exact List.mem_singleton_self x))
    split
    · rename_i hend
      simp only [Bool.or_eq_true, beq_iff_eq] at hend
      refine ⟨_, _, rfl, ?_⟩
      rw [List.toList_toArray]
      exact hstart.finish o m (by omega)
    · rename_i hne
      simp only [Bool.or_eq_true, beq_iff_eq, not_or] at hne
      obtain ⟨r, t, hr, hs⟩ := highLoop_sorted o m (a.size + b.size) hstart (by omega) (by omega)
        (by omega) (Nat.le_refl _) (by omega)
      refine ⟨r.toArray, t, ?_, by rwa [List.toList_toArray]⟩
      rw [hr]
      rfl

/-- A run as the stack holds it: sorted, not empty, and of items the order answers on. -/
structure RunReady (dom : α → Prop) (less : α → α → Bool) (r : Array α) : Prop where
  sorted : Sorted less r.toList
  nonempty : 0 < r.size
  dom : ∀ z ∈ r.toList, dom z

/-- A sorted arrangement of the items of two runs is a run. -/
theorem RunReady.of_perm (ha : RunReady dom less a) (hb : RunReady dom less b) {r : Array α}
    (hr : r.toList.Perm (a.toList ++ b.toList)) (hs : Sorted less r.toList) :
    RunReady dom less r where
  sorted := hs
  nonempty := by
    have := hr.length_eq
    simp only [Array.length_toList, List.length_append] at this
    have := ha.nonempty
    omega
  dom z hz := by
    rcases List.mem_append.mp (hr.mem_iff.mp hz) with hz | hz
    · exact ha.dom z hz
    · exact hb.dom z hz

/-- The front of `a`, a merge of the rest of `a` with the front of `b`, and the rest of `b` are in
order, when the front of `a` is not above the least item `y` of `b` and the rest of `b` is not
below the greatest item `x` of `a`. -/
theorem sorted_extract_merge (o : WeakOrder lt dom less) (ha : RunReady dom less a)
    (hb : RunReady dom less b) {m : Array α} {k nb : Nat} {x y : α} (hxd : dom x) (hyd : dom y)
    (hkb : ∀ z ∈ a.toList.take k, less y z = false) (hyb : ∀ w ∈ b.toList, less w y = false)
    (hxa : ∀ z ∈ a.toList, less x z = false) (hnba : ∀ w ∈ b.toList.drop nb, less w x = false)
    (hm : m.toList.Perm ((a.extract k a.size).toList ++ (b.extract 0 nb).toList))
    (hms : Sorted less m.toList) :
    Sorted less (a.extract 0 k ++ m ++ b.extract nb b.size).toList := by
  simp only [Array.toList_append, Array.toList_extract, List.extract_eq_take_drop, List.drop_zero,
    Nat.sub_zero] at hm ⊢
  have hA : (a.toList.drop k).take (a.size - k) = a.toList.drop k := List.take_of_length_le (by simp)
  have hB : (b.toList.drop nb).take (b.size - nb) = b.toList.drop nb :=
    List.take_of_length_le (by simp)
  rw [hA] at hm
  rw [hB]
  -- every item of the merge comes from the rest of `a` or the front of `b`
  have hmid : ∀ w ∈ m.toList, w ∈ a.toList.drop k ∨ w ∈ b.toList.take nb :=
    fun w hw => List.mem_append.mp (hm.mem_iff.mp hw)
  have hda : ∀ z ∈ a.toList.take k, dom z := fun z hz => ha.dom z (List.mem_of_mem_take hz)
  have hdb : ∀ w ∈ b.toList.drop nb, dom w := fun w hw => hb.dom w (List.mem_of_mem_drop hw)
  refine sorted_append.mpr ⟨sorted_append.mpr ⟨ha.sorted.sublist (List.take_sublist _ _), hms, ?_⟩,
    hb.sorted.sublist (List.drop_sublist _ _), ?_⟩
  · intro z hz w hw
    rcases hmid w hw with hw | hw
    · exact ha.sorted.allLe_take_drop k z hz w hw
    · exact o.le_trans (hda z hz) hyd (hb.dom w (List.mem_of_mem_take hw)) (hkb z hz)
        (hyb w (List.mem_of_mem_take hw))
  · intro z hz w hw
    rcases List.mem_append.mp hz with hz | hz
    · exact o.le_trans (hda z hz) hyd (hdb w hw) (hkb z hz) (hyb w (List.mem_of_mem_drop hw))
    · rcases hmid z hz with hz | hz
      · exact o.le_trans (ha.dom z (List.mem_of_mem_drop hz)) hxd (hdb w hw)
          (hxa z (List.mem_of_mem_drop hz)) (hnba w hw)
      · exact hb.sorted.allLe_take_drop nb z hz w hw

/-- Merging two neighbouring runs gives one run. -/
theorem mergeAt_sorted (o : WeakOrder lt dom less) (ha : RunReady dom less a)
    (hb : RunReady dom less b) (threshold : Nat) :
    ∃ r t, mergeAt lt a b threshold = .ok (r, t) ∧ RunReady dom less r := by
  suffices ∃ r t, mergeAt lt a b threshold = .ok (r, t) ∧ Sorted less r.toList by
    obtain ⟨r, t, h, hs⟩ := this
    exact ⟨r, t, h, ha.of_perm hb (mergeAt_perm h) hs⟩
  have happ : AllLe less a.toList b.toList → Sorted less (a ++ b).toList := fun h =>
    by rw [Array.toList_append]; exact sorted_append.mpr ⟨ha.sorted, hb.sorted, h⟩
  simp only [mergeAt]
  split
  · exact ⟨_, _, rfl, ha.sorted⟩
  · rename_i y hy
    have hyd : dom y := hb.dom y (by simpa using Array.mem_of_getElem? hy)
    have hyb : ∀ w ∈ b.toList, less w y = false := by
      have := hb.sorted.le_drop o hb.dom (by rw [Array.getElem?_toList]; exact hy)
      rwa [List.drop_zero] at this
    -- the items of `a` not above `y` stay in front
    obtain ⟨k, hk, hkn, hkb, hka⟩ :=
      gallopRight_sorted o ha.sorted ha.dom hyd (by omega : 0 + a.size ≤ a.size) ha.nonempty
    rw [List.drop_zero] at hkb hka
    rw [List.take_of_length_le (by simp)] at hka
    rw [hk, ok_bind]
    split
    · -- all of `a` stays in front
      rename_i hnone
      have hk' : a.size ≤ k := by
        simp only [Array.getElem?_eq_none_iff, Array.size_extract] at hnone
        omega
      rw [List.take_of_length_le (by simpa using hk')] at hkb
      exact ⟨_, _, rfl, happ fun z hz w hw =>
        o.le_trans (ha.dom z hz) hyd (hb.dom w hw) (hkb z hz) (hyb w hw)⟩
    · -- `x` is the last item of `a`
      rename_i x hx
      have hk' : k < a.size := by
        have := (Array.getElem?_eq_some_iff.mp hx).1
        simp only [Array.size_extract] at this
        omega
      have hxlast : a[a.size - 1]? = some x := by
        rw [← hx, Array.getElem?_extract]
        simp only [Array.size_extract, Nat.min_self]
        rw [if_pos (by omega)]
        congr 1
        omega
      have hxd : dom x := ha.dom x (by simpa using Array.mem_of_getElem? hxlast)
      have hxa : ∀ z ∈ a.toList, less x z = false := by
        have := ha.sorted.le_take o ha.dom (by rw [Array.getElem?_toList]; exact hxlast)
        rwa [Nat.sub_add_cancel ha.nonempty, List.take_of_length_le (by simp)] at this
      -- the items of `b` not below `x` stay at the back
      obtain ⟨nb, hnb, hnbn, hnbb, hnba⟩ :=
        gallopLeft_sorted o hb.sorted hb.dom hxd (by omega : 0 + b.size ≤ b.size)
          (by have := hb.nonempty; omega : b.size - 1 < b.size)
      rw [List.drop_zero] at hnbb hnba
      rw [List.take_of_length_le (by simp)] at hnba
      rw [hnb, ok_bind]
      simp only [beq_iff_eq]
      by_cases c : nb = 0
      · rw [if_pos c]
        rw [c, List.drop_zero] at hnba
        exact ⟨_, _, rfl, happ fun z hz w hw =>
          o.le_trans (ha.dom z hz) hxd (hb.dom w hw) (hxa z hz) (hnba w hw)⟩
      rw [if_neg c]
      -- the middle: the rest of `a` and the front of `b`
      have hA : (a.extract k a.size).toList = a.toList.drop k := by
        simp [Array.toList_extract, List.take_of_length_le]
      have hB : (b.extract 0 nb).toList = b.toList.take nb := by
        simp [Array.toList_extract, List.extract_eq_take_drop]
      have hM : Mergeable dom less (a.extract k a.size) (b.extract 0 nb) := by
        refine ⟨?_, ?_, ?_, ?_, ?_, ?_⟩
        · rw [hA]; exact ha.sorted.sublist (List.drop_sublist _ _)
        · rw [hB]; exact hb.sorted.sublist (List.take_sublist _ _)
        · rw [hA]; exact fun z hz => ha.dom z (List.mem_of_mem_drop hz)
        · rw [hB]; exact fun z hz => hb.dom z (List.mem_of_mem_take hz)
        · -- its first item is `y`
          intro y' hy' z hz
          rw [hB, List.take_take, Nat.min_eq_left (by omega), List.take_one,
            List.head?_eq_getElem?, Array.getElem?_toList, hy] at hy'
          rw [List.mem_singleton.mp hy']
          rw [hA] at hz
          exact hka z hz
        · -- its last item is `x`
          intro y' hy' z hz
          rw [hB] at hy'
          rw [drop_last_eq hx, List.mem_singleton] at hz
          rw [hz]
          exact hnbb y' hy'
      split
      · obtain ⟨m, t, hm, hms⟩ := mergeLow_sorted o hM threshold
        rw [hm, ok_bind]
        exact ⟨_, _, rfl, sorted_extract_merge o ha hb hxd hyd hkb hyb hxa hnba (mergeLow_perm hm) hms⟩
      · obtain ⟨m, t, hm, hms⟩ := mergeHigh_sorted o hM (by simp; omega) threshold
        rw [hm, ok_bind]
        exact ⟨_, _, rfl, sorted_extract_merge o ha hb hxd hyd hkb hyb hxa hnba (mergeHigh_perm hm) hms⟩

end Merge

/-! ## The stack of runs in order -/

section Stack

variable {lt : α → α → Except ε Bool} {dom : α → Prop} {less : α → α → Bool}

theorem collapseAbove_ready (o : WeakOrder lt dom less) {p : Nat} :
    ∀ {stack : List (Pending α)} {threshold : Nat} {current : Pending α},
      RunReady dom less current.items → (∀ q ∈ stack, RunReady dom less q.items) →
      ∃ top rest t, collapseAbove lt p threshold current stack = .ok (top, rest, t) ∧
        RunReady dom less top.items ∧ ∀ q ∈ rest, RunReady dom less q.items
  | [], threshold, current, hc, _ => ⟨current, [], threshold, rfl, hc, by simp⟩
  | below :: stack, threshold, current, hc, hs => by
    simp only [collapseAbove]
    by_cases hp : p < below.power
    · -- the top run is merged into the run below it, and the merging goes on
      rw [if_pos hp]
      obtain ⟨items, t, hm, hr⟩ := mergeAt_sorted o (hs below List.mem_cons_self) hc threshold
      rw [hm, ok_bind]
      exact collapseAbove_ready o hr fun q hq => hs q (List.mem_cons_of_mem _ hq)
    · rw [if_neg hp]
      exact ⟨current, below :: stack, threshold, rfl, hc, hs⟩

theorem pushRun_ready (o : WeakOrder lt dom less) (n : Nat) {run : Pending α}
    (hr : RunReady dom less run.items) (threshold : Nat) {stack : List (Pending α)}
    (hs : ∀ q ∈ stack, RunReady dom less q.items) :
    ∃ stack' t, pushRun lt n run threshold stack = .ok (stack', t) ∧
      ∀ q ∈ stack', RunReady dom less q.items := by
  cases stack with
  | nil => exact ⟨[run], threshold, rfl, by simpa using hr⟩
  | cons top rest =>
    simp only [pushRun]
    obtain ⟨top', rest', t, hc, htop, hrest⟩ :=
      collapseAbove_ready o (hs top List.mem_cons_self) fun q hq => hs q (List.mem_cons_of_mem _ hq)
    rw [hc, ok_bind]
    refine ⟨_, _, rfl, fun q hq => ?_⟩
    rcases List.mem_cons.mp hq with rfl | hq
    · exact hr
    rcases List.mem_cons.mp hq with rfl | hq
    · exact htop
    · exact hrest q hq

/-- Collapsing a stack of runs gives one sorted run, when the fuel covers the merges. -/
theorem collapseAll_sorted (o : WeakOrder lt dom less) (fuel : Nat) :
    ∀ {threshold : Nat} {stack : List (Pending α)}, (∀ q ∈ stack, RunReady dom less q.items) →
      stack.length ≤ fuel + 1 →
      ∃ r, collapseAll lt fuel threshold stack = .ok r ∧ Sorted less r.toList := by
  induction fuel with
  | zero =>
    intro threshold stack hs hlen
    match stack, hs, hlen with
    | [], _, _ => exact ⟨#[], rfl, List.Pairwise.nil⟩
    | [top], hs, _ => exact ⟨top.items, rfl, (hs top List.mem_cons_self).sorted⟩
    | _ :: _ :: _, _, hlen => simp at hlen
  | succ fuel ih =>
    intro threshold stack hs hlen
    match stack, hs, hlen with
    | [], _, _ => exact ⟨#[], rfl, List.Pairwise.nil⟩
    | [top], hs, _ => exact ⟨top.items, rfl, (hs top List.mem_cons_self).sorted⟩
    | [top, second], hs, _ =>
      simp only [collapseAll]
      obtain ⟨items, t, hm, hr⟩ := mergeAt_sorted o (hs second (by simp)) (hs top (by simp))
        threshold
      rw [hm, ok_bind]
      exact ⟨_, rfl, hr.sorted⟩
    | top :: second :: third :: rest, hs, hlen =>
      simp only [collapseAll]
      simp only [List.length_cons] at hlen
      by_cases hsize : third.items.size < top.items.size
      · -- the second and third runs are merged first
        rw [if_pos hsize]
        obtain ⟨items, t, hm, hr⟩ := mergeAt_sorted o (hs third (by simp)) (hs second (by simp))
          threshold
        rw [hm, ok_bind]
        refine ih (fun q hq => ?_) (by simp; omega)
        simp only [List.mem_cons] at hq
        rcases hq with rfl | rfl | hq
        · exact hs q (by simp)
        · exact hr
        · exact hs q (by simp [hq])
      · -- the top two runs are merged
        rw [if_neg hsize]
        obtain ⟨items, t, hm, hr⟩ := mergeAt_sorted o (hs second (by simp)) (hs top (by simp))
          threshold
        rw [hm, ok_bind]
        refine ih (fun q hq => ?_) (by simp; omega)
        simp only [List.mem_cons] at hq
        rcases hq with rfl | rfl | hq
        · exact hr
        · exact hs q (by simp)
        · exact hs q (by simp [hq])

/-- Cutting a list into runs and pushing them leaves a stack of runs. -/
theorem runsFrom_ready (o : WeakOrder lt dom less) {n minLen : Nat} (fuel : Nat) :
    ∀ {start : Nat} {xs : List α} {stack : List (Pending α)} {threshold : Nat},
      (∀ z ∈ xs, dom z) → (∀ q ∈ stack, RunReady dom less q.items) →
      ∃ stack' t, runsFrom lt n minLen fuel start xs stack threshold = .ok (stack', t) ∧
        ∀ q ∈ stack', RunReady dom less q.items := by
  induction fuel with
  | zero =>
    intro start xs stack threshold _ hs
    exact ⟨stack, threshold, rfl, hs⟩
  | succ fuel ih =>
    intro start xs stack threshold hd hs
    cases xs with
    | nil => exact ⟨stack, threshold, rfl, hs⟩
    | cons x xs =>
      simp only [runsFrom]
      obtain ⟨run, rest, hrun, hsr⟩ := naturalRun_sorted o hd
      obtain ⟨hperm, hne⟩ := naturalRun_perm hrun
      have hdr : ∀ z ∈ run ++ rest, dom z := fun z hz => hd z (hperm.mem_iff.mp hz)
      rw [hrun, ok_bind]
      -- the natural run, extended by binary insertion
      obtain ⟨items, hitems, hsi⟩ := insertAll_sorted o
        (show Sorted less run.toArray.toList by simpa using hsr)
        (fun z hz => hdr z (List.mem_append_left _ (by simpa using hz)))
        (fun z hz => hdr z (List.mem_append_right _ (List.mem_of_mem_take hz)))
      have hip := insertAll_perm _ _ hitems
      have hready : RunReady dom less items := by
        refine ⟨hsi, ?_, fun z hz => ?_⟩
        · have hl := hip.length_eq
          have : run.length ≠ 0 := by simpa [List.length_eq_zero_iff] using hne
          simp only [Array.length_toList, List.length_append] at hl
          omega
        · rcases List.mem_append.mp (hip.mem_iff.mp hz) with hz | hz
          · exact hdr z (List.mem_append_left _ (by simpa using hz))
          · exact hdr z (List.mem_append_right _ (List.mem_of_mem_take hz))
      rw [hitems, ok_bind]
      obtain ⟨stack', t, hpush, hs'⟩ :=
        pushRun_ready o n (show RunReady dom less (Pending.items ⟨items, start, 0⟩) from hready)
          threshold hs
      rw [hpush, ok_bind]
      exact ih (fun z hz => hdr z (List.mem_append_right _ (List.mem_of_mem_drop hz))) hs'

end Stack

/-- **Sorting sorts**: when the comparison answers by a strict weak order on the items, the sort
succeeds and returns a sorted permutation of them. -/
theorem sortBy_sorted {lt : α → α → Except ε Bool} {dom : α → Prop} {less : α → α → Bool}
    (o : WeakOrder lt dom less) {xs : List α} (hd : ∀ z ∈ xs, dom z) :
    ∃ ys, sortBy lt xs = .ok ys ∧ ys.Perm xs ∧ Sorted less ys := by
  suffices ∃ ys, sortBy lt xs = .ok ys ∧ Sorted less ys by
    obtain ⟨ys, h, hs⟩ := this
    exact ⟨ys, h, sortBy_perm h, hs⟩
  simp only [sortBy]
  split_ifs with hn
  · refine ⟨xs, rfl, ?_⟩
    -- fewer than two items are sorted as they are
    rcases xs with _ | ⟨x, _ | ⟨y, ys⟩⟩
    · exact List.Pairwise.nil
    · exact List.pairwise_singleton _ x
    · simp only [List.length_cons] at hn
      omega
  · obtain ⟨stack, t, hr, hs⟩ := runsFrom_ready o xs.length hd
      (fun q (hq : q ∈ ([] : List (Pending α))) => absurd hq List.not_mem_nil)
    rw [hr, ok_bind]
    obtain ⟨r, hc, hsr⟩ := collapseAll_sorted o stack.length hs (by omega)
    rw [hc, ok_bind]
    exact ⟨_, rfl, hsr⟩

end Rfc6570.Sorting
