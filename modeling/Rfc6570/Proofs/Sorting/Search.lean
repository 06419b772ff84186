import Rfc6570.Sorting.Gallop
import Rfc6570.Proofs.Except

/-!
# Rfc6570 — what the searches of the sort find

The sort searches sorted slices in two ways: halving an interval (`bisect`), and galloping from
a hint (`stride` away from it by growing steps, then halving the last step). Both look for the
place where a test on positions turns from true to false.

Whatever the comparisons answer, a search stays inside its interval (`bisect_le`,
`gallopLeft_le`, `gallopRight_le`): this is all that moving items around needs. When the test
holds on an initial part of the interval and fails after it (`Falls`), and the comparisons
behind it never refuse, the search finds exactly that place (`Cut`).

## Results

* `bisect_cut`, `stride_spec` — halving finds the cut; striding brackets it.
* `gallopLeft_cut`, `gallopRight_cut` — both gallops find the cut from any hint.
-/

namespace Rfc6570.Sorting

variable {ε α : Type}

/-! ## Where a test turns from true to false -/

/-- A test on positions that holds on an initial part of `[0, n)` and fails on the rest. -/
def Falls (t : Nat → Bool) (n : Nat) : Prop :=
  ∀ i j, i ≤ j → j < n → t j = true → t i = true

/-- `k` cuts `[lo, hi)` where the test turns from true to false. -/
structure Cut (t : Nat → Bool) (lo hi k : Nat) : Prop where
  lo_le : lo ≤ k
  le_hi : k ≤ hi
  before : ∀ m, lo ≤ m → m < k → t m = true
  after : ∀ m, k ≤ m → m < hi → t m = false

theorem Falls.false_of_le {t : Nat → Bool} {n i j : Nat} (ht : Falls t n) (hij : i ≤ j)
    (hj : j < n) (hi : t i = false) : t j = false := by
  cases htj : t j
  · rfl
  · rw [ht i j hij hj htj] at hi
    exact hi

/-- A cut of a part of `[0, n)` is a cut of the whole when the test holds left of the part and
fails right of it. -/
theorem Cut.widen {t : Nat → Bool} {n lo hi k : Nat} (hc : Cut t lo hi k) (hhi : hi ≤ n)
    (hleft : ∀ m < lo, t m = true) (hright : ∀ m, hi ≤ m → m < n → t m = false) :
    Cut t 0 n k where
  lo_le := Nat.zero_le k
  le_hi := Nat.le_trans hc.le_hi hhi
  before m _ hm := if h : m < lo then hleft m h else hc.before m (by omega) hm
  after m hm hmn := if h : m < hi then hc.after m hm h else hright m (by omega) hmn

/-! ## Halving -/

/-- Halving finds nothing beyond the end of its interval. -/
theorem bisect_le {goRight : Nat → Except ε Bool} {fuel lo hi k : Nat}
    (h : bisect goRight fuel lo hi = .ok k) (hne : lo ≤ hi ∨ 0 < fuel) : k ≤ hi := by
  induction fuel generalizing lo hi with
  | zero =>
    simp only [bisect, Except.ok.injEq] at h
    omega
  | succ fuel ih =>
    simp only [bisect] at h
    split at h
    · obtain ⟨b, -, h⟩ := bind_eq_ok.mp h
      cases b
      · have := ih h (.inl (by omega))
        omega
      · exact ih h (.inl (by omega))
    · simp only [Except.ok.injEq] at h
      omega

/-- Halving with enough fuel finds the cut of a falling test. -/
theorem bisect_cut {goRight : Nat → Except ε Bool} {t : Nat → Bool} {n : Nat} (ht : Falls t n)
    (hg : ∀ m < n, goRight m = .ok (t m)) (fuel : Nat) :
    ∀ lo hi, lo ≤ hi → hi ≤ n → hi - lo ≤ fuel →
      ∃ k, bisect goRight fuel lo hi = .ok k ∧ Cut t lo hi k := by
  induction fuel with
  | zero =>
    intro lo hi hle _ hf
    exact ⟨lo, rfl, Nat.le_refl _, hle, fun m h1 h2 => by omega, fun m h1 h2 => by omega⟩
  | succ fuel ih =>
    intro lo hi hle hn hf
    simp only [bisect]
    split
    · have hmid : lo ≤ lo + (hi - lo) / 2 ∧ lo + (hi - lo) / 2 < hi := by omega
      rw [hg _ (by omega), ok_bind]
      cases htm : t (lo + (hi - lo) / 2)
      · -- the test fails at the middle: the cut is in the left half
        obtain ⟨k, hk, hc⟩ := ih lo (lo + (hi - lo) / 2) hmid.1 (by omega) (by omega)
        refine ⟨k, by simpa using hk, hc.lo_le, by have := hc.le_hi; omega, hc.before,
          fun m h1 h2 => ?_⟩
        by_cases h3 : m < lo + (hi - lo) / 2
        · exact hc.after m h1 h3
        · exact ht.false_of_le (by omega) (by omega) htm
      · -- the test holds at the middle: the cut is in the right half
        obtain ⟨k, hk, hc⟩ := ih (lo + (hi - lo) / 2 + 1) hi (by omega) hn (by omega)
        refine ⟨k, by simpa using hk, by have := hc.lo_le; omega, hc.le_hi,
          fun m h1 h2 => ?_, hc.after⟩
        by_cases h3 : m < lo + (hi - lo) / 2 + 1
        · exact ht m _ (by omega) (by omega) htm
        · exact hc.before m (by omega) h2
    · exact ⟨hi, rfl, hle, Nat.le_refl _, fun m h1 h2 => by omega, fun m h1 h2 => by omega⟩

/-! ## Striding -/

/-- Striding stops at an offset where the test fails or that reaches `maxofs`, and reports the
last offset where it held. -/
theorem stride_spec {test : Nat → Except ε Bool} {t : Nat → Bool} {maxofs : Nat}
    (ht : ∀ o < maxofs, test o = .ok (t o)) (fuel : Nat) :
    ∀ last ofs, last < ofs → maxofs < fuel + ofs →
      ∃ l o, stride test maxofs fuel last ofs = .ok (l, o) ∧ l < o ∧
        (l = last ∨ (l < maxofs ∧ t l = true)) ∧ (maxofs ≤ o ∨ (o < maxofs ∧ t o = false)) := by
  induction fuel with
  | zero =>
    intro last ofs hlast hmax
    exact ⟨last, ofs, rfl, hlast, .inl rfl, .inl (by omega)⟩
  | succ fuel ih =>
    intro last ofs hlast hmax
    simp only [stride]
    split
    · rename_i hofs
      rw [ht ofs hofs, ok_bind]
      cases hto : t ofs
      · exact ⟨last, ofs, rfl, hlast, .inl rfl, .inr ⟨hofs, hto⟩⟩
      · -- the test held: the offset grows, with one step of fuel less
        obtain ⟨l, o, hs, hlo, hl, ho⟩ := ih ofs (2 * ofs + 1) (by omega) (by omega)
        refine ⟨l, o, by simpa using hs, hlo, .inr ?_, ho⟩
        rcases hl with rfl | hl
        · exact ⟨hofs, hto⟩
        · exact hl
    · exact ⟨last, ofs, rfl, hlast, .inl rfl, .inl (by omega)⟩

/-- From a position where the test holds, striding right and halving find the cut. -/
theorem search_right {g s : Nat → Except ε Bool} {t : Nat → Bool} {n hint : Nat} (ht : Falls t n)
    (hg : ∀ m < n, g m = .ok (t m)) (hs : ∀ o < n - hint, s o = .ok (t (hint + o)))
    (hhint : hint < n) (hth : t hint = true) :
    ∃ k, (stride s (n - hint) (n + 1) 0 1 >>= fun v =>
      bisect g (n + 1) (hint + v.1 + 1) (hint + min v.2 (n - hint))) = .ok k ∧ Cut t 0 n k := by
  obtain ⟨l, o, hst, hlo, hl, ho⟩ := stride_spec hs (n + 1) 0 1 (by omega) (by omega)
  -- the test holds at `hint + l`, and fails at `hint + o` unless that is past the end
  have htl : t (hint + l) = true := by
    rcases hl with rfl | ⟨-, htl⟩
    · simpa using hth
    · exact htl
  have hl_lt : l < n - hint := by rcases hl with rfl | ⟨hl, -⟩ <;> omega
  obtain ⟨k, hb, hc⟩ := bisect_cut ht hg (n + 1) (hint + l + 1) (hint + min o (n - hint))
    (by omega) (by omega) (by omega)
  refine ⟨k, by rw [hst, ok_bind]; exact hb, hc.widen (by omega)
    (fun m hm => ht m (hint + l) (by omega) (by omega) htl) fun m hm hmn => ?_⟩
  rcases ho with ho | ⟨ho, hto⟩
  · omega
  · exact ht.false_of_le (show hint + o ≤ m by omega) hmn hto

/-- From a position where the test fails, striding left and halving find the cut. -/
theorem search_left {g s : Nat → Except ε Bool} {t : Nat → Bool} {n hint : Nat} (ht : Falls t n)
    (hg : ∀ m < n, g m = .ok (t m)) (hs : ∀ o < hint + 1, s o = .ok (!t (hint - o)))
    (hhint : hint < n) (hth : t hint = false) :
    ∃ k, (stride s (hint + 1) (n + 1) 0 1 >>= fun v =>
      bisect g (n + 1) (hint + 1 - min v.2 (hint + 1)) (hint - v.1)) = .ok k ∧ Cut t 0 n k := by
  obtain ⟨l, o, hst, hlo, hl, ho⟩ := stride_spec hs (n + 1) 0 1 (by omega) (by omega)
  -- the test fails at `hint - l`, and holds at `hint - o` unless that is before the start
  have htl : t (hint - l) = false := by
    rcases hl with rfl | ⟨-, htl⟩
    · simpa using hth
    · simpa using htl
  have hl_le : l ≤ hint := by rcases hl with rfl | ⟨hl, -⟩ <;> omega
  obtain ⟨k, hb, hc⟩ := bisect_cut ht hg (n + 1) (hint + 1 - min o (hint + 1)) (hint - l)
    (by omega) (by omega) (by omega)
  refine ⟨k, by rw [hst, ok_bind]; exact hb, hc.widen (by omega) (fun m hm => ?_)
    fun m hm hmn => ht.false_of_le hm hmn htl⟩
  rcases ho with ho | ⟨ho, hto⟩
  · omega
  · exact ht m (hint - o) (by omega) (by omega) (by simpa using hto)

/-! ## Galloping -/

/-- Galloping for the first item not less than the key finds it, when the items of the slice
that are less than the key come first. -/
theorem gallopLeft_cut {lt : α → α → Except ε Bool} {key : α} {xs : Array α} {base n hint : Nat}
    {t : Nat → Bool} (ht : Falls t n) (hlt : ∀ m < n, lt (xs.getD (base + m) key) key = .ok (t m))
    (hhint : hint < n) : ∃ k, gallopLeft lt key xs base n hint = .ok k ∧ Cut t 0 n k := by
  simp only [gallopLeft]
  rw [hlt hint hhint, ok_bind]
  cases hth : t hint
  · simp only [Bool.false_eq_true, if_false]
    refine search_left ht hlt (fun o ho => ?_) hhint hth
    rw [hlt _ (by omega)]
    rfl
  · simp only [if_true]
    exact search_right ht hlt (fun o ho => hlt _ (by omega)) hhint hth

/-- Galloping for the first item greater than the key finds it, when the items of the slice
that are not greater than the key come first. -/
theorem gallopRight_cut {lt : α → α → Except ε Bool} {key : α} {xs : Array α} {base n hint : Nat}
    {t : Nat → Bool} (ht : Falls t n) (hlt : ∀ m < n, lt key (xs.getD (base + m) key) = .ok (!t m))
    (hhint : hint < n) : ∃ k, gallopRight lt key xs base n hint = .ok k ∧ Cut t 0 n k := by
  have hg : ∀ m < n, (fun x => !x) <$> lt key (xs.getD (base + m) key) = .ok (t m) := by
    intro m hm
    rw [hlt m hm]
    simp [Functor.map, Except.map]
  simp only [gallopRight]
  rw [hlt hint hhint, ok_bind]
  cases hth : t hint
  · simp only [Bool.not_false, if_true]
    exact search_left ht hg (fun o ho => hlt _ (by omega)) hhint hth
  · simp only [Bool.not_true, Bool.false_eq_true, if_false]
    exact search_right ht hg (fun o ho => hg _ (by omega)) hhint hth

/-- Galloping from a hint inside the slice finds a position inside it, whatever the
comparisons answer. -/
theorem gallopLeft_le {lt : α → α → Except ε Bool} {key : α} {xs : Array α} {base n hint k : Nat}
    (h : gallopLeft lt key xs base n hint = .ok k) (hhint : hint ≤ n) : k ≤ n := by
  simp only [gallopLeft] at h
  obtain ⟨b, -, h⟩ := bind_eq_ok.mp h
  split at h
  all_goals
    obtain ⟨v, -, h⟩ := bind_eq_ok.mp h
    have := bisect_le h (.inr (Nat.succ_pos n))
    omega

theorem gallopRight_le {lt : α → α → Except ε Bool} {key : α} {xs : Array α} {base n hint k : Nat}
    (h : gallopRight lt key xs base n hint = .ok k) (hhint : hint ≤ n) : k ≤ n := by
  simp only [gallopRight] at h
  obtain ⟨b, -, h⟩ := bind_eq_ok.mp h
  split at h
  all_goals
    obtain ⟨v, -, h⟩ := bind_eq_ok.mp h
    have := bisect_le h (.inr (Nat.succ_pos n))
    omega

end Rfc6570.Sorting
