import Mathlib.Data.List.Forall2

/-!
# Rfc6570 — computations that may fail

Every operation of the library answers in `Except Fault`. These are the facts about such
computations that the proofs use: a sequence of steps succeeds when each step succeeds on the
result of the one before (`bind_eq_ok`), a traversal succeeds when every item's step does
(`mapM_eq_ok_iff`), and `Except.toOption` forgets the fault, so that whether a computation
succeeds, and with what, can be decided and compared.
-/

namespace Rfc6570

-- ---------------------------------------------------------------------------
-- Steps
-- ---------------------------------------------------------------------------

/-- Two steps in sequence succeed exactly when the first does and the second succeeds on its
result. -/
theorem bind_eq_ok {ε α β : Type} {m : Except ε α} {f : α → Except ε β} {b : β} :
    m >>= f = .ok b ↔ ∃ a, m = .ok a ∧ f a = .ok b := by
  cases m <;> simp [bind, Except.bind]

theorem ok_bind {ε α β : Type} (a : α) (f : α → Except ε β) : (Except.ok a >>= f) = f a := rfl

theorem map_eq_ok {ε α β : Type} {m : Except ε α} {f : α → β} {b : β} :
    f <$> m = .ok b ↔ ∃ a, m = .ok a ∧ f a = b := by
  cases m <;> simp [Functor.map, Except.map]

-- ---------------------------------------------------------------------------
-- Traversals
-- ---------------------------------------------------------------------------

/-- A traversal that succeeds relates each item to its result. -/
theorem mapM_eq_ok_iff {ε α β : Type} (f : α → Except ε β) (xs : List α) (ys : List β) :
    xs.mapM f = .ok ys ↔ List.Forall₂ (fun x y => f x = .ok y) xs ys := by
  induction xs generalizing ys with
  | nil => cases ys <;> simp [pure, Except.pure]
  | cons x xs ih =>
    rw [List.mapM_cons]
    cases h : f x with
    | error e => cases ys <;> simp [bind, Except.bind, h]
    | ok y =>
      cases ht : xs.mapM f with
      | error e => cases ys <;> simp [bind, Except.bind, ← ih, ht, h]
      | ok ys' => cases ys <;> simp [bind, Except.bind, pure, Except.pure, ← ih, ht, h]

/-- The results of a traversal that succeeds are related to their items by any relation that
every step's result bears to its item. -/
theorem forall₂_of_mapM_eq_ok {ε α β : Type} {f : α → Except ε β} {xs : List α} {ys : List β}
    (h : xs.mapM f = .ok ys) {R : α → β → Prop} (hR : ∀ x ∈ xs, ∀ y, f x = .ok y → R x y) :
    List.Forall₂ R xs ys := by
  replace h := (mapM_eq_ok_iff f xs ys).mp h
  induction h with
  | nil => exact .nil
  | cons hxy _ ih =>
    exact .cons (hR _ List.mem_cons_self _ hxy) (ih fun x hx => hR x (List.mem_cons_of_mem _ hx))

/-- Every result of a traversal that succeeds is the result of one of its steps. -/
theorem exists_of_mapM_eq_ok {ε α β : Type} {f : α → Except ε β} {xs : List α} {ys : List β}
    (h : xs.mapM f = .ok ys) {y : β} (hy : y ∈ ys) : ∃ x ∈ xs, f x = .ok y := by
  replace h := (mapM_eq_ok_iff f xs ys).mp h
  induction h with
  | nil => exact absurd hy List.not_mem_nil
  | cons hxy _ ih =>
    rcases List.mem_cons.mp hy with rfl | hy
    · exact ⟨_, List.mem_cons_self, hxy⟩
    · obtain ⟨x, hx, hfx⟩ := ih hy
      exact ⟨x, List.mem_cons_of_mem _ hx, hfx⟩

/-- Every result of a traversal that succeeds has a property that every step's result has, and
there is one result per item. -/
theorem mapM_forall {ε α β : Type} {P : β → Prop} {f : α → Except ε β} {xs : List α} {ys : List β}
    (h : xs.mapM f = .ok ys) (hf : ∀ x ∈ xs, ∀ y, f x = .ok y → P y) :
    ys.length = xs.length ∧ ∀ y ∈ ys, P y :=
  ⟨((mapM_eq_ok_iff f xs ys).mp h).length_eq.symm, fun y hy => by
    obtain ⟨x, hx, hfx⟩ := exists_of_mapM_eq_ok h hy
    exact hf x hx y hfx⟩

@[simp] theorem toOption_ok {ε α : Type} (a : α) : (Except.ok a : Except ε α).toOption = some a := rfl

@[simp] theorem toOption_error {ε α : Type} (e : ε) : (Except.error e : Except ε α).toOption = none :=
  rfl

/-- Whether a computation succeeds, and with what, is read step by step. -/
@[simp] theorem toOption_bind {ε α β : Type} (m : Except ε α) (f : α → Except ε β) :
    (m >>= f).toOption = m.toOption.bind fun a => (f a).toOption := by
  cases m <;> rfl

@[simp] theorem toOption_pure {ε α : Type} (a : α) : (pure a : Except ε α).toOption = some a := rfl

theorem eq_ok_of_toOption_eq_some {ε α : Type} {m : Except ε α} {a : α} (h : m.toOption = some a) :
    m = .ok a := by
  cases m <;> simp_all [Except.toOption]

theorem mem_toOption {ε α : Type} {m : Except ε α} {a : α} : a ∈ m.toOption ↔ m = .ok a := by
  cases m <;> simp [Except.toOption]

@[simp] theorem toOption_map {ε α β : Type} (f : α → β) (m : Except ε α) :
    (f <$> m).toOption = m.toOption.map f := by
  cases m <;> rfl

/-- A traversal succeeds exactly when every step does. -/
theorem exists_mapM_eq_ok {ε α β : Type} (f : α → Except ε β) (xs : List α) :
    (∃ ys, xs.mapM f = .ok ys) ↔ ∀ x ∈ xs, ∃ y, f x = .ok y := by
  induction xs with
  | nil => simp [pure, Except.pure]
  | cons x xs ih =>
    rw [List.mapM_cons, List.forall_mem_cons, ← ih]
    cases f x <;> cases xs.mapM f <;> simp [bind, Except.bind, pure, Except.pure]

/-- A traversal of mapped items whose every step succeeds with `g` of the item gives the items
mapped by `g`. -/
theorem mapM_map_eq_ok {ε α β γ : Type} {f : β → Except ε γ} {t : α → β} {g : α → γ} :
    ∀ {xs : List α}, (∀ x ∈ xs, f (t x) = .ok (g x)) → (xs.map t).mapM f = .ok (xs.map g)
  | [], _ => rfl
  | x :: xs, h => by
    rw [List.map_cons, List.mapM_cons, h x List.mem_cons_self, ok_bind,
      mapM_map_eq_ok fun y hy => h y (List.mem_cons_of_mem x hy)]
    rfl

/-- The same for a traversal that keeps the results that are present. -/
theorem filterMapM_map_eq_ok {ε α β γ : Type} {f : β → Except ε (Option γ)} {t : α → β}
    {g : α → Option γ} :
    ∀ {xs : List α}, (∀ x ∈ xs, f (t x) = .ok (g x)) → (xs.map t).filterMapM f = .ok (xs.filterMap g)
  | [], _ => rfl
  | x :: xs, h => by
    rw [List.map_cons, List.filterMapM_cons, h x List.mem_cons_self, ok_bind, List.filterMap_cons]
    cases g x with
    | none => exact filterMapM_map_eq_ok fun y hy => h y (List.mem_cons_of_mem x hy)
    | some y =>
      rw [filterMapM_map_eq_ok fun y hy => h y (List.mem_cons_of_mem x hy)]
      rfl

/-- A traversal that keeps the present results depends only on the steps of its own items. -/
theorem filterMapM_congr {ε α β : Type} {f g : α → Except ε (Option β)} :
    ∀ {xs : List α}, (∀ x ∈ xs, f x = g x) → xs.filterMapM f = xs.filterMapM g
  | [], _ => rfl
  | x :: xs, h => by
    rw [List.filterMapM_cons, List.filterMapM_cons, h x List.mem_cons_self,
      filterMapM_congr fun y hy => h y (List.mem_cons_of_mem x hy)]

/-- A traversal that keeps the present results relates them, in order, to the present values of
any `g` whose every value is related to the result of its item's step. -/
theorem forall₂_of_filterMapM_eq_ok {ε α β γ : Type} {R : γ → β → Prop} {f : α → Except ε (Option β)}
    {g : α → Option γ} :
    ∀ {xs : List α} {ys : List β}, xs.filterMapM f = .ok ys →
      (∀ x ∈ xs, ∀ o, f x = .ok o → Option.Rel R (g x) o) → List.Forall₂ R (xs.filterMap g) ys
  | [], _, h, _ => by
    cases h
    exact .nil
  | x :: xs, ys, h, hf => by
    rw [List.filterMapM_cons] at h
    obtain ⟨o, ho, h⟩ := bind_eq_ok.mp h
    have hrest : ∀ y ∈ xs, ∀ o, f y = .ok o → Option.Rel R (g y) o :=
      fun y hy => hf y (List.mem_cons_of_mem x hy)
    have hx := hf x List.mem_cons_self o ho
    rw [List.filterMap_cons]
    cases hgx : g x with
    | none =>
      rw [hgx] at hx
      cases hx
      exact forall₂_of_filterMapM_eq_ok h hrest
    | some c =>
      rw [hgx] at hx
      cases hx with
      | some hab =>
        obtain ⟨zs, hzs, h⟩ := bind_eq_ok.mp h
        cases h
        exact .cons hab (forall₂_of_filterMapM_eq_ok hzs hrest)

/-- Mapping the results of each step maps the results of the traversal. -/
theorem mapM_map_results {ε α β γ : Type} (f : α → Except ε β) (g : β → γ) (xs : List α) :
    xs.mapM (fun x => g <$> f x) = List.map g <$> xs.mapM f := by
  induction xs with
  | nil => rfl
  | cons x xs ih =>
    rw [List.mapM_cons, List.mapM_cons, ih]
    cases f x <;> cases xs.mapM f <;> rfl

end Rfc6570
