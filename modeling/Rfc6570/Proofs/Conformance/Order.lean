import Mathlib.Data.List.Lex
import Mathlib.Data.Prod.Lex
import Rfc6570.Value.Order
import Rfc6570.Proofs.Sorting.Sorted
import Rfc6570.Proofs.Conformance.Encoding

/-!
# Rfc6570 — the order of a dictionary of texts

A dictionary's entries are sorted before they are expanded, by `entryLessThan`: by key, then by
value. On entries of texts that comparison never refuses and answers by the lexicographic order
of (key, value) in code points (`Value.textEntry_weakOrder`), a strict weak order, so `sortBy`
gives a sorted permutation; and a sorted permutation is unique, so the entries come out in
ascending key order.

## Results

* `sortBy_textPairs` — sorting a dictionary of texts lists its entries by ascending key.
* `Value.lexLess_eq_decide` — the order of texts is the lexicographic order of lists.
-/

namespace Rfc6570

open Text

namespace Value

theorem lexLess_eq_decide : ∀ a b : List Nat, lexLess a b = decide (a < b)
  | [], [] => by simp [lexLess]
  | [], _ :: _ => by simp [lexLess]
  | _ :: _, [] => by simp [lexLess]
  | a :: as, b :: bs => by
    simp only [lexLess, List.cons_lt_cons_iff]
    by_cases h : a = b
    · subst h
      simp [lexLess_eq_decide as bs]
    · simp [h]

/-- The order of entries whose key and value are both texts: by key, then by value. -/
def textEntryLess : Value × Value → Value × Value → Bool
  | (.text a, .text b), (.text c, .text d) => decide (toLex (a, b) < toLex (c, d))
  | _, _ => false

/-- An entry whose key and value are both texts. -/
def IsTextEntry (p : Value × Value) : Prop := ∃ a b, p = (.text a, .text b)

theorem entryLessThan_text (a b c d : Text) :
    entryLessThan (.text a, .text b) (.text c, .text d) =
      .ok (textEntryLess (.text a, .text b) (.text c, .text d)) := by
  simp only [entryLessThan, equal, lessThan, textEntryLess, Prod.Lex.toLex_lt_toLex, lexLess_eq_decide]
  by_cases hac : a = c
  · subst hac
    by_cases hbd : b = d
    · subst hbd
      simp
    · simp [hbd]
  · simp [hac]

/-- Sorting entries of texts answers by the lexicographic order of (key, value). -/
theorem textEntry_weakOrder : Sorting.WeakOrder entryLessThan IsTextEntry textEntryLess where
  answers := by
    rintro _ _ ⟨a, b, rfl⟩ ⟨c, d, rfl⟩
    exact entryLessThan_text a b c d
  irrefl := by
    rintro _ ⟨a, b, rfl⟩
    simp [textEntryLess]
  trans := by
    rintro _ _ _ ⟨a, b, rfl⟩ ⟨c, d, rfl⟩ ⟨e, f, rfl⟩ h₁ h₂
    simp only [textEntryLess, decide_eq_true_eq] at h₁ h₂ ⊢
    exact lt_trans h₁ h₂
  split := by
    rintro _ _ _ ⟨a, b, rfl⟩ ⟨c, d, rfl⟩ ⟨e, f, rfl⟩ h
    simp only [textEntryLess, decide_eq_true_eq] at h ⊢
    rcases lt_or_ge (toLex (a, b)) (toLex (c, d)) with h' | h'
    · exact .inl h'
    · exact .inr (lt_of_le_of_lt h' h)

end Value

/-- A dictionary entry of a text key and a text value. -/
def textPair (p : List Char × List Char) : Value × Value := (.text (ofChars p.1), .text (ofChars p.2))

theorem ofChars_lt {a b : List Char} (h : a < b) : ofChars a < ofChars b :=
  List.map_lt (fun _ _ h => h) h

/-- **A dictionary of texts is sorted by key**: when `qs` lists the entries of `ps` by strictly
increasing key, sorting the dictionary's entries gives `qs`. -/
theorem sortBy_textPairs {ps qs : List (List Char × List Char)} (hperm : qs.Perm ps)
    (hs : qs.Pairwise fun a b => a.1 < b.1) :
    sortBy Value.entryLessThan (ps.map textPair) = .ok (qs.map textPair) := by
  have hd : ∀ z ∈ ps.map textPair, Value.IsTextEntry z := by
    intro z hz
    obtain ⟨p, -, rfl⟩ := List.mem_map.mp hz
    exact ⟨_, _, rfl⟩
  obtain ⟨ys, hsort, hys, hsorted⟩ := Sorting.sortBy_sorted Value.textEntry_weakOrder hd
  rw [hsort]
  congr 1
  refine List.Perm.eq_of_pairwise (fun a b ha hb hab hba => ?_) hsorted ?_
    (hys.trans (hperm.map textPair).symm)
  · -- two entries neither less than the other are equal
    obtain ⟨x, y, rfl⟩ := hd a (hys.subset ha)
    obtain ⟨q, -, rfl⟩ := List.mem_map.mp hb
    simp only [textPair, Value.textEntryLess, decide_eq_false_iff_not, not_lt] at hab hba
    have := le_antisymm hba hab
    simp only [toLex_inj, Prod.mk.injEq] at this
    rw [textPair, this.1, this.2]
  · -- the entries of `qs` are in order
    rw [List.pairwise_map]
    refine hs.imp fun {a b} h => ?_
    simp only [textPair, Value.textEntryLess, decide_eq_false_iff_not, not_lt]
    exact le_of_lt (Prod.Lex.toLex_lt_toLex.mpr (.inl (ofChars_lt h)))

end Rfc6570
