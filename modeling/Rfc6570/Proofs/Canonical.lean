import Mathlib.Algebra.Order.Field.Rat
import Mathlib.Data.Int.Cast.Lemmas
import Rfc6570.Value.Key

/-!
# Rfc6570 — equality of hashable values through a canonical form

Equality of values crosses kinds and compares binary64 numbers exactly, so it is not the
structural equality of the terms. This module gives every hashable value other than a
not-a-number a canonical form (`Value.canon`): the exact value of a number on the extended
rational line, a text, a byte string, or the forms of a tuple's items. Two values are equal
exactly when both have a form and the forms agree (`Value.equal_iff_canon`). Equality is
therefore symmetric and transitive on hashable values, and reflexive on those with a form.

The keys of texts and whole numbers are read off the same form (`Value.key?_eq_some_iff`):
equal values have the same key, which is what lets an arrival set find keyed members by key.
-/

namespace Rfc6570

/-- A point of the extended rational line: what a binary64 number other than a
not-a-number, or an integer, denotes exactly. -/
inductive Extended where
  | negInf
  | fin (q : ℚ)
  | posInf
deriving DecidableEq

namespace Binary64

/-- The exact value of a number; `none` for a not-a-number. -/
def exact (x : Binary64) : Option Extended :=
  match x.view with
  | .nan => none
  | .infinite neg => some (if neg then .negInf else .posInf)
  | .finite neg m e => some (.fin (signedSignificand neg m * (2 : ℚ) ^ e))

/-- Scaling both sides by the smaller power of two decides `a · 2 ^ i = b · 2 ^ j`. -/
theorem compareScaled_eq_iff (a i b j : Int) :
    compareScaled a i b j = .eq ↔ (a : ℚ) * 2 ^ i = b * 2 ^ j := by
  -- `2 ^ l` splits as `2 ^ (l - k)` with a natural exponent times `2 ^ k`, `k = min i j`
  have hsplit : ∀ l : Int, min i j ≤ l →
      (2 : ℚ) ^ l = ((2 ^ (l - min i j).toNat : ℕ) : ℚ) * 2 ^ min i j := by
    intro l hl
    rw [Nat.cast_pow, Nat.cast_ofNat, ← zpow_natCast, Int.toNat_of_nonneg (by omega),
      ← zpow_add₀ two_ne_zero, sub_add_cancel]
  have hcast : ∀ (c : Int) (n : ℕ), (((c * (n : Int) : Int)) : ℚ) = (c : ℚ) * (n : ℚ) := by
    intro c n
    rw [Int.cast_mul, Int.cast_natCast]
  rw [compareScaled, compare_eq_iff_eq, hsplit i (min_le_left i j), hsplit j (min_le_right i j),
    ← mul_assoc, ← mul_assoc, mul_left_inj' (zpow_ne_zero _ two_ne_zero), ← hcast, ← hcast]
  exact Int.cast_inj.symm

/-- Two numbers compare equal exactly when both are numbers with the same exact value. -/
theorem compare?_eq_eq_iff (x y : Binary64) :
    x.compare? y = some .eq ↔ ∃ q, x.exact = some q ∧ y.exact = some q := by
  unfold compare? exact
  cases x.view with
  | nan => simp
  | infinite a =>
    cases y.view with
    | nan => simp
    | infinite b => cases a <;> cases b <;> simp
    | finite t n f => cases a <;> simp
  | finite s m e =>
    cases y.view with
    | nan => simp
    | infinite b => cases b <;> simp
    | finite t n f =>
      simp only [Option.some_inj, exists_eq_left', Extended.fin.injEq]
      rw [compareScaled_eq_iff, eq_comm]

/-- A number compares equal to an integer exactly when that integer is its exact value. -/
theorem compareInt?_eq_eq_iff (x : Binary64) (k : Int) :
    x.compareInt? k = some .eq ↔ x.exact = some (.fin k) := by
  unfold compareInt? exact
  cases x.view with
  | nan => simp
  | infinite a => cases a <;> simp
  | finite s m e => simp [compareScaled_eq_iff]

theorem signedSignificand_eq_zero_iff (neg : Bool) (m : Nat) :
    signedSignificand neg m = 0 ↔ m = 0 := by
  cases neg <;> simp [signedSignificand]

theorem signedSignificand_mul (neg : Bool) (m p : Nat) :
    signedSignificand neg (m * p) = signedSignificand neg m * p := by
  cases neg <;> simp [signedSignificand]

/-- A number is a zero exactly when its exact value is zero. -/
theorem isZero_iff (x : Binary64) : x.isZero = true ↔ x.exact = some (.fin 0) := by
  unfold isZero exact
  cases x.view with
  | nan => simp
  | infinite a => cases a <;> simp
  | finite s m e =>
    have hvalue : (signedSignificand s m : ℚ) * 2 ^ e = 0 ↔ m = 0 := by
      rw [mul_eq_zero, or_iff_left (zpow_ne_zero e two_ne_zero), Int.cast_eq_zero,
        signedSignificand_eq_zero_iff]
    rw [Option.some_inj, Extended.fin.injEq, hvalue]
    cases m <;> simp

theorem two_zpow_of_nonneg {e : Int} (he : 0 ≤ e) : (2 : ℚ) ^ e = ((2 ^ e.toNat : ℕ) : ℚ) := by
  rw [Nat.cast_pow, Nat.cast_ofNat, ← zpow_natCast, Int.toNat_of_nonneg he]

theorem two_zpow_of_neg {e : Int} (he : e < 0) : (2 : ℚ) ^ e = ((2 ^ (-e).toNat : ℕ) : ℚ)⁻¹ := by
  rw [Nat.cast_pow, Nat.cast_ofNat, ← zpow_natCast, Int.toNat_of_nonneg (by omega), zpow_neg,
    inv_inv]

theorem dvd_of_dvd_signedSignificand {neg : Bool} {m p : Nat}
    (h : (p : Int) ∣ signedSignificand neg m) : p ∣ m := by
  cases neg with
  | false => exact Int.natCast_dvd_natCast.mp h
  | true => exact Int.natCast_dvd_natCast.mp (Int.dvd_neg.mp h)

/-- A number has an integer value exactly when its exact value is that integer. -/
theorem toInt?_eq_some_iff (x : Binary64) (k : Int) :
    x.toInt? = some k ↔ x.exact = some (.fin k) := by
  unfold toInt? exact
  cases x.view with
  | nan => simp
  | infinite a => cases a <;> simp
  | finite neg m e =>
    simp only [Nat.pow_eq, Option.some_inj, Extended.fin.injEq]
    by_cases he : 0 ≤ e
    · -- a whole multiple of `m`
      rw [two_zpow_of_nonneg he, ← Int.cast_natCast, ← Int.cast_mul, ← signedSignificand_mul,
        Int.cast_inj]
      simp [he, signedSignificand]
    · have hlt : e < 0 := by omega
      have hp : ((2 ^ (-e).toNat : ℕ) : ℚ) ≠ 0 := Nat.cast_ne_zero.mpr (pow_ne_zero _ two_ne_zero)
      rw [two_zpow_of_neg hlt]
      by_cases hdiv : m % 2 ^ (-e).toNat = 0
      · -- the division by `2 ^ -e` is exact
        obtain ⟨q, rfl⟩ := Nat.dvd_of_mod_eq_zero hdiv
        have hval : (signedSignificand neg (2 ^ (-e).toNat * q) : ℚ) *
            ((2 ^ (-e).toNat : ℕ) : ℚ)⁻¹ = signedSignificand neg q := by
          rw [Nat.mul_comm, signedSignificand_mul, Int.cast_mul, Int.cast_natCast, mul_assoc,
            mul_inv_cancel₀ hp, mul_one]
        rw [hval, Int.cast_inj]
        simp [he, hdiv, Nat.mul_div_cancel_left q (Nat.two_pow_pos _), signedSignificand]
      · -- a fraction is no integer: `2 ^ -e` would divide `m`
        simp only [he, hdiv, if_false]
        simp only [Option.bind_eq_bind, Option.bind_none, Option.map_none, reduceCtorEq, false_iff]
        intro h
        rw [mul_inv_eq_iff_eq_mul₀ hp, ← Int.cast_natCast, ← Int.cast_mul, Int.cast_inj] at h
        exact hdiv (Nat.mod_eq_zero_of_dvd (dvd_of_dvd_signedSignificand ⟨k, by rw [h, mul_comm]⟩))

end Binary64

namespace Value

/-- The exact value of a real. -/
def Real.exact : Real → Option Extended
  | .int n => some (.fin n)
  | .float x => x.exact

/-- The exact value of an imaginary part; a missing one is zero. -/
def imaginaryExact : Option Binary64 → Option Extended
  | Option.none => some (.fin 0)
  | some x => x.exact

/-- The exact value of a number, as its real and imaginary parts. -/
def numberExact (a : Real × Option Binary64) : Option (Extended × Extended) := do
  return (← a.1.exact, ← imaginaryExact a.2)

theorem numberExact_eq_some_iff (a : Real × Option Binary64) (r i : Extended) :
    numberExact a = some (r, i) ↔ a.1.exact = some r ∧ imaginaryExact a.2 = some i := by
  unfold numberExact
  cases a.1.exact <;> cases imaginaryExact a.2 <;> simp

theorem map_swap_eq_eq (o : Option Ordering) : o.map Ordering.swap = some .eq ↔ o = some .eq := by
  rcases o with _ | _ | _ | _ <;> simp [Ordering.swap]

/-- Two reals compare equal exactly when both have the same exact value. -/
theorem Real.compare?_eq_eq_iff (a b : Real) :
    a.compare? b = some .eq ↔ ∃ q, a.exact = some q ∧ b.exact = some q := by
  cases a with
  | int m =>
    cases b with
    | int n =>
      simp only [Real.compare?, Real.exact, Option.some_inj, compare_eq_iff_eq, exists_eq_left',
        Extended.fin.injEq, Int.cast_inj]
      exact eq_comm
    | float y =>
      rw [Real.compare?, map_swap_eq_eq, Binary64.compareInt?_eq_eq_iff]
      simp [Real.exact, eq_comm]
  | float x =>
    cases b with
    | int n =>
      rw [Real.compare?, Binary64.compareInt?_eq_eq_iff]
      simp [Real.exact]
    | float y => exact Binary64.compare?_eq_eq_iff x y

/-- Two imaginary parts are equal exactly when both have the same exact value. -/
theorem imaginaryEqual_iff (a b : Option Binary64) :
    imaginaryEqual a b = true ↔ ∃ q, imaginaryExact a = some q ∧ imaginaryExact b = some q := by
  cases a with
  | none =>
    cases b with
    | none => simp [imaginaryEqual, imaginaryExact]
    | some y => simp [imaginaryEqual, imaginaryExact, Binary64.isZero_iff]
  | some x =>
    cases b with
    | none => simp [imaginaryEqual, imaginaryExact, Binary64.isZero_iff]
    | some y => simp [imaginaryEqual, imaginaryExact, Binary64.compare?_eq_eq_iff]

/-- Two numbers are equal exactly when both parts have the same exact values. -/
theorem numbersEqual_iff (a b : Real × Option Binary64) :
    numbersEqual a b = true ↔ ∃ c, numberExact a = some c ∧ numberExact b = some c := by
  rw [numbersEqual, Bool.and_eq_true, beq_iff_eq, Real.compare?_eq_eq_iff, imaginaryEqual_iff]
  constructor
  · rintro ⟨⟨r, hr, hr'⟩, ⟨i, hi, hi'⟩⟩
    exact ⟨(r, i), (numberExact_eq_some_iff a r i).mpr ⟨hr, hi⟩,
      (numberExact_eq_some_iff b r i).mpr ⟨hr', hi'⟩⟩
  · rintro ⟨⟨r, i⟩, ha, hb⟩
    rw [numberExact_eq_some_iff] at ha hb
    exact ⟨⟨r, ha.1, hb.1⟩, ⟨i, ha.2, hb.2⟩⟩

/-- The canonical form of a hashable value: equal values have equal forms. -/
inductive Canon where
  | none
  | number (re im : Extended)
  | text (t : Text)
  | bytes (bs : List UInt8)
  | tuple (items : List Canon)

/-- The canonical form of a number: the exact values of its parts. -/
def Canon.ofNumber (a : Real × Option Binary64) : Option Canon :=
  (numberExact a).map fun c => .number c.1 c.2

mutual
/-- The canonical form of a value; none for a list or a dictionary, and for a value that holds
a not-a-number. -/
def canon : Value → Option Canon
  | .none => some .none
  | .bool b => Canon.ofNumber (.int (if b then 1 else 0), Option.none)
  | .int n => Canon.ofNumber (.int n, Option.none)
  | .float x => Canon.ofNumber (.float x, Option.none)
  | .complex re im => Canon.ofNumber (.float re, some im)
  | .text t => some (.text t)
  | .bytes bs => some (.bytes bs)
  | .list _ => Option.none
  | .tuple xs => Canon.tuple <$> canonItems xs
  | .dict _ => Option.none
/-- The canonical forms of items. -/
def canonItems : List Value → Option (List Canon)
  | [] => some []
  | x :: xs => do return (← canon x) :: (← canonItems xs)
end

theorem canon_of_number? {v : Value} {a : Real × Option Binary64} (h : v.number? = some a) :
    v.canon = Canon.ofNumber a := by
  cases v <;> simp_all [number?, canon]

theorem equal_none_iff (b : Value) : Value.none.equal b = true ↔ b = .none := by
  cases b <;> simp [equal, number?]

theorem equal_text_iff (t : Text) (b : Value) : (Value.text t).equal b = true ↔ b = .text t := by
  cases b with
  | text s =>
    simp only [equal, beq_iff_eq, Value.text.injEq]
    exact eq_comm
  | _ => simp [equal, number?]

theorem equal_bytes_iff (bs : List UInt8) (b : Value) :
    (Value.bytes bs).equal b = true ↔ b = .bytes bs := by
  cases b with
  | bytes cs =>
    simp only [equal, beq_iff_eq, Value.bytes.injEq]
    exact eq_comm
  | _ => simp [equal, number?]

theorem equal_tuple_iff (xs : List Value) (b : Value) :
    (Value.tuple xs).equal b = true ↔ ∃ ys, b = .tuple ys ∧ equalItems xs ys = true := by
  cases b <;> simp [equal, number?]

theorem equal_of_number? {a : Value} {x : Real × Option Binary64} (hx : a.number? = some x)
    (b : Value) : a.equal b = true ↔ ∃ y, b.number? = some y ∧ numbersEqual x y = true := by
  cases a <;> cases b <;> simp_all [equal, number?]

theorem ofNumber_eq_some_iff (a : Real × Option Binary64) (c : Canon) :
    Canon.ofNumber a = some c ↔ ∃ r i, numberExact a = some (r, i) ∧ c = .number r i := by
  simp [Canon.ofNumber, eq_comm]

/-! The form of a value names its kind: these read the kind back. -/

theorem canon_eq_none_iff (b : Value) : b.canon = some .none ↔ b = .none := by
  cases b <;> simp [canon, ofNumber_eq_some_iff]

theorem canon_eq_text_iff (b : Value) (t : Text) : b.canon = some (.text t) ↔ b = .text t := by
  cases b <;> simp [canon, ofNumber_eq_some_iff]

theorem canon_eq_bytes_iff (b : Value) (bs : List UInt8) :
    b.canon = some (.bytes bs) ↔ b = .bytes bs := by
  cases b <;> simp [canon, ofNumber_eq_some_iff]

theorem canon_eq_tuple_iff (b : Value) (cs : List Canon) :
    b.canon = some (.tuple cs) ↔ ∃ ys, b = .tuple ys ∧ canonItems ys = some cs := by
  cases b <;> simp [canon, ofNumber_eq_some_iff]

theorem canon_eq_number_iff (b : Value) (r i : Extended) :
    b.canon = some (.number r i) ↔ ∃ y, b.number? = some y ∧ numberExact y = some (r, i) := by
  cases b <;> simp [canon, ofNumber_eq_some_iff, number?]

theorem canonItems_nil : canonItems [] = some [] := rfl

theorem canonItems_cons_eq_some_iff (x : Value) (xs : List Value) (cs : List Canon) :
    canonItems (x :: xs) = some cs ↔
      ∃ c cs', x.canon = some c ∧ canonItems xs = some cs' ∧ cs = c :: cs' := by
  rw [canonItems]
  cases x.canon <;> cases canonItems xs <;> simp [eq_comm]

/-- A number is equal to exactly the values with its form. -/
theorem equal_iff_canon_of_number {a : Value} {x : Real × Option Binary64}
    (hx : a.number? = some x) (b : Value) :
    a.equal b = true ↔ ∃ c, a.canon = some c ∧ b.canon = some c := by
  rw [equal_of_number? hx, canon_of_number? hx]
  constructor
  · rintro ⟨y, hy, hxy⟩
    obtain ⟨⟨r, i⟩, hrx, hry⟩ := (numbersEqual_iff x y).mp hxy
    exact ⟨.number r i, (ofNumber_eq_some_iff x _).mpr ⟨r, i, hrx, rfl⟩,
      (canon_eq_number_iff b r i).mpr ⟨y, hy, hry⟩⟩
  · rintro ⟨c, hc, hb⟩
    obtain ⟨r, i, hrx, rfl⟩ := (ofNumber_eq_some_iff x c).mp hc
    obtain ⟨y, hy, hry⟩ := (canon_eq_number_iff b r i).mp hb
    exact ⟨y, hy, (numbersEqual_iff x y).mpr ⟨(r, i), hrx, hry⟩⟩

theorem unhashableItem?_cons_eq_none_iff (x : Value) (xs : List Value) :
    unhashableItem? (x :: xs) = Option.none ↔
      x.unhashableKind? = Option.none ∧ unhashableItem? xs = Option.none := by
  rw [unhashableItem?, Option.or_eq_none_iff]

theorem canonItems_cons_ne_nil (x : Value) (xs : List Value) : canonItems (x :: xs) ≠ some [] := by
  intro h
  obtain ⟨c, cs, -, -, hnil⟩ := (canonItems_cons_eq_some_iff x xs []).mp h
  exact List.cons_ne_nil c cs hnil.symm

mutual
/-- **Equality is sameness of form**: a hashable value is equal to exactly the values that have
its canonical form, so one without a form (a not-a-number, or a tuple that holds one) is equal
to nothing. -/
theorem equal_iff_canon : ∀ {a : Value}, a.unhashableKind? = Option.none → ∀ b : Value,
    a.equal b = true ↔ ∃ c, a.canon = some c ∧ b.canon = some c
  | .none, _, b => by
    rw [equal_none_iff, ← canon_eq_none_iff]
    simp [canon]
  | .bool _, _, b => equal_iff_canon_of_number rfl b
  | .int _, _, b => equal_iff_canon_of_number rfl b
  | .float _, _, b => equal_iff_canon_of_number rfl b
  | .complex .., _, b => equal_iff_canon_of_number rfl b
  | .text t, _, b => by
    rw [equal_text_iff, ← canon_eq_text_iff]
    simp [canon]
  | .bytes bs, _, b => by
    rw [equal_bytes_iff, ← canon_eq_bytes_iff]
    simp [canon]
  | .list _, h, _ => nomatch h
  | .dict _, h, _ => nomatch h
  | .tuple xs, h, b => by
    -- a tuple is equal only to a tuple, item by item
    have hxs : unhashableItem? xs = Option.none := h
    rw [equal_tuple_iff]
    constructor
    · rintro ⟨ys, rfl, hxy⟩
      obtain ⟨cs, hx, hy⟩ := (equalItems_iff_canonItems hxs ys).mp hxy
      exact ⟨.tuple cs, by simp [canon, hx], by simp [canon, hy]⟩
    · rintro ⟨c, hc, hb⟩
      obtain ⟨cs, hx, rfl⟩ : ∃ cs, canonItems xs = some cs ∧ Canon.tuple cs = c := by
        simpa [canon] using hc
      obtain ⟨ys, rfl, hy⟩ := (canon_eq_tuple_iff b cs).mp hb
      exact ⟨ys, rfl, (equalItems_iff_canonItems hxs ys).mpr ⟨cs, hx, hy⟩⟩
/-- Items are equal one by one exactly when their lists of forms agree. -/
theorem equalItems_iff_canonItems : ∀ {xs : List Value}, unhashableItem? xs = Option.none →
    ∀ ys : List Value,
      equalItems xs ys = true ↔ ∃ cs, canonItems xs = some cs ∧ canonItems ys = some cs
  | [], _, [] => by simp [equalItems, canonItems]
  -- lists of different lengths: one list of forms is empty and the other is not
  | [], _, y :: ys => by simp [equalItems, canonItems_nil, canonItems_cons_ne_nil]
  | x :: xs, _, [] => by simp [equalItems, canonItems_nil, canonItems_cons_ne_nil]
  | x :: xs, h, y :: ys => by
    obtain ⟨hx, hxs⟩ := (unhashableItem?_cons_eq_none_iff x xs).mp h
    rw [equalItems, Bool.and_eq_true, equal_iff_canon hx y, equalItems_iff_canonItems hxs ys]
    constructor
    · rintro ⟨⟨c, hc, hc'⟩, ⟨cs, hcs, hcs'⟩⟩
      exact ⟨c :: cs, (canonItems_cons_eq_some_iff x xs _).mpr ⟨c, cs, hc, hcs, rfl⟩,
        (canonItems_cons_eq_some_iff y ys _).mpr ⟨c, cs, hc', hcs', rfl⟩⟩
    · rintro ⟨ds, hx', hy'⟩
      obtain ⟨c, cs, hc, hcs, rfl⟩ := (canonItems_cons_eq_some_iff x xs ds).mp hx'
      obtain ⟨c', cs', hc', hcs', heq⟩ := (canonItems_cons_eq_some_iff y ys _).mp hy'
      obtain ⟨rfl, rfl⟩ := List.cons.inj heq
      exact ⟨⟨c, hc, hc'⟩, ⟨cs, hcs, hcs'⟩⟩
end

variable {a b c : Value}

/-- On hashable values equality is symmetric. -/
theorem equal_comm (ha : a.unhashableKind? = Option.none) (hb : b.unhashableKind? = Option.none) :
    a.equal b = b.equal a := by
  apply Bool.eq_iff_iff.mpr
  rw [equal_iff_canon ha, equal_iff_canon hb]
  exact ⟨fun ⟨d, h, h'⟩ => ⟨d, h', h⟩, fun ⟨d, h, h'⟩ => ⟨d, h', h⟩⟩

/-- On hashable values equality is transitive. -/
theorem equal_trans (ha : a.unhashableKind? = Option.none) (hb : b.unhashableKind? = Option.none)
    (hab : a.equal b = true) (hbc : b.equal c = true) : a.equal c = true := by
  obtain ⟨d, hda, hdb⟩ := (equal_iff_canon ha b).mp hab
  obtain ⟨d', hdb', hdc⟩ := (equal_iff_canon hb c).mp hbc
  obtain rfl : d = d' := Option.some_inj.mp (hdb.symm.trans hdb')
  exact (equal_iff_canon ha c).mpr ⟨d, hda, hdc⟩

end Value

/-- The form a key stands for. -/
def Key.canon : Key → Value.Canon
  | .text t => .text t
  | .int n => .number (.fin n) (.fin 0)

namespace Value

/-- **Keys are read off the form**: a value has a key exactly when its form is the key's. -/
theorem key?_eq_some_iff (v : Value) (k : Key) : v.key? = some k ↔ v.canon = some k.canon := by
  cases k with
  | text t =>
    -- only a text has a text key, and only a text has a text form
    rw [Key.canon, canon_eq_text_iff]
    cases v <;> simp [key?]
  | int n =>
    -- an integer key is the exact value of a number with no imaginary part
    rw [Key.canon, canon_eq_number_iff]
    simp only [numberExact_eq_some_iff]
    cases v with
    | bool b => cases b <;> simp [key?, number?, Real.exact, imaginaryExact, eq_comm]
    | int m => simp [key?, number?, Real.exact, imaginaryExact]
    | float x => simp [key?, number?, Real.exact, imaginaryExact, Binary64.toInt?_eq_some_iff]
    | complex re im =>
      -- the key needs a zero imaginary part, the form an imaginary part of exact value zero
      have hzero := Binary64.isZero_iff im
      simp only [key?, number?, Real.exact, imaginaryExact]
      cases hz : im.isZero with
      | false =>
        simp only [hz, Bool.false_eq_true, false_iff] at hzero
        simp [hzero]
      | true =>
        simp only [hz, true_iff] at hzero
        simp [hzero, Binary64.toInt?_eq_some_iff]
    | _ => simp [key?, number?]

/-- A value with a key is hashable. -/
theorem unhashableKind?_of_key? {v : Value} {k : Key} (h : v.key? = some k) :
    v.unhashableKind? = Option.none := by
  cases v <;> first | rfl | simp [key?] at h

/-- Values with the same key are equal. -/
theorem equal_of_key?_eq {a b : Value} {k : Key} (ha : a.key? = some k) (hb : b.key? = some k) :
    a.equal b = true :=
  (equal_iff_canon (unhashableKind?_of_key? ha) b).mpr
    ⟨k.canon, (key?_eq_some_iff a k).mp ha, (key?_eq_some_iff b k).mp hb⟩

/-- Equal values have the same key. -/
theorem key?_eq_of_equal {a b : Value} (ha : a.unhashableKind? = Option.none) (h : a.equal b = true) :
    a.key? = b.key? := by
  obtain ⟨d, hda, hdb⟩ := (equal_iff_canon ha b).mp h
  apply Option.ext
  intro k
  rw [key?_eq_some_iff, key?_eq_some_iff, hda, hdb]

/-- A hashable value is equal to a value with key `k` exactly when it has key `k` too. -/
theorem equal_iff_key?_eq {a b : Value} {k : Key} (ha : a.unhashableKind? = Option.none)
    (hb : b.key? = some k) : a.equal b = true ↔ a.key? = some k :=
  ⟨fun h => (key?_eq_of_equal ha h).trans hb, fun h => equal_of_key?_eq h hb⟩

end Value

end Rfc6570
