import Mathlib.Data.List.TakeWhile
import Rfc6570.Expression.Basic
import Rfc6570.Proofs.Conformance.Encoding

/-!
# Rfc6570 — reading the text of an expression

The text of an expression of Appendix A, read by the library, gives back the expression: its
operator, and its variables with their modifiers, in order and with no default values.

The reader cuts the text at `,`, then each specification at `=`, drops trailing `*` and cuts
at `:`. A variable name is made of unreserved characters and the `%` of its triplets, so it
holds none of these, and it starts with a letter, a digit, `_` or `%`, so it is never taken for
an operator. A prefix length is written in decimal, and `IntLiteral.read` reads it back.

## Results

* `Expression.parse_render` — reading the text of an expression gives the expression.
* `IntLiteral.read_toDigits` — a number written in decimal is read back.
-/

namespace Rfc6570

open Reference Text

/-! ## Decimal numerals -/

namespace IntLiteral

theorem digitsValue_ofChars (l : List Char) : digitsValue (ofChars l) = Nat.ofDigitChars 10 l 0 := by
  simp only [digitsValue, ofChars, List.foldl_map]
  rfl

theorem hasDoubleUnderscore_of_not_mem : ∀ {t : Text}, 95 ∉ t → hasDoubleUnderscore t = false
  | [], _ => rfl
  | c :: t, h => by
    have hc : c ≠ 95 := fun e => h (e ▸ List.mem_cons_self)
    have ih := hasDoubleUnderscore_of_not_mem fun e => h (List.mem_cons_of_mem c e)
    unfold hasDoubleUnderscore
    split <;> simp_all

theorem splitSign_of_digit {d : Nat} (h : isAsciiDigit d = true) (rest : Text) :
    splitSign (d :: rest) = (false, d :: rest) := by
  simp only [isAsciiDigit, Bool.and_eq_true, decide_eq_true_eq] at h
  unfold splitSign
  split <;> simp_all

/-- A non-empty run of ASCII digits, short enough, is read as its decimal value. -/
theorem read_digits {ds : Text} (hd : ∀ c ∈ ds, isAsciiDigit c = true) (hne : ds ≠ [])
    (hlen : ds.length ≤ digitLimit) : read ds = .ok (digitsValue ds) := by
  -- every character is ASCII, so the literal is the digits themselves
  have hnarrow : ds.map narrow = ds := by
    conv_rhs => rw [← List.map_id ds]
    refine List.map_congr_left fun c hc => ?_
    have := hd c hc
    simp only [isAsciiDigit, Bool.and_eq_true, decide_eq_true_eq] at this
    simp only [narrow, id, if_pos (show c < 128 by omega)]
  have hrun : ds.takeWhile isDigitOrUnderscore = ds :=
    List.takeWhile_eq_self_iff.mpr fun c hc => by simp [isDigitOrUnderscore, hd c hc]
  have hrest : ds.dropWhile isDigitOrUnderscore = [] :=
    List.dropWhile_eq_nil_iff.mpr fun c hc => by simp [isDigitOrUnderscore, hd c hc]
  have hds : ds.filter isAsciiDigit = ds := List.filter_eq_self.mpr hd
  have h95 : 95 ∉ ds := fun h => by simpa [isAsciiDigit] using hd 95 h
  obtain ⟨d, rest, rfl⟩ := List.exists_cons_of_ne_nil hne
  have hdig : isAsciiDigit d = true := hd d List.mem_cons_self
  have hblank : isAsciiBlank d = false := by
    simp only [isAsciiDigit, Bool.and_eq_true, decide_eq_true_eq] at hdig
    simp only [isAsciiBlank, Bool.or_eq_false_iff, beq_eq_false_iff_ne, Bool.and_eq_false_iff,
      decide_eq_false_iff_not]
    omega
  have hlast : (d :: rest).getLast? ≠ some 95 := fun h => h95 (List.mem_of_getLast? h)
  simp only [read, hnarrow, List.dropWhile_cons_of_neg (by simp [hblank] : ¬isAsciiBlank d = true),
    splitSign_of_digit hdig, hrun, hrest, hds, hasDoubleUnderscore_of_not_mem h95, hlast]
  have hd95 : d ≠ 95 := fun e => h95 (e ▸ List.mem_cons_self)
  rw [if_neg (by simp [hd95]), if_neg (Nat.not_lt.mpr hlen), if_neg (by simp)]
  rfl

theorem isDigit_eq (c : Char) : c.isDigit = isAsciiDigit c.toNat := by
  have h : c.toNat = c.val.toNat := rfl
  simp only [Char.isDigit, isAsciiDigit, h, UInt32.le_iff_toNat_le,
    show '0'.val.toNat = 48 from rfl, show '9'.val.toNat = 57 from rfl]

theorem toDigits_ascii (n : Nat) : ∀ c ∈ ofChars (Nat.toDigits 10 n), isAsciiDigit c = true := by
  intro c hc
  obtain ⟨d, hd, rfl⟩ := List.mem_map.mp hc
  rw [← isDigit_eq]
  exact Nat.isDigit_of_mem_toDigits (by decide) (by decide) hd

/-- A number below `10 ^ 4300`, written in decimal, is read back. -/
theorem read_toDigits {n : Nat} (h : n < 10 ^ digitLimit) :
    read (ofChars (Nat.toDigits 10 n)) = .ok n := by
  have hlen : (ofChars (Nat.toDigits 10 n)).length ≤ digitLimit := by
    rw [ofChars, List.length_map]
    exact (Nat.length_toDigits_le_iff (by decide) (by decide)).mpr h
  rw [read_digits (toDigits_ascii n) (by simp [ofChars, Nat.toDigits_ne_nil]) hlen,
    digitsValue_ofChars, Nat.ofDigitChars_ten_toDigits]

end IntLiteral

/-! ## Variable names -/

namespace Reference

/-- A name is made of unreserved characters and the `%` of its triplets. -/
theorem Varchar.chars {v : List Char} (h : Varchar v) : ∀ c ∈ v, isUnreserved c = true ∨ c = '%' := by
  cases h with
  | plain hc =>
    intro d hd
    rw [List.mem_singleton] at hd
    exact .inl (hd ▸ isUnreserved_of_plain hc)
  | triplet h₁ h₂ =>
    intro d hd
    simp only [List.mem_cons, List.not_mem_nil, or_false] at hd
    rcases hd with rfl | rfl | rfl
    · exact .inr rfl
    · exact .inl (isUnreserved_of_isHexDigit h₁)
    · exact .inl (isUnreserved_of_isHexDigit h₂)

theorem Varname.chars {s : List Char} (h : Varname s) : ∀ c ∈ s, isUnreserved c = true ∨ c = '%' := by
  induction h with
  | single hv => exact hv.chars
  | append hv _ ih =>
    intro c hc
    rcases List.mem_append.mp hc with hc | hc
    · exact hv.chars c hc
    · exact ih c hc
  | dotted hv _ ih =>
    intro c hc
    rcases List.mem_append.mp hc with hc | hc
    · exact hv.chars c hc
    rcases List.mem_cons.mp hc with rfl | hc
    · exact .inl rfl
    · exact ih c hc

/-- A name starts with a letter, a digit, `_` or the `%` of a triplet, never with `.`. -/
theorem Varchar.head {v : List Char} (h : Varchar v) :
    ∃ c t, v = c :: t ∧ ((c.isAlphanum || c == '_') = true ∨ c = '%') := by
  cases h with
  | plain hc => exact ⟨_, [], rfl, .inl hc⟩
  | triplet => exact ⟨'%', _, rfl, .inr rfl⟩

theorem Varname.head {s : List Char} (h : Varname s) :
    ∃ c t, s = c :: t ∧ ((c.isAlphanum || c == '_') = true ∨ c = '%') := by
  cases h with
  | single hv => exact hv.head
  | append hv _ | dotted hv _ =>
    obtain ⟨c, t, rfl, hc⟩ := hv.head
    exact ⟨c, _, List.cons_append .., hc⟩

/-- No character of a name is one the reader of an expression cuts at: `*`, `,`, `:` or `=`. -/
theorem Varname.toNat_ne {s : List Char} (h : Varname s) :
    ∀ c ∈ ofChars s, c ≠ 42 ∧ c ≠ 44 ∧ c ≠ 58 ∧ c ≠ 61 := by
  intro c hc
  obtain ⟨d, hd, rfl⟩ := List.mem_map.mp hc
  rcases h.chars d hd with hu | rfl
  · rw [← isUnreserved_toNat] at hu
    simp only [Text.isUnreserved, isAsciiLetter, isAsciiDigit, Bool.or_eq_true, Bool.and_eq_true,
      decide_eq_true_eq, beq_iff_eq] at hu
    omega
  · decide

theorem ofChar?_of_head {c : Char} (h : (c.isAlphanum || c == '_') = true ∨ c = '%') :
    Operator.ofChar? c.toNat = none := by
  -- a letter, a digit, `_` or `%` is none of the twelve operator characters
  have hn : (48 ≤ c.toNat ∧ c.toNat ≤ 57) ∨ (65 ≤ c.toNat ∧ c.toNat ≤ 90) ∨
      (97 ≤ c.toNat ∧ c.toNat ≤ 122) ∨ c.toNat = 95 ∨ c.toNat = 37 := by
    rcases h with h | rfl
    · simp only [Bool.or_eq_true, isAlphanum_eq, isAsciiLetter, isAsciiDigit, Bool.and_eq_true,
        decide_eq_true_eq, Char.beq_eq_toNat_beq, beq_iff_eq, show '_'.toNat = 95 from rfl] at h
      omega
    · decide
  unfold Operator.ofChar?
  repeat rw [if_neg (by omega)]

/-- The library's operator for an operator of levels 1 to 4. -/
def Op.toOperator : Op → Operator
  | .simple => .simple
  | .reserved => .reserved
  | .fragment => .fragment
  | .label => .label
  | .pathSegment => .pathSegment
  | .pathParameter => .pathParameter
  | .query => .query
  | .queryContinuation => .queryContinuation

/-- The library's form of a variable specification. -/
def Varspec.toModel (vs : Varspec) : Rfc6570.Varspec where
  name := ofChars vs.name
  explode := vs.explode
  maxLength := match vs.modifier with
    | .maxLength n _ _ => some n
    | _ => none

/-- The characters of a specification, beyond those of its name: `*`, or `:` and digits. -/
theorem Varspec.toNat_render (vs : Varspec) : ∀ c ∈ ofChars vs.render, c ≠ 44 ∧ c ≠ 61 := by
  intro c hc
  simp only [Varspec.render, ofChars_append, List.mem_append] at hc
  rcases hc with hc | hc
  · have := vs.name_ok.toNat_ne c hc
    omega
  match vs.modifier, hc with
  | .explode, hc =>
    simp only [Modifier.render, ofChars_cons, ofChars_nil, List.mem_singleton,
      show '*'.toNat = 42 from rfl] at hc
    omega
  | .maxLength n _ _, hc =>
    simp only [Modifier.render, ofChars_cons, List.mem_cons, show ':'.toNat = 58 from rfl] at hc
    rcases hc with hc | hc
    · omega
    · have := IntLiteral.toDigits_ascii n c hc
      simp only [isAsciiDigit, Bool.and_eq_true, decide_eq_true_eq] at this
      omega

end Reference

/-! ## Cutting texts -/

theorem Text.ofChars_intercalate (sep : List Char) :
    ∀ ls : List (List Char), ofChars (sep.intercalate ls) = (ofChars sep).intercalate (ls.map ofChars)
  | [] => rfl
  | [l] => by simp
  | l :: l' :: ls => by simp [Text.ofChars_intercalate sep (l' :: ls)]

theorem splitFirst?_of_not_mem {sep : Nat} : ∀ {t : Text}, sep ∉ t → splitFirst? sep t = none
  | [], _ => rfl
  | c :: t, h => by
    rw [List.mem_cons, not_or] at h
    rw [splitFirst?, if_neg (Ne.symm h.1), splitFirst?_of_not_mem h.2, Option.map_none]

theorem splitFirst?_append_cons {sep : Nat} (b : Text) :
    ∀ {a : Text}, sep ∉ a → splitFirst? sep (a ++ sep :: b) = some (a, b)
  | [], _ => by simp [splitFirst?]
  | c :: a, h => by
    rw [List.mem_cons, not_or] at h
    rw [List.cons_append, splitFirst?, if_neg (Ne.symm h.1), splitFirst?_append_cons b h.2,
      Option.map_some]

namespace Expression

theorem dropStars_of_not_mem {t : Text} (h : 42 ∉ t) : dropStars t = t := by
  unfold dropStars
  -- the last character, if any, is no `*`
  cases hr : t.reverse with
  | nil =>
    obtain rfl : t = [] := List.reverse_eq_nil_iff.mp hr
    rfl
  | cons c r =>
    have hc : c ≠ 42 := fun e => h (List.mem_reverse.mp (hr ▸ e ▸ List.mem_cons_self))
    rw [List.dropWhile_cons_of_neg (by simpa using hc), ← hr, List.reverse_reverse]

theorem dropStars_append_star {t : Text} (h : 42 ∉ t) : dropStars (t ++ [42]) = t := by
  have ht := dropStars_of_not_mem h
  unfold dropStars at ht ⊢
  rw [List.reverse_append, List.reverse_singleton, List.singleton_append,
    List.dropWhile_cons_of_pos (by simp), ht]

theorem getLast?_beq_star {t : Text} (h : 42 ∉ t) : (t.getLast? == some 42) = false := by
  cases hl : t.getLast? with
  | none => rfl
  | some c =>
    have hc : c ≠ 42 := fun e => h (e ▸ List.mem_of_getLast? hl)
    simpa using hc

/-- A specification is read back from its text, with no default. -/
theorem readVarspec_render (vs : Reference.Varspec) :
    readVarspec (ofChars vs.render) = .ok (vs.toModel, []) := by
  obtain ⟨name, hname, m⟩ := vs
  have hcut := hname.toNat_ne
  have h42 : 42 ∉ ofChars name := fun h => (hcut 42 h).1 rfl
  have h58 : 58 ∉ ofChars name := fun h => (hcut 58 h).2.2.1 rfl
  have h61 : 61 ∉ ofChars (Reference.Varspec.render ⟨name, hname, m⟩) :=
    fun h => (Reference.Varspec.toNat_render _ 61 h).2 rfl
  simp only [readVarspec, splitFirst?_of_not_mem h61, Option.getD_none]
  -- the modifier decides what is cut off the name
  cases m with
  | none =>
    simp only [Reference.Varspec.render, Modifier.render, List.append_nil, dropStars_of_not_mem h42,
      splitFirst?_of_not_mem h58, getLast?_beq_star h42]
    rfl
  | explode =>
    simp only [Reference.Varspec.render, Modifier.render, ofChars_append, ofChars_cons, ofChars_nil,
      show '*'.toNat = 42 from rfl, dropStars_append_star h42, splitFirst?_of_not_mem h58,
      List.getLast?_concat, beq_self_eq_true]
    rfl
  | maxLength n hpos hlt =>
    have h42' : 42 ∉ ofChars name ++ 58 :: ofChars (Nat.toDigits 10 n) := by
      simp only [List.mem_append, List.mem_cons, not_or]
      exact ⟨h42, by decide, fun h => by simpa [isAsciiDigit] using IntLiteral.toDigits_ascii n 42 h⟩
    have hread : IntLiteral.read (ofChars (Nat.toDigits 10 n)) = .ok n :=
      IntLiteral.read_toDigits (Nat.lt_of_lt_of_le hlt (Nat.pow_le_pow_right (show 10 > 0 by decide)
        (by decide : 4 ≤ IntLiteral.digitLimit)))
    simp only [Reference.Varspec.render, Modifier.render, ofChars_append, ofChars_cons,
      show ':'.toNat = 58 from rfl, dropStars_of_not_mem h42', splitFirst?_append_cons _ h58, hread,
      getLast?_beq_star h42']
    rfl

/-- Specifications with no defaults are read back in order, and leave the defaults as they are. -/
theorem readVarspecs_render (ds : List (Text × Text)) :
    ∀ vss : List Reference.Varspec,
      readVarspecs (vss.map fun vs => ofChars vs.render) ds = .ok (vss.map (·.toModel), ds)
  | [] => rfl
  | vs :: vss => by
    simp only [List.map_cons, readVarspecs, readVarspec_render, ok_bind, List.isEmpty_nil, if_true,
      readVarspecs_render ds vss]
    rfl

theorem splitOperator_symbol (op : Op) {c : Char} (t : List Char)
    (hc : Operator.ofChar? c.toNat = none) :
    splitOperator (ofChars (op.symbol ++ c :: t)) = (op.toOperator, ofChars (c :: t)) := by
  cases op with
  | simple => simp only [Op.symbol, List.nil_append, ofChars_cons, splitOperator, hc, Op.toOperator]
  | _ => rfl

/-- **Reading the text of an expression gives the expression back**: its operator, and its
variables with their modifiers, in order and with no defaults. -/
theorem parse_render (e : Reference.Expression) :
    parse (ofChars e.render) =
      .ok ⟨ofChars e.render, e.op.toOperator, e.varspecs.map (·.toModel), []⟩ := by
  obtain ⟨op, vss, hne⟩ := e
  obtain ⟨vs, rest, rfl⟩ := List.exists_cons_of_ne_nil hne
  -- the text after the operator starts with the first character of the first name
  obtain ⟨c, t, hname, hc⟩ := vs.name_ok.head
  obtain ⟨body, hbody⟩ : ∃ body, [','].intercalate ((vs :: rest).map Reference.Varspec.render) =
      c :: body :=
    ⟨_, by rw [List.map_cons, Reference.Varspec.render, hname, List.cons_append,
      List.intercalate_cons_cons_left]⟩
  -- and its specifications are cut apart at the commas, which no specification holds
  have hsplit : splitAt 44 (ofChars (c :: body)) = (vs :: rest).map fun v => ofChars v.render := by
    rw [← hbody, splitAt, Text.ofChars_intercalate, List.map_map]
    refine List.splitOn_intercalate 44 (fun l hl h44 => ?_) (by simp)
    obtain ⟨v, -, rfl⟩ := List.mem_map.mp hl
    exact (Reference.Varspec.toNat_render v 44 h44).1 rfl
  have hsrc : Reference.Expression.render ⟨op, vs :: rest, hne⟩ = op.symbol ++ c :: body := by
    rw [Reference.Expression.render, hbody]
  have hempty : (ofChars (op.symbol ++ c :: body)).isEmpty = false := by simp [ofChars]
  rw [hsrc]
  simp only [parse, hempty, splitOperator_symbol op body (Reference.ofChar?_of_head hc), hsplit,
    readVarspecs_render, Bool.false_eq_true, if_false, ok_bind]
  rfl

end Expression

end Rfc6570
