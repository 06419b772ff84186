import Mathlib
import Rfc6570.Operator
import Rfc6570.Proofs.Except
import Rfc6570.Proofs.Reference

/-!
# Rfc6570 — the library's encodings, measured against RFC 6570

A string of characters reaches the library as the text of its code points (`Text.ofChars`).
The library writes it as UTF-8 and percent-encodes the octets; the reference encodes character
by character. The two agree: the UTF-8 octets are those of `String.utf8EncodeChar`, the
character classes are the same, and a kept character is one octet. They part only where
reserved or fragment expansion meets a text holding a pct-encoded triplet: the library then
keeps the whole text, the reference keeps the triplets and encodes what is not allowed.

## Results

* `Operator.encode_ofChars` — an operator's encoding of a string is Appendix A's, unless a
  triplet meets a text that is not already a literal.
* `encodeWith_ofChars` — the encoding of keys under the allow set `U`.
* `literal_varname`, `literal_eq_encode` — the encoding of literals on names and plain keys.
-/

namespace Rfc6570

open Reference

/-- The code points of a string of characters. -/
def Text.ofChars (s : List Char) : Text := s.map Char.toNat

@[simp] theorem Text.ofChars_nil : Text.ofChars [] = [] := rfl

@[simp] theorem Text.ofChars_cons (c : Char) (s : List Char) :
    Text.ofChars (c :: s) = c.toNat :: Text.ofChars s := rfl

@[simp] theorem Text.ofChars_append (s t : List Char) :
    Text.ofChars (s ++ t) = Text.ofChars s ++ Text.ofChars t := List.map_append

open Text

/-! ## UTF-8 -/

theorem Utf8.encodePoint_toNat (c : Char) : Utf8.encodePoint c.toNat = String.utf8EncodeChar c := by
  have hc : c.toNat < 0x110000 := by
    rcases c.valid with h | h
    · have : c.toNat = c.val.toNat := rfl
      omega
    · exact h.2
  unfold Utf8.encodePoint String.utf8EncodeChar
  have hv : c.val.toNat = c.toNat := rfl
  simp only [hv, Nat.toUInt8]
  generalize c.toNat = n at hc ⊢
  -- the same four lengths, and the same octets written with `div` and `mod`
  by_cases h1 : n < 0x80
  · rw [if_pos h1, if_pos (show n ≤ 127 by omega)]
  rw [if_neg h1, if_neg (show ¬n ≤ 127 by omega)]
  by_cases h2 : n < 0x800
  · rw [if_pos h2, if_pos (show n ≤ 2047 by omega)]
    simp only [List.cons.injEq, and_true]
    exact ⟨congrArg UInt8.ofNat (by omega), congrArg UInt8.ofNat (by omega)⟩
  rw [if_neg h2, if_neg (show ¬n ≤ 2047 by omega)]
  by_cases h3 : n < 0x10000
  · rw [if_pos h3, if_pos (show n ≤ 65535 by omega)]
    simp only [List.cons.injEq, and_true]
    exact ⟨congrArg UInt8.ofNat (by omega), congrArg UInt8.ofNat (by omega), congrArg UInt8.ofNat (by omega)⟩
  rw [if_neg h3, if_neg (show ¬n ≤ 65535 by omega)]
  simp only [List.cons.injEq, and_true]
  exact ⟨congrArg UInt8.ofNat (by omega), congrArg UInt8.ofNat (by omega),
    congrArg UInt8.ofNat (by omega), congrArg UInt8.ofNat (by omega)⟩

theorem Utf8.encode_ofChars (s : List Char) :
    Utf8.encode (ofChars s) = .ok (s.flatMap String.utf8EncodeChar) := by
  suffices ∀ pos, Utf8.encodeFrom pos (ofChars s) = .ok (s.flatMap String.utf8EncodeChar) from this 0
  induction s with
  | nil => intro pos; rfl
  | cons c s ih =>
    intro pos
    -- a character is never a surrogate
    have hs : Utf8.isSurrogate c.toNat = false := by
      have : c.toNat = c.val.toNat := rfl
      rcases c.valid with h | h <;> simp [Utf8.isSurrogate] <;> omega
    simp only [ofChars_cons, Utf8.encodeFrom, hs, Bool.false_eq_true, if_false, ih, List.flatMap_cons,
      Utf8.encodePoint_toNat]
    rfl

/-! ## Character classes -/

theorem contains_ofChars (s : List Char) (c : Char) : (ofChars s).contains c.toNat = s.contains c := by
  induction s with
  | nil => rfl
  | cons d s ih =>
    simp only [ofChars_cons, List.contains_cons, ih]
    congr 1
    rw [Bool.eq_iff_iff, beq_iff_eq, beq_iff_eq, Char.toNat_inj, eq_comm]

theorem isAlphanum_eq (c : Char) :
    c.isAlphanum = (isAsciiLetter c.toNat || isAsciiDigit c.toNat) := by
  have h : c.toNat = c.val.toNat := rfl
  simp only [Char.isAlphanum, Char.isAlpha, Char.isUpper, Char.isLower, Char.isDigit, isAsciiLetter,
    isAsciiDigit, h, UInt32.le_iff_toNat_le, Bool.decide_and,
    show 'A'.val.toNat = 65 from rfl, show 'Z'.val.toNat = 90 from rfl,
    show 'a'.val.toNat = 97 from rfl, show 'z'.val.toNat = 122 from rfl,
    show '0'.val.toNat = 48 from rfl, show '9'.val.toNat = 57 from rfl]

theorem Char.beq_eq_toNat_beq (c d : Char) : (c == d) = (c.toNat == d.toNat) := by
  rw [Bool.eq_iff_iff, beq_iff_eq, beq_iff_eq, Char.toNat_inj]

theorem isUnreserved_toNat (c : Char) : Text.isUnreserved c.toNat = Reference.isUnreserved c := by
  simp only [Text.isUnreserved, Reference.isUnreserved, isAlphanum_eq, Char.beq_eq_toNat_beq,
    show '-'.toNat = 45 from rfl, show '.'.toNat = 46 from rfl, show '_'.toNat = 95 from rfl,
    show '~'.toNat = 126 from rfl]

theorem reserved_contains_toNat (c : Char) : Text.reserved.contains c.toNat = Reference.isReserved c :=
  contains_ofChars _ c

theorem isHexDigit_toNat (c : Char) : Text.isHexDigit c.toNat = c.isHexDigit := by
  have h : c.toNat = c.val.toNat := rfl
  simp only [Text.isHexDigit, Text.hexValue?, Char.isHexDigit, Char.isDigit, h, UInt32.le_iff_toNat_le,
    show '0'.val.toNat = 48 from rfl, show '9'.val.toNat = 57 from rfl,
    show 'a'.val.toNat = 97 from rfl, show 'f'.val.toNat = 102 from rfl,
    show 'A'.val.toNat = 65 from rfl, show 'F'.val.toNat = 70 from rfl]
  generalize c.val.toNat = n
  by_cases h1 : 48 ≤ n ∧ n ≤ 57
  · rw [if_pos h1]
    simp [h1.1, h1.2]
  rw [if_neg h1]
  by_cases h2 : 65 ≤ n ∧ n ≤ 70
  · rw [if_pos h2]
    simp [h2.1, h2.2]
  rw [if_neg h2]
  by_cases h3 : 97 ≤ n ∧ n ≤ 102
  · rw [if_pos h3]
    simp [h3.1, h3.2]
  rw [if_neg h3]
  simp only [Option.isSome_none]
  symm
  simp only [Bool.or_eq_false_iff, Bool.and_eq_false_iff, decide_eq_false_iff_not, Nat.not_le]
  omega

/-! ## Percent-encoding -/

theorem hexDigit_toNat {n : Nat} (h : n < 16) : (hexDigit n).toNat = hexUpper n := by
  have : ∀ m < 16, (hexDigit m).toNat = hexUpper m := by decide
  exact this n h

theorem ofChars_triplet (b : UInt8) : ofChars (Reference.triplet b) = Percent.triplet b.toNat := by
  have hb : b.toNat < 256 := b.toNat_lt_size
  simp only [Reference.triplet, Percent.triplet, ofChars_cons, ofChars_nil,
    hexDigit_toNat (show b.toNat / 16 < 16 by omega), hexDigit_toNat (show b.toNat % 16 < 16 by omega)]
  rfl

/-- The octets of a character beyond ASCII are all beyond ASCII. -/
theorem utf8EncodeChar_ge {c : Char} (hc : 128 ≤ c.toNat) :
    ∀ b ∈ String.utf8EncodeChar c, 128 ≤ b.toNat := by
  have hv : c.val.toNat = c.toNat := rfl
  unfold String.utf8EncodeChar
  simp only [hv]
  generalize c.toNat = n at hc
  rw [if_neg (show ¬n ≤ 127 by omega)]
  intro b hb
  by_cases h2 : n ≤ 2047
  · rw [if_pos h2] at hb
    simp only [List.mem_cons, List.not_mem_nil, or_false] at hb
    rcases hb with rfl | rfl <;> simp only [UInt8.toNat_ofNat'] <;> omega
  rw [if_neg h2] at hb
  by_cases h3 : n ≤ 65535
  · rw [if_pos h3] at hb
    simp only [List.mem_cons, List.not_mem_nil, or_false] at hb
    rcases hb with rfl | rfl | rfl <;> simp only [UInt8.toNat_ofNat'] <;> omega
  rw [if_neg h3] at hb
  simp only [List.mem_cons, List.not_mem_nil, or_false] at hb
  rcases hb with rfl | rfl | rfl | rfl <;> simp only [UInt8.toNat_ofNat'] <;> omega

/-- Octets beyond ASCII all become triplets. -/
theorem percent_encode_of_ge (safe : Text) :
    ∀ bs : List UInt8, (∀ b ∈ bs, 128 ≤ b.toNat) →
      Percent.encode safe bs = ofChars (bs.flatMap Reference.triplet)
  | [], _ => rfl
  | b :: bs, h => by
    have hk : Percent.keeps safe b.toNat = false := by
      have := h b List.mem_cons_self
      simp only [Percent.keeps, Text.isUnreserved, Text.isAsciiLetter, Text.isAsciiDigit]
      simp only [Bool.or_eq_false_iff, Bool.and_eq_false_iff, decide_eq_false_iff_not, beq_eq_false_iff_ne]
      omega
    rw [Percent.encode_cons, Percent.encodeByte, hk, List.flatMap_cons, ofChars_append, ofChars_triplet,
      percent_encode_of_ge safe bs fun b' hb' => h b' (List.mem_cons_of_mem _ hb')]
    rfl

/-- The safe set of an allow set: the reserved characters for `U+R`. -/
def safeOf (allowR : Bool) : Text := if allowR then Text.reserved else []

/-- The library percent-encodes a character as Appendix A does, when no triplet is at stake. -/
theorem percent_encode_char (allowR : Bool) (c : Char) :
    Percent.encode (safeOf allowR) (String.utf8EncodeChar c) =
      ofChars (if isUnreserved c || (allowR && isReserved c) then [c] else pctEncode c) := by
  by_cases hc : c.toNat < 128
  · -- one octet, kept or written as its triplet
    have hv : c.val.toNat = c.toNat := rfl
    have hone : String.utf8EncodeChar c = [UInt8.ofNat c.toNat] := by
      unfold String.utf8EncodeChar
      simp only [hv]
      rw [if_pos (by omega)]
    have hb : (UInt8.ofNat c.toNat).toNat = c.toNat := by
      simp only [UInt8.toNat_ofNat']
      omega
    have hkeep : Percent.keeps (safeOf allowR) c.toNat =
        (isUnreserved c || (allowR && isReserved c)) := by
      cases allowR
      · simp only [Percent.keeps, safeOf, isUnreserved_toNat, Bool.false_eq_true, if_false,
          List.contains_nil, Bool.and_false, Bool.or_false, Bool.false_and]
      · simp only [Percent.keeps, safeOf, isUnreserved_toNat, reserved_contains_toNat,
          decide_eq_true hc, Bool.true_and, if_true]
    rw [hone, Percent.encode_cons, Percent.encode_nil, List.append_nil, hb, Percent.encodeByte, hkeep]
    split
    · rfl
    · rw [pctEncode, hone, List.flatMap_cons, List.flatMap_nil, List.append_nil, ofChars_triplet, hb]
  · -- several octets, all written as triplets
    have hu : isUnreserved c = false := by
      rw [← isUnreserved_toNat]
      simp only [Text.isUnreserved, Text.isAsciiLetter, Text.isAsciiDigit, Bool.or_eq_false_iff,
        Bool.and_eq_false_iff, decide_eq_false_iff_not, beq_eq_false_iff_ne]
      omega
    have hr : isReserved c = false := by
      rw [← reserved_contains_toNat]
      cases h : Text.reserved.contains c.toNat
      · rfl
      · have := List.mem_of_elem_eq_true h
        have hall : ∀ b ∈ Text.reserved, b < 128 := by decide
        exact absurd (hall _ this) hc
    rw [hu, hr, Bool.and_false, Bool.or_false, if_neg Bool.false_ne_true, pctEncode,
      percent_encode_of_ge _ _ (utf8EncodeChar_ge (by omega))]

/-- Appendix A's encoding of one character, when no triplet is at stake. -/
def encodeChar (allowR : Bool) (c : Char) : List Char :=
  if isUnreserved c || (allowR && isReserved c) then [c] else pctEncode c

theorem encodeWith_ofChars (allowR : Bool) (s : List Char) :
    Value.encodeWith (safeOf allowR) (.text (ofChars s)) =
      .ok (ofChars (s.flatMap (encodeChar allowR))) := by
  have hbytes : Percent.encode (safeOf allowR) (s.flatMap String.utf8EncodeChar) =
      ofChars (s.flatMap (encodeChar allowR)) := by
    induction s with
    | nil => rfl
    | cons c s ih =>
      rw [List.flatMap_cons, Percent.encode_append, percent_encode_char, ih, List.flatMap_cons,
        ofChars_append]
      rfl
  simp only [Value.encodeWith, Value.str, ok_bind]
  rw [Utf8.encode_ofChars]
  exact congrArg Except.ok hbytes

/-- Without a triplet in the value, the allow set decides character by character. -/
theorem encode_eq_flatMap (allowR : Bool) {s : List Char} (h : allowR = false ∨ hasTriplet s = false) :
    Reference.encode allowR s = s.flatMap (encodeChar allowR) := by
  induction s with
  | nil => rfl
  | cons c s ih =>
    have h' : allowR = false ∨ hasTriplet s = false := by
      rcases h with h | h
      · exact .inl h
      · simp only [hasTriplet, Bool.or_eq_false_iff] at h
        exact .inr h.2
    have hp : passes allowR c s = (isUnreserved c || (allowR && isReserved c)) := by
      rcases h with h | h
      · simp [passes, h]
      · simp only [hasTriplet, Bool.or_eq_false_iff] at h
        simp [passes, h.1]
    rw [Reference.encode, hp, ih h', List.flatMap_cons]
    rfl

theorem hasEscape_ofChars (s : List Char) : Percent.hasEscape (ofChars s) = hasTriplet s := by
  induction s with
  | nil => rfl
  | cons c s ih =>
    have hpair : Percent.startsWithHexPair (ofChars s) = startsWithHexPair s := by
      match s with
      | [] => rfl
      | [_] => rfl
      | a :: b :: _ => simp [Percent.startsWithHexPair, startsWithHexPair, isHexDigit_toNat]
    simp only [ofChars_cons, Percent.hasEscape, hasTriplet, ih, hpair, Char.beq_eq_toNat_beq]
    rfl

/-- A text that is already a literal is left as it is. -/
theorem encode_of_isLiteralSafe {s : List Char} (h : isLiteralSafe s = true) :
    Reference.encode true s = s := by
  induction s with
  | nil => rfl
  | cons c s ih =>
    simp only [isLiteralSafe, Bool.and_eq_true] at h
    rw [Reference.encode, if_pos h.1, ih h.2]
    rfl

/-- **The library encodes a value's text as Appendix A does**, except where reserved or
fragment expansion meets a text with a pct-encoded triplet that is not already a literal: the
library then leaves the whole text as it is. -/
theorem Operator.encode_ofChars (op : Operator) (s : List Char)
    (h : op.keepsEscapes = true → hasTriplet s = true → isLiteralSafe s = true) :
    op.encode (.text (ofChars s)) = .ok (ofChars (Reference.encode op.keepsEscapes s)) := by
  simp only [Operator.encode, Value.expansionText, Value.str, ok_bind, hasEscape_ofChars]
  cases hk : op.keepsEscapes
  · simp only [Bool.false_and, Bool.false_eq_true, if_false]
    rw [show ([] : Text) = safeOf false from rfl, encodeWith_ofChars, encode_eq_flatMap false (.inl rfl)]
  · cases ht : hasTriplet s
    · simp only [Bool.and_false, Bool.false_eq_true, if_false, if_true]
      rw [show Text.reserved = safeOf true from rfl, encodeWith_ofChars,
        encode_eq_flatMap true (.inr ht)]
    · simp only [Bool.and_self, if_true]
      rw [encode_of_isLiteralSafe (h hk ht)]

/-! ## Literals -/

theorem isUnreserved_of_isHexDigit {c : Char} (h : c.isHexDigit = true) : isUnreserved c = true := by
  rw [← isHexDigit_toNat] at h
  rw [← isUnreserved_toNat]
  simp only [Text.isHexDigit, Text.hexValue?] at h
  simp only [Text.isUnreserved, Text.isAsciiLetter, Text.isAsciiDigit, Bool.or_eq_true,
    Bool.and_eq_true, decide_eq_true_eq]
  split at h <;> (try split at h) <;> (try split at h) <;> first | omega | simp at h

theorem isUnreserved_of_plain {c : Char} (h : (c.isAlphanum || c == '_') = true) :
    Reference.isUnreserved c = true := by
  simp only [Bool.or_eq_true] at h
  simp only [Reference.isUnreserved, Bool.or_eq_true]
  rcases h with h | h
  · exact .inl (.inl (.inl (.inl h)))
  · exact .inl (.inr h)

theorem isLiteralSafe_varchar {v : List Char} (hv : Varchar v) {n : List Char}
    (hn : isLiteralSafe n = true) : isLiteralSafe (v ++ n) = true := by
  cases hv with
  | plain hc =>
    simp only [List.cons_append, List.nil_append, isLiteralSafe, hn, Bool.and_true, passes,
      isUnreserved_of_plain hc, Bool.true_or]
  | triplet h₁ h₂ =>
    simp only [List.cons_append, List.nil_append, isLiteralSafe, hn, passes,
      isUnreserved_of_isHexDigit h₁, isUnreserved_of_isHexDigit h₂, Bool.true_or, startsWithHexPair,
      h₁, h₂, beq_self_eq_true, Bool.and_self, Bool.or_true]

/-- A variable name is already a literal. -/
theorem literal_varname {s : List Char} (h : Varname s) : literal s = s := by
  suffices isLiteralSafe s = true from encode_of_isLiteralSafe this
  induction h with
  | single hv => simpa using isLiteralSafe_varchar hv (n := []) rfl
  | append hv _ ih => exact isLiteralSafe_varchar hv ih
  | dotted hv _ ih =>
    exact isLiteralSafe_varchar hv (by simp [isLiteralSafe, ih, passes, Reference.isUnreserved])

/-- A key with no reserved character and no triplet is written as a literal exactly as under
the allow set `U`. -/
theorem literal_eq_encode {k : List Char} (hr : ∀ c ∈ k, isReserved c = false)
    (ht : hasTriplet k = false) : literal k = Reference.encode false k := by
  rw [literal, encode_eq_flatMap true (.inr ht), encode_eq_flatMap false (.inl rfl)]
  refine List.flatMap_congr fun c hc => ?_
  simp [encodeChar, hr c hc]

end Rfc6570
