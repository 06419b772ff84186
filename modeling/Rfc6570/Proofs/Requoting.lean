import Rfc6570.Operator
import Rfc6570.Proofs.Except

/-!
# Rfc6570 — encoding an encoded value again

Reserved and fragment expansion decide for the whole value at once: a text that reading its
escapes would change is left as it is, any other text is percent-encoded with the reserved
characters kept. Reading escapes is the usual unquoting (`Percent.unquote`): a triplet `%HH`,
digits of either case, stands for its byte, each run of ASCII characters is read as UTF-8 with a
replacement character for each ill-formed part, and characters beyond ASCII stay. The library
asks whether unquoting changes the text; the operators ask whether the text holds a triplet
(`Percent.hasEscape`). The two tests agree, because unquoting shortens every triplet and never
lengthens anything else.

A text made only of unreserved characters, reserved characters and triplets (`Text.Uric`, the
URI characters of RFC 2396) is therefore left as it is, and every encoded text is such a text:
encoding an encoded value again changes nothing.

## Results

* `Percent.unquote_eq_self_iff` — unquoting changes a text exactly when it holds a triplet.
* `Operator.encode_eq_quote` — an operator's encoding, written with the unquoting test.
* `Operator.encode_uric` — reserved and fragment expansion keep a text of URI characters.
* `reserved_encoding_idempotent` — so encoding an encoded value again changes nothing.
-/

namespace Rfc6570

open Text

/-! ## Lossy UTF-8 -/

namespace Utf8

/-- The replacement character, written for each ill-formed part of a byte sequence. -/
def replacement : Nat := 0xFFFD

/-- The code points a byte completes when no sequence is pending, and the state after it: an
ASCII byte stands for itself, a first byte opens a sequence, any other byte is replaced. -/
def start (b : Nat) : Text × Option Pending :=
  match begin 0 b with
  | .error _ => ([replacement], none)
  | .ok none => ([b], none)
  | .ok (some p) => ([], some p)

/-- Feeds one byte to a lossy decoder whose pending sequence is `o`. A byte that cannot
continue the pending sequence ends it with one replacement character and is read again on its
own. -/
def feed : Option Pending → Nat → Text × Option Pending
  | none, b => start b
  | some p, b =>
    if p.lo ≤ b ∧ b ≤ p.hi then
      if p.need ≤ 1 then ([p.bits * 64 + (b - 0x80)], none)
      else ([], some { p with bits := p.bits * 64 + (b - 0x80), need := p.need - 1, lo := 0x80, hi := 0xBF })
    else ((start b).1.cons replacement, (start b).2)

/-- What a pending sequence leaves at the end of its run: one replacement character. -/
def flush : Option Pending → Text
  | none => []
  | some _ => [replacement]

theorem start_length (b : Nat) : (start b).1.length + (flush (start b).2).length ≤ 1 := by
  unfold start
  split <;> simp [flush]

/-- A byte yields at most one code point, counting a pending sequence as the one it may yet
become. -/
theorem feed_length (o : Option Pending) (b : Nat) :
    (feed o b).1.length + (flush (feed o b).2).length ≤ 1 + (flush o).length := by
  cases o with
  | none => exact Nat.le_trans (start_length b) (Nat.le_add_right 1 _)
  | some p =>
    simp only [feed]
    split
    · split <;> simp [flush]
    · -- the pending sequence becomes one replacement character, and the byte starts afresh
      have hstart := start_length b
      have hflush : (flush (some p)).length = 1 := rfl
      simp only [List.length_cons]
      omega

theorem feed_ascii {b : Nat} (hb : b < 128) : feed none b = ([b], none) := by
  simp [feed, start, begin, hb]

end Utf8

/-! ## Unquoting -/

namespace Percent

/-- The byte that two hexadecimal digits at the front of a text stand for, if they do. -/
def pairByte? : Text → Option Nat
  | a :: b :: _ =>
    match hexValue? a, hexValue? b with
    | some x, some y => some (16 * x + y)
    | _, _ => none
  | _ => none

/-- Unquotes a text with the lossy decoder in state `o`, after skipping `skip` characters that
a triplet has already read: a triplet `%HH` feeds its byte, any other ASCII character feeds
itself, and a character beyond ASCII ends the run of bytes. -/
def unquoteFrom : Nat → Option Utf8.Pending → Text → Text
  | _, o, [] => Utf8.flush o
  | skip + 1, o, _ :: rest => unquoteFrom skip o rest
  | 0, o, c :: rest =>
    if c = 37 then
      match pairByte? rest with
      | some b => (Utf8.feed o b).1 ++ unquoteFrom 2 (Utf8.feed o b).2 rest
      | none => (Utf8.feed o 37).1 ++ unquoteFrom 0 (Utf8.feed o 37).2 rest
    else if c < 128 then (Utf8.feed o c).1 ++ unquoteFrom 0 (Utf8.feed o c).2 rest
    else Utf8.flush o ++ c :: unquoteFrom 0 none rest

/-- The text with its escapes read: triplets as UTF-8 bytes, ill-formed parts replaced. -/
def unquote (t : Text) : Text := unquoteFrom 0 none t

theorem startsWithHexPair_eq (t : Text) : startsWithHexPair t = (pairByte? t).isSome := by
  match t with
  | [] | [_] => rfl
  | a :: b :: _ =>
    simp only [startsWithHexPair, pairByte?, isHexDigit]
    cases hexValue? a <;> cases hexValue? b <;> rfl

/-- A triplet is read as one byte, and the decoder goes on after it. -/
theorem unquoteFrom_triplet {rest : Text} {b : Nat} (h : pairByte? rest = some b) (o : Option Utf8.Pending) :
    ∃ r, rest.length = r.length + 2 ∧
      unquoteFrom 0 o (37 :: rest) = (Utf8.feed o b).1 ++ unquoteFrom 0 (Utf8.feed o b).2 r := by
  match rest, h with
  | _ :: _ :: r, h => exact ⟨r, rfl, by simp [unquoteFrom, h]⟩

/-- A character that opens no triplet feeds itself when it is ASCII. -/
theorem unquoteFrom_ascii {c : Nat} (hc : c < 128) {rest : Text}
    (hpair : c = 37 → pairByte? rest = none) (o : Option Utf8.Pending) :
    unquoteFrom 0 o (c :: rest) = (Utf8.feed o c).1 ++ unquoteFrom 0 (Utf8.feed o c).2 rest := by
  by_cases h37 : c = 37
  · subst h37
    simp [unquoteFrom, hpair rfl]
  · simp [unquoteFrom, h37, hc]

theorem unquoteFrom_wide {c : Nat} (hc : ¬c < 128) (rest : Text) (o : Option Utf8.Pending) :
    unquoteFrom 0 o (c :: rest) = Utf8.flush o ++ c :: unquoteFrom 0 none rest := by
  have h37 : c ≠ 37 := by omega
  simp [unquoteFrom, h37, hc]

/-- Unquoting never lengthens a text, and shortens by at least two a text that holds a
triplet; a pending sequence counts as the one character it may yet become. -/
theorem unquoteFrom_length (o : Option Utf8.Pending) (t : Text) :
    (unquoteFrom 0 o t).length + (if hasEscape t then 2 else 0) ≤ t.length + (Utf8.flush o).length := by
  match t with
  | [] => simp [unquoteFrom, hasEscape]
  | c :: rest =>
    by_cases htrip : c = 37 ∧ ∃ b, pairByte? rest = some b
    · -- a triplet: three characters feed one byte
      obtain ⟨rfl, b, hb⟩ := htrip
      obtain ⟨r, hlen, heq⟩ := unquoteFrom_triplet hb o
      have hfeed := Utf8.feed_length o b
      have ih : (unquoteFrom 0 (Utf8.feed o b).2 r).length ≤ r.length + (Utf8.flush (Utf8.feed o b).2).length :=
        Nat.le_trans (Nat.le_add_right _ _) (unquoteFrom_length (Utf8.feed o b).2 r)
      have hesc : hasEscape (37 :: rest) = true := by simp [hasEscape, startsWithHexPair_eq, hb]
      rw [heq, hesc, if_pos rfl, List.length_append, List.length_cons, hlen]
      omega
    · -- any other character: the triplets are those of the rest
      have hpair : c = 37 → pairByte? rest = none := fun h37 =>
        Option.eq_none_iff_forall_ne_some.mpr fun b hb => htrip ⟨h37, b, hb⟩
      have hesc : hasEscape (c :: rest) = hasEscape rest := by
        by_cases h37 : c = 37
        · simp [hasEscape, startsWithHexPair_eq, hpair h37]
        · simp [hasEscape, h37]
      rw [hesc]
      generalize hk : (if hasEscape rest = true then 2 else 0) = k
      by_cases hc : c < 128
      · have hfeed := Utf8.feed_length o c
        have ih := unquoteFrom_length (Utf8.feed o c).2 rest
        rw [hk] at ih
        rw [unquoteFrom_ascii hc hpair o]
        simp only [List.length_append, List.length_cons]
        omega
      · have ih := unquoteFrom_length none rest
        rw [hk] at ih
        rw [unquoteFrom_wide hc]
        simp only [Utf8.flush, List.length_nil, List.length_append, List.length_cons] at ih ⊢
        omega
termination_by t.length

/-- A text without a triplet is its own unquoting: each ASCII character feeds itself and no
sequence is ever pending. -/
theorem unquoteFrom_of_not_hasEscape : ∀ {t : Text}, hasEscape t = false → unquoteFrom 0 none t = t
  | [], _ => rfl
  | c :: rest, h => by
    rw [hasEscape, Bool.or_eq_false_iff] at h
    obtain ⟨hhead, hrest⟩ := h
    have hpair : c = 37 → pairByte? rest = none := by
      rintro rfl
      simpa [startsWithHexPair_eq] using hhead
    by_cases hc : c < 128
    · rw [unquoteFrom_ascii hc hpair, Utf8.feed_ascii hc, unquoteFrom_of_not_hasEscape hrest]
      rfl
    · rw [unquoteFrom_wide hc, unquoteFrom_of_not_hasEscape hrest]
      rfl

/-- **Unquoting changes a text exactly when it holds a triplet.** -/
theorem unquote_eq_self_iff (t : Text) : unquote t = t ↔ hasEscape t = false := by
  constructor
  · intro h
    cases hesc : hasEscape t
    · rfl
    · -- a triplet would make the unquoted text shorter
      have hlen := unquoteFrom_length none t
      rw [hesc, if_pos rfl, ← unquote, h] at hlen
      have hflush : (Utf8.flush none).length = 0 := rfl
      omega
  · exact unquoteFrom_of_not_hasEscape

example : unquote (ofString "a%20b%zz%C3%A9%ff") = ofString "a b%zzé" ++ [0xFFFD] := by decide
example : unquote (ofString "%E2%82%%41") = [0xFFFD, 37, 65] := by decide

end Percent

/-- **An operator's encoding, as the library writes it**: reserved and fragment expansion leave
a text that unquoting would change and encode any other with the reserved characters kept; the
other operators encode every text with nothing kept. -/
theorem Operator.encode_eq_quote (op : Operator) (v : Value) :
    op.encode v = v.expansionText >>= fun t =>
      if op.keepsEscapes then
        if Percent.unquote t = t then Value.encodeWith Text.reserved (.text t) else .ok t
      else Value.encodeWith [] (.text t) := by
  unfold Operator.encode
  congr 1
  funext t
  cases op.keepsEscapes
  · rfl
  · simp only [Percent.unquote_eq_self_iff]
    cases Percent.hasEscape t <;> rfl

/-! ## Texts of URI characters -/

namespace Text

/-- The URI characters of RFC 2396: unreserved characters, reserved characters, and escape
triplets `%HH` with hexadecimal digits of either case. -/
inductive Uric : Text → Prop where
  | nil : Uric []
  | char {c : Nat} {t : Text} (hc : isUnreserved c = true ∨ c ∈ reserved) : Uric t → Uric (c :: t)
  | triplet {a b : Nat} {t : Text} (ha : isHexDigit a = true) (hb : isHexDigit b = true) :
      Uric t → Uric (37 :: a :: b :: t)

/-- A text of URI characters without a triplet has only unreserved and reserved characters. -/
theorem Uric.kept_of_not_hasEscape {t : Text} (h : Uric t) (hesc : Percent.hasEscape t = false) :
    ∀ c ∈ t, isUnreserved c = true ∨ c ∈ reserved := by
  induction h with
  | nil => simp
  | char hc _ ih =>
    rw [Percent.hasEscape, Bool.or_eq_false_iff] at hesc
    intro d hd
    rcases List.mem_cons.mp hd with rfl | hd
    · exact hc
    · exact ih hesc.2 d hd
  | triplet ha hb =>
    -- a triplet is an escape
    simp [Percent.hasEscape, Percent.startsWithHexPair, ha, hb] at hesc

theorem lt_of_kept {c : Nat} (hc : isUnreserved c = true ∨ c ∈ reserved) : c < 128 := by
  rcases hc with hc | hc
  · simp only [isUnreserved, isAsciiLetter, isAsciiDigit, Bool.or_eq_true, Bool.and_eq_true,
      decide_eq_true_eq, beq_iff_eq] at hc
    omega
  · have hall : ∀ d ∈ reserved, d < 128 := by decide
    exact hall c hc

theorem isHexDigit_hexUpper {n : Nat} (h : n < 16) : isHexDigit (hexUpper n) = true := by
  unfold isHexDigit hexUpper
  split
  · rw [hexValue?, if_pos (by omega)]
    rfl
  · rw [hexValue?, if_neg (by omega), if_pos (by omega)]
    rfl

/-- Percent-encoding with the reserved characters kept keeps exactly the unreserved and the
reserved characters. -/
theorem keeps_reserved_iff {c : Nat} :
    Percent.keeps reserved c = true ↔ isUnreserved c = true ∨ c ∈ reserved := by
  simp only [Percent.keeps, Bool.or_eq_true, Bool.and_eq_true, decide_eq_true_eq, List.contains_iff_mem]
  constructor
  · exact Or.imp_right And.right
  · intro h
    exact h.imp_right fun hr => ⟨lt_of_kept (.inr hr), hr⟩

end Text

/-- An ASCII text is its own UTF-8, one byte a character. -/
theorem Utf8.encodeFrom_ascii {t : Text} (h : ∀ c ∈ t, c < 128) (pos : Nat) :
    Utf8.encodeFrom pos t = .ok (t.map Nat.toUInt8) := by
  induction t generalizing pos with
  | nil => rfl
  | cons c rest ih =>
    have hc := h c List.mem_cons_self
    have hsur : Utf8.isSurrogate c = false := by simp [Utf8.isSurrogate]; omega
    rw [Utf8.encodeFrom, if_neg (by simp [hsur]), ih (fun d hd => h d (List.mem_cons_of_mem c hd))]
    simp [Utf8.encodePoint, hc, Except.map]

/-- Bytes that stand as themselves are written as they are. -/
theorem Percent.encode_of_keeps {safe t : Text} (h : ∀ c ∈ t, c < 256 ∧ keeps safe c = true) :
    Percent.encode safe (t.map Nat.toUInt8) = t := by
  induction t with
  | nil => rfl
  | cons c rest ih =>
    obtain ⟨hc, hkeep⟩ := h c List.mem_cons_self
    have hbyte : (Nat.toUInt8 c).toNat = c := by simp [Nat.toUInt8]; omega
    rw [List.map_cons, encode_cons, hbyte, encode_keeps hkeep,
      ih (fun d hd => h d (List.mem_cons_of_mem c hd))]
    rfl

/-- Encoding with the reserved characters kept leaves a text of unreserved and reserved
characters as it is. -/
theorem encodeWith_reserved_of_kept {t : Text} (h : ∀ c ∈ t, isUnreserved c = true ∨ c ∈ reserved) :
    Value.encodeWith reserved (.text t) = .ok t := by
  have hascii : ∀ c ∈ t, c < 128 := fun c hc => lt_of_kept (h c hc)
  have hkeeps : ∀ c ∈ t, c < 256 ∧ Percent.keeps reserved c = true := fun c hc =>
    ⟨by have := hascii c hc; omega, keeps_reserved_iff.mpr (h c hc)⟩
  simp only [Value.encodeWith, Value.str, ok_bind, Utf8.encode, Utf8.encodeFrom_ascii hascii]
  rw [Percent.encode_of_keeps hkeeps]

/-- Percent-encoding with the reserved characters kept writes URI characters only. -/
theorem uric_encode_reserved (bs : List UInt8) : Uric (Percent.encode reserved bs) := by
  induction bs with
  | nil => exact .nil
  | cons b bs ih =>
    rw [Percent.encode_cons, Percent.encodeByte]
    split
    · exact .char (keeps_reserved_iff.mp ‹_›) ih
    · have hb := b.toNat_lt
      exact .triplet (isHexDigit_hexUpper (by omega)) (isHexDigit_hexUpper (by omega)) ih

theorem Value.encodeWith_text_eq_ok {safe s t : Text} (h : Value.encodeWith safe (.text s) = .ok t) :
    ∃ bs, t = Percent.encode safe bs := by
  simp only [Value.encodeWith, Value.str, ok_bind] at h
  split at h
  · exact ⟨_, (Except.ok.inj h).symm⟩
  · cases h

/-! ## Encoding again -/

@[simp] theorem Value.expansionText_text (t : Text) : (Value.text t).expansionText = .ok t := rfl

namespace Operator

variable {op : Operator}

theorem keepsEscapes_iff : op.keepsEscapes = true ↔ op = .reserved ∨ op = .fragment := by
  cases op <;> simp [keepsEscapes]

/-- Reserved and fragment expansion leave a text with a triplet as it is. -/
theorem encode_of_hasEscape (hop : op.keepsEscapes = true) {t : Text} (h : Percent.hasEscape t = true) :
    op.encode (.text t) = .ok t := by
  simp only [encode, Value.expansionText_text, ok_bind, hop, h, Bool.and_self, if_true]

/-- **Reserved and fragment expansion keep a text of URI characters**: one with a triplet is
left as it is, and one without has nothing to encode. -/
theorem encode_uric (hop : op.keepsEscapes = true) {s : Text} (hs : Uric s) :
    op.encode (.text s) = .ok s := by
  cases hesc : Percent.hasEscape s with
  | true => exact encode_of_hasEscape hop hesc
  | false =>
    simp only [encode, Value.expansionText_text, ok_bind, hop, hesc, Bool.and_false,
      Bool.false_eq_true, if_false, if_true]
    exact encodeWith_reserved_of_kept (hs.kept_of_not_hasEscape hesc)

/-- Encoding again under reserved or fragment expansion changes nothing: the encoded text is
either the value's own text, which holds a triplet, or percent-encoded URI characters. -/
theorem encode_encode (hop : op.keepsEscapes = true) {v : Value} {t : Text} (h : op.encode v = .ok t) :
    op.encode (.text t) = .ok t := by
  unfold encode at h
  obtain ⟨s, -, h⟩ := bind_eq_ok.mp h
  simp only [hop, Bool.true_and, if_true] at h
  split at h
  · cases h
    exact encode_of_hasEscape hop ‹_›
  · obtain ⟨bs, rfl⟩ := Value.encodeWith_text_eq_ok h
    exact encode_uric hop (uric_encode_reserved bs)

end Operator

/-- **Encoding an encoded value again changes nothing under reserved and fragment expansion**:
whatever value the operator encodes, its encoding is encoded to itself, and every text of
unreserved characters, reserved characters and triplets `%HH` (digits of either case) is
encoded to itself. -/
theorem reserved_encoding_idempotent {op : Operator} (hop : op = .reserved ∨ op = .fragment) :
    (∀ v t, op.encode v = .ok t → op.encode (.text t) = .ok t) ∧
      ∀ s, Uric s → op.encode (.text s) = .ok s :=
  have hkeeps := Operator.keepsEscapes_iff.mpr hop
  ⟨fun _ _ h => Operator.encode_encode hkeeps h, fun _ hs => Operator.encode_uric hkeeps hs⟩

/-- Under reserved expansion `a b%2` holds no triplet and is encoded to `a%20b%252`, which is
encoded to itself; `%7e/?` is a text of URI characters with a lower-case triplet and is kept. -/
theorem reserved_encoding_idempotent_space :
    (Operator.reserved = .reserved ∨ Operator.reserved = .fragment) ∧
      Operator.encode .reserved (.text (ofString "a b%2")) = .ok (ofString "a%20b%252") ∧
      Operator.encode .reserved (.text (ofString "a%20b%252")) = .ok (ofString "a%20b%252") ∧
      Uric (ofString "%7e/?") ∧
      Operator.encode .reserved (.text (ofString "%7e/?")) = .ok (ofString "%7e/?") := by
  have hop : Operator.reserved = .reserved ∨ Operator.reserved = .fragment := .inl rfl
  have henc : Operator.encode .reserved (.text (ofString "a b%2")) = .ok (ofString "a%20b%252") := by
    rfl
  have huric : Uric (ofString "%7e/?") := by
    show Uric [37, 55, 101, 47, 63]
    exact .triplet (by decide) (by decide) (.char (.inr (by decide)) (.char (.inr (by decide)) .nil))
  exact ⟨hop, henc, (reserved_encoding_idempotent hop).1 _ _ henc, huric,
    (reserved_encoding_idempotent hop).2 _ huric⟩

end Rfc6570
