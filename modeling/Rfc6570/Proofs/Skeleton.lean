import Rfc6570.Expression.Expand
import Rfc6570.Proofs.Except
import Rfc6570.Proofs.Sorting.Permutation

/-!
# Rfc6570 — what an expansion shows of its values

Away from reserved and fragment expansion every character of a value is percent-encoded but the
unreserved ones, so an expansion is *spelled* (`Text.Spelled`) with unreserved characters,
escape triplets `%HH` with upper-case digits, and the operator's delimiters: its first
character, `,`, `=` and its separator (`Operator.delimiters`), once the names of its variables
are unreserved.

Removing the unreserved characters and the triplets (`Text.mask`) leaves the delimiters, and
where they stand depends on the values only through what the styles read of them besides their
characters, their *outline* (`Outline`): absent; a sequence or a mapping, with its length and
how many of its items or values are present; or a scalar, with its truth before and after the
prefix cut and whether it is the empty text or the empty byte string. `Style.skeleton` is what
one variable shows by the outline of its value, `Expression.skeleton` what an expression shows.

Two bindings that are both empty and false need not show the same. A default replaces the empty
byte string but not the empty text (`default_separates_empty_scalars`), and the label style
drops an empty byte string where it keeps the empty text; the outline tells the two apart.

## Results

* `Style.apply_shows` — one variable's expansion is spelled and shows its skeleton.
* `expand_spelled_masked_by_outline` — the alphabet of an expansion, and its masked text read
  from the outlines of the bound values.
* `default_separates_empty_scalars` — the empty byte string and the empty text expand apart
  under a default.
-/

namespace Rfc6570

open Text

/-! ## Spelling -/

namespace Text

/-- An upper-case hexadecimal digit. -/
def isUpperHexDigit (c : Nat) : Bool := isAsciiDigit c || (65 ≤ c && c ≤ 70)

/-- A text made of unreserved characters, characters of `extra` other than `%`, and escape
triplets `%HH` with upper-case digits. -/
inductive Spelled (extra : Text) : Text → Prop where
  | nil : Spelled extra []
  | char {c : Nat} {t : Text} (hc : c ≠ 37) (hin : isUnreserved c = true ∨ c ∈ extra) :
      Spelled extra t → Spelled extra (c :: t)
  | triplet {a b : Nat} {t : Text} (ha : isUpperHexDigit a = true) (hb : isUpperHexDigit b = true) :
      Spelled extra t → Spelled extra (37 :: a :: b :: t)

namespace Spelled

variable {extra : Text}

theorem append {s t : Text} (hs : Spelled extra s) (ht : Spelled extra t) : Spelled extra (s ++ t) := by
  induction hs with
  | nil => exact ht
  | char hc hin _ ih => exact .char hc hin ih
  | triplet ha hb _ ih => exact .triplet ha hb ih

theorem mono {extra' t : Text} (h : Spelled extra t) (hsub : ∀ c ∈ extra, c ∈ extra') : Spelled extra' t := by
  induction h with
  | nil => exact .nil
  | char hc hin _ ih => exact .char hc (hin.imp_right (hsub _)) ih
  | triplet ha hb _ ih => exact .triplet ha hb ih

end Spelled

theorem ne_percent_of_unreserved {c : Nat} (h : isUnreserved c = true) : c ≠ 37 := by
  rintro rfl
  simp [isUnreserved, isAsciiLetter, isAsciiDigit] at h

theorem isUpperHexDigit_hexUpper {n : Nat} (h : n < 16) : isUpperHexDigit (hexUpper n) = true := by
  unfold isUpperHexDigit isAsciiDigit hexUpper
  split <;> simp <;> omega

theorem spelled_triplet {b : Nat} (hb : b < 256) (t : Text) (ht : Spelled extra t) :
    Spelled extra (Percent.triplet b ++ t) :=
  .triplet (isUpperHexDigit_hexUpper (by omega)) (isUpperHexDigit_hexUpper (Nat.mod_lt _ (by decide))) ht

/-- Percent-encoding with no safe characters spells its result with no extra characters. -/
theorem spelled_percentEncode (bs : List UInt8) : Spelled [] (Percent.encode [] bs) := by
  induction bs with
  | nil => exact .nil
  | cons b bs ih =>
    rw [Percent.encode_cons, Percent.encodeByte]
    -- with nothing safe, a byte is kept exactly when it is unreserved
    have hkeeps : Percent.keeps [] b.toNat = isUnreserved b.toNat := by simp [Percent.keeps]
    split
    · have hu : isUnreserved b.toNat = true := hkeeps ▸ ‹_›
      exact .char (ne_percent_of_unreserved hu) (.inl hu) ih
    · exact spelled_triplet b.toNat_lt _ ih

theorem spelled_of_unreserved {t : Text} (h : ∀ c ∈ t, isUnreserved c = true) : Spelled [] t := by
  induction t with
  | nil => exact .nil
  | cons c t ih =>
    have hc := h c List.mem_cons_self
    exact .char (ne_percent_of_unreserved hc) (.inl hc) (ih fun d hd => h d (List.mem_cons_of_mem c hd))

/-! ## Masking -/

/-- A text with its unreserved characters and every `%` removed. On a spelled text this removes
exactly the unreserved characters and the escape triplets, whose digits are unreserved. -/
def mask (t : Text) : Text := t.filter fun c => !(isUnreserved c || c == 37)

@[simp] theorem mask_nil : mask [] = [] := rfl

theorem mask_cons (c : Nat) (t : Text) :
    mask (c :: t) = if isUnreserved c || c == 37 then mask t else c :: mask t := by
  rw [mask, List.filter_cons]
  cases isUnreserved c || c == 37 <;> rfl

@[simp] theorem mask_append (s t : Text) : mask (s ++ t) = mask s ++ mask t := List.filter_append ..

example : mask (ofString ";x=a%20b;y=1") = ofString ";=;=" := by decide

theorem isUnreserved_of_isUpperHexDigit {c : Nat} (h : isUpperHexDigit c = true) : isUnreserved c = true := by
  simp only [isUpperHexDigit, isUnreserved, isAsciiLetter, isAsciiDigit, Bool.or_eq_true,
    Bool.and_eq_true, decide_eq_true_eq] at h ⊢
  omega

/-- A text spelled with no extra characters shows nothing once masked. -/
theorem Spelled.mask_eq_nil {t : Text} (h : Spelled [] t) : mask t = [] := by
  induction h with
  | nil => rfl
  | char _ hin _ ih =>
    have hu : isUnreserved _ = true := hin.resolve_right List.not_mem_nil
    rw [mask_cons, hu, Bool.true_or, if_pos rfl, ih]
  | triplet ha hb _ ih =>
    -- the `%` goes, and so do its two digits, which are unreserved
    rw [mask_cons, mask_cons, mask_cons, isUnreserved_of_isUpperHexDigit ha,
      isUnreserved_of_isUpperHexDigit hb]
    simp [ih]

/-- A text spelled over `extra` that shows `m` once masked. -/
structure Shows (extra m t : Text) : Prop where
  spelled : Spelled extra t
  mask_eq : mask t = m

namespace Shows

variable {E : Text}

theorem append {m m' t t' : Text} (h : Shows E m t) (h' : Shows E m' t') : Shows E (m ++ m') (t ++ t') :=
  ⟨h.spelled.append h'.spelled, by rw [mask_append, h.mask_eq, h'.mask_eq]⟩

theorem content {t : Text} (h : Spelled [] t) : Shows E [] t :=
  ⟨h.mono (by simp), h.mask_eq_nil⟩

theorem delim {s : Text} (h : ∀ c ∈ s, c ≠ 37 ∧ c ∈ E) : Shows E (mask s) s := by
  induction s with
  | nil => exact ⟨.nil, rfl⟩
  | cons c s ih =>
    have hc := h c List.mem_cons_self
    exact ⟨.char hc.1 (.inr hc.2) (ih fun d hd => h d (List.mem_cons_of_mem c hd)).spelled, rfl⟩

/-- Joining texts shows the join of what they show, by what the separator shows. -/
theorem join {ms s : Text} (hs : Shows E ms s) :
    ∀ {ms' ts : List Text}, List.Forall₂ (Shows E) ms' ts → Shows E (Text.join ms ms') (Text.join s ts)
  | [], [], .nil => ⟨.nil, rfl⟩
  | [_], [_], .cons h .nil => h
  | _ :: _ :: _, _ :: _ :: _, .cons h (.cons h' hr) => by
    -- the first piece and the separator, then the join of the rest
    rw [join_cons_cons, join_cons_cons]
    exact (h.append hs).append (join hs (.cons h' hr))

theorem replicate {m : Text} :
    ∀ {ts : List Text}, (∀ t ∈ ts, Shows E m t) → List.Forall₂ (Shows E) (List.replicate ts.length m) ts
  | [], _ => .nil
  | t :: _, h => .cons (h t List.mem_cons_self) (replicate fun u hu => h u (List.mem_cons_of_mem t hu))

end Shows

end Text

/-! ## Encoded values -/

/-- Encoding with no safe characters spells its result with no extra characters. -/
theorem Value.encodeWith_nil_spelled {v : Value} {t : Text} (h : Value.encodeWith [] v = .ok t) :
    Spelled [] t := by
  unfold Value.encodeWith at h
  -- a byte string is encoded byte by byte, anything else by the UTF-8 bytes of its text
  split at h
  · cases h
    exact spelled_percentEncode _
  · obtain ⟨s, -, h⟩ := bind_eq_ok.mp h
    split at h
    · cases h
      exact spelled_percentEncode _
    · cases h

theorem Operator.allowed_eq_nil {op : Operator} (hop : op.keepsEscapes = false) : op.allowed = [] := by
  cases op <;> simp_all [Operator.keepsEscapes, Operator.allowed]

theorem Operator.encode_spelled {op : Operator} (hop : op.keepsEscapes = false) {v : Value} {t : Text}
    (h : op.encode v = .ok t) : Spelled [] t := by
  unfold Operator.encode at h
  obtain ⟨s, -, h⟩ := bind_eq_ok.mp h
  -- only `+` and `#` keep a text with a triplet, or anything beyond the unreserved characters
  simp only [hop, Bool.false_and, Bool.false_eq_true, if_false] at h
  exact Value.encodeWith_nil_spelled h

/-- Keys are encoded as values are, away from `+` and `#`. -/
theorem Operator.encodeKey_spelled {op : Operator} (hop : op.keepsEscapes = false) {v : Value} {t : Text}
    (h : Value.encodeWith op.allowed v = .ok t) : Spelled [] t := by
  rw [Operator.allowed_eq_nil hop] at h
  exact Value.encodeWith_nil_spelled h

/-! ## Outlines -/

/-- What the expansion styles read of a value besides its characters. -/
inductive Outline where
  /-- No value. -/
  | absent
  /-- A sequence: its length and how many of its items are present. -/
  | sequence (length present : Nat)
  /-- A mapping: its length and how many of its values are present. -/
  | mapping (length present : Nat)
  /-- A scalar: its truth before and after the prefix cut, and whether it is the empty text or
  the empty byte string. -/
  | scalar (truthy emptyText emptyBytes truthyAfterCut : Bool)
deriving DecidableEq, Repr

namespace Value

/-- The value is the empty text. -/
def isEmptyText : Value → Bool
  | .text [] => true
  | _ => false

/-- The value is the empty byte string. -/
def isEmptyBytes : Value → Bool
  | .bytes [] => true
  | _ => false

/-- The value is true once cut to a prefix length; a value that cannot be cut counts as false. -/
def truthyAfterCut (v limit : Value) : Bool :=
  match v.cut limit with
  | .ok w => w.truthy
  | .error _ => false

/-- The outline of a value under a prefix length, read as `shape` reads the value, without
sorting a dictionary. -/
def outline (v limit : Value) : Outline :=
  match v, v.pairs? with
  | .none, _ => .absent
  | _, some ps => .mapping ps.length (ps.countP (·.2.isPresent))
  | .list xs, Option.none => .sequence xs.length (xs.countP (·.isPresent))
  | .tuple xs, Option.none => .sequence xs.length (xs.countP (·.isPresent))
  | .dict es, Option.none => .mapping es.length (es.countP (·.2.isPresent))
  | v, Option.none => .scalar v.truthy v.isEmptyText v.isEmptyBytes (v.truthyAfterCut limit)

end Value

/-- The outline of a shape. -/
def Shape.outline (limit : Value) : Shape → Outline
  | .absent => .absent
  | .sequence xs => .sequence xs.length (xs.countP (·.isPresent))
  | .mapping es => .mapping es.length (es.countP (·.2.isPresent))
  | .scalar v => .scalar v.truthy v.isEmptyText v.isEmptyBytes (v.truthyAfterCut limit)

/-- A shape has the outline of its value: sorting a dictionary keeps its entries. -/
theorem Value.shape_outline {v : Value} {s : Shape} (limit : Value) (h : v.shape = .ok s) :
    s.outline limit = v.outline limit := by
  cases v with
  | dict es =>
    -- sorting keeps the entries
    obtain ⟨es', hsort, rfl⟩ := map_eq_ok.mp h
    have hperm := Sorting.sortBy_perm hsort
    simp [Shape.outline, Value.outline, Value.pairs?, hperm.length_eq, hperm.countP_eq]
  | list xs =>
    -- a list of pairs is a mapping
    unfold Value.shape at h
    unfold Value.outline
    cases hp : (Value.list xs).pairs? <;> simp only [hp] at h ⊢ <;> cases h <;> rfl
  | tuple xs =>
    -- so is a tuple of pairs
    unfold Value.shape at h
    unfold Value.outline
    cases hp : (Value.tuple xs).pairs? <;> simp only [hp] at h ⊢ <;> cases h <;> rfl
  | _ =>
    -- any other value is a scalar
    cases h
    rfl

/-- The truth of a value with this outline. -/
def Outline.truthy : Outline → Bool
  | .absent => false
  | .sequence n _ | .mapping n _ => n != 0
  | .scalar t _ _ _ => t

/-- A value with this outline is the empty text. -/
def Outline.isEmptyText : Outline → Bool
  | .scalar _ e _ _ => e
  | _ => false

/-- A value with pairs has at least one, so it is true. -/
theorem Value.pairs?_truthy {v : Value} {ps : List (Value × Value)} (h : v.pairs? = some ps) :
    ps.length ≠ 0 ∧ v.truthy = true := by
  cases v with
  | list xs | tuple xs =>
    cases xs with
    | nil => cases h
    | cons x xs =>
      simp only [Value.pairs?, List.mapM_cons, Option.bind_eq_bind, Option.bind_eq_some_iff,
        Option.pure_def, Option.some.injEq] at h
      obtain ⟨_, -, _, -, rfl⟩ := h
      simp [Value.truthy]
  | _ => cases h

theorem Value.truthy_outline (v limit : Value) : (v.outline limit).truthy = v.truthy := by
  unfold Value.outline
  split
  next => rfl
  next hp => simp [Outline.truthy, Value.pairs?_truthy hp]
  -- a container is true exactly when it is not empty
  next xs _ => cases xs <;> rfl
  next xs _ => cases xs <;> rfl
  next es _ => cases es <;> rfl
  next => rfl

theorem Value.isEmptyText_of_truthy {v : Value} (h : v.truthy = true) : v.isEmptyText = false := by
  cases v with
  | text t => cases t <;> simp_all [Value.truthy, Value.isEmptyText]
  | _ => rfl

theorem Value.isEmptyText_outline (v limit : Value) : (v.outline limit).isEmptyText = v.isEmptyText := by
  unfold Value.outline
  split
  next => rfl
  next hp => rw [Value.isEmptyText_of_truthy (Value.pairs?_truthy hp).2]; rfl
  all_goals rfl

/-- The value bound to a name, `None` when unbound. -/
def Entries.lookup (vars : Entries) (name : Text) : Value := (vars.find? (.text name)).getD .none

theorem Expression.valueOf_eq (e : Expression) (vars : Entries) (name : Text) :
    e.valueOf vars name =
      if !(vars.lookup name).truthy && !(vars.lookup name).isEmptyText then
        ((e.defaultOf? name).map .text).getD (vars.lookup name)
      else vars.lookup name := by
  unfold Expression.valueOf
  cases e.defaultOf? name <;> rfl

/-- Bindings of one outline take values of one outline: whether the default replaces a binding
is read from its outline. -/
theorem Expression.outline_valueOf (e : Expression) {vars vars' : Entries} {name : Text} {limit : Value}
    (h : (vars.lookup name).outline limit = (vars'.lookup name).outline limit) :
    (e.valueOf vars name).outline limit = (e.valueOf vars' name).outline limit := by
  have ht : (vars.lookup name).truthy = (vars'.lookup name).truthy := by
    rw [← Value.truthy_outline _ limit, h, Value.truthy_outline]
  have he : (vars.lookup name).isEmptyText = (vars'.lookup name).isEmptyText := by
    rw [← Value.isEmptyText_outline _ limit, h, Value.isEmptyText_outline]
  rw [valueOf_eq, valueOf_eq, ht, he]
  -- the default replaces both bindings or neither, and it is the same text for both
  split
  · cases e.defaultOf? name
    · exact h
    · rfl
  · exact h

/-! ## What each style shows -/

/-- What a variable's expansion shows once masked, by its style, the operator's separator, the
explode modifier and the outline of its value; `none` when the variable is undefined. -/
def Style.skeleton (sep : Text) (explode : Bool) : Style → Outline → Option Text
  | _, .absent => none
  | .string, .sequence n _ => some (join [44] (List.replicate n []))
  | .string, .mapping n _ => some (join [44] (List.replicate n (if explode then [61] else [44])))
  | .string, .scalar .. => some []
  | .label, .sequence _ m =>
    if m = 0 then none else some (join (mask (if explode then sep else [44])) (List.replicate m []))
  | .label, .mapping _ m =>
    if m = 0 then none
    else some (join (mask (if explode then sep else [44])) (List.replicate m (if explode then [61] else [44])))
  | .label, .scalar _ _ emptyBytes _ => if emptyBytes then none else some []
  | .parameter, .sequence n m =>
    if explode then (if m = 0 then none else some (join (mask sep) (List.replicate m [61])))
    else some ([61] ++ join [44] (List.replicate n []))
  | .parameter, .mapping _ m =>
    if explode then some (join (mask sep) (List.replicate m [61]))
    else some ([61] ++ join [44] (List.replicate m [44]))
  | .parameter, .scalar _ _ _ truthyAfterCut => some (if truthyAfterCut then [61] else [])
  | .query, .sequence n _ =>
    if n = 0 then none
    else if explode then some (join (mask sep) (List.replicate n [61]))
    else some ([61] ++ join [44] (List.replicate n []))
  | .query, .mapping n _ =>
    if n = 0 then none
    else if explode then some (join (mask sep) (List.replicate n [61]))
    else some ([61] ++ join [44] (List.replicate n [44]))
  | .query, .scalar .. => some [61]

/-- The characters other than unreserved ones and triplets that an expansion under `op` may
hold: its first character, `,`, `=` and its separator. -/
def Operator.delimiters (op : Operator) : Text := op.first ++ [44, 61] ++ op.separator

/-- A result of a variable's expansion that is a text showing `m`. -/
def ShowsText (E m : Text) (w : Value) : Prop := ∃ t, w = .text t ∧ Shows E m t

section Styles

variable {n : Text} {explode : Bool} {limit v : Value} {s : Shape} {r : Option Value}

theorem Operator.shows_comma (op : Operator) : Shows op.delimiters [44] [44] :=
  Shows.delim (s := [44]) (by simp [Operator.delimiters])

theorem Operator.shows_equals (op : Operator) : Shows op.delimiters [61] [61] :=
  Shows.delim (s := [61]) (by simp [Operator.delimiters])

theorem Operator.shows_separator (op : Operator) : Shows op.delimiters (mask op.separator) op.separator :=
  Shows.delim fun c hc => ⟨by cases op <;> simp_all [Operator.separator], by simp [Operator.delimiters, hc]⟩

theorem Operator.shows_itemSeparator (op : Operator) (explode : Bool) :
    Shows op.delimiters (mask (if explode then op.separator else [44]))
      (if explode then op.separator else [44]) := by
  cases explode
  · exact op.shows_comma
  · exact op.shows_separator

theorem Operator.shows_entryMid (op : Operator) (explode : Bool) :
    Shows op.delimiters (if explode then [61] else [44]) (if explode then [61] else [44]) := by
  cases explode
  · exact op.shows_comma
  · exact op.shows_equals

/-- `name=` followed by a text shows `=` and what the text shows, for a name of unreserved
characters. -/
theorem Operator.shows_named (op : Operator) (hn : ∀ c ∈ n, isUnreserved c = true) {m t : Text}
    (ht : Shows op.delimiters m t) : Shows op.delimiters ([61] ++ m) (n ++ [61] ++ t) := by
  simpa using ((Shows.content (spelled_of_unreserved hn)).append op.shows_equals).append ht

theorem Operator.shows_namedValue (op : Operator) (hn : ∀ c ∈ n, isUnreserved c = true) {t : Text}
    (ht : Spelled [] t) : Shows op.delimiters [61] (n ++ [61] ++ t) := by
  simpa using op.shows_named hn (Shows.content ht)

theorem Style.encodeAll_spelled {enc : Value → Except Fault Text} {xs : List Value} {ts : List Text}
    (henc : ∀ v t, enc v = .ok t → Spelled [] t) (h : Style.encodeAll enc xs = .ok ts) :
    ts.length = xs.length ∧ ∀ t ∈ ts, Spelled [] t :=
  mapM_forall h fun x _ t ht => henc x t ht

theorem Style.writeEntries_shows {E : Text} {key enc : Value → Except Fault Text} {mid m : Text}
    {es : List (Value × Value)} {ts : List Text} (hkey : ∀ k t, key k = .ok t → Spelled [] t)
    (henc : ∀ v t, enc v = .ok t → Spelled [] t) (hmid : Shows E m mid)
    (h : Style.writeEntries key enc mid es = .ok ts) :
    ts.length = es.length ∧ ∀ t ∈ ts, Shows E m t :=
  mapM_forall h fun (k, v) _ t ht => by
    obtain ⟨a, ha, ht⟩ := bind_eq_ok.mp ht
    obtain ⟨b, hb, ht⟩ := bind_eq_ok.mp ht
    cases ht
    simpa using ((Shows.content (hkey k a ha)).append hmid).append (Shows.content (henc v b hb))

theorem Style.encodeNamed_shows (op : Operator) {enc : Value → Except Fault Text} {xs : List Value}
    {ts : List Text} (hn : ∀ c ∈ n, isUnreserved c = true) (henc : ∀ v t, enc v = .ok t → Spelled [] t)
    (h : Style.encodeNamed (.text n) enc xs = .ok ts) :
    ts.length = xs.length ∧ ∀ t ∈ ts, Shows op.delimiters [61] t :=
  mapM_forall h fun x _ t ht => by
    obtain ⟨nm, hnm, ht⟩ := bind_eq_ok.mp ht
    obtain ⟨b, hb, ht⟩ := bind_eq_ok.mp ht
    cases hnm
    cases ht
    exact op.shows_namedValue hn (henc x b hb)

theorem Style.string_shows {op : Operator} (hop : op.keepsEscapes = false) (hs : v.shape = .ok s)
    (h : Style.string.apply op (.text n) v explode limit = .ok r) :
    Option.Rel (ShowsText op.delimiters) (Style.string.skeleton op.separator explode (s.outline limit)) r := by
  have henc : ∀ v t, op.encode v = .ok t → Spelled [] t := fun _ _ => Operator.encode_spelled hop
  simp only [Style.apply, hs, ok_bind] at h
  cases s with
  | absent =>
    cases h
    exact .none
  | sequence xs =>
    -- every item is encoded, absent ones too, and the items joined by `,`
    obtain ⟨ps, hps, h⟩ := bind_eq_ok.mp h
    cases h
    obtain ⟨hlen, hall⟩ := Style.encodeAll_spelled henc hps
    refine .some ⟨_, rfl, ?_⟩
    rw [← hlen]
    exact op.shows_comma.join (Shows.replicate fun t ht => Shows.content (hall t ht))
  | mapping es =>
    -- every entry is written `k,v`, or `k=v` when exploded, and the entries joined by `,`
    obtain ⟨ps, hps, h⟩ := bind_eq_ok.mp h
    cases h
    obtain ⟨hlen, hall⟩ := Style.writeEntries_shows henc henc (op.shows_entryMid explode) hps
    refine .some ⟨_, rfl, ?_⟩
    rw [← hlen]
    exact op.shows_comma.join (Shows.replicate hall)
  | scalar w =>
    obtain ⟨w', -, h⟩ := bind_eq_ok.mp h
    obtain ⟨t, ht, h⟩ := bind_eq_ok.mp h
    cases h
    exact .some ⟨t, rfl, Shows.content (henc _ _ ht)⟩

theorem join_replicate_ne_nil {s mid : Text} (hmid : mid ≠ []) :
    ∀ {m : Nat}, m ≠ 0 → join s (List.replicate m mid) ≠ []
  | 1, _ => hmid
  | k + 2, _ => by
    rw [List.replicate_succ, List.replicate_succ, join_cons_cons]
    simp [hmid]

theorem Text.Shows.ne_nil {E m t : Text} (h : Shows E m t) (hm : m ≠ []) : t ≠ [] := by
  rintro rfl
  exact hm (h.mask_eq ▸ rfl)

/-- The styles that drop an empty expansion test the joined pieces; when every piece shows a
non-empty text, they are empty exactly when there are none. -/
theorem Shows.dropEmpty {E sep msep mid : Text} {ps : List Text} (hsep : Shows E msep sep)
    (hall : ∀ t ∈ ps, Shows E mid t) (hmid : mid ≠ [])
    (h : (if (join sep ps).isEmpty then pure none else pure (some (.text (join sep ps))) :
      Except Fault (Option Value)) = .ok r) :
    Option.Rel (ShowsText E) (if ps.length = 0 then none else some (join msep (List.replicate ps.length mid))) r := by
  have hjoin := hsep.join (Shows.replicate hall)
  cases ps with
  | nil =>
    cases h
    exact .none
  | cons p ps =>
    have hne := hjoin.ne_nil (join_replicate_ne_nil hmid (by simp))
    rw [if_neg (by simpa using hne)] at h
    cases h
    exact .some ⟨_, rfl, hjoin⟩

/-- The label style drops an empty byte string, and encodes any other scalar cut to its prefix. -/
theorem Style.apply_label_of_scalar {op : Operator} {name w : Value} (hs : v.shape = .ok (.scalar w)) :
    Style.label.apply op name v explode limit =
      if w.isEmptyBytes then .ok none else (do let t ← op.encode (← w.cut limit); return some (.text t)) := by
  simp only [Style.apply, hs, ok_bind]
  cases w with
  | bytes bs => cases bs <;> rfl
  | _ => rfl

theorem Style.label_shows {op : Operator} (hop : op.keepsEscapes = false) (hs : v.shape = .ok s)
    (h : Style.label.apply op (.text n) v explode limit = .ok r) :
    Option.Rel (ShowsText op.delimiters) (Style.label.skeleton op.separator explode (s.outline limit)) r := by
  have henc : ∀ v t, op.encode v = .ok t → Spelled [] t := fun _ _ => Operator.encode_spelled hop
  have hkey : ∀ v t, Value.encodeWith op.allowed v = .ok t → Spelled [] t :=
    fun _ _ => Operator.encodeKey_spelled hop
  have happly := h
  simp only [Style.apply, hs, ok_bind] at h
  cases s with
  | absent =>
    cases h
    exact .none
  | sequence xs =>
    -- the present items are encoded; with none, the variable is undefined
    obtain ⟨ps, hps, h⟩ := bind_eq_ok.mp h
    obtain ⟨hlen, hall⟩ := Style.encodeAll_spelled henc hps
    have hm : ps.length = xs.countP (·.isPresent) := by
      rw [hlen, Style.presentItems, List.countP_eq_length_filter]
    simp only [Shape.outline, Style.skeleton, ← hm]
    cases ps with
    | nil =>
      cases h
      exact .none
    | cons p ps =>
      cases h
      exact .some ⟨_, rfl, (op.shows_itemSeparator explode).join
        (Shows.replicate fun t ht => Shows.content (hall t ht))⟩
  | mapping es =>
    obtain ⟨ps, hps, h⟩ := bind_eq_ok.mp h
    obtain ⟨hlen, hall⟩ := Style.writeEntries_shows hkey henc (op.shows_entryMid explode) hps
    have hm : ps.length = es.countP (·.2.isPresent) := by
      rw [hlen, Style.presentEntries, List.countP_eq_length_filter]
    simp only [Shape.outline, Style.skeleton, ← hm]
    -- every entry shows `=` or `,`
    exact Shows.dropEmpty (op.shows_itemSeparator explode) hall (by cases explode <;> simp) h
  | scalar w =>
    -- an empty byte string is undefined, any other scalar is cut and encoded
    rw [Style.apply_label_of_scalar hs] at happly
    simp only [Shape.outline, Style.skeleton]
    cases hb : w.isEmptyBytes
    · rw [hb, if_neg Bool.false_ne_true] at happly
      obtain ⟨w', -, h⟩ := bind_eq_ok.mp happly
      obtain ⟨t, ht, h⟩ := bind_eq_ok.mp h
      cases h
      exact .some ⟨t, rfl, Shows.content (henc _ _ ht)⟩
    · rw [hb, if_pos rfl] at happly
      cases happly
      exact .none

/-- `name=` and the encoded items joined by `,`. -/
theorem Style.namedItems_shows (op : Operator) (hn : ∀ c ∈ n, isUnreserved c = true)
    {enc : Value → Except Fault Text} (henc : ∀ v t, enc v = .ok t → Spelled [] t) {xs : List Value}
    (h : (Style.encodeAll enc xs >>= fun ps => Style.named (.text n) (join [44] ps) >>= fun t =>
      pure (some (.text t))) = .ok r) :
    Option.Rel (ShowsText op.delimiters) (some ([61] ++ join [44] (List.replicate xs.length []))) r := by
  obtain ⟨ps, hps, h⟩ := bind_eq_ok.mp h
  obtain ⟨t, ht, h⟩ := bind_eq_ok.mp h
  cases ht
  cases h
  obtain ⟨hlen, hall⟩ := Style.encodeAll_spelled henc hps
  rw [← hlen]
  exact .some ⟨_, rfl, op.shows_named hn (op.shows_comma.join
    (Shows.replicate fun t ht => Shows.content (hall t ht)))⟩

/-- `name=` and the entries written `k,v`, joined by `,`. -/
theorem Style.namedEntries_shows (op : Operator) (hn : ∀ c ∈ n, isUnreserved c = true)
    {key enc : Value → Except Fault Text} (hkey : ∀ k t, key k = .ok t → Spelled [] t)
    (henc : ∀ v t, enc v = .ok t → Spelled [] t) {es : List (Value × Value)}
    (h : (Style.writeEntries key enc [44] es >>= fun ps => Style.named (.text n) (join [44] ps) >>= fun t =>
      pure (some (.text t))) = .ok r) :
    Option.Rel (ShowsText op.delimiters) (some ([61] ++ join [44] (List.replicate es.length [44]))) r := by
  obtain ⟨ps, hps, h⟩ := bind_eq_ok.mp h
  obtain ⟨t, ht, h⟩ := bind_eq_ok.mp h
  cases ht
  cases h
  obtain ⟨hlen, hall⟩ := Style.writeEntries_shows hkey henc op.shows_comma hps
  rw [← hlen]
  exact .some ⟨_, rfl, op.shows_named hn (op.shows_comma.join (Shows.replicate hall))⟩

/-- The entries written `k=v`, joined by the separator. -/
theorem Style.explodedEntries_shows (op : Operator) {key enc : Value → Except Fault Text}
    (hkey : ∀ k t, key k = .ok t → Spelled [] t) (henc : ∀ v t, enc v = .ok t → Spelled [] t)
    {es : List (Value × Value)}
    (h : (Style.writeEntries key enc [61] es >>= fun ps => pure (some (.text (join op.separator ps)))) =
      .ok r) :
    Option.Rel (ShowsText op.delimiters) (some (join (mask op.separator) (List.replicate es.length [61]))) r := by
  obtain ⟨ps, hps, h⟩ := bind_eq_ok.mp h
  cases h
  obtain ⟨hlen, hall⟩ := Style.writeEntries_shows hkey henc op.shows_equals hps
  rw [← hlen]
  exact .some ⟨_, rfl, op.shows_separator.join (Shows.replicate hall)⟩

theorem Style.parameter_shows {op : Operator} (hop : op.keepsEscapes = false)
    (hn : ∀ c ∈ n, isUnreserved c = true) (hs : v.shape = .ok s)
    (h : Style.parameter.apply op (.text n) v explode limit = .ok r) :
    Option.Rel (ShowsText op.delimiters) (Style.parameter.skeleton op.separator explode (s.outline limit)) r := by
  have henc : ∀ v t, op.encode v = .ok t → Spelled [] t := fun _ _ => Operator.encode_spelled hop
  have hkey : ∀ v t, Value.encodeWith op.allowed v = .ok t → Spelled [] t :=
    fun _ _ => Operator.encodeKey_spelled hop
  simp only [Style.apply, hs, ok_bind] at h
  cases s with
  | absent =>
    cases h
    exact .none
  | sequence xs =>
    simp only [Shape.outline, Style.skeleton]
    cases explode
    · -- `name=` and every item, present or not, joined by `,`
      simp only [Bool.false_eq_true, if_false] at h ⊢
      exact Style.namedItems_shows op hn hkey h
    · -- `name=item` for every present item
      simp only [if_true] at h ⊢
      obtain ⟨ps, hps, h⟩ := bind_eq_ok.mp h
      obtain ⟨hlen, hall⟩ := Style.encodeNamed_shows op hn hkey hps
      have hm : ps.length = xs.countP (·.isPresent) := by
        rw [hlen, Style.presentItems, List.countP_eq_length_filter]
      rw [← hm]
      exact Shows.dropEmpty op.shows_separator hall (by simp) h
  | mapping es =>
    simp only [Shape.outline, Style.skeleton]
    -- the entries with an absent value are dropped
    have hm : (Style.presentEntries es).length = es.countP (·.2.isPresent) := by
      rw [Style.presentEntries, List.countP_eq_length_filter]
    rw [← hm]
    cases explode
    · simp only [Bool.false_eq_true, if_false] at h ⊢
      exact Style.namedEntries_shows op hn hkey henc h
    · simp only [if_true] at h ⊢
      exact Style.explodedEntries_shows op hkey henc h
  | scalar w =>
    -- the scalar is cut first, and its truth after the cut decides
    obtain ⟨w', hcut, h⟩ := bind_eq_ok.mp h
    have htc : w.truthyAfterCut limit = w'.truthy := by rw [Value.truthyAfterCut, hcut]
    simp only [Shape.outline, Style.skeleton, htc]
    cases hw : w'.truthy
    · -- an empty scalar leaves the name alone
      rw [hw, if_neg Bool.false_ne_true] at h
      cases h
      exact .some ⟨n, rfl, Shows.content (spelled_of_unreserved hn)⟩
    · rw [hw, if_pos rfl] at h
      obtain ⟨nm, hnm, h⟩ := bind_eq_ok.mp h
      obtain ⟨t, ht, h⟩ := bind_eq_ok.mp h
      cases hnm
      cases h
      exact .some ⟨_, rfl, op.shows_namedValue hn (henc _ _ ht)⟩

theorem Style.query_shows {op : Operator} (hop : op.keepsEscapes = false)
    (hn : ∀ c ∈ n, isUnreserved c = true) (hs : v.shape = .ok s)
    (h : Style.query.apply op (.text n) v explode limit = .ok r) :
    Option.Rel (ShowsText op.delimiters) (Style.query.skeleton op.separator explode (s.outline limit)) r := by
  have henc : ∀ v t, op.encode v = .ok t → Spelled [] t := fun _ _ => Operator.encode_spelled hop
  have hkey : ∀ v t, Value.encodeWith op.allowed v = .ok t → Spelled [] t :=
    fun _ _ => Operator.encodeKey_spelled hop
  simp only [Style.apply, hs, ok_bind] at h
  cases s with
  | absent =>
    cases h
    exact .none
  | sequence xs =>
    simp only [Shape.outline, Style.skeleton]
    dsimp only at h
    cases xs with
    | nil =>
      -- an empty sequence is undefined
      rw [if_pos List.isEmpty_nil] at h
      cases h
      exact .none
    | cons x xs =>
      rw [if_neg (by simp)] at h
      rw [if_neg (by simp)]
      cases explode
      · simp only [Bool.false_eq_true, if_false] at h ⊢
        exact Style.namedItems_shows op hn henc h
      · simp only [if_true] at h ⊢
        obtain ⟨ps, hps, h⟩ := bind_eq_ok.mp h
        cases h
        obtain ⟨hlen, hall⟩ := Style.encodeNamed_shows op hn henc hps
        rw [← hlen]
        exact .some ⟨_, rfl, op.shows_separator.join (Shows.replicate hall)⟩
  | mapping es =>
    simp only [Shape.outline, Style.skeleton]
    dsimp only at h
    cases es with
    | nil =>
      -- an empty mapping is undefined
      rw [if_pos List.isEmpty_nil] at h
      cases h
      exact .none
    | cons e es =>
      rw [if_neg (by simp)] at h
      rw [if_neg (by simp)]
      cases explode
      · simp only [Bool.false_eq_true, if_false] at h ⊢
        exact Style.namedEntries_shows op hn hkey henc h
      · simp only [if_true] at h ⊢
        exact Style.explodedEntries_shows op hkey henc h
  | scalar w =>
    simp only [Shape.outline, Style.skeleton]
    dsimp only at h
    cases hw : w.truthy
    · -- a false scalar is written `name=`
      rw [hw, if_neg Bool.false_ne_true] at h
      obtain ⟨t, ht, h⟩ := bind_eq_ok.mp h
      cases ht
      cases h
      have hshows := (Shows.content (spelled_of_unreserved hn)).append op.shows_equals
      exact .some ⟨_, rfl, hshows⟩
    · -- a true scalar is cut, then written `name=value`
      rw [hw, if_pos rfl] at h
      obtain ⟨w', -, h⟩ := bind_eq_ok.mp h
      obtain ⟨nm, hnm, h⟩ := bind_eq_ok.mp h
      obtain ⟨t, ht, h⟩ := bind_eq_ok.mp h
      cases hnm
      cases h
      exact .some ⟨_, rfl, op.shows_namedValue hn (henc _ _ ht)⟩

/-- A variable's expansion, when it succeeds, shows the skeleton of its value's outline. -/
theorem Style.apply_shows (style : Style) {op : Operator} (hop : op.keepsEscapes = false)
    (hn : ∀ c ∈ n, isUnreserved c = true) (h : style.apply op (.text n) v explode limit = .ok r) :
    Option.Rel (ShowsText op.delimiters) (style.skeleton op.separator explode (v.outline limit)) r := by
  -- a value whose shape cannot be read expands to no result
  cases hs : v.shape with
  | error f => simp [Style.apply, hs, bind, Except.bind] at h
  | ok s =>
    rw [← Value.shape_outline limit hs]
    cases style with
    | string => exact Style.string_shows hop hs h
    | label => exact Style.label_shows hop hs h
    | parameter => exact Style.parameter_shows hop hn hs h
    | query => exact Style.query_shows hop hn hs h

end Styles

/-- Writing the texts of the results keeps what they show. -/
theorem ShowsText.mapM_str {E : Text} {sk : Option Text} {r : Option Value} {o : Option Text}
    (hr : Option.Rel (ShowsText E) sk r) (h : r.mapM Value.str = .ok o) : Option.Rel (Shows E) sk o := by
  cases hr with
  | none =>
    cases h
    exact .none
  | some hw =>
    obtain ⟨t, rfl, ht⟩ := hw
    cases h
    exact .some ht

/-! ## Expressions -/

namespace Expression

/-- The skeletons of the defined variables of an expression, in order. -/
def skeletons (e : Expression) (vars : Entries) : List Text :=
  e.varspecs.filterMap fun vs =>
    (Style.ofOperator e.operator).skeleton e.operator.separator vs.explode
      ((e.valueOf vars vs.name).outline vs.limit)

/-- What the expansion of an expression shows once masked. -/
def skeleton (e : Expression) (vars : Entries) : Text :=
  if (e.skeletons vars).isEmpty then []
  else mask e.operator.first ++ join (mask e.operator.separator) (e.skeletons vars)

section

variable (e : Expression) (hop : e.operator.keepsEscapes = false)
  (hnames : ∀ vs ∈ e.varspecs, ∀ c ∈ vs.name, isUnreserved c = true)
include hop hnames

theorem expansions_shows {vars : Entries} {parts : List Text} (h : e.expansions vars = .ok parts) :
    List.Forall₂ (Shows e.operator.delimiters) (e.skeletons vars) parts := by
  refine forall₂_of_filterMapM_eq_ok h fun vs hvs o ho => ?_
  split at ho
  next hnone =>
    -- an absent value is undefined
    cases ho
    rw [hnone]
    exact .none
  next =>
    -- any other value is expanded by the operator's style, then written as text
    obtain ⟨r, hr, ho⟩ := bind_eq_ok.mp ho
    exact ShowsText.mapM_str (Style.apply_shows _ hop (hnames vs hvs) hr) ho

theorem expand_shows {vars : Entries} {t : Text} (h : e.expand vars = .ok t) :
    Shows e.operator.delimiters (e.skeleton vars) t := by
  obtain ⟨parts, hparts, h⟩ := bind_eq_ok.mp h
  cases h
  have hrel := e.expansions_shows hop hnames hparts
  -- the expansion is empty exactly when no variable is defined
  have hempty : (e.skeletons vars).isEmpty = parts.isEmpty := by
    generalize e.skeletons vars = sk at hrel
    cases hrel <;> rfl
  rw [skeleton, hempty]
  split
  · exact ⟨.nil, rfl⟩
  · -- else it is the first character and the expansions joined by the separator
    have hfirst : Shows e.operator.delimiters (mask e.operator.first) e.operator.first :=
      Shows.delim fun c hc => ⟨by cases h : e.operator <;> simp_all [Operator.first, Operator.symbol],
        by simp [Operator.delimiters, hc]⟩
    exact hfirst.append (e.operator.shows_separator.join hrel)

end

/-- The skeleton of an expansion is read from the outlines of the bound values. -/
theorem skeleton_congr (e : Expression) {vars vars' : Entries}
    (h : ∀ vs ∈ e.varspecs, (vars.lookup vs.name).outline vs.limit = (vars'.lookup vs.name).outline vs.limit) :
    e.skeleton vars = e.skeleton vars' := by
  have hs : e.skeletons vars = e.skeletons vars' :=
    List.filterMap_congr fun vs hvs => by rw [e.outline_valueOf (h vs hvs)]
  rw [skeleton, skeleton, hs]

end Expression

/-- Away from `+` and `#`, and with names of unreserved characters, an expansion is spelled with
unreserved characters, escape triplets with upper-case digits and the operator's delimiters; and
once its unreserved characters and triplets are removed, what is left depends only on the
outlines of the bound values. -/
theorem expand_spelled_masked_by_outline (e : Expression) (hop : e.operator.keepsEscapes = false)
    (hnames : ∀ vs ∈ e.varspecs, ∀ c ∈ vs.name, isUnreserved c = true) {vars : Entries} {t : Text}
    (ht : e.expand vars = .ok t) :
    Spelled e.operator.delimiters t ∧
      ∀ (vars' : Entries) (t' : Text),
        (∀ vs ∈ e.varspecs, (vars.lookup vs.name).outline vs.limit = (vars'.lookup vs.name).outline vs.limit) →
        e.expand vars' = .ok t' → mask t' = mask t := by
  have hs := e.expand_shows hop hnames ht
  refine ⟨hs.spelled, fun vars' t' hsame ht' => ?_⟩
  rw [(e.expand_shows hop hnames ht').mask_eq, hs.mask_eq, e.skeleton_congr hsame]

/-- `{;x,y*}`. -/
private def pathParamsXExplodedY : Expression :=
  ⟨ofString ";x,y*", .pathParameter, [⟨ofString "x", false, none⟩, ⟨ofString "y", true, none⟩], []⟩

/-- `x` bound to `a b`, `y` to `["1", None, 2]`. -/
private def textAndList : Entries :=
  [(.text (ofString "x"), .text (ofString "a b")),
    (.text (ofString "y"), .list [.text (ofString "1"), .none, .int 2])]

theorem expand_spelled_masked_by_outline_path_parameters :
    pathParamsXExplodedY.operator.keepsEscapes = false ∧
      (∀ vs ∈ pathParamsXExplodedY.varspecs, ∀ c ∈ vs.name, isUnreserved c = true) ∧
      pathParamsXExplodedY.expand textAndList = .ok (ofString ";x=a%20b;y=1;y=2") ∧
      Spelled pathParamsXExplodedY.operator.delimiters (ofString ";x=a%20b;y=1;y=2") ∧
      ∀ (vars' : Entries) (t' : Text),
        (∀ vs ∈ pathParamsXExplodedY.varspecs,
          (textAndList.lookup vs.name).outline vs.limit = (vars'.lookup vs.name).outline vs.limit) →
        pathParamsXExplodedY.expand vars' = .ok t' → mask t' = mask (ofString ";x=a%20b;y=1;y=2") := by
  have hop : pathParamsXExplodedY.operator.keepsEscapes = false := rfl
  have hnames : ∀ vs ∈ pathParamsXExplodedY.varspecs, ∀ c ∈ vs.name, isUnreserved c = true := by decide
  have ht : pathParamsXExplodedY.expand textAndList = .ok (ofString ";x=a%20b;y=1;y=2") := rfl
  exact ⟨hop, hnames, ht, expand_spelled_masked_by_outline pathParamsXExplodedY hop hnames ht⟩

/-- The empty byte string takes a variable's default and the empty text does not, so two
bindings that are both empty and false expand to texts that differ once masked: `{;x=d}` gives
`;x=d` for the one and `;x` for the other. -/
theorem default_separates_empty_scalars :
    (Value.bytes []).truthy = false ∧ (Value.text []).truthy = false ∧
      (Expression.parse (ofString ";x=d") >>= fun e => e.expand [(.text (ofString "x"), .bytes [])]) =
        .ok (ofString ";x=d") ∧
      (Expression.parse (ofString ";x=d") >>= fun e => e.expand [(.text (ofString "x"), .text [])]) =
        .ok (ofString ";x") ∧
      mask (ofString ";x=d") ≠ mask (ofString ";x") :=
  ⟨rfl, rfl, rfl, rfl, by decide⟩

end Rfc6570
