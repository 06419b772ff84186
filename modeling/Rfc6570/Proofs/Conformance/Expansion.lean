import Rfc6570.Expression.Expand
import Rfc6570.Proofs.Conformance.Parsing
import Rfc6570.Proofs.Conformance.Order

/-!
# Rfc6570 — expansion measured against RFC 6570, Appendix A

An expression of Appendix A is written out (`Reference.Expression.render`), read by the
library, and expanded under a dictionary; the result is compared with the expansion of
Appendix A (`Reference.Expression.expand`). A value of the dictionary stands for a value of
Appendix A (`Represents`): a text for a string, a list of texts for a list, a non-empty list of
pairs for the associative array of its pairs in order, and a dictionary of texts for the
associative array of its entries by ascending key.

The two expansions agree on the values that `Covered` allows. Beyond them the library departs
from Appendix A: under `+` and `#` it keeps a text holding a pct-encoded triplet whole instead
of encoding it character by character; under exploded `;`, `?` and `&` it encodes the keys of
an associative array as values, not as literals; it expands an empty list or associative array
under the simple, `+`, `#` and `;` operators, which Appendix A counts as undefined; and under an
exploded `;` it writes `name=` for an empty member or value, where Appendix A writes `name`.

The proof takes each variable in turn (`apply_represents`): the value's shape, then its
encoding by the operator, for every operator and both settings of the explode modifier.

## Results

* `expand_conforms` — reading and expanding an expression gives Appendix A's expansion.
* `reserved_expansion_keeps_triplet_text` — `{+x}` with `x` bound to `%41 `, where they part.
-/

namespace Rfc6570

open Reference Text

/-! ## Values -/

/-- A value of the library standing for a value of Appendix A: a text for a string, a list of
texts for a list, a non-empty list of pairs of texts for the associative array of its pairs in
order, and a dictionary of texts for the associative array of its entries by ascending key. -/
inductive Represents : Value → Reference.Value → Prop
  | string (s : List Char) : Represents (.text (ofChars s)) (.string s)
  | list (items : List (List Char)) :
      Represents (.list (items.map fun m => .text (ofChars m))) (.list items)
  | pairs (ps : List (List Char × List Char)) (nonempty : ps ≠ []) :
      Represents (.list (ps.map fun p => .tuple [.text (ofChars p.1), .text (ofChars p.2)]))
        (.assoc ps)
  | dict (ps qs : List (List Char × List Char)) (perm : qs.Perm ps)
      (ascending : qs.Pairwise fun a b => a.1 < b.1) :
      Represents (.dict (ps.map textPair)) (.assoc qs)

/-- What a name is bound to: nothing where Appendix A leaves it undefined, else a value standing
for its value. -/
inductive Bound : Value → Option Reference.Value → Prop
  | undefined : Bound .none none
  | defined {v : Value} {r : Reference.Value} : Represents v r → Bound v (some r)

/-- What the expansion styles see of a value of Appendix A. -/
def Reference.Value.shape : Reference.Value → Shape
  | .string s => .scalar (.text (ofChars s))
  | .list items => .sequence (items.map fun m => .text (ofChars m))
  | .assoc ps => .mapping (ps.map textPair)

theorem mapM_pair? (ps : List (List Char × List Char)) :
    (ps.map fun p => Value.tuple [.text (ofChars p.1), .text (ofChars p.2)]).mapM Value.pair? =
      some (ps.map textPair) := by
  induction ps with
  | nil => rfl
  | cons p ps ih => simp [Value.pair?, ih, textPair]

/-- A value has the shape of the value of Appendix A it stands for. -/
theorem Represents.shape {v : Value} {r : Reference.Value} (h : Represents v r) :
    v.shape = .ok r.shape := by
  cases h with
  | string s => rfl
  | list items =>
    -- a text is no pair, so a list of texts is a sequence
    cases items with
    | nil => rfl
    | cons m items => simp [Value.shape, Value.pairs?, Value.pair?, Reference.Value.shape]
  | pairs ps hne =>
    obtain ⟨p, ps, rfl⟩ := List.exists_cons_of_ne_nil hne
    have := mapM_pair? (p :: ps)
    simp only [List.map_cons] at this
    simp only [Value.shape, Value.pairs?, List.map_cons, this, Reference.Value.shape]
  | dict ps qs hperm hasc =>
    simp only [Value.shape, Value.pairs?, sortBy_textPairs hperm hasc, Reference.Value.shape]
    rfl

/-! ## The bindings the library expands as Appendix A does -/

/-- Under `+` and `#` a text holding a pct-encoded triplet is kept whole, which is Appendix A's
encoding of it only when the text is a literal already. -/
def Reference.Op.TripletSafe (op : Op) (s : List Char) : Prop :=
  op.row.allowR = true → hasTriplet s = true → isLiteralSafe s = true

/-- The operators whose expansion counts an empty list or associative array as undefined. -/
def Reference.Op.dropsEmpty : Op → Bool
  | .label | .pathSegment | .query | .queryContinuation => true
  | _ => false

/-- The values a variable `vs` of an expression with operator `op` may be bound to for the
library's expansion to be Appendix A's: a prefix modifier only on a string; under `+` and `#`,
a string, member, key or value holding a triplet already a literal; an empty list or
associative array only where the library counts it as undefined; under an exploded `;`, no
empty member or value; and under exploded `;`, `?` and `&`, keys that are the same as literals
and as values, with no reserved character and no triplet. -/
def Covered (op : Op) (vs : Reference.Varspec) : Reference.Value → Prop
  | .string s => op.TripletSafe (vs.modifier.cut s)
  | .list items =>
    (items = [] → op.dropsEmpty = true ∨ (op = .pathParameter ∧ vs.explode)) ∧
      ∀ m ∈ items, op.TripletSafe m ∧ (op = .pathParameter → vs.explode = true → m ≠ [])
  | .assoc ps =>
    (ps = [] → op.dropsEmpty = true) ∧
      ∀ p ∈ ps, op.TripletSafe p.1 ∧ op.TripletSafe p.2 ∧
        (op = .pathParameter → vs.explode = true → p.2 ≠ []) ∧
        (op.row.named = true → vs.explode = true →
          (∀ c ∈ p.1, isReserved c = false) ∧ hasTriplet p.1 = false)

/-! ## Encoding texts -/

theorem Reference.Op.keepsEscapes_toOperator (op : Op) : op.toOperator.keepsEscapes = op.row.allowR := by
  cases op <;> rfl

theorem Reference.Op.separator_toOperator (op : Op) : op.toOperator.separator = ofChars op.row.sep := by
  cases op <;> rfl

theorem Reference.Op.first_toOperator (op : Op) : op.toOperator.first = ofChars op.row.first := by
  cases op <;> rfl

theorem Reference.Op.encode_text {op : Op} {s : List Char} (h : op.TripletSafe s) :
    op.toOperator.encode (.text (ofChars s)) = .ok (ofChars (Reference.encode op.row.allowR s)) := by
  rw [Operator.encode_ofChars op.toOperator s (by rw [Op.keepsEscapes_toOperator]; exact h),
    Op.keepsEscapes_toOperator]

theorem encodeWith_nil_text (s : List Char) :
    Value.encodeWith [] (.text (ofChars s)) = .ok (ofChars (Reference.encode false s)) := by
  rw [encode_eq_flatMap false (.inl rfl)]
  exact encodeWith_ofChars false s

theorem truthy_text (t : Text) : (Value.text t).truthy = !t.isEmpty := rfl

theorem Reference.Modifier.cut_eq_nil (m : Modifier) (s : List Char) : m.cut s = [] ↔ s = [] := by
  cases m with
  | maxLength n hpos _ =>
    cases s with
    | nil => simp [Modifier.cut]
    | cons c s =>
      obtain ⟨k, rfl⟩ := Nat.exists_eq_add_of_lt hpos
      simp [Modifier.cut]
  | _ => rfl

theorem ofChars_eq_nil (s : List Char) : ofChars s = [] ↔ s = [] := List.map_eq_nil_iff

/-- A prefix modifier cuts a text as Appendix A cuts a string. -/
theorem cut_limit (vs : Reference.Varspec) (s : List Char) :
    Value.cut (.text (ofChars s)) vs.toModel.limit = .ok (.text (ofChars (vs.modifier.cut s))) := by
  obtain ⟨name, hname, m⟩ := vs
  cases m with
  | maxLength n hpos _ =>
    simp [Value.cut, Rfc6570.Varspec.limit, Reference.Varspec.toModel, Value.truthy,
      Value.sliceBound?, Value.sliceEnd, Modifier.cut, ofChars, List.map_take, Nat.ne_of_gt hpos]
  | _ => rfl

theorem join_eq_intercalate (sep : Text) : ∀ ts : List Text, join sep ts = sep.intercalate ts
  | [] => rfl
  | [t] => by simp
  | t :: u :: ts => by
    rw [join_cons_cons, join_eq_intercalate sep (u :: ts), List.intercalate_cons_cons]

theorem presentItems_texts (items : List (List Char)) :
    Style.presentItems (items.map fun m => .text (ofChars m)) = items.map fun m => .text (ofChars m) :=
  List.filter_eq_self.mpr fun _ hx => by
    obtain ⟨m, -, rfl⟩ := List.mem_map.mp hx
    rfl

theorem presentEntries_textPairs (ps : List (List Char × List Char)) :
    Style.presentEntries (ps.map textPair) = ps.map textPair :=
  List.filter_eq_self.mpr fun _ hx => by
    obtain ⟨p, -, rfl⟩ := List.mem_map.mp hx
    rfl

theorem encodeAll_texts {enc : Value → Except Fault Text} {f : List Char → List Char}
    {items : List (List Char)} (h : ∀ m ∈ items, enc (.text (ofChars m)) = .ok (ofChars (f m))) :
    Style.encodeAll enc (items.map fun m => .text (ofChars m)) = .ok (items.map fun m => ofChars (f m)) :=
  mapM_map_eq_ok h

theorem encodeNamed_texts {enc : Value → Except Fault Text} {f : List Char → List Char}
    (n : Text) {items : List (List Char)}
    (h : ∀ m ∈ items, enc (.text (ofChars m)) = .ok (ofChars (f m))) :
    Style.encodeNamed (.text n) enc (items.map fun m => .text (ofChars m)) =
      .ok (items.map fun m => n ++ [61] ++ ofChars (f m)) :=
  mapM_map_eq_ok fun m hm => by simp only [Value.str, ok_bind, h m hm]; rfl

theorem writeEntries_textPairs {key enc : Value → Except Fault Text} {fk fv : List Char → List Char}
    (mid : Text) {ps : List (List Char × List Char)}
    (hk : ∀ p ∈ ps, key (.text (ofChars p.1)) = .ok (ofChars (fk p.1)))
    (hv : ∀ p ∈ ps, enc (.text (ofChars p.2)) = .ok (ofChars (fv p.2))) :
    Style.writeEntries key enc mid (ps.map textPair) =
      .ok (ps.map fun p => ofChars (fk p.1) ++ mid ++ ofChars (fv p.2)) :=
  mapM_map_eq_ok fun p hp => by simp only [textPair, hk p hp, hv p hp, ok_bind]; rfl

theorem named_text (n t : Text) : Style.named (.text n) t = .ok (n ++ [61] ++ t) := rfl

theorem apply_string (op : Op) (vs : Reference.Varspec) (s : List Char)
    (hc : op.TripletSafe (vs.modifier.cut s)) :
    ((Style.ofOperator op.toOperator).apply op.toOperator (.text (ofChars vs.name))
        (.text (ofChars s)) vs.explode vs.toModel.limit >>= fun o => o.mapM Value.str) =
      .ok ((vs.expand op.row (.string s)).map ofChars) := by
  have hc' : op.toOperator.keepsEscapes = true → hasTriplet (vs.modifier.cut s) = true →
      isLiteralSafe (vs.modifier.cut s) = true := by
    rw [Op.keepsEscapes_toOperator]
    exact hc
  cases op <;> simp only [Style.apply, (Represents.string s).shape, Reference.Value.shape, ok_bind,
    Style.ofOperator, Op.toOperator] at hc' ⊢ <;>
  simp [ok_bind, truthy_text, cut_limit, Operator.encode_ofChars _ _ hc', Value.str, Value.plusText,
    Reference.Varspec.expand, Op.row, literal_varname vs.name_ok, Modifier.cut_eq_nil, ofChars_eq_nil,
    Operator.keepsEscapes] <;>
  split <;> simp [ok_bind, Value.str, *]

theorem Reference.Varspec.expand_list {r : Row} (vs : Reference.Varspec) {items : List (List Char)}
    (h : items ≠ []) :
    vs.expand r (.list items) = some (if vs.explode then
      if r.named then
        r.sep.intercalate (items.map fun m =>
          literal vs.name ++ (if m.isEmpty then r.ifemp else '=' :: encode r.allowR m))
      else r.sep.intercalate (items.map (encode r.allowR))
    else
      (if r.named then literal vs.name ++ ['='] else []) ++
        [','].intercalate (items.map (encode r.allowR))) := by
  obtain ⟨m, items, rfl⟩ := List.exists_cons_of_ne_nil h
  rfl

theorem intercalate_ne_nil {α : Type} (sep : List α) {ls : List (List α)} (hne : ls ≠ [])
    (h : ∀ l ∈ ls, l ≠ []) : sep.intercalate ls ≠ [] := by
  obtain ⟨l, ls, rfl⟩ := List.exists_cons_of_ne_nil hne
  obtain ⟨a, l, rfl⟩ := List.exists_cons_of_ne_nil (h _ List.mem_cons_self)
  rw [List.intercalate_cons_cons_left]
  exact List.cons_ne_nil _ _

/-- An empty member or value under `?` and `&` gives `=`, as encoding nothing after `=` does. -/
theorem ifemp_query (b : Bool) (x : List Char) :
    (if x = [] then ['='] else '=' :: encode b x) = '=' :: encode b x := by
  split
  · subst x
    rfl
  · rfl

theorem apply_list (op : Op) (vs : Reference.Varspec) (items : List (List Char))
    (hc : Covered op vs (.list items)) :
    ((Style.ofOperator op.toOperator).apply op.toOperator (.text (ofChars vs.name))
        (.list (items.map fun m => .text (ofChars m))) vs.explode vs.toModel.limit >>=
        fun o => o.mapM Value.str) =
      .ok ((vs.expand op.row (.list items)).map ofChars) := by
  obtain ⟨hempty, hitems⟩ := hc
  have hshape := (Represents.list items).shape
  rcases eq_or_ne items [] with rfl | hne
  · -- an empty list is undefined where the library drops it, and under an exploded `;`
    have hnil : (Value.list []).shape = .ok (.sequence []) := rfl
    cases op <;> simp [Op.dropsEmpty] at hempty <;>
    simp [Style.apply, hnil, ok_bind, Style.ofOperator, Op.toOperator, Reference.Varspec.expand, hempty,
      Style.encodeNamed, Style.presentItems, Operator.separator] <;> rfl
  have henc : ∀ m ∈ items, op.toOperator.encode (.text (ofChars m)) =
      .ok (ofChars (Reference.encode op.row.allowR m)) := fun m hm => Op.encode_text (hitems m hm).1
  rw [Reference.Varspec.expand_list vs hne]
  cases op <;> simp only [Style.apply, hshape, Reference.Value.shape, ok_bind,
    Style.ofOperator, Op.toOperator, Op.row] at henc hitems ⊢ <;>
  cases hx : vs.explode <;>
  simp [ok_bind, encodeAll_texts henc, encodeNamed_texts _ henc, presentItems_texts, named_text,
    encodeAll_texts (fun m _ => encodeWith_nil_text m), encodeNamed_texts _ (fun m _ => encodeWith_nil_text m),
    join_eq_intercalate, literal_varname vs.name_ok, Operator.separator, hne,
    Operator.allowed, Value.str, Text.ofChars_intercalate, Function.comp_def, ifemp_query]
  case inr.pathParameter.true =>
    -- no member is empty, so each is written `name=value` and the whole is not empty
    have hm : ∀ m ∈ items, m ≠ [] := fun m hm => (hitems m hm).2 trivial hx
    have hmap : items.map (fun m => ofChars vs.name ++ ofChars (if m = [] then [] else
        '=' :: encode false m)) = items.map fun m => ofChars vs.name ++ 61 :: ofChars (encode false m) :=
      List.map_congr_left fun m hm' => by rw [if_neg (hm m hm')]; rfl
    rw [hmap, if_neg (intercalate_ne_nil _ (by simpa using hne) (by simp))]
    rfl

theorem Reference.Varspec.expand_assoc {r : Row} (vs : Reference.Varspec)
    {ps : List (List Char × List Char)} (h : ps ≠ []) :
    vs.expand r (.assoc ps) = some (if vs.explode then
      if r.named then
        r.sep.intercalate (ps.map fun p =>
          literal p.1 ++ (if p.2.isEmpty then r.ifemp else '=' :: encode r.allowR p.2))
      else r.sep.intercalate (ps.map fun p => encode r.allowR p.1 ++ '=' :: encode r.allowR p.2)
    else
      (if r.named then literal vs.name ++ ['='] else []) ++
        [','].intercalate (ps.map fun p => encode r.allowR p.1 ++ ',' :: encode r.allowR p.2)) := by
  obtain ⟨p, ps, rfl⟩ := List.exists_cons_of_ne_nil h
  rfl

theorem apply_assoc (op : Op) (vs : Reference.Varspec) {v : Value}
    {ps : List (List Char × List Char)} (hv : Represents v (.assoc ps))
    (hc : Covered op vs (.assoc ps)) :
    ((Style.ofOperator op.toOperator).apply op.toOperator (.text (ofChars vs.name)) v vs.explode
        vs.toModel.limit >>= fun o => o.mapM Value.str) =
      .ok ((vs.expand op.row (.assoc ps)).map ofChars) := by
  obtain ⟨hempty, hps⟩ := hc
  have hshape := hv.shape
  rcases eq_or_ne ps [] with rfl | hne
  · -- an empty associative array is undefined where the library drops it
    cases op <;> simp [Op.dropsEmpty] at hempty <;>
    simp [Style.apply, hshape, Reference.Value.shape, ok_bind, Style.ofOperator, Op.toOperator,
      Reference.Varspec.expand, Style.writeEntries, Style.presentEntries, Operator.separator] <;> rfl
  have hkey : ∀ p ∈ ps, op.toOperator.encode (.text (ofChars p.1)) =
      .ok (ofChars (Reference.encode op.row.allowR p.1)) := fun p hp => Op.encode_text (hps p hp).1
  have hval : ∀ p ∈ ps, op.toOperator.encode (.text (ofChars p.2)) =
      .ok (ofChars (Reference.encode op.row.allowR p.2)) := fun p hp => Op.encode_text (hps p hp).2.1
  have hplain : ∀ p ∈ ps, Value.encodeWith [] (.text (ofChars p.1)) =
      .ok (ofChars (Reference.encode false p.1)) := fun p _ => encodeWith_nil_text p.1
  -- under exploded `;`, `?` and `&` the keys are literals, which the library writes as values
  have hlit : ∀ p ∈ ps, op.row.named = true → vs.explode = true →
      literal p.1 = Reference.encode false p.1 :=
    fun p hp hn hx => literal_eq_encode ((hps p hp).2.2.2 hn hx).1 ((hps p hp).2.2.2 hn hx).2
  have hfull : ∀ p ∈ ps, op = .pathParameter → vs.explode = true → p.2 ≠ [] :=
    fun p hp => (hps p hp).2.2.1
  rw [Reference.Varspec.expand_assoc vs hne]
  cases op <;> simp only [Style.apply, hshape, Reference.Value.shape, ok_bind,
    Style.ofOperator, Op.toOperator, Op.row] at hkey hval hps ⊢ <;>
  cases hx : vs.explode <;>
  simp [ok_bind, writeEntries_textPairs _ hkey hval, writeEntries_textPairs _ hplain hval,
    presentEntries_textPairs, named_text, join_eq_intercalate, literal_varname vs.name_ok,
    Operator.separator, hne, Operator.allowed, Value.str, Text.ofChars_intercalate, Function.comp_def,
    ifemp_query]
  case inr.label.false | inr.label.true | inr.pathSegment.false | inr.pathSegment.true =>
    -- every entry holds `=` or `,`, so the expansion is not empty
    rw [if_neg (intercalate_ne_nil _ (by simpa using hne) fun l hl => by
      obtain ⟨p, -, rfl⟩ := List.mem_map.mp hl
      simp)]
    rfl
  case inr.query.true | inr.queryContinuation.true =>
    congr 1
    exact List.map_congr_left fun p hp => by rw [hlit p hp rfl hx]
  case inr.pathParameter.true =>
    congr 1
    exact List.map_congr_left fun p hp => by rw [hlit p hp rfl hx, if_neg (hfull p hp rfl hx)]; rfl

/-- One variable bound to a value standing for `r` expands as Appendix A expands it. -/
theorem apply_represents (op : Op) (vs : Reference.Varspec) {v : Value} {r : Reference.Value}
    (hv : Represents v r) (hc : Covered op vs r) :
    ((Style.ofOperator op.toOperator).apply op.toOperator (.text (ofChars vs.name)) v vs.explode
        vs.toModel.limit >>= fun o => o.mapM Value.str) =
      .ok ((vs.expand op.row r).map ofChars) := by
  cases hv with
  | string s => exact apply_string op vs s hc
  | list items => exact apply_list op vs items hc
  | pairs ps hne => exact apply_assoc op vs (.pairs ps hne) hc
  | dict ps qs hperm hasc => exact apply_assoc op vs (.dict ps qs hperm hasc) hc

/-! ## Expressions -/

/-- With no defaults, a variable takes the value it is bound to. -/
theorem Expression.valueOf_of_defaults_nil {e : Expression} (h : e.defaults = []) (vars : Entries)
    (name : Text) : e.valueOf vars name = (vars.find? (.text name)).getD .none := by
  simp [Expression.valueOf, Expression.defaultOf?, h]

/-- The expansions of the variables of a read expression are Appendix A's, in order. -/
theorem expansions_render (E : Reference.Expression) (vars : Entries)
    (d : List Char → Option Reference.Value)
    (hbound : ∀ vs ∈ E.varspecs, Bound ((vars.find? (.text (ofChars vs.name))).getD .none) (d vs.name))
    (hcovered : ∀ vs ∈ E.varspecs, ∀ r, d vs.name = some r → Covered E.op vs r) :
    Expression.expansions ⟨ofChars E.render, E.op.toOperator, E.varspecs.map (·.toModel), []⟩ vars =
      .ok ((E.varspecs.filterMap fun vs => (d vs.name).bind (vs.expand E.op.row)).map ofChars) := by
  rw [List.map_filterMap, Expression.expansions]
  refine filterMapM_map_eq_ok fun vs hvs => ?_
  rw [Expression.valueOf_of_defaults_nil rfl]
  dsimp only [Reference.Varspec.toModel]
  -- the variable is undefined, or bound to a value standing for its value
  have hb := hbound vs hvs
  have hc := hcovered vs hvs
  generalize (vars.find? (.text (ofChars vs.name))).getD .none = v at hb ⊢
  generalize d vs.name = r at hb hc ⊢
  cases hb with
  | undefined => rfl
  | defined hr =>
    have := apply_represents E.op vs hr (hc _ rfl)
    cases hr <;> exact this

/-- **Expansion follows RFC 6570, Appendix A.** Reading the text of a level-4 expression and
expanding it under a dictionary gives Appendix A's expansion of the expression, when the
dictionary binds each of its names to nothing or to a value standing for what `d` binds the
name to, and each value is one on which the library keeps to Appendix A (`Covered`). -/
theorem expand_conforms (E : Reference.Expression) (vars : Entries)
    (d : List Char → Option Reference.Value)
    (hbound : ∀ vs ∈ E.varspecs, Bound ((vars.find? (.text (ofChars vs.name))).getD .none) (d vs.name))
    (hcovered : ∀ vs ∈ E.varspecs, ∀ r, d vs.name = some r → Covered E.op vs r) :
    (Expression.parse (ofChars E.render) >>= fun e => e.expand vars) = .ok (ofChars (E.expand d)) := by
  rw [Expression.parse_render, ok_bind, Expression.expand, expansions_render E vars d hbound hcovered,
    ok_bind]
  simp only [Op.first_toOperator, Op.separator_toOperator, join_eq_intercalate, Reference.Expression.expand]
  generalize E.varspecs.filterMap (fun vs => (d vs.name).bind (vs.expand E.op.row)) = parts
  -- no variable is defined, or the expansions follow the operator's first text and separator
  cases parts with
  | nil => rfl
  | cons p parts =>
    simp only [List.map_cons, List.isEmpty_cons, Bool.false_eq_true, if_false, ofChars_append,
      Text.ofChars_intercalate]
    rfl

/-- `{;x,y}`. -/
private def pathParamsXY : Reference.Expression :=
  ⟨.pathParameter, [⟨['x'], .single (.plain rfl), .none⟩, ⟨['y'], .single (.plain rfl), .none⟩],
    List.cons_ne_nil _ _⟩

/-- `x` bound to `1`, `y` undefined. -/
private def xIsOne (n : List Char) : Option Reference.Value :=
  if n = ['x'] then some (.string ['1']) else none

/-- `x` bound to `1`. -/
private def xIsOneEntries : Entries := [(.text (ofChars ['x']), .text (ofChars ['1']))]

theorem expand_conforms_path_parameters :
    (∀ vs ∈ pathParamsXY.varspecs,
      Bound ((xIsOneEntries.find? (.text (ofChars vs.name))).getD .none) (xIsOne vs.name)) ∧
      (∀ vs ∈ pathParamsXY.varspecs, ∀ r, xIsOne vs.name = some r → Covered pathParamsXY.op vs r) ∧
      (Expression.parse (ofChars pathParamsXY.render) >>= fun e => e.expand xIsOneEntries) =
        .ok (ofChars (pathParamsXY.expand xIsOne)) := by
  have hbound : ∀ vs ∈ pathParamsXY.varspecs,
      Bound ((xIsOneEntries.find? (.text (ofChars vs.name))).getD .none) (xIsOne vs.name) := by
    intro vs hvs
    simp only [pathParamsXY, List.mem_cons, List.not_mem_nil, or_false] at hvs
    rcases hvs with rfl | rfl
    · exact .defined (.string ['1'])
    · exact .undefined
  have hcovered : ∀ vs ∈ pathParamsXY.varspecs, ∀ r, xIsOne vs.name = some r →
      Covered pathParamsXY.op vs r := by
    intro vs hvs r hr
    simp only [pathParamsXY, List.mem_cons, List.not_mem_nil, or_false] at hvs
    rcases hvs with rfl | rfl
    · cases hr
      intro h
      cases h
    · cases hr
  exact ⟨hbound, hcovered, expand_conforms _ _ _ hbound hcovered⟩

/-- `{+x}`. -/
private def reservedX : Reference.Expression :=
  ⟨.reserved, [⟨['x'], .single (.plain rfl), .none⟩], List.cons_ne_nil _ _⟩

/-- Reserved expansion keeps a text holding a triplet whole: `{+x}` with `x` bound to `%41 `
expands to `%41 `, where Appendix A encodes the space as `%20`. -/
theorem reserved_expansion_keeps_triplet_text :
    (Expression.parse (ofChars reservedX.render) >>= fun e =>
        e.expand [(.text (ofChars ['x']), .text (ofChars ['%', '4', '1', ' ']))]) =
      .ok (ofChars ['%', '4', '1', ' ']) ∧
    reservedX.expand (fun n => if n = ['x'] then some (.string ['%', '4', '1', ' ']) else none) =
      ['%', '4', '1', '%', '2', '0'] :=
  ⟨rfl, by decide⟩

end Rfc6570
