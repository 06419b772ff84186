import Rfc6570.Proofs.Skeleton

/-!
# Rfc6570 — rebinding one variable

An expansion reads each variable through one lookup, so rebinding a single variable changes
only what that variable contributes (`Expression.expand_rebind`). This module compares a
variable bound to a number or a byte string with the same variable bound to its text.

A number is written as its plain text and a byte string as the text its UTF-8 bytes encode,
so most styles cannot tell the value from its text (`Style.apply_as_text`). Two places can:
the path-parameter and query styles test the value's truth, which is false for a zero that
its text `0` does not share, and the label style drops an empty byte string where it keeps
the empty text.

## Results

* `Expression.expand_congr`   — an expansion reads each variable only through what it
  contributes.
* `Expression.expand_rebind`  — rebinding one variable to a value that contributes the same
  leaves the expansion as it was.
* `Style.apply_as_text`       — a number or a byte string expands as its text unless its style
  tests what the text does not share.
* `expand_rebound_to_text`    — rebinding a variable from a number or a byte string to its text
  leaves the expansion as it was, where the styles do not tell the two apart.
* `zero_query_differs_from_its_text` — the query style writes `0` as a false value.
-/

namespace Rfc6570

open Text

namespace Expression

/-- What a variable contributes to an expansion of `e` when it takes the value `v`: nothing
when `v` is absent, else its style's expansion written as text. -/
def contribution (e : Expression) (vs : Varspec) (v : Value) : Except Fault (Option Text) :=
  match v with
  | .none => .ok Option.none
  | v => do
    let r ← (Style.ofOperator e.operator).apply e.operator (.text vs.name) v vs.explode vs.limit
    r.mapM Value.str

theorem expansions_eq_contributions (e : Expression) (vars : Entries) :
    e.expansions vars = e.varspecs.filterMapM fun vs => e.contribution vs (e.valueOf vars vs.name) :=
  rfl

/-- An expansion reads each variable only through what it contributes. -/
theorem expand_congr (e : Expression) {vars vars' : Entries}
    (h : ∀ vs ∈ e.varspecs,
      e.contribution vs (e.valueOf vars' vs.name) = e.contribution vs (e.valueOf vars vs.name)) :
    e.expand vars' = e.expand vars := by
  unfold expand
  rw [expansions_eq_contributions, expansions_eq_contributions, filterMapM_congr h]

/-- A present value contributes its style's expansion. -/
theorem contribution_of_isPresent (e : Expression) (vs : Varspec) {v : Value}
    (hv : v.isPresent = true) :
    e.contribution vs v = (do
      let r ← (Style.ofOperator e.operator).apply e.operator (.text vs.name) v vs.explode vs.limit
      r.mapM Value.str) := by
  cases v with
  | none => cases hv
  | _ => rfl

/-- A name that looks up the same binding takes the same value. -/
theorem valueOf_congr (e : Expression) {vars vars' : Entries} {name : Text}
    (h : vars'.lookup name = vars.lookup name) : e.valueOf vars' name = e.valueOf vars name := by
  rw [valueOf_eq, valueOf_eq, h]

/-- A name without a default takes its binding. -/
theorem valueOf_of_defaultOf? (e : Expression) (vars : Entries) {name : Text}
    (h : e.defaultOf? name = Option.none) : e.valueOf vars name = vars.lookup name := by
  rw [valueOf_eq, h]
  split <;> rfl

/-- **Rebinding one variable**: when every other name looks up the same binding, and each
varspec of the rebound name contributes the same under both bindings, the expansion is the
same. -/
theorem expand_rebind (e : Expression) {vars vars' : Entries} {x : Text}
    (hother : ∀ y, y ≠ x → vars'.lookup y = vars.lookup y)
    (hx : ∀ vs ∈ e.varspecs, vs.name = x →
      e.contribution vs (e.valueOf vars' x) = e.contribution vs (e.valueOf vars x)) :
    e.expand vars' = e.expand vars := by
  refine e.expand_congr fun vs hvs => ?_
  by_cases hname : vs.name = x
  · rw [hname]
    exact hx vs hvs hname
  · rw [e.valueOf_congr (hother vs.name hname)]

end Expression

/-! ## Numbers and byte strings as their text -/

namespace Value

/-- A number or a byte string is a scalar. -/
theorem shape_of_number_or_bytes {v : Value}
    (hv : (∃ r, v.number? = some r) ∨ ∃ bs, v = .bytes bs) : v.shape = .ok (.scalar v) := by
  rcases hv with ⟨r, hr⟩ | ⟨bs, rfl⟩
  · cases v <;> first | rfl | cases hr
  · rfl

theorem shape_text (t : Text) : (Value.text t).shape = .ok (.scalar (.text t)) := rfl

/-- Without a prefix length a value is not cut. -/
theorem cut_none (v : Value) : v.cut .none = .ok v := rfl

end Value

/-- A value is encoded as its expansion text is. -/
theorem Operator.encode_as_text {op : Operator} {v : Value} {t : Text}
    (ht : v.expansionText = .ok t) : op.encode v = op.encode (.text t) := by
  unfold Operator.encode
  rw [ht]
  rfl

/-- The style reads `v` as it reads its text `t`: any value for the string styles; a value other
than the empty byte string for the label style; and for the path-parameter and query styles, a
value whose truth is the text's. -/
def Style.ReadsAsText (v : Value) (t : Text) : Style → Prop
  | .string => True
  | .label => v.isEmptyBytes = false
  | .parameter | .query => v.truthy = !t.isEmpty

/-- A scalar expands as its expansion text wherever its style reads it as that text. -/
theorem Style.apply_as_text {style : Style} {op : Operator} {name : Value} {explode : Bool}
    {v : Value} {t : Text} (hv : v.shape = .ok (.scalar v)) (ht : v.expansionText = .ok t)
    (hr : style.ReadsAsText v t) :
    style.apply op name v explode .none = style.apply op name (.text t) explode .none := by
  have henc : op.encode v = op.encode (.text t) := Operator.encode_as_text ht
  cases style with
  | string => simp only [Style.apply, hv, Value.shape_text, ok_bind, Value.cut_none, henc]
  | label =>
    rw [Style.apply_label_of_scalar hv, Style.apply_label_of_scalar (Value.shape_text t)]
    simp only [Style.ReadsAsText] at hr
    have hbytes : (Value.text t).isEmptyBytes = false := rfl
    simp only [hr, hbytes, Bool.false_eq_true, if_false, Value.cut_none, ok_bind, henc]
  | parameter | query =>
    -- both styles test the value's truth, which the text has exactly when it is not empty
    simp only [Style.ReadsAsText] at hr
    have htruth : (Value.text t).truthy = !t.isEmpty := rfl
    simp only [Style.apply, hv, Value.shape_text, ok_bind, Value.cut_none, henc, hr, htruth]

/-- **Numbers and byte strings expand as their text where the styles cannot tell them apart**:
rebinding a variable that has no default and no prefix length from a number or a byte string
to its text (a number's plain text, the text a byte string's UTF-8 bytes encode) leaves the
expansion as it was, as long as the operator's style reads the value as that text. It does
not in two places: the path-parameter and query styles see a zero as false while its text is
true, and the label style drops an empty byte string but keeps the empty text. -/
theorem expand_rebound_to_text {e : Expression} {vars vars' : Entries} {x : Text} {v : Value}
    {t : Text} (hv : (∃ r, v.number? = some r) ∨ ∃ bs, v = .bytes bs)
    (ht : v.expansionText = .ok t) (hdef : e.defaultOf? x = Option.none)
    (hpre : ∀ vs ∈ e.varspecs, vs.name = x → vs.maxLength = Option.none)
    (hx : vars.lookup x = v) (hx' : vars'.lookup x = .text t)
    (hother : ∀ y, y ≠ x → vars'.lookup y = vars.lookup y)
    (hreads : (Style.ofOperator e.operator).ReadsAsText v t) :
    e.expand vars' = e.expand vars := by
  refine e.expand_rebind hother fun vs hvs hname => ?_
  rw [e.valueOf_of_defaultOf? vars' hdef, e.valueOf_of_defaultOf? vars hdef, hx, hx']
  have hlimit : vs.limit = .none := by
    rw [Varspec.limit, hpre vs hvs hname]
  -- neither value is absent: both contribute their style's expansion
  have hpresent : v.isPresent = true := by
    rcases hv with ⟨r, hr⟩ | ⟨bs, rfl⟩
    · cases v <;> first | rfl | cases hr
    · rfl
  rw [e.contribution_of_isPresent vs hpresent, e.contribution_of_isPresent vs rfl, hlimit,
    Style.apply_as_text (Value.shape_of_number_or_bytes hv) ht hreads]

/-- `{?x,y}`. -/
private def queryXY : Expression :=
  ⟨ofString "?x,y", .query, [⟨ofString "x", false, none⟩, ⟨ofString "y", false, none⟩], []⟩

theorem expand_rebound_to_text_query :
    Value.expansionText (.int 1024) = .ok (ofString "1024") ∧
      queryXY.expand [(.text (ofString "x"), .text (ofString "1024")), (.text (ofString "y"), .text (ofString "a"))] =
        queryXY.expand [(.text (ofString "x"), .int 1024), (.text (ofString "y"), .text (ofString "a"))] :=
  ⟨rfl, @expand_rebound_to_text queryXY _ _ (ofString "x") (.int 1024) (ofString "1024")
    (.inl ⟨_, rfl⟩) rfl rfl (by decide) rfl rfl
    (fun y hy => by
      have hne : (y == ofString "x") = false := beq_eq_false_iff_ne.mpr hy
      simp [Entries.lookup, Entries.find?, Value.equal, hne]) rfl⟩

/-- The query style writes a zero as a false value, `x=`, and its text `0` as `x=0`. -/
theorem zero_query_differs_from_its_text :
    (Expression.parse (ofString "?x") >>= fun e => e.expand [(.text (ofString "x"), .int 0)]) =
        .ok (ofString "?x=") ∧
      (Expression.parse (ofString "?x") >>= fun e => e.expand [(.text (ofString "x"), .text (ofString "0"))]) =
        .ok (ofString "?x=0") :=
  ⟨rfl, rfl⟩

end Rfc6570
