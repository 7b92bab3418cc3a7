import TableAlgebra.Proofs.Filling.Basic
import TableAlgebra.Proofs.Relation.Operators

/-!
# Filling and the builders

The builders accept the same after filling as before, and what they build is the filled version of what
they built.  Where a builder compares two types or two attributes, this takes more than the looks of them:
two domains could become equal by filling.  They do not if the serial numbers tell them apart, which is
what a `Roster` of the domains and attributes in use says.

* `Roster`, `Roster.Unique`      the domains and attributes in use, each known by its serial number;
* `DataType.In`, `Expr.In`, `Relation.In`   what is built from these;
* `join_fill` for types, and one law for each builder.
-/

namespace TableAlgebra

/-! ## rosters -/

/-- the domains and the attributes that a program has in use -/
structure Roster where
  domains : List Domain
  attributes : List Attribute

/-- domains are known by their serial numbers, attributes by their origins and names, and the types of
attributes are in use -/
structure Roster.Unique (R : Roster) : Prop where
  domain_eq : ∀ d ∈ R.domains, ∀ e ∈ R.domains, d.serial = e.serial → d = e
  attribute_eq : ∀ a ∈ R.attributes, ∀ b ∈ R.attributes, a.origin = b.origin → a.name = b.name → a = b

def DataType.In (R : Roster) : DataType → Prop
  | base _ => True
  | domain d => d ∈ R.domains

/-- the type and the attributes of an expression are in use -/
structure Expr.In (R : Roster) (e : Expr) : Prop where
  type : e.type.In R
  leaf : ∀ a ∈ e.leaves, a ∈ R.attributes

def Relation.In (R : Roster) (r : Relation) : Prop := ∀ e ∈ r.exprs, e.In R

section

variable {σ : String → String} {R : Roster} (hR : R.Unique)

include hR

theorem Roster.Unique.domain_inj {d e : Domain} (hd : d ∈ R.domains) (he : e ∈ R.domains) :
    d.fill σ = e.fill σ ↔ d = e :=
  ⟨fun h => hR.domain_eq d hd e he (congrArg Domain.serial h : (d.fill σ).serial = (e.fill σ).serial),
    fun h => h ▸ rfl⟩

theorem Roster.Unique.attribute_inj {a b : Attribute} (ha : a ∈ R.attributes) (hb : b ∈ R.attributes) :
    a.fill σ = b.fill σ ↔ a = b :=
  ⟨fun h => hR.attribute_eq a ha b hb
      (congrArg Attribute.origin h : (a.fill σ).origin = (b.fill σ).origin)
      (congrArg Attribute.name h : (a.fill σ).name = (b.fill σ).name),
    fun h => h ▸ rfl⟩

/-! ## types and expressions -/

theorem DataType.join_fill {t u : DataType} (ht : t.In R) (hu : u.In R) :
    (t.fill σ).join (u.fill σ) = (t.join u).map (DataType.fill σ) := by
  cases t with
  | base a =>
    cases u with
    | base b =>
      show (a.join b).map base = ((a.join b).map base).map (DataType.fill σ)
      cases a.join b <;> rfl
    | domain e =>
      show (if e.base.covers a then some (domain (e.fill σ)) else none) = Option.map _
        (if e.base.covers a then some (domain e) else none)
      split <;> rfl
  | domain d =>
    cases u with
    | base b =>
      show (if d.base.covers b then some (domain (d.fill σ)) else none) = Option.map _
        (if d.base.covers b then some (domain d) else none)
      split <;> rfl
    | domain e =>
      show (if d.fill σ = e.fill σ then some (domain (d.fill σ)) else none) = Option.map _
        (if d = e then some (domain d) else none)
      simp only [hR.domain_inj ht hu]
      split <;> rfl

theorem DataType.joinable_fill {t u : DataType} (ht : t.In R) (hu : u.In R) :
    (t.fill σ).joinable (u.fill σ) = t.joinable u := by
  unfold joinable
  rw [join_fill hR ht hu, Option.isSome_map]

omit hR in
theorem filter_fill {p : DataType → Bool} (hp : ∀ t, p (t.fill σ) = p t) (t : Option DataType) :
    (t.map (DataType.fill σ)).filter p = (t.filter p).map (DataType.fill σ) := by
  cases t with
  | none => rfl
  | some t =>
    rw [Option.map_some, Option.filter_some, Option.filter_some, hp]
    split <;> rfl

theorem BinaryOp.resultType?_fill (op : BinaryOp) {t u : DataType} (ht : t.In R) (hu : u.In R) :
    op.resultType? (t.fill σ) (u.fill σ) = (op.resultType? t u).map (DataType.fill σ) := by
  cases op with
  | compare op =>
    simp only [resultType?, DataType.join_fill hR ht hu, Option.map_map]
    rfl
  | logic op =>
    simp only [resultType?, DataType.join_fill hR ht hu]
    exact filter_fill DataType.isBoolean_fill _
  | arith op =>
    simp only [resultType?, DataType.join_fill hR ht hu]
    exact filter_fill DataType.isNumeric_fill _

theorem Expr.combine_fill (op : BinaryOp) {l r : Expr} (hl : l.In R) (hr : r.In R) :
    (combine op (l.fill σ) (r.fill σ)).toOption = (combine op l r).toOption.map (Expr.fill σ) := by
  unfold combine
  rw [type_fill, type_fill, op.resultType?_fill hR hl.type hr.type]
  cases op.resultType? l.type r.type with
  | none => rfl
  | some t => simp [Except.toOption, fill]

theorem Expr.isIn_fill {e : Expr} {r : Relation} (he : e.In R) (hr : r.In R) :
    (isIn (e.fill σ) (r.fill σ)).toOption = (isIn e r).toOption.map (Expr.fill σ) := by
  unfold isIn
  rw [Relation.columns_fill]
  cases hcs : r.columns with
  | nil => rfl
  | cons c cs =>
    cases cs with
    | nil =>
      have hc : c.expr.In R := hr c.expr (Relation.mem_exprs.mpr (.inl ⟨c, by simp [hcs], rfl⟩))
      have hjoin : (e.fill σ).type.joinable (c.fill σ).expr.type = e.type.joinable c.expr.type := by
        rw [type_fill, Column.fill, type_fill, DataType.joinable_fill hR he.type hc.type]
      simp only [List.map_cons, List.map_nil, hjoin]
      cases e.type.joinable c.expr.type with
      | true => simp only [Except.toOption, if_true, Option.map_some, fill]; rfl
      | false => rfl
    | cons d cs => rfl

theorem Expr.avg_fill {e : Expr} (he : e.In R) :
    (avg (e.fill σ)).toOption = (avg e).toOption.map (Expr.fill σ) := by
  have hnumber : (e.fill σ).type.joinable .number = e.type.joinable .number := by
    rw [type_fill]
    exact DataType.joinable_fill (u := .number) hR he.type trivial
  unfold avg
  rw [hnumber]
  cases e.type.joinable .number with
  | true => simp only [Except.toOption, if_true, Option.map_some, fill]; rfl
  | false => rfl

/-! ## scope -/

theorem Column.exposes_fill {columns : List Column} {a : Attribute} (ha : a ∈ R.attributes)
    (hcolumns : ∀ c ∈ columns, c.expr.In R) :
    exposes (columns.map (Column.fill σ)) (a.fill σ) = exposes columns a := by
  rw [Bool.eq_iff_iff, exposes_iff, exposes_iff]
  constructor
  · rintro ⟨_, hfilled, heq⟩
    obtain ⟨c, hc, rfl⟩ := List.mem_map.mp hfilled
    have hattr := congrArg Expr.attribute? heq
    rw [fill, Expr.attribute?_fill] at hattr
    obtain ⟨b, hb, hba⟩ := Option.map_eq_some_iff.mp hattr
    have hexpr : c.expr = .attr b := Expr.attribute?_eq_some.mp hb
    have hmem : b ∈ R.attributes := (hcolumns c hc).leaf b (by simp [hexpr, Expr.leaves])
    exact ⟨c, hc, hexpr.trans (congrArg Expr.attr ((hR.attribute_inj hmem ha).mp hba))⟩
  · rintro ⟨c, hc, heq⟩
    exact ⟨c.fill σ, List.mem_map_of_mem hc, by rw [fill, heq, Expr.fill]⟩

theorem Attribute.dependsOn_fill {a k : Attribute} (ha : a ∈ R.attributes) (hk : k ∈ R.attributes) :
    (a.fill σ).dependsOn (k.fill σ) = a.dependsOn k := by
  have heq : (a.fill σ == k.fill σ) = (a == k) := by
    rw [Bool.eq_iff_iff, beq_iff_eq, beq_iff_eq]
    exact hR.attribute_inj ha hk
  simp [dependsOn, heq]

theorem Expr.determine_fill {groups : List Expr} {a : Attribute} (ha : a ∈ R.attributes)
    (hgroups : ∀ e ∈ groups, e.In R) :
    determine (groups.map (Expr.fill σ)) (a.fill σ) = determine groups a := by
  rw [Bool.eq_iff_iff, determine_iff, determine_iff]
  constructor
  · rintro ⟨k', hk', hdep⟩
    obtain ⟨e, he, heq⟩ := List.mem_map.mp hk'
    have hattr := congrArg attribute? heq
    rw [attribute?_fill] at hattr
    obtain ⟨k, hk, rfl⟩ := Option.map_eq_some_iff.mp hattr
    rw [attribute?_eq_some.mp hk] at he
    have hmem : k ∈ R.attributes := (hgroups _ he).leaf k (List.mem_singleton_self k)
    exact ⟨k, he, by rwa [Attribute.dependsOn_fill hR ha hmem] at hdep⟩
  · rintro ⟨k, hk, hdep⟩
    have hmem : k ∈ R.attributes := (hgroups _ hk).leaf k (List.mem_singleton_self k)
    refine ⟨k.fill σ, List.mem_map.mpr ⟨.attr k, hk, by rw [fill]⟩, ?_⟩
    rwa [Attribute.dependsOn_fill hR ha hmem]

namespace Relation

variable {r : Relation} (hr : r.In R)

include hr

omit hR in
theorem In.column {c : Column} (hc : c ∈ r.columns) : c.expr.In R :=
  hr c.expr (mem_exprs.mpr (.inl ⟨c, hc, rfl⟩))

theorem valid_fill {e : Expr} (he : ∀ a ∈ e.leaves, a ∈ R.attributes) :
    (r.fill σ).valid (e.fill σ) = r.valid e := by
  unfold valid
  rw [Bool.eq_iff_iff, Expr.inScope_iff, Expr.inScope_iff, Expr.leaves_fill, columns_fill,
    List.forall_mem_map]
  refine forall₂_congr fun a ha => ?_
  rw [Column.exposes_fill hR (he a ha) fun c => In.column hr]

theorem validAggregate_fill {e : Expr} (he : ∀ a ∈ e.leaves, a ∈ R.attributes) :
    (r.fill σ).validAggregate (e.fill σ) = r.validAggregate e := by
  rw [Bool.eq_iff_iff, validAggregate_iff, validAggregate_iff, valid_fill hR hr he,
    Expr.bareLeaves_fill, groups_fill, List.forall_mem_map, Ne, List.map_eq_nil_iff]
  refine and_congr_right fun _ => imp_congr_right fun _ => forall₂_congr fun a ha => ?_
  have hmem := he a (Expr.mem_leaves_of_mem_bareLeaves e ha)
  rw [Expr.determine_fill hR hmem fun k hk => hr k (mem_exprs.mpr (.inr (.inr (.inl hk))))]

/-! ## the operators -/

theorem filter_fill {p : Expr} (hp : p.In R) :
    ((r.fill σ).filter (p.fill σ)).toOption = (r.filter p).toOption.map (Relation.fill σ) := by
  unfold filter requireScope requireBoolean
  rw [toOption_guard, toOption_guard, toOption_guard, toOption_guard, valid_fill hR hr hp.leaf,
    Expr.type_fill, DataType.isBoolean_fill]
  split
  · split
    · simp [fill_eq, Except.toOption, pure, Except.pure]
    · rfl
  · rfl

theorem group_fill {k : Expr} (hk : k.In R) :
    ((r.fill σ).group (k.fill σ)).toOption = (r.group k).toOption.map (Relation.fill σ) := by
  unfold group requireScope
  rw [toOption_guard, toOption_guard, valid_fill hR hr hk.leaf]
  split
  · simp [fill_eq, Except.toOption, pure, Except.pure]
  · rfl

theorem order_fill {k : Expr} (hk : k.In R) :
    ((r.fill σ).order (k.fill σ)).toOption = (r.order k).toOption.map (Relation.fill σ) := by
  unfold order requireScope
  rw [toOption_guard, toOption_guard, valid_fill hR hr hk.leaf]
  split
  · simp [fill_eq, Except.toOption, pure, Except.pure]
  · rfl

theorem join_fill {s : Relation} (hs : s.In R) {on : Expr} (hon : on.In R) :
    ((r.fill σ).join (s.fill σ) (on.fill σ)).toOption
      = (r.join s on).toOption.map (Relation.fill σ) := by
  have hshared : (r.fill σ).firstShared? (s.fill σ) = r.firstShared? s := by
    unfold firstShared?
    rw [keys_fill, keys_fill]
  have hjoined : Relation.In R
      { kind := .derived
        sources := r.sources ++ s.sources
        columns := r.columns ++ s.columns
        restrictions := r.restrictions ++ s.restrictions ++ [on]
        groups := r.groups
        orders := r.orders } := by
    intro e he
    simp only [mem_exprs, List.mem_append, List.mem_singleton] at he
    rcases he with ⟨c, hc | hc, rfl⟩ | ((he | he) | rfl) | he | he
    · exact In.column hr hc
    · exact In.column hs hc
    · exact hr e (mem_exprs.mpr (.inr (.inl he)))
    · exact hs e (mem_exprs.mpr (.inr (.inl he)))
    · exact hon
    · exact hr e (mem_exprs.mpr (.inr (.inr (.inl he))))
    · exact hr e (mem_exprs.mpr (.inr (.inr (.inr he))))
  have hvalid := valid_fill (σ := σ) hR hjoined hon.leaf
  simp only [fill_eq, List.map_append, List.map_cons, List.map_nil] at hvalid
  unfold join requireScope requireBoolean
  rw [toOption_guard, toOption_guard, Expr.type_fill, DataType.isBoolean_fill, hshared]
  split
  · cases r.firstShared? s with
    | some shared => rfl
    | none =>
      simp only [fill_eq]
      rw [toOption_guard, toOption_guard, hvalid]
      split
      · simp [fill_eq, Except.toOption, pure, Except.pure]
      · rfl
  · rfl

theorem admits_fill {key : String} {value : Operand} (hin : ∀ e, value.toExpr = .ok e → e.In R)
    {c' : Column} :
    (r.fill σ).Admits (key, value.fill σ) c' ↔ ∃ c, r.Admits (key, value) c ∧ c.fill σ = c' := by
  unfold Admits
  rw [Operand.toExpr_fill]
  constructor
  · rintro ⟨hkey, hid, he, hv, ha⟩
    cases hvalue : value.toExpr with
    | error e => exact nomatch hvalue ▸ he
    | ok e =>
      have hfill : e.fill σ = c'.expr := Except.ok.inj (hvalue ▸ he)
      have hleaf := (hin e hvalue).leaf
      rw [← hfill, valid_fill hR hr hleaf] at hv
      rw [← hfill, validAggregate_fill hR hr hleaf] at ha
      refine ⟨⟨key, e⟩, ⟨rfl, hid, rfl, hv, ha⟩, ?_⟩
      obtain ⟨key', e'⟩ := c'
      obtain rfl : key' = key := hkey
      obtain rfl : e.fill σ = e' := hfill
      rfl
  · rintro ⟨c, ⟨hkey, hid, he, hv, ha⟩, rfl⟩
    have hleaf := (hin c.expr he).leaf
    refine ⟨hkey, hid, ?_, ?_, ?_⟩
    · rw [he]
      rfl
    · rwa [Column.fill, valid_fill hR hr hleaf]
    · rwa [Column.fill, validAggregate_fill hR hr hleaf]

theorem forall₂_admits_fill {named : List (String × Operand)}
    (hin : ∀ n ∈ named, ∀ e, n.2.toExpr = .ok e → e.In R) {cs' : List Column} :
    List.Forall₂ (r.fill σ).Admits (named.map fun n => (n.1, n.2.fill σ)) cs' ↔
      ∃ cs, List.Forall₂ r.Admits named cs ∧ cs.map (Column.fill σ) = cs' := by
  induction named generalizing cs' with
  | nil =>
    rw [List.map_nil, List.forall₂_nil_left_iff]
    simp [eq_comm]
  | cons n rest ih =>
    rw [List.map_cons, List.forall₂_cons_left_iff]
    simp only [admits_fill hR hr (hin n List.mem_cons_self),
      ih fun m hm => hin m (List.mem_cons_of_mem n hm), List.forall₂_cons_left_iff]
    constructor
    · rintro ⟨_, _, ⟨c, hc, rfl⟩, ⟨cs, hcs, rfl⟩, rfl⟩
      exact ⟨c :: cs, ⟨c, cs, hc, hcs, rfl⟩, rfl⟩
    · rintro ⟨_, ⟨c, cs, hc, hcs, rfl⟩, rfl⟩
      exact ⟨c.fill σ, cs.map (Column.fill σ), ⟨c, hc, rfl⟩, ⟨cs, hcs, rfl⟩, rfl⟩

theorem project_fill {named : List (String × Operand)}
    (hin : ∀ n ∈ named, ∀ e, n.2.toExpr = .ok e → e.In R) :
    ((r.fill σ).project (named.map fun n => (n.1, n.2.fill σ))).toOption
      = (r.project named).toOption.map (Relation.fill σ) := by
  have hnames : (named.map fun n => (n.1, n.2.fill σ)).map Prod.fst = named.map Prod.fst := by
    rw [List.map_map]
    rfl
  refine toOption_eq_map_iff.mpr fun p => ?_
  simp only [project_eq_ok, hnames, forall₂_admits_fill hR hr hin]
  constructor
  · rintro ⟨_, ⟨cs, hcs, rfl⟩, hnd, hne, rfl⟩
    refine ⟨_, ⟨cs, hcs, hnd, by simpa using hne, rfl⟩, ?_⟩
    simp [fill_eq]
  · rintro ⟨_, ⟨cs, hcs, hnd, hne, rfl⟩, rfl⟩
    refine ⟨_, ⟨cs, hcs, rfl⟩, hnd, by simpa using hne, ?_⟩
    simp [fill_eq]

end Relation

/-! ## declarations -/

omit hR in
theorem Value.type_of_toLiteral {v : Value} {l : Literal} (hl : v.toLiteral = .ok l) :
    ∃ b, l.type = .base b := by
  cases v with
  | float x =>
    simp only [toLiteral] at hl
    split at hl
    · cases hl
    · split at hl <;> cases hl <;> exact ⟨_, rfl⟩
  | _ => cases hl; exact ⟨_, rfl⟩

omit hR in
/-- against a host value only what the type is based on counts -/
theorem DataType.joinable_literal_fill {t : DataType} {v : Value} {l : Literal}
    (hl : v.toLiteral = .ok l) : (t.fill σ).joinable (l.fill σ).type = t.joinable l.type := by
  obtain ⟨b, hb⟩ := Value.type_of_toLiteral hl
  rw [Literal.type_fill, hb]
  unfold joinable
  cases t with
  | base a => rfl
  | domain d =>
    show (if d.base.covers b then some (domain (d.fill σ)) else none).isSome = Option.isSome
      (if d.base.covers b then some (domain d) else none)
    split <;> rfl

omit hR in
/-- a default fits its type after filling if it did before; a label as default is to stay what it is -/
theorem DataType.checkDefault_fill {t : DataType} {v : Value}
    (hkept : t.underlying.kind = .enum → v.fill σ = v) :
    ((t.fill σ).checkDefault (v.fill σ)).toOption = (t.checkDefault v).toOption := by
  by_cases hlabel : ∃ labels label, t.underlying = .enum labels ∧ v = .string label
  · obtain ⟨labels, label, ht, rfl⟩ := hlabel
    rw [hkept (by rw [ht]; rfl)]
    unfold checkDefault
    rw [underlying_fill]
    simp only [ht]
    split <;> rfl
  · have hother : ∀ (u : DataType) (w : Value), (¬ ∃ labels label, u.underlying = .enum labels ∧
        w = .string label) → u.checkDefault w = (do
          let literal ← w.toLiteral
          if u.joinable literal.type then return ()
          else throw (.incompatibleTypes .default u literal.type)) := by
      intro u w h
      unfold checkDefault
      split
      · rename_i hu
        exact absurd ⟨_, _, hu, rfl⟩ h
      · rfl
    have hfilled : ¬ ∃ labels label, (t.fill σ).underlying = .enum labels ∧
        v.fill σ = .string label := by
      rintro ⟨labels, label, ht, hv⟩
      rw [underlying_fill] at ht
      cases v with
      | string s => exact hlabel ⟨labels, s, ht, rfl⟩
      | _ => exact nomatch hv
    rw [hother t v hlabel, hother _ _ hfilled, toOption_bind, toOption_bind, Value.toLiteral_fill]
    cases hl : v.toLiteral with
    | error e => rfl
    | ok l =>
      show Except.toOption (if (t.fill σ).joinable (l.fill σ).type then _ else _) = Except.toOption
        (if t.joinable l.type then _ else _)
      rw [joinable_literal_fill hl]
      split <;> rfl

omit hR in
theorem Attribute.declare_fill (serial : Serial) (name : String) {t : DataType} {own : Qualifiers}
    (hkept : t.underlying.kind = .enum →
      ∀ v, (own.inherit t.defaults).default = some v → v.fill σ = v) :
    (declare serial name (t.fill σ) (own.fill σ)).toOption
      = (declare serial name t own).toOption.map (Attribute.fill σ) := by
  have hcheck : ∀ v, (own.inherit t.defaults).default = some v →
      ((t.fill σ).checkDefault (v.fill σ) = .ok () ↔ t.checkDefault v = .ok ()) := by
    intro v hv
    have h := DataType.checkDefault_fill (σ := σ) fun ht => hkept ht v hv
    cases h₁ : (t.fill σ).checkDefault (v.fill σ) <;> cases h₂ : t.checkDefault v <;>
      simp_all [Except.toOption]
  refine toOption_eq_map_iff.mpr fun a => ?_
  simp only [declare_eq_ok, DataType.defaults_fill, Qualifiers.inherit_fill, DataType.isInteger_fill]
  constructor
  · rintro ⟨hid, hauto, hdefault, rfl⟩
    refine ⟨_, ⟨hid, hauto, fun v hv => ?_, rfl⟩, rfl⟩
    exact (hcheck v hv).mp (hdefault (v.fill σ) (by simp [Qualifiers.fill, hv]))
  · rintro ⟨_, ⟨hid, hauto, hdefault, rfl⟩, rfl⟩
    refine ⟨hid, hauto, fun w hw => ?_, rfl⟩
    obtain ⟨v, hv, rfl⟩ := Option.map_eq_some_iff.mp hw
    exact (hcheck v hv).mpr (hdefault v hv)

omit hR in
theorem Domain.declare_fill (serial : Serial) (name : String) (t : DataType) (defaults : Qualifiers) :
    (declare serial name (t.fill σ) (defaults.fill σ)).toOption
      = (declare serial name t defaults).toOption.map (Domain.fill σ) := by
  unfold declare
  rw [toOption_bind, toOption_bind]
  cases requireIdentifier name with
  | error e => rfl
  | ok u => cases t <;> rfl

omit hR in
theorem Domain.value_fill (d : Domain) (label : String) :
    ((d.fill σ).value label).toOption = (d.value label).toOption.map (EnumValue.fill σ) := by
  unfold value
  show Except.toOption (if d.base.labels.contains label then _ else _) = _
  split <;> rfl

omit hR in
theorem Relation.table_fill (serial : Serial) (name : String) (attributes : List Attribute)
    (options : OrderedMap Value) :
    (table serial name (attributes.map (Attribute.fill σ)) options).toOption
      = (table serial name attributes options).toOption.map (Relation.fill σ) := by
  have hnames : (attributes.map (Attribute.fill σ)).map Attribute.name
      = attributes.map Attribute.name := by
    rw [List.map_map]
    rfl
  have hcolumns : tableColumns ⟨serial, name⟩ (attributes.map (Attribute.fill σ))
      = (tableColumns ⟨serial, name⟩ attributes).map (Column.fill σ) := by
    simp only [tableColumns, List.map_map]
    refine List.map_congr_left fun a _ => ?_
    simp [Column.fill, Expr.fill, Attribute.bind_fill]
  refine toOption_eq_map_iff.mpr fun t => ?_
  simp only [table_eq_ok, hnames, hcolumns, Ne, List.map_eq_nil_iff]
  constructor
  · rintro ⟨hid, hnd, hne, rfl⟩
    refine ⟨_, ⟨hid, hnd, hne, rfl⟩, ?_⟩
    simp [fill_eq]
  · rintro ⟨_, ⟨hid, hnd, hne, rfl⟩, rfl⟩
    refine ⟨hid, hnd, hne, ?_⟩
    simp [fill_eq]

end

end TableAlgebra
