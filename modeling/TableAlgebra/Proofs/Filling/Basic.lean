import TableAlgebra.Proofs.Expr.Leaves

/-!
# Filling in strings

A program is followed with names in the place of its strings, and `fill σ` puts in the string that `σ` gives
for each name: in the values of literals and of defaults, wherever a type, an attribute, an expression or
a relation carries them along.  Everything that the algebra looks at when it decides something stays as it
is: names, serial numbers, labels, flags and the shape of trees.

* `Value.fill`, `Attribute.fill`, `Expr.fill`, `Relation.fill`   the strings put in;
* `Expr.leaves_fill`, `Relation.exprs_fill`   what is read off a filled tree is filled.
-/

namespace TableAlgebra

variable (σ : String → String)

/-! ## values and types -/

def Value.fill : Value → Value
  | string s => string (σ s)
  | v => v

def Qualifiers.fill (q : Qualifiers) : Qualifiers := { q with default := q.default.map (Value.fill σ) }

def Domain.fill (d : Domain) : Domain := { d with defaults := d.defaults.fill σ }

def DataType.fill : DataType → DataType
  | base b => base b
  | domain d => domain (d.fill σ)

/-- a label with its domain filled; the label itself is no host string -/
def EnumValue.fill (v : EnumValue) : EnumValue := { v with domain := v.domain.fill σ }

def Literal.fill : Literal → Literal
  | string s => string (σ s)
  | label v => label (v.fill σ)
  | l => l

def Attribute.fill (a : Attribute) : Attribute :=
  { a with type := a.type.fill σ, qualifiers := a.qualifiers.fill σ }

/-! ## expressions and relations -/

mutual

/-- an expression with its literals, attributes and types filled, and the relations inside of it -/
def Expr.fill : Expr → Expr
  | .literal l => .literal (l.fill σ)
  | .attr a => .attr (a.fill σ)
  | .binary op t l r => .binary op (t.fill σ) (Expr.fill l) (Expr.fill r)
  | .aggregate f t e => .aggregate f (t.fill σ) (Expr.fill e)
  | .member t e r => .member (t.fill σ) (Expr.fill e) (Relation.fill r)

def fillExprs : List Expr → List Expr
  | [] => []
  | e :: es => Expr.fill e :: fillExprs es

def fillColumns : List Column → List Column
  | [] => []
  | ⟨key, e⟩ :: cs => ⟨key, Expr.fill e⟩ :: fillColumns cs

def Relation.fill : Relation → Relation
  | ⟨kind, sources, columns, restrictions, groups, orders⟩ =>
    ⟨kind, sources, fillColumns columns, fillExprs restrictions, fillExprs groups, fillExprs orders⟩

end

def Column.fill (c : Column) : Column := ⟨c.key, c.expr.fill σ⟩

def Operand.fill : Operand → Operand
  | expr e => expr (e.fill σ)
  | value v => value (v.fill σ)
  | label v => label (v.fill σ)

variable {σ}

theorem fillExprs_eq_map (es : List Expr) : fillExprs σ es = es.map (Expr.fill σ) := by
  induction es with
  | nil => rfl
  | cons e es ih => rw [fillExprs, ih, List.map_cons]

theorem fillColumns_eq_map (cs : List Column) : fillColumns σ cs = cs.map (Column.fill σ) := by
  induction cs with
  | nil => rfl
  | cons c cs ih =>
    obtain ⟨key, e⟩ := c
    rw [fillColumns, ih, List.map_cons]
    rfl

/-! ## what stays as it is -/

@[simp] theorem DataType.underlying_fill (t : DataType) : (t.fill σ).underlying = t.underlying := by
  cases t <;> rfl

@[simp] theorem DataType.isBoolean_fill (t : DataType) : (t.fill σ).isBoolean = t.isBoolean := by
  simp [isBoolean]

@[simp] theorem DataType.isInteger_fill (t : DataType) : (t.fill σ).isInteger = t.isInteger := by
  simp [isInteger]

@[simp] theorem DataType.isNumeric_fill (t : DataType) : (t.fill σ).isNumeric = t.isNumeric := by
  simp [isNumeric]

theorem DataType.defaults_fill (t : DataType) : (t.fill σ).defaults = t.defaults.fill σ := by
  cases t <;> rfl

theorem Qualifiers.inherit_fill (own defaults : Qualifiers) :
    (own.fill σ).inherit (defaults.fill σ) = (own.inherit defaults).fill σ := by
  unfold inherit fill
  cases own.default <;> rfl

@[simp] theorem Attribute.name_fill (a : Attribute) : (a.fill σ).name = a.name := rfl

@[simp] theorem Attribute.owner?_fill (a : Attribute) : (a.fill σ).owner? = a.owner? := rfl

@[simp] theorem Attribute.table?_fill (a : Attribute) : (a.fill σ).table? = a.table? := rfl

@[simp] theorem Attribute.isUnique_fill (a : Attribute) : (a.fill σ).isUnique = a.isUnique := rfl

theorem Attribute.bind_fill (a : Attribute) (owner : Owner) :
    (a.bind owner).fill σ = (a.fill σ).bind owner := rfl

theorem Literal.type_fill (l : Literal) : (l.fill σ).type = l.type.fill σ := by
  cases l <;> rfl

theorem Value.toLiteral_fill (v : Value) :
    (v.fill σ).toLiteral = v.toLiteral.map (Literal.fill σ) := by
  cases v with
  | float x =>
    show (Value.float x).toLiteral = _
    simp only [toLiteral]
    split
    · rfl
    · split <;> rfl
  | bool b => rfl
  | int i => rfl
  | string s => rfl

theorem Operand.toExpr_fill (o : Operand) : (o.fill σ).toExpr = o.toExpr.map (Expr.fill σ) := by
  cases o with
  | expr e => rfl
  | label v => rfl
  | value v =>
    unfold fill toExpr
    simp only [Value.toLiteral_fill]
    cases v.toLiteral <;> rfl

theorem Expr.type_fill (e : Expr) : (e.fill σ).type = e.type.fill σ := by
  cases e with
  | literal l =>
    rw [fill]
    exact l.type_fill
  | _ =>
    rw [fill]
    rfl

theorem Expr.attribute?_fill (e : Expr) :
    (e.fill σ).attribute? = e.attribute?.map (Attribute.fill σ) := by
  cases e <;> simp only [fill, attribute?] <;> rfl

theorem Expr.leaves_fill (e : Expr) : (e.fill σ).leaves = e.leaves.map (Attribute.fill σ) := by
  cases e with
  | literal _ => simp [fill, leaves]
  | attr _ => simp [fill, leaves]
  | binary _ _ l r => rw [fill, leaves, leaves, leaves_fill l, leaves_fill r, List.map_append]
  | aggregate _ _ e => rw [fill, leaves, leaves, leaves_fill e]
  | member _ e _ => rw [fill, leaves, leaves, leaves_fill e]

theorem Expr.bareLeaves_fill (e : Expr) :
    (e.fill σ).bareLeaves = e.bareLeaves.map (Attribute.fill σ) := by
  cases e with
  | literal _ => simp [fill, bareLeaves]
  | attr _ => simp [fill, bareLeaves]
  | binary _ _ l r =>
    rw [fill, bareLeaves, bareLeaves, bareLeaves_fill l, bareLeaves_fill r, List.map_append]
  | aggregate _ _ e => simp [fill, bareLeaves]
  | member _ e _ => rw [fill, bareLeaves, bareLeaves, bareLeaves_fill e]

theorem Expr.literals_fill (e : Expr) : (e.fill σ).literals = e.literals.map (Literal.fill σ) := by
  cases e with
  | literal _ => simp [fill, literals]
  | attr _ => simp [fill, literals]
  | binary _ _ l r => rw [fill, literals, literals, literals_fill l, literals_fill r, List.map_append]
  | aggregate _ _ e => rw [fill, literals, literals, literals_fill e]
  | member _ e _ => rw [fill, literals, literals, literals_fill e]

theorem Expr.subselects_fill (e : Expr) :
    (e.fill σ).subselects = e.subselects.map (Relation.fill σ) := by
  cases e with
  | literal _ => simp [fill, subselects]
  | attr _ => simp [fill, subselects]
  | binary _ _ l r =>
    rw [fill, subselects, subselects, subselects_fill l, subselects_fill r, List.map_append]
  | aggregate _ _ e => rw [fill, subselects, subselects, subselects_fill e]
  | member _ e r =>
    rw [fill, subselects, subselects, subselects_fill e, List.map_append, List.map_singleton]

namespace Relation

theorem fill_eq (r : Relation) : r.fill σ =
    { r with
      columns := r.columns.map (Column.fill σ)
      restrictions := r.restrictions.map (Expr.fill σ)
      groups := r.groups.map (Expr.fill σ)
      orders := r.orders.map (Expr.fill σ) } := by
  obtain ⟨kind, sources, columns, restrictions, groups, orders⟩ := r
  simp only [fill, fillColumns_eq_map, fillExprs_eq_map]

@[simp] theorem columns_fill (r : Relation) : (r.fill σ).columns = r.columns.map (Column.fill σ) := by
  rw [fill_eq]

@[simp] theorem groups_fill (r : Relation) : (r.fill σ).groups = r.groups.map (Expr.fill σ) := by
  rw [fill_eq]

@[simp] theorem name?_fill (r : Relation) : (r.fill σ).name? = r.name? := by
  rw [fill_eq]
  rfl

@[simp] theorem keys_fill (r : Relation) : (r.fill σ).keys = r.keys := by
  simp [keys, Column.fill]

theorem exprs_fill (r : Relation) : (r.fill σ).exprs = r.exprs.map (Expr.fill σ) := by
  simp [exprs, fill_eq, Column.fill, Function.comp_def]

theorem leaves_fill (r : Relation) : (r.fill σ).leaves = r.leaves.map (Attribute.fill σ) := by
  simp only [leaves, exprs_fill, List.flatMap_map, Expr.leaves_fill, List.map_flatMap]

theorem literals_fill (r : Relation) : (r.fill σ).literals = r.literals.map (Literal.fill σ) := by
  simp only [literals, exprs_fill, List.flatMap_map, Expr.literals_fill, List.map_flatMap]

theorem subselects_fill (r : Relation) : (r.fill σ).subselects = r.subselects.map (Relation.fill σ) := by
  simp only [subselects, exprs_fill, List.flatMap_map, Expr.subselects_fill, List.map_flatMap]

theorem Nests.of_fill {r t : Relation} (h : (r.fill σ).Nests t) : ∃ s, r.Nests s ∧ s.fill σ = t := by
  induction h with
  | refl => exact ⟨r, .refl, rfl⟩
  | tail _ hmem ih =>
    obtain ⟨s, hs, rfl⟩ := ih
    rw [subselects_fill] at hmem
    obtain ⟨u, hu, rfl⟩ := List.mem_map.mp hmem
    exact ⟨u, hs.tail hu, rfl⟩

theorem column?_fill (r : Relation) (key : String) :
    (r.fill σ).column? key = (r.column? key).map (Expr.fill σ) := by
  unfold column?
  rw [columns_fill]
  induction r.columns with
  | nil => rfl
  | cons c cs ih =>
    rw [List.map_cons, List.find?_cons, List.find?_cons]
    show Option.map Column.expr (match c.key == key with
      | true => some (c.fill σ)
      | false => (cs.map (Column.fill σ)).find? _) = _
    cases c.key == key with
    | true => rfl
    | false => exact ih

end Relation

end TableAlgebra
