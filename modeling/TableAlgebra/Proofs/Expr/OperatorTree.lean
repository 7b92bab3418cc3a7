import TableAlgebra.Expr.Build
import TableAlgebra.Proofs.DataType.Order
import TableAlgebra.Proofs.Relation.Operators

/-!
# Trees of operators

Arithmetic and the connectives combine two expressions in the type in which their types meet.  A tree of
such operators, built from its leaves upwards, has the greatest of the types of its leaves: operators of one
family only look at where types meet, and that does not depend on the shape of the tree.

* `OperatorTree`, `OperatorTree.build`   a tree over expressions, and the expression it makes;
* `OperatorFamily.Fits`                  the types that may stand at the leaves of one tree;
* `OperatorTree.hasType_iff`             a tree of a type that the family accepts has the greatest leaf type;
* `OperatorTree.build_typing`            when a tree can be built, and its type.
-/

namespace TableAlgebra

/-! ## families of operators -/

/-- the operators that need the types of both sides to meet, and have the type they meet in -/
inductive OperatorFamily where
  | arithmetic
  | logic
  deriving DecidableEq

namespace OperatorFamily

def Op : OperatorFamily → Type
  | arithmetic => ArithOp
  | logic => LogicOp

def binary : (f : OperatorFamily) → f.Op → BinaryOp
  | arithmetic, op => .arith op
  | logic, op => .logic op

/-- the types on which the operators of a family work -/
def accepts : OperatorFamily → DataType → Bool
  | arithmetic, t => t.isNumeric
  | logic, t => t.isBoolean

theorem resultType?_binary (f : OperatorFamily) (op : f.Op) (t u : DataType) :
    (f.binary op).resultType? t u = (t.join u).filter f.accepts := by
  cases f <;> rfl

theorem accepts_eq (f : OperatorFamily) (t : DataType) : f.accepts t = f.accepts (.base t.underlying) := by
  cases f <;> rfl

theorem accepts_of_le {f : OperatorFamily} {t u : DataType} (hle : t ≤ u) (hu : f.accepts u = true) :
    f.accepts t = true := by
  rw [accepts_eq] at hu ⊢
  have hunder : t.underlying = u.underlying ∨ t.underlying = .integer ∧ u.underlying = .number := by
    cases t with
    | base a => cases u <;> exact hle
    | domain d =>
      rw [DataType.domain_le] at hle
      exact .inl (hle ▸ rfl)
  rcases hunder with h | ⟨ht, hn⟩
  · rwa [h]
  · rw [hn] at hu
    rw [ht]
    cases f with
    | arithmetic => rfl
    | logic => exact nomatch hu

/-- no enumeration is accepted, so accepted types do not clash -/
theorem not_clashes {f : OperatorFamily} {t : DataType} (ht : f.accepts t = true) (u : DataType) :
    ¬ t.Clashes u := by
  have hunder : ∀ ls, t.underlying ≠ .enum ls := by
    intro ls h
    rw [accepts_eq, h] at ht
    cases f <;> exact nomatch ht
  intro h
  cases t with
  | base a =>
    cases u <;>
    · obtain ⟨ls, _, ha, -⟩ := h
      exact hunder ls ha
  | domain d => cases u with
    | base b =>
      obtain ⟨ls, _, hd, -⟩ := h
      exact hunder ls hd
    | domain e => exact h

/-- two types meet in an accepted type if they are comparable and the larger one is accepted -/
theorem filter_join_eq_some {f : OperatorFamily} {t u v : DataType} :
    (t.join u).filter f.accepts = some v ↔ f.accepts v = true ∧ (u ≤ t ∧ t = v ∨ t ≤ u ∧ u = v) := by
  rw [Option.filter_eq_some_iff]
  constructor
  · rintro ⟨hv, hacc⟩
    have hclash : ¬ t.Clashes u := by
      rcases DataType.eq_or_eq_of_join hv with rfl | rfl
      · exact not_clashes hacc u
      · exact fun h => not_clashes hacc t h.symm
    exact ⟨hacc, (DataType.join_eq_some_iff hclash).mp hv⟩
  · rintro ⟨hacc, hv⟩
    have ht : t ≤ v := by
      rcases hv with ⟨-, rfl⟩ | ⟨hle, rfl⟩
      · exact le_rfl
      · exact hle
    exact ⟨(DataType.join_eq_some_iff (not_clashes (accepts_of_le ht hacc) u)).mpr hv, hacc⟩

end OperatorFamily

/-! ## trees -/

/-- a tree of operators of one family, with expressions at its leaves -/
inductive OperatorTree (f : OperatorFamily) where
  | leaf (expr : Expr)
  | node (op : f.Op) (left right : OperatorTree f)

namespace OperatorTree

variable {f : OperatorFamily}

/-- the types of the leaves, from left to right -/
def leafTypes : OperatorTree f → List DataType
  | leaf e => [e.type]
  | node _ l r => l.leafTypes ++ r.leafTypes

def build : OperatorTree f → Except AlgebraError Expr
  | leaf e => .ok e
  | node op l r => do
    let left ← l.build
    let right ← r.build
    left.apply (f.binary op) (.expr right)

/-- the tree can be built, and the expression is of that type -/
def HasType (t : OperatorTree f) (type : DataType) : Prop := ∃ e, t.build = .ok e ∧ e.type = type

theorem leafTypes_ne_nil (t : OperatorTree f) : t.leafTypes ≠ [] := by
  induction t with
  | leaf e => exact List.cons_ne_nil _ _
  | node op l r ihl _ => exact List.append_ne_nil_of_left_ne_nil ihl _

theorem hasType_leaf {e : Expr} {type : DataType} : (leaf e : OperatorTree f).HasType type ↔ e.type = type := by
  constructor
  · rintro ⟨_, he, htype⟩
    exact Except.ok.inj he ▸ htype
  · exact fun h => ⟨e, rfl, h⟩

/-- an operator over two expressions has the type in which theirs meet, where the family accepts it -/
theorem exists_apply_iff {op : f.Op} {left right : Expr} {type : DataType} :
    (∃ e, left.apply (f.binary op) (.expr right) = .ok e ∧ e.type = type) ↔
      (left.type.join right.type).filter f.accepts = some type := by
  have happly : left.apply (f.binary op) (.expr right) = left.combine (f.binary op) right := rfl
  rw [happly, Expr.combine, f.resultType?_binary]
  cases (left.type.join right.type).filter f.accepts with
  | none => simp
  | some t => simp [Expr.type]

theorem hasType_node {op : f.Op} {l r : OperatorTree f} {type : DataType} :
    (node op l r).HasType type ↔
      ∃ t u, l.HasType t ∧ r.HasType u ∧ (t.join u).filter f.accepts = some type := by
  unfold HasType
  simp only [build, bind_eq_ok]
  constructor
  · rintro ⟨e, ⟨left, hl, right, hr, he⟩, htype⟩
    exact ⟨left.type, right.type, ⟨left, hl, rfl⟩, ⟨right, hr, rfl⟩, exists_apply_iff.mp ⟨e, he, htype⟩⟩
  · rintro ⟨_, _, ⟨left, hl, rfl⟩, ⟨right, hr, rfl⟩, h⟩
    obtain ⟨e, he, htype⟩ := exists_apply_iff.mpr h
    exact ⟨e, ⟨left, hl, right, hr, he⟩, htype⟩

/-- The types that a tree can have and the family accepts are those that are greatest among its leaves. -/
theorem hasType_iff {t : OperatorTree f} {type : DataType} (hacc : f.accepts type = true) :
    t.HasType type ↔ IsGreatest {u | u ∈ t.leafTypes} type := by
  induction t generalizing type with
  | leaf e =>
    have hset : {u | u ∈ (leaf e : OperatorTree f).leafTypes} = {e.type} := by
      ext u
      exact List.mem_singleton
    rw [hasType_leaf, hset]
    constructor
    · rintro rfl
      exact isGreatest_singleton
    · exact fun h => (Set.mem_singleton_iff.mp h.1).symm
  | node op l r ihl ihr =>
    rw [hasType_node]
    constructor
    · rintro ⟨t, u, hl, hr, h⟩
      obtain ⟨-, hv⟩ := OperatorFamily.filter_join_eq_some.mp h
      have ht : t ≤ type := by
        rcases hv with ⟨-, rfl⟩ | ⟨hle, rfl⟩
        · exact le_rfl
        · exact hle
      have hu : u ≤ type := by
        rcases hv with ⟨hle, rfl⟩ | ⟨-, rfl⟩
        · exact hle
        · exact le_rfl
      have hleft := (ihl (OperatorFamily.accepts_of_le ht hacc)).mp hl
      have hright := (ihr (OperatorFamily.accepts_of_le hu hacc)).mp hr
      refine ⟨?_, fun v hv => ?_⟩
      · rcases hv with ⟨-, rfl⟩ | ⟨-, rfl⟩
        · exact List.mem_append_left _ hleft.1
        · exact List.mem_append_right _ hright.1
      · rcases List.mem_append.mp hv with hv | hv
        · exact (hleft.2 hv).trans ht
        · exact (hright.2 hv).trans hu
    · rintro ⟨hmem, hmax⟩
      have hmaxl : ∀ v ∈ l.leafTypes, v ≤ type := fun v hv => hmax (List.mem_append_left _ hv)
      have hmaxr : ∀ v ∈ r.leafTypes, v ≤ type := fun v hv => hmax (List.mem_append_right _ hv)
      obtain ⟨t, ht⟩ := DataType.exists_isGreatest l.leafTypes_ne_nil hmaxl
      obtain ⟨u, hu⟩ := DataType.exists_isGreatest r.leafTypes_ne_nil hmaxr
      have htle : t ≤ type := hmaxl t ht.1
      have hule : u ≤ type := hmaxr u hu.1
      refine ⟨t, u, (ihl (OperatorFamily.accepts_of_le htle hacc)).mpr ht,
        (ihr (OperatorFamily.accepts_of_le hule hacc)).mpr hu, OperatorFamily.filter_join_eq_some.mpr ⟨hacc, ?_⟩⟩
      rcases List.mem_append.mp hmem with h | h
      · have hte : t = type := le_antisymm htle (ht.2 h)
        exact .inl ⟨hte ▸ hule, hte⟩
      · have hue : u = type := le_antisymm hule (hu.2 h)
        exact .inr ⟨hue ▸ htle, hue⟩

theorem accepts_of_node {op : f.Op} {l r : OperatorTree f} {type : DataType}
    (h : (node op l r).HasType type) : f.accepts type = true := by
  obtain ⟨t, u, -, -, h⟩ := hasType_node.mp h
  exact (OperatorFamily.filter_join_eq_some.mp h).1

end OperatorTree

/-! ## the types at the leaves -/

def DataType.domain? : DataType → Option Domain
  | base _ => none
  | domain d => some d

theorem DataType.domain?_eq_some {t : DataType} {d : Domain} : t.domain? = some d ↔ t = domain d := by
  cases t <;> simp [domain?]

namespace OperatorFamily

/-- The types that may stand together at the leaves of a tree: all accepted, with one domain at most, and
beside a domain over integers no plain number. -/
structure Fits (f : OperatorFamily) (ts : List DataType) : Prop where
  accepted : ∀ t ∈ ts, f.accepts t = true
  domain_eq : ∀ d e, .domain d ∈ ts → .domain e ∈ ts → d = e
  narrow : ∀ d, .domain d ∈ ts → d.base = .integer → .number ∉ ts

/-- the domain at the leaves if there is one, or else the widest base type there -/
def resultType (f : OperatorFamily) (ts : List DataType) : DataType :=
  match ts.findSome? DataType.domain?, f with
  | some d, _ => .domain d
  | none, arithmetic => if .number ∈ ts then .number else .integer
  | none, logic => .boolean

theorem arithmetic_accepts_base {b : BaseType} :
    arithmetic.accepts (.base b) = true ↔ b = .integer ∨ b = .number := by
  show b.isNumeric = true ↔ _
  cases b <;> simp [BaseType.isNumeric, BaseType.kind]

theorem logic_accepts_base {b : BaseType} : logic.accepts (.base b) = true ↔ b = .boolean := by
  show (b.kind == .boolean) = true ↔ _
  cases b <;> simp [BaseType.kind]

theorem fits_of_isGreatest {f : OperatorFamily} {ts : List DataType} {type : DataType}
    (hacc : f.accepts type = true) (h : IsGreatest {t | t ∈ ts} type) : f.Fits ts := by
  have hdomain : ∀ d, .domain d ∈ ts → type = .domain d := fun d hd => DataType.domain_le.mp (h.2 hd)
  refine ⟨fun t ht => accepts_of_le (h.2 ht) hacc, fun d e hd he => ?_, fun d hd hbase hnumber => ?_⟩
  · exact DataType.domain.inj ((hdomain d hd).symm.trans (hdomain e he))
  · have hle : DataType.number ≤ .domain d := hdomain d hd ▸ h.2 hnumber
    rw [DataType.base_le_domain, hbase] at hle
    exact absurd hle (by decide)

/-- beside a domain every base type at the leaves flows into it -/
theorem Fits.le_domain {f : OperatorFamily} {ts : List DataType} (h : f.Fits ts) {d : Domain}
    (hd : .domain d ∈ ts) {t : DataType} (ht : t ∈ ts) : t ≤ .domain d := by
  cases t with
  | domain e => exact (congrArg DataType.domain (h.domain_eq e d ht hd)).le
  | base b =>
    rw [DataType.base_le_domain]
    have hb := h.accepted _ ht
    have hbase := h.accepted _ hd
    rw [accepts_eq] at hbase
    cases f with
    | logic =>
      rw [logic_accepts_base] at hb hbase
      exact (hb.trans hbase.symm).le
    | arithmetic =>
      rw [arithmetic_accepts_base] at hb hbase
      rcases hb with rfl | rfl
      · rcases hbase with hbase | hbase
        · exact hbase.symm.le
        · exact .inr ⟨rfl, hbase⟩
      · rcases hbase with hbase | hbase
        · exact absurd ht (h.narrow d hd hbase)
        · exact hbase.symm.le

theorem isGreatest_resultType {f : OperatorFamily} {ts : List DataType} (hne : ts ≠ []) (h : f.Fits ts) :
    IsGreatest {t | t ∈ ts} (f.resultType ts) := by
  unfold resultType
  cases hfind : ts.findSome? DataType.domain? with
  | some d =>
    obtain ⟨t, ht, hd⟩ := List.exists_of_findSome?_eq_some hfind
    obtain rfl := DataType.domain?_eq_some.mp hd
    exact ⟨ht, fun u hu => h.le_domain ht hu⟩
  | none =>
    have hplain : ∀ t ∈ ts, ∃ b, t = .base b := by
      intro t ht
      cases t with
      | base b => exact ⟨b, rfl⟩
      | domain d => exact nomatch List.findSome?_eq_none_iff.mp hfind _ ht
    obtain ⟨first, hfirst⟩ := List.exists_mem_of_ne_nil ts hne
    cases f with
    | logic =>
      have hboolean : ∀ t ∈ ts, t = .boolean := by
        intro t ht
        obtain ⟨b, rfl⟩ := hplain t ht
        exact congrArg DataType.base (logic_accepts_base.mp (h.accepted _ ht))
      exact ⟨hboolean first hfirst ▸ hfirst, fun t ht => (hboolean t ht).le⟩
    | arithmetic =>
      have hnumeric : ∀ t ∈ ts, t = .integer ∨ t = .number := by
        intro t ht
        obtain ⟨b, rfl⟩ := hplain t ht
        exact (arithmetic_accepts_base.mp (h.accepted _ ht)).imp (congrArg DataType.base)
          (congrArg DataType.base)
      by_cases hnumber : .number ∈ ts
      · rw [if_pos hnumber]
        refine ⟨hnumber, fun t ht => ?_⟩
        rcases hnumeric t ht with rfl | rfl
        · exact .inr ⟨rfl, rfl⟩
        · exact le_rfl
      · rw [if_neg hnumber]
        have hinteger : ∀ t ∈ ts, t = .integer := by
          intro t ht
          rcases hnumeric t ht with rfl | rfl
          · rfl
          · exact absurd ht hnumber
        exact ⟨hinteger first hfirst ▸ hfirst, fun t ht => (hinteger t ht).le⟩

end OperatorFamily

namespace OperatorTree

variable {f : OperatorFamily}

/-- a tree with an operator has the greatest type of its leaves, where the family accepts it -/
theorem hasType_iff_isGreatest {t : OperatorTree f} (h : 2 ≤ t.leafTypes.length) {type : DataType} :
    t.HasType type ↔ f.accepts type = true ∧ IsGreatest {u | u ∈ t.leafTypes} type := by
  constructor
  · intro htype
    have hacc : f.accepts type = true := by
      cases t with
      | leaf e => exact absurd h (by simp [leafTypes])
      | node op l r => exact accepts_of_node htype
    exact ⟨hacc, (hasType_iff hacc).mp htype⟩
  · exact fun ⟨hacc, hgreatest⟩ => (hasType_iff hacc).mpr hgreatest

theorem hasType_iff_fits {t : OperatorTree f} (h : 2 ≤ t.leafTypes.length) {type : DataType} :
    t.HasType type ↔ f.Fits t.leafTypes ∧ type = f.resultType t.leafTypes := by
  rw [hasType_iff_isGreatest h]
  constructor
  · rintro ⟨hacc, hgreatest⟩
    have hfits := OperatorFamily.fits_of_isGreatest hacc hgreatest
    exact ⟨hfits, hgreatest.unique (OperatorFamily.isGreatest_resultType t.leafTypes_ne_nil hfits)⟩
  · rintro ⟨hfits, rfl⟩
    have hgreatest := OperatorFamily.isGreatest_resultType t.leafTypes_ne_nil hfits
    exact ⟨hfits.accepted _ hgreatest.1, hgreatest⟩

/-- **Typing does not depend on the shape of a tree.**  A tree with at least one operator can be built if
and only if the types of its leaves fit, and then it has the type that they determine; a tree of the same
family over the same types, in any order and of any shape, has the same type or none as well. -/
theorem build_typing {t : OperatorTree f} (h : 2 ≤ t.leafTypes.length) :
    ((∃ e, t.build = .ok e) ↔ f.Fits t.leafTypes) ∧
      (∀ e, t.build = .ok e → e.type = f.resultType t.leafTypes) ∧
      ∀ u : OperatorTree f, u.leafTypes.Perm t.leafTypes → ∀ type, u.HasType type ↔ t.HasType type := by
  refine ⟨⟨?_, ?_⟩, ?_, ?_⟩
  · rintro ⟨e, he⟩
    exact ((hasType_iff_fits h).mp ⟨e, he, rfl⟩).1
  · intro hfits
    obtain ⟨e, he, -⟩ := (hasType_iff_fits h).mpr ⟨hfits, rfl⟩
    exact ⟨e, he⟩
  · intro e he
    exact ((hasType_iff_fits h).mp ⟨e, he, rfl⟩).2
  · intro u hperm type
    have hu : 2 ≤ u.leafTypes.length := hperm.length_eq ▸ h
    have hset : {v | v ∈ u.leafTypes} = {v | v ∈ t.leafTypes} := Set.ext fun v => hperm.mem_iff
    rw [hasType_iff_isGreatest hu, hasType_iff_isGreatest h, hset]

def column (name : String) (type : DataType) : OperatorTree f :=
  leaf (.attr ⟨name, type, {}, .bound ⟨⟨1⟩, "sales"⟩⟩)

def proceeds : OperatorTree .arithmetic :=
  node ArithOp.sub (node ArithOp.mul (column "amount" .integer) (column "price" (.domain DataType.price)))
    (column "rebate" .number)

/-- the hypothesis of `build_typing` can be met: the tree is of the domain at one of its leaves -/
theorem build_typing_proceeds : 2 ≤ proceeds.leafTypes.length ∧ (∃ e, proceeds.build = .ok e) ∧
    ∀ e, proceeds.build = .ok e → e.type = .domain DataType.price := by
  have h : 2 ≤ proceeds.leafTypes.length := by decide
  obtain ⟨hbuild, htype, -⟩ := build_typing h
  have hfits : OperatorFamily.arithmetic.Fits proceeds.leafTypes := by
    have hdomain : ∀ d, .domain d ∈ proceeds.leafTypes → d = DataType.price := by
      intro d hd
      simpa [proceeds, column, leafTypes, Expr.type] using hd
    refine ⟨by decide, fun d e hd he => (hdomain d hd).trans (hdomain e he).symm, fun d hd hbase => ?_⟩
    rw [hdomain d hd] at hbase
    exact nomatch hbase
  exact ⟨h, hbuild.mpr hfits, htype⟩

end OperatorTree

end TableAlgebra
