import TableAlgebra.Proofs.DataType.Order
import TableAlgebra.Proofs.Relation.ScopeClosure
import TableAlgebra.Proofs.Sql.Writing

/-!
# What a column is given

A column is given values by insertions and updates and by its own default.  What is asked of their types is that
they meet the type of the column, and meeting is symmetric while an assignment is not.  The two part where the
column is a plain integer, which meets numbers, and where both types are enumerations, which meet by kind.

* `DataType.joinable_cases`       when two types meet, read as an assignment;
* `DataType.Stores`               what a column holds, by its type and the type of the value;
* `DataType.Offers`               what a column has as its default;
* `Relation.accepted_suits`       accepted writes and defaults are of that shape;
* `Relation.not_accepted_fits`    and they need not fit their column better than that.
-/

namespace TableAlgebra

/-! ## meeting as assignment -/

namespace DataType

variable {t u column value : DataType}

theorem underlying_mono (h : t ≤ u) : t.underlying ≤ u.underlying := by
  cases t with
  | base a => cases u <;> exact h
  | domain d =>
    rw [domain_le.mp h]

theorem Clashes.kind_underlying (h : t.Clashes u) :
    t.underlying.kind = .enum ∧ u.underlying.kind = .enum := by
  have hbase : t.underlying.Clashes u.underlying := by
    cases t with
    | base a => cases u <;> exact h
    | domain d => cases u with
      | base b => exact h
      | domain e => exact (show False from h).elim
  obtain ⟨ls, ms, ht, hu, -⟩ := hbase
  rw [ht, hu]
  exact ⟨rfl, rfl⟩

/-- Where two types meet, the second fits the first, or the first is a plain integer and the second, plainly or
as a domain, a number, or both are enumerations. -/
theorem joinable_cases (h : column.joinable value = true) :
    value.underlying ≤ column.underlying ∨ column = .integer ∧ value.underlying = .number ∨
      column.underlying.kind = .enum ∧ value.underlying.kind = .enum := by
  obtain ⟨meet, hmeet⟩ := Option.isSome_iff_exists.mp h
  by_cases hclash : column.Clashes value
  · exact .inr (.inr hclash.kind_underlying)
  · rcases (join_eq_some_iff hclash).mp hmeet with ⟨hle, -⟩ | ⟨hle, -⟩
    · exact .inl (underlying_mono hle)
    · -- only a plain column can be narrower than the value
      cases column with
      | domain d =>
        rw [domain_le.mp hle]
        exact .inl (le_refl _)
      | base a =>
        rcases BaseType.le_iff.mp (underlying_mono hle) with heq | ⟨ha, hb⟩
        · exact .inl (le_of_eq heq.symm)
        · exact .inr (.inl ⟨congrArg base ha, hb⟩)

/-- A column of the first type holds values of the second: their base type is the column's or integer where that
is number, unless the column is a plain integer or of an enumeration. -/
structure Stores (column value : DataType) : Prop where
  fits : value.underlying ≤ column.underlying ∨ column = .integer ∧ value.underlying = .number ∨
    column.underlying.kind = .enum ∧ value.underlying.kind = .enum
  /-- a domain takes no other domain -/
  sameDomain : ∀ d e, column = .domain d → value = .domain e → d = e
  /-- a domain over integers takes no number -/
  whole : ∀ d, column = .domain d → d.base = .integer → value.underlying = .integer
  /-- a column of an enumeration takes enumerations and nothing else, and no other column takes one -/
  labels : column.underlying.kind = .enum ↔ value.underlying.kind = .enum

theorem Stores.of_joinable (h : column.joinable value = true) : column.Stores value where
  fits := joinable_cases h
  sameDomain := by
    rintro d e rfl rfl
    obtain ⟨meet, hmeet⟩ := Option.isSome_iff_exists.mp h
    rw [join_domain_domain, Option.ite_none_right_eq_some] at hmeet
    exact hmeet.1
  whole := by
    intro d hcolumn hinteger
    have hbase : column.underlying = .integer := by rw [hcolumn, ← hinteger]; rfl
    rcases joinable_cases h with hle | ⟨hplain, -⟩ | ⟨hkind, -⟩
    · rcases BaseType.le_iff.mp hle with heq | ⟨hvalue, -⟩
      · exact heq.trans hbase
      · exact hvalue
    · exact nomatch hcolumn.symm.trans hplain
    · rw [hbase] at hkind
      exact nomatch hkind
  labels := by
    rcases joinable_cases h with hle | ⟨hcolumn, hvalue⟩ | ⟨hcolumn, hvalue⟩
    · rcases BaseType.le_iff.mp hle with heq | ⟨hvalue, hcolumn⟩
      · rw [heq]
      · rw [hvalue, hcolumn]
        decide
    · rw [hvalue, hcolumn]
      decide
    · exact iff_of_true hcolumn hvalue

/-! ## defaults -/

/-- The column has the host value as its default: one of its labels if it is of an enumeration, else a literal of
a type that the column holds. -/
structure Offers (column : DataType) (default : Value) : Prop where
  label : ∀ ls, column.underlying = .enum ls → ∃ l ∈ ls, default = .string l
  literal : column.underlying.kind ≠ .enum → ∃ l, default.toLiteral = .ok l ∧ column.Stores l.type

theorem kind_ne_enum_of_toLiteral {v : Value} {l : Literal} (h : v.toLiteral = .ok l) :
    l.type.underlying.kind ≠ .enum := by
  unfold Value.toLiteral at h
  split at h
  · exact Except.ok.inj h ▸ nofun
  · exact Except.ok.inj h ▸ nofun
  · split at h
    · exact nomatch h
    · split at h <;> exact Except.ok.inj h ▸ nofun
  · exact Except.ok.inj h ▸ nofun

theorem Offers.of_checkDefault {default : Value} (h : column.checkDefault default = .ok ()) :
    column.Offers default := by
  unfold checkDefault at h
  split at h
  · rename_i ls label hcolumn
    split at h
    · rename_i hlabel
      constructor
      · intro ms hms
        rw [hcolumn] at hms
        exact ⟨label, BaseType.enum.inj hms ▸ List.contains_iff_mem.mp hlabel, rfl⟩
      · intro hkind
        rw [hcolumn] at hkind
        exact absurd rfl hkind
    · exact nomatch h
  · obtain ⟨l, hl, h⟩ := bind_eq_ok.mp h
    split at h
    · rename_i hjoin
      have hstores := Stores.of_joinable hjoin
      constructor
      · intro ls hls
        have hkind : l.type.underlying.kind = .enum := hstores.labels.mp (hls ▸ rfl)
        exact absurd hkind (kind_ne_enum_of_toLiteral hl)
      · exact fun _ => ⟨l, hl, hstores⟩
    · exact nomatch h

end DataType

/-! ## writes and declarations -/

namespace Relation

variable {r : Relation}

/-- the row sets columns of the relation to values that they hold -/
def Fills (r : Relation) (row : Row) : Prop :=
  ∀ entry ∈ row.entries, ∃ target e, r.column? entry.1 = some target ∧ entry.2.toExpr = .ok e ∧
    target.type.Stores e.type

theorem TakesRow.fills {row : Row} (h : r.TakesRow row) : r.Fills row := by
  intro entry hentry
  obtain ⟨target, e, htakes⟩ := h entry hentry
  exact ⟨target, e, htakes.column, htakes.expr, .of_joinable htakes.joinable⟩

theorem exists_insert_of_takesRow {row : Row} (d : Dialect) (htable : r.isTable = true) (hne : row.isEmpty = false)
    (h : r.TakesRow row) : ∃ s, insertStatement d r [row] = .ok s := by
  refine exists_insertStatement.mpr ⟨htable, row, [], rfl, hne, .inl rfl, fun other hother => ?_⟩
  rw [List.mem_singleton.mp hother]
  exact ⟨.refl _, h⟩

theorem exists_update_of_takesRow {row : Row} (d : Dialect) (htable : r.isTable = true) (hne : row.isEmpty = false)
    (h : r.TakesRow row) : ∃ s, updateStatement d r row none = .ok s :=
  exists_updateStatement.mpr ⟨htable, hne, h, fun _ hc => nomatch hc⟩

/-- **Accepted writes and defaults meet their column.**  A written value has the base type of its column or is an
integer for a number, except that a plain integer takes numbers too, and that enumerations are told apart only if
both are domains; no domain over integers takes a number, and no enumeration takes anything but an enumeration.
A default is one of the labels of an enumeration, and else a literal that the column holds. -/
theorem accepted_suits (r : Relation) :
    (∀ d rows s, insertStatement d r rows = .ok s → ∀ row ∈ rows, r.Fills row) ∧
      (∀ d row condition s, updateStatement d r row condition = .ok s → r.Fills row) ∧
      ∀ serial name t own a, Attribute.declare serial name t own = .ok a →
        ∀ default, a.qualifiers.default = some default → a.type = t ∧ t.Offers default := by
  refine ⟨fun d rows s h row hrow => ?_, fun d row condition s h => ?_,
    fun serial name t own a h default hdefault => ?_⟩
  · obtain ⟨-, first, rest, -, -, -, hrows⟩ := exists_insertStatement.mp ⟨s, h⟩
    exact (hrows row hrow).2.fills
  · obtain ⟨-, -, hrow, -⟩ := exists_updateStatement.mp ⟨s, h⟩
    exact hrow.fills
  · obtain ⟨-, -, hcheck, rfl⟩ := Attribute.declare_eq_ok.mp h
    exact ⟨rfl, .of_checkDefault (hcheck default hdefault)⟩

section

def birth : Row := .ofList [("id", .value (.int 1)), ("born", .value (.int 1950))]

theorem takesRow_birth : personTable.TakesRow birth := by
  intro entry hentry
  have hentries : birth.entries = [("id", .value (.int 1)), ("born", .value (.int 1950))] := rfl
  rw [hentries, List.mem_cons, List.mem_singleton] at hentry
  rcases hentry with rfl | rfl
  · exact ⟨_, _, rfl, rfl, rfl, rfl⟩
  · exact ⟨_, _, rfl, rfl, rfl, rfl⟩

/-- the hypotheses of `accepted_suits` can be met: a person is inserted and updated, and an integer is the default
of a number -/
theorem accepted_suits_birth :
    (∃ s, insertStatement .sqlite personTable [birth] = .ok s ∧ personTable.Fills birth) ∧
      (∃ s, updateStatement .sqlite personTable birth none = .ok s ∧ personTable.Fills birth) ∧
      ∃ a, Attribute.declare ⟨0⟩ "born" .number { default := some (.int 1950) } = .ok a ∧
        DataType.number.Offers (.int 1950) := by
  obtain ⟨hinsert, hupdate, hdeclare⟩ := accepted_suits personTable
  obtain ⟨s, hs⟩ := exists_insert_of_takesRow .sqlite rfl rfl takesRow_birth
  obtain ⟨u, hu⟩ := exists_update_of_takesRow .sqlite rfl rfl takesRow_birth
  refine ⟨⟨s, hs, hinsert _ _ _ hs birth (List.mem_singleton_self _)⟩, ⟨u, hu, hupdate _ _ _ _ hu⟩, ?_⟩
  have ha : Attribute.declare ⟨0⟩ "born" .number { default := some (.int 1950) } = .ok _ := rfl
  exact ⟨_, ha, (hdeclare _ _ _ _ _ ha (.int 1950) rfl).2⟩

/-! ## a number in a column of integers -/

/-- the base type of every value of the row is that of its column, or integer where that is number -/
def FitsRow (r : Relation) (row : Row) : Prop :=
  ∀ entry ∈ row.entries, ∀ target e, r.column? entry.1 = some target → entry.2.toExpr = .ok e →
    e.type.underlying ≤ target.type.underlying

/-- enumerations of the row have the labels of their column -/
def LabelsRow (r : Relation) (row : Row) : Prop :=
  ∀ entry ∈ row.entries, ∀ target e, r.column? entry.1 = some target → entry.2.toExpr = .ok e →
    ∀ ls ms, target.type.underlying = .enum ls → e.type.underlying = .enum ms → ls = ms

/-- one and a half -/
def threeHalves : Binary64 := ⟨0x3FF8000000000000⟩

def payment : Domain := ⟨⟨5⟩, "payment", .enum ["paid", "unpaid"], {}⟩

/-- doors, each of which is open or closed -/
def doorTable : Relation where
  kind := .table "doors" ∅
  sources := ["doors"]
  columns := [⟨"status", .attr ⟨"status", .base (.enum ["open", "closed"]), {}, .bound ⟨⟨6⟩, "doors"⟩⟩⟩]
  restrictions := []
  groups := []
  orders := []

def brokenYear : Row := .ofList [("born", .value (.float threeHalves))]

def paidDoor : Row := .ofList [("status", .label ⟨payment, "paid"⟩)]

theorem takesRow_brokenYear : personTable.TakesRow brokenYear := by
  intro entry hentry
  rw [List.mem_singleton.mp hentry]
  exact ⟨_, _, rfl, rfl, rfl, rfl⟩

theorem takesRow_paidDoor : doorTable.TakesRow paidDoor := by
  intro entry hentry
  rw [List.mem_singleton.mp hentry]
  exact ⟨_, _, rfl, rfl, rfl, rfl⟩

theorem not_fitsRow_brokenYear : ¬ personTable.FitsRow brokenYear := by
  intro h
  have hle := h _ (List.mem_singleton_self _) _ _ rfl rfl
  exact absurd hle (by decide)

theorem not_labelsRow_paidDoor : ¬ doorTable.LabelsRow paidDoor := by
  intro h
  have heq := h _ (List.mem_singleton_self _) _ _ rfl rfl _ _ rfl rfl
  exact absurd heq (by decide)

/-- **Accepted writes and defaults do not always fit their column.**  One and a half is inserted into a column of
integers, set there by an update and declared as its default, and a door is set to a label of another enumeration. -/
theorem not_accepted_fits :
    (¬ ∀ d r row, (∃ s, insertStatement d r [row] = .ok s) → r.FitsRow row) ∧
      (¬ ∀ d r row condition, (∃ s, updateStatement d r row condition = .ok s) → r.FitsRow row) ∧
      (¬ ∀ serial name t own a, Attribute.declare serial name t own = .ok a → t.underlying.kind ≠ .enum →
        ∀ default l, a.qualifiers.default = some default → default.toLiteral = .ok l →
          l.type.underlying ≤ t.underlying) ∧
      (¬ ∀ d r row, (∃ s, insertStatement d r [row] = .ok s) → r.LabelsRow row) ∧
      ¬ ∀ d r row condition, (∃ s, updateStatement d r row condition = .ok s) → r.LabelsRow row := by
  refine ⟨fun h => ?_, fun h => ?_, fun h => ?_, fun h => ?_, fun h => ?_⟩
  · have hinsert := exists_insert_of_takesRow .sqlite rfl rfl takesRow_brokenYear
    exact not_fitsRow_brokenYear (h _ _ _ hinsert)
  · have hupdate := exists_update_of_takesRow .sqlite rfl rfl takesRow_brokenYear
    exact not_fitsRow_brokenYear (h _ _ _ _ hupdate)
  · have ha : Attribute.declare ⟨0⟩ "n" .integer { default := some (.float threeHalves) } = .ok _ := rfl
    have hl : (Value.float threeHalves).toLiteral = .ok (.number threeHalves) := rfl
    exact absurd (h _ _ _ _ _ ha nofun _ _ rfl hl) (by decide)
  · have hinsert := exists_insert_of_takesRow .sqlite rfl rfl takesRow_paidDoor
    exact not_labelsRow_paidDoor (h _ _ _ hinsert)
  · have hupdate := exists_update_of_takesRow .sqlite rfl rfl takesRow_paidDoor
    exact not_labelsRow_paidDoor (h _ _ _ _ hupdate)

end

end Relation

end TableAlgebra
