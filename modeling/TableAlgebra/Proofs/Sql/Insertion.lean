import TableAlgebra.Proofs.Sql.Admission

/-!
# Values in the order of the columns

An insertion writes the columns in the order of the first row, and every row gives each of them the value it sets
under that name, wherever in the row it stands.  The rows are looked at in turn, so the first one that sets other
columns is reported, provided that all before it are accepted.

* `insertText`                        the text of an insertion;
* `Row.Writes`, `Relation.AcceptsRow`     the items of a tuple, and the values that a table takes;
* `tupleText_eq_heterogeneous`        a tuple is refused for its columns only if they are others;
* `insertStatement_by_name`           what is inserted, and what is said of a row that does not fit.
-/

namespace TableAlgebra

/-! ## columns -/

namespace Row

variable {row other : Row}

theorem keys_perm_iff : row.keys.Perm other.keys ↔ ∀ c, c ∈ row.keys ↔ c ∈ other.keys :=
  List.perm_ext_iff_of_nodup row.nodup_keys other.nodup_keys

theorem sameColumns_iff_mem : row.sameColumns other = true ↔ ∀ c, c ∈ row.keys ↔ c ∈ other.keys :=
  sameColumns_iff.trans keys_perm_iff

theorem exists_find?_of_sameColumns (h : row.sameColumns other = true) {column : String}
    (hcolumn : column ∈ other.keys) : ∃ value, row.find? column = some value := by
  have hmem : column ∈ row.keys := (sameColumns_iff_mem.mp h column).mpr hcolumn
  exact Option.isSome_iff_exists.mp (OrderedMap.contains_iff.mpr hmem)

/-- the items are the texts of the values that the row sets for the columns, in their order -/
def Writes (d : Dialect) (columns : List String) (row : Row) (items : List String) : Prop :=
  List.Forall₂ (fun column item => ∃ value e, row.find? column = some value ∧ value.toExpr = .ok e ∧
    item = exprText d false e) columns items

end Row

/-- the row sets columns of the relation to operands over its own attributes, of types that meet the columns' -/
def Relation.AcceptsRow (r : Relation) (row : Row) : Prop :=
  ∀ entry ∈ row.entries, ∃ target e, r.column? entry.1 = some target ∧ entry.2.toExpr = .ok e ∧
    (∀ a ∈ e.leaves, r.owns a = true) ∧ target.type.joinable e.type = true

theorem Relation.acceptsRow_iff {r : Relation} {row : Row} : r.AcceptsRow row ↔ r.TakesRow row := by
  refine forall₂_congr fun entry _ => exists₂_congr fun target e => ?_
  rw [← valid_iff_owns]
  exact ⟨fun ⟨hcolumn, hexpr, hvalid, hjoin⟩ => ⟨hcolumn, hexpr, hvalid, hjoin⟩,
    fun h => ⟨h.column, h.expr, h.valid, h.joinable⟩⟩

/-! ## tuples -/

variable {d : Dialect} {r : Relation} {table : String}

theorem valueText_eq_error {use : TypedUse} {column : String} {value : Operand} {e : CompileError}
    (h : valueText d r table use column value = .error e) :
    e = .unknownColumn table column ∨ ∃ error, e = .algebra error := by
  cases hcolumn : r.column? column with
  | none =>
    rw [valueText, hcolumn] at h
    exact .inl (Except.error.inj h).symm
  | some target =>
    refine .inr ?_
    cases hexpr : value.toExpr with
    | error error =>
      rw [valueText, hcolumn, hexpr] at h
      exact ⟨error, (Except.error.inj h).symm⟩
    | ok x =>
      rw [valueText_eq hcolumn hexpr] at h
      split at h
      · split at h
        · cases h
        · exact ⟨_, (Except.error.inj h).symm⟩
      · exact ⟨_, (Except.error.inj h).symm⟩

theorem tupleText_eq_error {first row : Row} {index : Nat} {e : CompileError}
    (h : tupleText d r table first row index = .error e) :
    e = .heterogeneousRows index ∨ ∃ column value, valueText d r table .insert column value = .error e := by
  unfold tupleText at h
  split at h
  · exact .inl (Except.error.inj h).symm
  rcases bind_eq_error.mp h with h | ⟨items, -, h⟩
  · obtain ⟨column, -, h⟩ := exists_of_mapM_eq_error h
    cases hvalue : row.find? column with
    | none =>
      rw [hvalue] at h
      exact .inl (Except.error.inj h).symm
    | some value =>
      rw [hvalue] at h
      exact .inr ⟨column, value, h⟩
  · cases h

/-- a tuple is refused for its columns if and only if they are not those of the first row: each value is found -/
theorem tupleText_eq_heterogeneous {first row : Row} {index i : Nat} :
    tupleText d r table first row index = .error (.heterogeneousRows i) ↔
      row.sameColumns first = false ∧ index = i := by
  unfold tupleText
  cases hsame : row.sameColumns first with
  | false =>
    show Except.error (CompileError.heterogeneousRows index) = _ ↔ _
    simp
  | true =>
    refine ⟨fun h => ?_, fun h => absurd h.1 (by decide)⟩
    rcases bind_eq_error.mp h with h | ⟨items, -, h⟩
    · obtain ⟨column, hcolumn, h⟩ := exists_of_mapM_eq_error h
      obtain ⟨value, hvalue⟩ := Row.exists_find?_of_sameColumns hsame hcolumn
      rw [hvalue] at h
      rcases valueText_eq_error h with he | ⟨error, he⟩
      · cases he
      · cases he
    · cases h

theorem writes_of_tupleText {first row : Row} {index : Nat} {text : String}
    (h : tupleText d r table first row index = .ok text) :
    ∃ items, row.Writes d first.keys items ∧ text = ",".intercalate items := by
  unfold tupleText at h
  split at h
  · cases h
  obtain ⟨items, hitems, h⟩ := bind_eq_ok.mp h
  refine ⟨items, (mapM_eq_ok.mp hitems).imp ?_, (Except.ok.inj h).symm⟩
  intro column item hitem
  cases hvalue : row.find? column with
  | none =>
    rw [hvalue] at hitem
    cases hitem
  | some value =>
    rw [hvalue] at hitem
    obtain ⟨target, e, htakes, htext⟩ := valueText_eq_ok.mp hitem
    exact ⟨value, e, rfl, htakes.expr, htext.symm⟩

theorem writes_of_tupleTexts {first : Row} {index : Nat} {rows : List Row} {texts : List String}
    (h : tupleTexts d r table first index rows = .ok texts) :
    ∃ tuples, List.Forall₂ (Row.Writes d first.keys) rows tuples ∧ texts = tuples.map (",".intercalate ·) := by
  induction rows generalizing index texts with
  | nil => exact ⟨[], .nil, (Except.ok.inj h).symm⟩
  | cons row rows ih =>
    rw [tupleTexts] at h
    obtain ⟨text, htext, h⟩ := bind_eq_ok.mp h
    obtain ⟨rest, hrest, h⟩ := bind_eq_ok.mp h
    obtain ⟨items, hitems, rfl⟩ := writes_of_tupleText htext
    obtain ⟨tuples, htuples, rfl⟩ := ih hrest
    exact ⟨items :: tuples, .cons hitems htuples, (Except.ok.inj h).symm⟩

theorem tupleTexts_ne_multiRowUnsupported {first : Row} {index : Nat} {rows : List Row} {refused : Dialect} :
    tupleTexts d r table first index rows ≠ .error (.multiRowUnsupported refused) := by
  induction rows generalizing index with
  | nil =>
    intro h
    cases h
  | cons row rows ih =>
    intro h
    rw [tupleTexts] at h
    rcases bind_eq_error.mp h with h | ⟨text, -, h⟩
    · rcases tupleText_eq_error h with he | ⟨column, value, h⟩
      · cases he
      rcases valueText_eq_error h with he | ⟨error, he⟩
      · cases he
      · cases he
    rcases bind_eq_error.mp h with h | ⟨rest, -, h⟩
    · exact ih h
    · cases h

theorem tupleTexts_eq_heterogeneous {first : Row} {index i : Nat} {rows : List Row} :
    tupleTexts d r table first index rows = .error (.heterogeneousRows i) ↔
      ∃ before row after, rows = before ++ row :: after ∧ i = index + before.length ∧
        row.sameColumns first = false ∧ ∀ b ∈ before, b.keys.Perm first.keys ∧ r.TakesRow b := by
  induction rows generalizing index with
  | nil =>
    constructor
    · intro h
      cases h
    · rintro ⟨before, row, after, h, -⟩
      exact absurd h.symm (List.append_ne_nil_of_right_ne_nil _ (List.cons_ne_nil _ _))
  | cons row rows ih =>
    rw [tupleTexts, bind_eq_error, tupleText_eq_heterogeneous]
    constructor
    · rintro (⟨hsame, rfl⟩ | ⟨text, htext, h⟩)
      · exact ⟨[], row, rows, rfl, rfl, hsame, fun b hb => absurd hb List.not_mem_nil⟩
      have hrow := (exists_tupleText table index).mp ⟨text, htext⟩
      rcases bind_eq_error.mp h with h | ⟨rest, -, h⟩
      · obtain ⟨before, bad, after, rfl, rfl, hsame, hbefore⟩ := ih.mp h
        refine ⟨row :: before, bad, after, rfl, ?_, hsame, List.forall_mem_cons.mpr ⟨hrow, hbefore⟩⟩
        rw [List.length_cons]
        omega
      · cases h
    · rintro ⟨before, bad, after, heq, hi, hsame, hbefore⟩
      cases before with
      | nil =>
        obtain ⟨rfl, rfl⟩ := List.cons.inj heq
        exact .inl ⟨hsame, hi.symm⟩
      | cons b before =>
        obtain ⟨rfl, rfl⟩ := List.cons.inj heq
        obtain ⟨hrow, hbefore⟩ := List.forall_mem_cons.mp hbefore
        obtain ⟨text, htext⟩ := (exists_tupleText table index).mpr hrow
        refine .inr ⟨text, htext, bind_eq_error.mpr (.inl (ih.mpr ?_))⟩
        refine ⟨before, bad, after, rfl, ?_, hsame, hbefore⟩
        rw [List.length_cons] at hi
        omega

/-! ## statements -/

/-- the text of an insertion into columns, with a tuple of items for each row -/
def insertText (d : Dialect) (name : String) (columns tuples : List String) : String :=
  "insert into " ++ name ++ " (" ++ ",".intercalate columns ++ ") values (" ++ "), (".intercalate tuples ++ ")"
    ++ d.insertSuffix

theorem insertStatement_of_name?_eq_none (hname : r.name? = none) (d : Dialect) (rows : List Row) :
    insertStatement d r rows = .error (.notWritable .insert) := by
  rw [insertStatement, requireWritable, hname]
  rfl

theorem insertStatement_nil {name : String} (hname : r.name? = some name) (d : Dialect) :
    insertStatement d r [] = .error (.emptyRow .insert) := by
  rw [insertStatement, requireWritable_eq_ok.mpr hname]
  rfl

theorem insertStatement_cons {name : String} (hname : r.name? = some name) (d : Dialect) (first : Row)
    (rest : List Row) :
    insertStatement d r (first :: rest) =
      if first.isEmpty then .error (.emptyRow .insert)
      else if rest ≠ [] ∧ d = .sqlite then .error (.multiRowUnsupported d)
      else (tupleTexts d r name first 0 (first :: rest)).map fun tuples =>
        { sql := insertText d name first.keys tuples } := by
  unfold insertStatement
  rw [requireWritable_eq_ok.mpr hname]
  show (if first.isEmpty then _ else _) = _
  cases first.isEmpty with
  | true => rfl
  | false =>
    cases rest with
    | nil => rfl
    | cons row rest =>
      cases d with
      | sqlite =>
        have hrefused : row :: rest ≠ [] ∧ Dialect.sqlite = .sqlite := ⟨List.cons_ne_nil _ _, rfl⟩
        rw [if_pos hrefused]
        rfl
      | postgres =>
        have htaken : ¬ (row :: rest ≠ [] ∧ Dialect.postgres = .sqlite) := fun h => absurd h.2 (by decide)
        rw [if_neg htaken]
        rfl

theorem insertStatement_eq_heterogeneous {rows : List Row} {i : Nat} :
    insertStatement d r rows = .error (.heterogeneousRows i) ↔ d = .postgres ∧
      ∃ first before row after, rows = (first :: before) ++ row :: after ∧ i = (first :: before).length ∧
        (∃ s, insertStatement d r (first :: before) = .ok s) ∧ ¬ ∀ c, c ∈ row.keys ↔ c ∈ first.keys := by
  have hothers {row first : Row} : row.sameColumns first = false ↔ ¬ ∀ c, c ∈ row.keys ↔ c ∈ first.keys := by
    rw [← Row.sameColumns_iff_mem, Bool.not_eq_true]
  constructor
  · intro h
    cases hname : r.name? with
    | none =>
      rw [insertStatement_of_name?_eq_none hname] at h
      cases h
    | some name =>
      cases rows with
      | nil =>
        rw [insertStatement_nil hname] at h
        cases h
      | cons first rest =>
        rw [insertStatement_cons hname] at h
        split at h
        · cases h
        rename_i hempty
        split at h
        · cases h
        rename_i hmany
        obtain ⟨before, row, after, heq, rfl, hsame, hbefore⟩ :=
          tupleTexts_eq_heterogeneous.mp (map_eq_error.mp h)
        cases before with
        | nil =>
          obtain ⟨rfl, rfl⟩ := List.cons.inj heq
          exact absurd (fun _ => Iff.rfl) (hothers.mp hsame)
        | cons b before =>
          obtain ⟨rfl, rfl⟩ := List.cons.inj heq
          have hpostgres : d = .postgres := by
            cases d with
            | sqlite => exact absurd ⟨List.append_ne_nil_of_right_ne_nil _ (List.cons_ne_nil _ _), rfl⟩ hmany
            | postgres => rfl
          refine ⟨hpostgres, first, before, row, after, rfl, Nat.zero_add _, ?_, hothers.mp hsame⟩
          refine exists_insertStatement.mpr ⟨isTable_iff.mpr ⟨name, hname⟩, first, before, rfl, ?_, ?_, hbefore⟩
          · exact Bool.not_eq_true _ ▸ hempty
          · exact .inr (hpostgres ▸ rfl)
  · rintro ⟨rfl, first, before, row, after, rfl, rfl, haccepted, hsame⟩
    obtain ⟨htable, first, before, heq, hempty, -, hbefore⟩ := exists_insertStatement.mp haccepted
    obtain ⟨rfl, rfl⟩ := List.cons.inj heq
    obtain ⟨name, hname⟩ := isTable_iff.mp htable
    have hmany : ¬ (before ++ row :: after ≠ [] ∧ Dialect.postgres = .sqlite) := fun h => absurd h.2 (by decide)
    rw [List.cons_append, insertStatement_cons hname, if_neg (by simp [hempty]), if_neg hmany]
    refine map_eq_error.mpr (tupleTexts_eq_heterogeneous.mpr ?_)
    exact ⟨first :: before, row, after, rfl, (Nat.zero_add _).symm, hothers.mpr hsame, hbefore⟩

/-- The rows are inserted by the names of their columns: what is accepted, what is written for it, and which row is
said not to fit. -/
structure Relation.InsertsByName (r : Relation) (d : Dialect) (rows : List Row) : Prop where
  accepted : (∃ s, insertStatement d r rows = .ok s) ↔ r.isTable = true ∧ ∃ first rest, rows = first :: rest ∧
    first.isEmpty = false ∧ (rest = [] ∨ d = .postgres) ∧
    ∀ row ∈ rows, (∀ c, c ∈ row.keys ↔ c ∈ first.keys) ∧ r.AcceptsRow row
  written : ∀ s, insertStatement d r rows = .ok s → ∃ name first rest tuples, r.name? = some name ∧
    rows = first :: rest ∧ List.Forall₂ (Row.Writes d first.keys) rows tuples ∧
    s = { sql := insertText d name first.keys (tuples.map (",".intercalate ·)) }
  heterogeneous : ∀ i, insertStatement d r rows = .error (.heterogeneousRows i) ↔ d = .postgres ∧
    ∃ first before row after, rows = (first :: before) ++ row :: after ∧ i = (first :: before).length ∧
      (∃ s, insertStatement d r (first :: before) = .ok s) ∧ ¬ ∀ c, c ∈ row.keys ↔ c ∈ first.keys
  least : ∀ i, insertStatement d r rows = .error (.heterogeneousRows i) → ∃ first, rows.head? = some first ∧
    IsLeast {j | ∃ row, rows[j]? = some row ∧ ¬ ∀ c, c ∈ row.keys ↔ c ∈ first.keys} i
  found : ∀ table first row index, row.sameColumns first = true →
    (∀ column ∈ first.keys, ∃ value, row.find? column = some value) ∧
    ∀ i, tupleText d r table first row index ≠ .error (.heterogeneousRows i)

theorem exists_insertStatement_iff {rows : List Row} :
    (∃ s, insertStatement d r rows = .ok s) ↔ r.isTable = true ∧ ∃ first rest, rows = first :: rest ∧
      first.isEmpty = false ∧ (rest = [] ∨ d = .postgres) ∧
      ∀ row ∈ rows, (∀ c, c ∈ row.keys ↔ c ∈ first.keys) ∧ r.AcceptsRow row := by
  have hmulti : d.multiRow = true ↔ d = .postgres := by
    cases d <;> simp [Dialect.multiRow]
  simp only [exists_insertStatement, Relation.acceptsRow_iff, Row.keys_perm_iff, hmulti]

theorem writes_of_insertStatement {rows : List Row} {s : Statement}
    (h : insertStatement d r rows = .ok s) : ∃ name first rest tuples, r.name? = some name ∧
      rows = first :: rest ∧ List.Forall₂ (Row.Writes d first.keys) rows tuples ∧
      s = { sql := insertText d name first.keys (tuples.map (",".intercalate ·)) } := by
  obtain ⟨htable, first, rest, rfl, -⟩ := exists_insertStatement.mp ⟨s, h⟩
  obtain ⟨name, hname⟩ := isTable_iff.mp htable
  rw [insertStatement_cons hname] at h
  split at h
  · cases h
  split at h
  · cases h
  obtain ⟨texts, htexts, rfl⟩ := map_eq_ok.mp h
  obtain ⟨tuples, htuples, rfl⟩ := writes_of_tupleTexts htexts
  exact ⟨name, first, rest, tuples, hname, rfl, htuples, rfl⟩

theorem isLeast_of_heterogeneous {rows : List Row} {i : Nat}
    (h : insertStatement d r rows = .error (.heterogeneousRows i)) : ∃ first, rows.head? = some first ∧
      IsLeast {j | ∃ row, rows[j]? = some row ∧ ¬ ∀ c, c ∈ row.keys ↔ c ∈ first.keys} i := by
  obtain ⟨-, first, before, row, after, rfl, rfl, haccepted, hsame⟩ := insertStatement_eq_heterogeneous.mp h
  obtain ⟨-, first, before, heq, -, -, hbefore⟩ := exists_insertStatement.mp haccepted
  obtain ⟨rfl, rfl⟩ := List.cons.inj heq
  have hrow : ((first :: before) ++ row :: after)[(first :: before).length]? = some row := by
    rw [List.getElem?_append_right (Nat.le_refl _), Nat.sub_self, List.getElem?_cons_zero]
  refine ⟨first, rfl, ⟨row, hrow, hsame⟩, ?_⟩
  rintro j ⟨other, hother, hne⟩
  by_contra hj
  rw [List.getElem?_append_left (Nat.lt_of_not_le hj)] at hother
  exact hne (Row.keys_perm_iff.mp (hbefore other (List.mem_of_getElem? hother)).1)

/-- **Insertions align values by the names of columns.**  An insertion is accepted if and only if it is into a table,
there is a first row that sets a column, there is one row unless the dialect takes more, and every row sets the
columns of the first, in whatever order, to values that the table takes.  Then the columns are written in the order
of the first row, and in the tuple of each row the value that the row sets for each of them.  The row that is said
not to fit is the first one with other columns, and all rows before it would be accepted; in a row with the columns
of the first one, each of them is found. -/
theorem insertStatement_by_name (r : Relation) (d : Dialect) (rows : List Row) : r.InsertsByName d rows where
  accepted := exists_insertStatement_iff
  written _ := writes_of_insertStatement
  heterogeneous _ := insertStatement_eq_heterogeneous
  least _ := isLeast_of_heterogeneous
  found table first row index hsame := by
    refine ⟨fun column hcolumn => Row.exists_find?_of_sameColumns hsame hcolumn, fun i h => ?_⟩
    obtain ⟨hothers, -⟩ := tupleText_eq_heterogeneous.mp h
    rw [hsame] at hothers
    cases hothers

end TableAlgebra
