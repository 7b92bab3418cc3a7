import Mathlib.Logic.Function.Basic
import TableAlgebra.Proofs.Database.Validation

/-!
# Validation converges

A driver that keeps a map from the names of its tables to the texts that created them brings validation to rest.
If validation succeeds, every declared table is there, what was there is as it was, and a second validation
finds every table and sends lookups only.  If it drops the tables first it always succeeds, and every declared
table is its own declaration afterwards.

* `KeepsTables`                    what is asked of the driver;
* `TableVisits.fills`, `TableVisits.recreates`   what visits do to the map, without dropping and with it;
* `Database.validate_converges`    both for every schema;
* `catalog`                        such a driver.
-/

namespace TableAlgebra

section

variable {σ : Type}

/-! ## drivers that keep tables -/

/-- What the lookup of a table gives: nothing if it is not there, else its text in SQLite, and one row for each
of its columns in PostgreSQL. -/
inductive Shows (columns : String → List String) : Dialect → Option String → List ResultRow → Prop where
  | absent (d : Dialect) : Shows columns d none []
  | definition {row : ResultRow} {text : String} (shown : row.get? "sql" = some (.string text)) :
      Shows columns .sqlite (some text) [row]
  | columns {rows : List ResultRow} {text : String} (shown : rows.length = (columns text).length) :
      Shows columns .postgres (some text) rows

/-- The driver keeps a map from the names of tables to the texts that created them, `columns` being the columns
that a text defines.  A table is created only if it is not there. -/
structure KeepsTables (driver : Driver σ) (d : Dialect) (tables : σ → String → Option String)
    (columns : String → List String) : Prop where
  create_absent {name : String} {definitions : List String} {s s' : σ}
    {answer : Except String (List ResultRow)} (named : isIdentifier name = true)
    (absent : tables s name = none)
    (sent : driver { sql := createText name definitions } s = (answer, s')) :
    (∃ rows, answer = .ok rows) ∧
      tables s' = Function.update (tables s) name (some (createText name definitions))
  create_present {name : String} {definitions : List String} {s s' : σ}
    {answer : Except String (List ResultRow)} (named : isIdentifier name = true)
    (present : tables s name ≠ none)
    (sent : driver { sql := createText name definitions } s = (answer, s')) :
    (∃ message, answer = .error message) ∧ tables s' = tables s
  drop {name : String} {s s' : σ} {answer : Except String (List ResultRow)}
    (named : isIdentifier name = true)
    (sent : driver { sql := "drop table if exists " ++ name } s = (answer, s')) :
    (∃ rows, answer = .ok rows) ∧ tables s' = Function.update (tables s) name none
  lookup {name : String} {s s' : σ} {answer : Except String (List ResultRow)}
    (named : isIdentifier name = true) (sent : driver (d.definitionLookup name) s = (answer, s')) :
    (∃ rows, answer = .ok rows ∧ Shows columns d (tables s name) rows) ∧ tables s' = tables s
  /-- a declared table has the columns that it was declared with -/
  columns_create {c : TableDeclaration} {t : Relation} {create : Statement}
    (declared : ∀ a ∈ c.attributes, a.Declared) (made : c.run = .ok t)
    (compiled : createStatement d t = .ok create) :
    columns create.sql = c.attributes.map Attribute.name

theorem KeepsTables.recording {driver : Driver σ} {d : Dialect} {tables : σ → String → Option String}
    {columns : String → List String} (h : KeepsTables driver d tables columns) :
    KeepsTables driver.recording d (fun s => tables s.1) columns where
  create_absent named absent sent := by
    obtain ⟨rfl, rfl⟩ := Prod.mk.inj sent
    exact h.create_absent named absent rfl
  create_present named present sent := by
    obtain ⟨rfl, rfl⟩ := Prod.mk.inj sent
    exact h.create_present named present rfl
  drop named sent := by
    obtain ⟨rfl, rfl⟩ := Prod.mk.inj sent
    exact h.drop named rfl
  lookup named sent := by
    obtain ⟨rfl, rfl⟩ := Prod.mk.inj sent
    exact h.lookup named rfl
  columns_create := h.columns_create

/-! ## tables that stand -/

/-- the plan is one of a declared table: its name can be written, and it has columns -/
structure PlannedTable.Sound (columns : String → List String) (p : PlannedTable) : Prop where
  named : isIdentifier p.name = true
  create : ∃ definitions, p.create = { sql := createText p.name definitions }
  columns : columns p.create.sql ≠ []

/-- what validation asks of the text of a table that is there -/
def PlannedTable.Accepts (p : PlannedTable) (columns : String → List String) (text : String) : Dialect → Prop
  | .sqlite => lowercase text = lowercase p.create.sql
  | .postgres => columns text ≠ []

/-- the table is there, and validation asks for nothing else -/
def PlannedTable.Stands (p : PlannedTable) (columns : String → List String) (d : Dialect)
    (found : Option String) : Prop := ∃ text, found = some text ∧ p.Accepts columns text d

variable {driver : Driver σ} {d : Dialect} {tables : σ → String → Option String}
  {columns : String → List String} {p : PlannedTable} {s s' : σ}

theorem PlannedTable.Sound.accepts (hp : p.Sound columns) (d : Dialect) :
    p.Accepts columns p.create.sql d := by
  cases d with
  | sqlite => rfl
  | postgres => exact hp.columns

theorem foundText_of_shown {row : ResultRow} {text : String} (h : row.get? "sql" = some (.string text)) :
    Database.foundText "sql" row = text := by
  unfold Database.foundText
  rw [h]
  rfl

theorem PlannedTable.Stands.ne_none {found : Option String} (h : p.Stands columns d found) :
    found ≠ none := by
  obtain ⟨text, rfl, -⟩ := h
  exact Option.some_ne_none text

theorem Shows.stands {found : Option String} {row : ResultRow} {rest : List ResultRow}
    (h : Shows columns d found (row :: rest)) (hagrees : ¬ p.Drifts d row) : p.Stands columns d found := by
  cases h with
  | @definition _ text shown =>
    refine ⟨text, rfl, ?_⟩
    by_contra hdiffers
    exact hagrees ⟨rfl, foundText_of_shown shown ▸ hdiffers⟩
  | @columns _ text shown =>
    refine ⟨text, rfl, fun hnone => ?_⟩
    rw [hnone] at shown
    exact absurd shown (by simp)

theorem PlannedTable.Stands.exists_row {found : Option String} {rows : List ResultRow}
    (h : p.Stands columns d found) (hshows : Shows columns d found rows) :
    ∃ row rest, rows = row :: rest ∧ ¬ p.Drifts d row := by
  obtain ⟨text, rfl, haccepts⟩ := h
  cases hshows with
  | @definition row _ shown =>
    refine ⟨row, [], rfl, fun hdrifts => hdrifts.2 ?_⟩
    rw [foundText_of_shown shown]
    exact haccepts
  | columns shown =>
    cases rows with
    | nil => exact absurd (List.eq_nil_of_length_eq_zero shown.symm) haccepts
    | cons row rest => exact ⟨row, rest, rfl, fun hdrifts => nomatch hdrifts.1⟩

/-! ## visits that keep tables -/

def Extends (names : List String) (before after : String → Option String) : Prop :=
  ∀ name, before name ≠ none ∨ name ∉ names → after name = before name

theorem Extends.update {name : String} {before : String → Option String} (habsent : before name = none)
    (found : Option String) : Extends [name] before (Function.update before name found) := by
  intro other hother
  have hne : other ≠ name := by
    rintro rfl
    rcases hother with hpresent | hnot
    · exact hpresent habsent
    · exact hnot List.mem_cons_self
  exact Function.update_of_ne hne _ _

theorem Extends.trans {names more : List String} {before between after : String → Option String}
    (h : Extends names before between) (hmore : Extends more between after) :
    Extends (names ++ more) before after := by
  intro name hname
  have hfirst : between name = before name :=
    h name (hname.imp_right fun hnot hmem => hnot (List.mem_append_left more hmem))
  rw [← hfirst]
  refine hmore name (hname.imp (fun hpresent => ?_) fun hnot hmem => ?_)
  · rwa [hfirst]
  · exact hnot (List.mem_append_right names hmem)

section

variable (hk : KeepsTables driver d tables columns)

include hk

theorem Settles.creates (hp : p.Sound columns) {result : Except DatabaseError TableStatus}
    (habsent : tables s p.name = none) (h : Settles driver d p s result s') :
    result = .ok .created ∧ tables s' = Function.update (tables s) p.name (some p.create.sql) := by
  obtain ⟨definitions, hdefinitions⟩ := hp.create
  -- the lookup gives no rows, which leaves creation as the only thing to do
  have hlooked : ∀ {answer s₁}, driver (d.definitionLookup p.name) s = (answer, s₁) →
      answer = .ok [] ∧ tables s₁ = tables s := by
    intro answer s₁ hlookup
    obtain ⟨⟨rows, rfl, hshows⟩, hs₁⟩ := hk.lookup hp.named hlookup
    rw [habsent] at hshows
    cases hshows
    exact ⟨rfl, hs₁⟩
  cases h with
  | unseen hlookup => exact nomatch (hlooked hlookup).1
  | drifted hlookup _ => exact nomatch (hlooked hlookup).1
  | verified hlookup _ => exact nomatch (hlooked hlookup).1
  | uncreated hlookup hcreate =>
    obtain ⟨-, hs₁⟩ := hlooked hlookup
    rw [hdefinitions] at hcreate
    obtain ⟨⟨rows, hrows⟩, -⟩ := hk.create_absent hp.named (hs₁ ▸ habsent) hcreate
    exact nomatch hrows
  | created hlookup hcreate =>
    obtain ⟨-, hs₁⟩ := hlooked hlookup
    rw [hdefinitions] at hcreate
    obtain ⟨-, hs'⟩ := hk.create_absent hp.named (hs₁ ▸ habsent) hcreate
    rw [hs', hs₁, hdefinitions]
    exact ⟨rfl, rfl⟩

theorem Settles.fills (hp : p.Sound columns) {status : TableStatus}
    (h : Settles driver d p s (.ok status) s') :
    p.Stands columns d (tables s' p.name) ∧ Extends [p.name] (tables s) (tables s') := by
  by_cases habsent : tables s p.name = none
  · obtain ⟨-, hs'⟩ := h.creates hk hp habsent
    rw [hs']
    constructor
    · rw [Function.update_self]
      exact ⟨_, rfl, hp.accepts d⟩
    · exact .update habsent _
  · cases h with
    | created hlookup hcreate =>
      obtain ⟨-, hs₁⟩ := hk.lookup hp.named hlookup
      obtain ⟨definitions, hdefinitions⟩ := hp.create
      rw [hdefinitions] at hcreate
      rw [← hs₁] at habsent
      obtain ⟨⟨message, hrefused⟩, -⟩ := hk.create_present hp.named habsent hcreate
      exact nomatch hrefused
    | verified hlookup hagrees =>
      obtain ⟨⟨rows, hrows, hshows⟩, hs'⟩ := hk.lookup hp.named hlookup
      obtain rfl := Except.ok.inj hrows
      rw [hs']
      exact ⟨hshows.stands hagrees, fun name _ => rfl⟩

/-- Visits that succeed without dropping leave every table standing and what was there as it was. -/
theorem TableVisits.fills {ps : List PlannedTable} (hps : ∀ p ∈ ps, p.Sound columns)
    {report : List (String × TableStatus)} (h : TableVisits driver d false ps s (.ok report) s') :
    (∀ p ∈ ps, p.Stands columns d (tables s' p.name)) ∧
      Extends (ps.map PlannedTable.name) (tables s) (tables s') := by
  generalize hresult : Except.ok report = result at h
  induction h generalizing report with
  | done s => exact ⟨nofun, fun name _ => rfl⟩
  | stopped => exact nomatch hresult
  | @next p ps s s₁ s' status result hvisit _ ih =>
    cases result with
    | error e => exact nomatch hresult
    | ok rest =>
      obtain ⟨hp, hps⟩ := List.forall_mem_cons.mp hps
      obtain ⟨hstands, hextends⟩ := ih hps rfl
      cases hvisit with
      | reached hprepares hsettles =>
        cases hprepares
        obtain ⟨hp₁, hextends₁⟩ := hsettles.fills hk hp
        refine ⟨List.forall_mem_cons.mpr ⟨?_, hstands⟩, hextends₁.trans hextends⟩
        -- the table is there when the visits of the others begin
        rwa [hextends p.name (.inl hp₁.ne_none)]

theorem TableVisit.recreates (hp : p.Sound columns) {result : Except DatabaseError TableStatus}
    (h : TableVisit driver d true p s result s') :
    result = .ok .created ∧ tables s' = Function.update (tables s) p.name (some p.create.sql) := by
  cases h with
  | undropped _ hdrop =>
    obtain ⟨⟨rows, hrows⟩, -⟩ := hk.drop hp.named hdrop
    exact nomatch hrows
  | reached hprepares hsettles =>
    cases hprepares with
    | dropped hdrop =>
      obtain ⟨-, hs₁⟩ := hk.drop hp.named hdrop
      obtain ⟨hresult, hs'⟩ := hsettles.creates hk hp (by rw [hs₁, Function.update_self])
      rw [hs', hs₁, Function.update_idem]
      exact ⟨hresult, rfl⟩

/-- Visits that drop the tables first create all of them and leave every other one as it was. -/
theorem TableVisits.recreates {ps : List PlannedTable} (hps : ∀ p ∈ ps, p.Sound columns)
    (hnodup : (ps.map PlannedTable.name).Nodup)
    {result : Except DatabaseError (List (String × TableStatus))}
    (h : TableVisits driver d true ps s result s') :
    result = .ok (ps.map fun p => (p.name, .created)) ∧
      (∀ p ∈ ps, tables s' p.name = some p.create.sql) ∧
      ∀ name, name ∉ ps.map PlannedTable.name → tables s' name = tables s name := by
  induction h with
  | done s => exact ⟨rfl, nofun, fun name _ => rfl⟩
  | stopped hvisit =>
    obtain ⟨hp, -⟩ := List.forall_mem_cons.mp hps
    exact nomatch (hvisit.recreates hk hp).1
  | @next p ps s s₁ s' status result hvisit _ ih =>
    obtain ⟨hp, hps⟩ := List.forall_mem_cons.mp hps
    obtain ⟨hnot, hnodup⟩ := List.nodup_cons.mp hnodup
    obtain ⟨hstatus, hs₁⟩ := hvisit.recreates hk hp
    obtain rfl := Except.ok.inj hstatus
    obtain ⟨rfl, hcreated, hothers⟩ := ih hps hnodup
    refine ⟨rfl, List.forall_mem_cons.mpr ⟨?_, hcreated⟩, fun name hname => ?_⟩
    · rw [hothers p.name hnot, hs₁, Function.update_self]
    · obtain ⟨hne, hname⟩ := not_or.mp (fun h => hname (List.mem_cons.mpr h))
      rw [hothers name hname, hs₁]
      exact Function.update_of_ne hne _ _

end

/-- Where every table stands, visits verify all of them and send lookups only. -/
theorem exists_visits_verified (hk : KeepsTables driver d tables columns) {ps : List PlannedTable}
    (hps : ∀ p ∈ ps, p.Sound columns) (s : σ) (past : List Statement)
    (hstands : ∀ p ∈ ps, p.Stands columns d (tables s p.name)) :
    ∃ s', TableVisits driver.recording d false ps (s, past) (.ok (ps.map fun p => (p.name, .verified)))
        (s', past ++ ps.map fun p => d.definitionLookup p.name) ∧
      tables s' = tables s := by
  induction ps generalizing s past with
  | nil =>
    refine ⟨s, ?_, rfl⟩
    rw [List.map_nil, List.map_nil, List.append_nil]
    exact .done _
  | cons p ps ih =>
    obtain ⟨hp, hps⟩ := List.forall_mem_cons.mp hps
    obtain ⟨hfirst, hstands⟩ := List.forall_mem_cons.mp hstands
    obtain ⟨answer, s₁, hlookup⟩ : ∃ answer s₁, driver (d.definitionLookup p.name) s = (answer, s₁) :=
      ⟨_, _, rfl⟩
    obtain ⟨⟨rows, rfl, hshows⟩, hs₁⟩ := hk.lookup hp.named hlookup
    obtain ⟨row, rest, rfl, hagrees⟩ := hfirst.exists_row hshows
    have hsent : driver.recording (d.definitionLookup p.name) (s, past)
        = (.ok (row :: rest), s₁, past ++ [d.definitionLookup p.name]) := by
      show ((driver (d.definitionLookup p.name) s).1, (driver (d.definitionLookup p.name) s).2, _) = _
      rw [hlookup]
    obtain ⟨s', hvisits, hs'⟩ := ih hps s₁ (past ++ [d.definitionLookup p.name]) (hs₁ ▸ hstands)
    refine ⟨s', ?_, hs'.trans hs₁⟩
    rw [List.map_cons, List.map_cons, List.append_cons]
    exact .next (.reached (.kept _) (.verified hsent hagrees)) hvisits

/-! ## validation -/

theorem KeepsTables.exists_plans (hk : KeepsTables driver d tables columns) {cs : List TableDeclaration}
    (hc : ∀ c ∈ cs, ∀ a ∈ c.attributes, a.Declared) :
    ∃ plans, (Schema.declareAll cs).Planned d plans ∧ ∀ p ∈ plans, p.Sound columns := by
  obtain ⟨plans, hplans⟩ := Schema.exists_plans d hc
  refine ⟨plans, hplans, fun p hp => ?_⟩
  obtain ⟨e, he, -, hplan⟩ := exists_mem_of_forall₂ hplans hp
  obtain ⟨c, hmem, -, hrun⟩ := Schema.exists_declaration he
  obtain ⟨hid, -, hne, -⟩ := Relation.table_eq_ok.mp hrun
  obtain ⟨name, definitions, hname, -, hcreate⟩ := createStatement_eq_ok.mp hplan.create
  obtain rfl := Option.some.inj (hplan.name.symm.trans hname)
  obtain hown := Option.some.inj (hplan.name.symm.trans (c.name?_of_run hrun))
  refine ⟨hown ▸ hid, ⟨definitions, hcreate⟩, ?_⟩
  rw [hk.columns_create (hc c hmem) hrun hplan.create]
  simpa using hne

def Database.recorded (driver : Driver σ) (d : Dialect) : Database (σ × List Statement) :=
  ⟨driver.recording, d⟩

/-- validation of the schema comes to rest, beginning at the state `s` of the driver -/
structure Converges (driver : Driver σ) (d : Dialect) (tables : σ → String → Option String)
    (schema : Schema) (s : σ) : Prop where
  /-- After a validation that succeeds without dropping, every declared table is there.  All that was there and
  all that is not declared is as it was, and validation again verifies every table by lookups alone. -/
  settled {report : List (String × TableStatus)} {s₁ : σ} {sent : List Statement} {events : List Event}
    (run : ((Database.recorded driver d).validate schema false).runOn (s, [])
      = (.ok report, (s₁, sent), events)) :
    (∀ name ∈ schema.tables.keys, tables s₁ name ≠ none) ∧
      (∀ name, tables s name ≠ none ∨ name ∉ schema.tables.keys → tables s₁ name = tables s name) ∧
      ∃ s₂ events, ((Database.recorded driver d).validate schema false).runOn (s₁, [])
          = (.ok (schema.tables.keys.map fun name => (name, .verified)),
            (s₂, schema.tables.keys.map d.definitionLookup), events) ∧
        tables s₂ = tables s₁
  /-- Validation that drops the tables succeeds and creates every one of them from its own declaration.  All that
  is not declared is as it was. -/
  recreated : ∃ s₁ sent events,
    ((Database.recorded driver d).validate schema true).runOn (s, [])
        = (.ok (schema.tables.keys.map fun name => (name, .created)), (s₁, sent), events) ∧
      (∀ e ∈ schema.tables.entries, ∃ create, createStatement d e.2 = .ok create ∧
        tables s₁ e.1 = some create.sql) ∧
      ∀ name, name ∉ schema.tables.keys → tables s₁ name = tables s name

/-- **Validation converges** for every schema that declarations build, in both dialects and from every state of a
driver that keeps tables. -/
theorem Database.validate_converges (hk : KeepsTables driver d tables columns) {cs : List TableDeclaration}
    (hc : ∀ c ∈ cs, ∀ a ∈ c.attributes, a.Declared) (s : σ) :
    Converges driver d tables (Schema.declareAll cs) s := by
  obtain ⟨plans, hplans, hsound⟩ := hk.exists_plans hc
  have hkeys := hplans.names
  have hreport : ∀ status : TableStatus, (plans.map fun p => (p.name, status))
      = (Schema.declareAll cs).tables.keys.map fun name => (name, status) := by
    intro status
    rw [← hkeys, List.map_map]
    rfl
  constructor
  · intro report s₁ sent events hrun
    obtain ⟨result, t, hvisits, hruns⟩ := exists_visits (recorded driver d) hplans false (s, [])
    obtain ⟨events', hrun'⟩ := hruns.runOn
    rw [hrun'] at hrun
    obtain ⟨rfl, hrest⟩ := Prod.mk.inj hrun
    obtain ⟨rfl, -⟩ := Prod.mk.inj hrest
    obtain ⟨hstands, hextends⟩ := hvisits.fills hk.recording hsound
    rw [hkeys] at hextends
    obtain ⟨s₂, hagain, hs₂⟩ := exists_visits_verified hk hsound s₁ [] hstands
    have hruns₂ : ((recorded driver d).validate (Schema.declareAll cs) false).Runs (s₁, []) _ _ :=
      runs_validate hplans hagain
    obtain ⟨events₂, hrun₂⟩ := hruns₂.runOn
    refine ⟨fun name hname => ?_, hextends, s₂, events₂, ?_, hs₂⟩
    · rw [← hkeys] at hname
      obtain ⟨p, hp, rfl⟩ := List.mem_map.mp hname
      exact (hstands p hp).ne_none
    · have hlookups : plans.map (fun p => d.definitionLookup p.name)
          = (Schema.declareAll cs).tables.keys.map d.definitionLookup := by
        rw [← hkeys, List.map_map]
        rfl
      rw [hrun₂, hreport, hlookups, List.nil_append]
  · obtain ⟨result, t, hvisits, hruns⟩ := exists_visits (recorded driver d) hplans true (s, [])
    obtain ⟨events, hrun⟩ := hruns.runOn
    have hnodup : (plans.map PlannedTable.name).Nodup := by
      rw [hkeys]
      exact (Schema.declareAll cs).tables.nodup
    obtain ⟨rfl, hcreated, hothers⟩ := hvisits.recreates hk.recording hsound hnodup
    rw [hreport] at hrun
    rw [hkeys] at hothers
    refine ⟨t.1, t.2, events, hrun, fun e he => ?_, hothers⟩
    obtain ⟨p, hp, hname, hplan⟩ := exists_mem_of_forall₂ hplans.flip he
    refine ⟨p.create, hplan.create, ?_⟩
    rw [hname]
    exact hcreated p hp

end

/-! ## a catalog of tables -/

/-- the name that stands in the text after the opening -/
def namedAfter? (opening text : String) : Option String :=
  (opening.toList.isPrefixOf? text.toList).map fun rest => String.ofList (rest.takeWhile isIdentifierPart)

theorem namedAfter?_append (opening : String) {name rest : String} (hname : isIdentifier name = true)
    (hrest : rest.toList.takeWhile isIdentifierPart = []) :
    namedAfter? opening (opening ++ name ++ rest) = some name := by
  have hopening : opening.toList.isPrefixOf? (opening ++ name ++ rest).toList
      = some (name.toList ++ rest.toList) := by
    rw [List.isPrefixOf?_eq_some_iff_append_eq, String.toList_append, String.toList_append,
      List.append_assoc]
  unfold namedAfter?
  rw [hopening, Option.map_some,
    List.takeWhile_append_of_pos fun c hc => isIdentifierPart_of_mem hname hc, hrest, List.append_nil,
    String.ofList_toList]

def shownRows : Dialect → Option String → List ResultRow
  | _, none => []
  | .sqlite, some text => [⟨[("sql", .string text)]⟩]
  | .postgres, some text => (definedColumns text).map fun column => ⟨[("column_name", .string column)]⟩

/-- a driver whose state is the map itself; it knows no other statements -/
def catalog (d : Dialect) : Driver (String → Option String) := fun statement tables =>
  match statement.params with
  | [.string name] =>
    if statement = d.definitionLookup name then (.ok (shownRows d (tables name)), tables)
    else (.error "unknown statement", tables)
  | _ =>
    match namedAfter? "create table " statement.sql with
    | some name =>
      match tables name with
      | none => (.ok [], Function.update tables name (some statement.sql))
      | some _ => (.error "table already exists", tables)
    | none =>
      match namedAfter? "drop table if exists " statement.sql with
      | some name => (.ok [], Function.update tables name none)
      | none => (.error "unknown statement", tables)

section

variable {d : Dialect} {tables : String → Option String} {name : String}

theorem catalog_create (named : isIdentifier name = true) (definitions : List String) :
    catalog d { sql := createText name definitions } tables =
      match tables name with
      | none => (.ok [], Function.update tables name (some (createText name definitions)))
      | some _ => (.error "table already exists", tables) := by
  have hname : namedAfter? "create table " (createText name definitions) = some name := by
    have hsplit : createText name definitions
        = "create table " ++ name ++ (" (" ++ (", ".intercalate definitions ++ ")")) :=
      String.append_assoc.trans String.append_assoc
    rw [hsplit]
    refine namedAfter?_append "create table " named ?_
    rw [String.toList_append]
    rfl
  show (match namedAfter? "create table " (createText name definitions) with | some name => _ | none => _) = _
  rw [hname]

theorem catalog_drop (named : isIdentifier name = true) :
    catalog d { sql := "drop table if exists " ++ name } tables
      = (.ok [], Function.update tables name none) := by
  have hcreate : namedAfter? "create table " ("drop table if exists " ++ name) = none := by
    unfold namedAfter?
    rw [String.toList_append]
    rfl
  have hname : namedAfter? "drop table if exists " ("drop table if exists " ++ name) = some name := by
    have hread := @namedAfter?_append "drop table if exists " name "" named rfl
    rwa [String.append_empty] at hread
  show (match namedAfter? "create table " ("drop table if exists " ++ name) with
    | some name => _
    | none => _) = _
  rw [hcreate]
  show (match namedAfter? "drop table if exists " ("drop table if exists " ++ name) with
    | some name => _
    | none => _) = _
  rw [hname]

theorem catalog_lookup (name : String) :
    catalog d (d.definitionLookup name) tables = (.ok (shownRows d (tables name)), tables) := by
  cases d <;> exact if_pos rfl

theorem shows_shownRows (d : Dialect) (found : Option String) :
    Shows definedColumns d found (shownRows d found) := by
  cases found with
  | none =>
    cases d <;> exact .absent _
  | some text =>
    cases d with
    | sqlite => exact .definition rfl
    | postgres => exact .columns (List.length_map _)

end

theorem keepsTables_catalog (d : Dialect) :
    KeepsTables (catalog d) d (fun tables => tables) definedColumns where
  create_absent named absent sent := by
    rw [catalog_create named, absent] at sent
    obtain ⟨rfl, rfl⟩ := Prod.mk.inj sent
    exact ⟨⟨[], rfl⟩, rfl⟩
  create_present named present sent := by
    obtain ⟨text, htext⟩ := Option.ne_none_iff_exists'.mp present
    rw [catalog_create named, htext] at sent
    obtain ⟨rfl, rfl⟩ := Prod.mk.inj sent
    exact ⟨⟨_, rfl⟩, rfl⟩
  drop named sent := by
    rw [catalog_drop named] at sent
    obtain ⟨rfl, rfl⟩ := Prod.mk.inj sent
    exact ⟨⟨[], rfl⟩, rfl⟩
  lookup named sent := by
    rw [catalog_lookup] at sent
    obtain ⟨rfl, rfl⟩ := Prod.mk.inj sent
    exact ⟨⟨_, rfl, shows_shownRows d _⟩, rfl⟩
  columns_create := definedColumns_create

/-- members are there already, with a column more than is declared -/
def membersOnly : String → Option String :=
  Function.update (fun _ => none) "members" (some "create table members (person integer, since integer)")

/-- the hypotheses of `Database.validate_converges` can be met, with one table that is there and one that is
not -/
theorem Database.validate_converges_club :
    KeepsTables (catalog .postgres) .postgres (fun tables => tables) definedColumns ∧
      (∀ c ∈ clubDeclarations, ∀ a ∈ c.attributes, a.Declared) ∧
      (((recorded (catalog .postgres) .postgres).validate (Schema.declareAll clubDeclarations) false).runOn
        (membersOnly, [])).1 = .ok [("persons", .created), ("members", .verified)] ∧
      Converges (catalog .postgres) .postgres (fun tables => tables) (Schema.declareAll clubDeclarations)
        membersOnly :=
  ⟨keepsTables_catalog .postgres, declared_club, by decide +kernel,
    Database.validate_converges (keepsTables_catalog .postgres) declared_club membersOnly⟩

end TableAlgebra
