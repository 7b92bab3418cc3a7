import TableAlgebra.Proofs.Database.Run
import TableAlgebra.Proofs.Schema
import TableAlgebra.Proofs.Sql.Definition

/-!
# Visits of tables

Validation visits the tables of a schema one after the other.  A visit drops the table if asked to, looks it up,
and creates it or compares its definition; each step is the last one if it fails.  Every declared table has a
statement that creates it, so nothing but the driver and the comparison can end a visit early.

* `PlannedTable`                 what validation needs of a table;
* `Schema.exists_plans`          every table of a schema has a plan;
* `TableVisit`, `TableVisits`    what a visit can come to, and visits in turn;
* `Database.exists_visits`       validation makes visits and nothing else.
-/

namespace TableAlgebra

/-! ## plans -/

/-- a table as validation goes through it: its name and the statement that creates it -/
structure PlannedTable where
  name : String
  create : Statement

namespace PlannedTable

def drop (p : PlannedTable) : Statement := { sql := "drop table if exists " ++ p.name }

/-- The definition that was found is not the declared one.  Only SQLite keeps definitions; they are compared
in lower case. -/
def Drifts (p : PlannedTable) (d : Dialect) (found : ResultRow) : Prop :=
  d = .sqlite ∧ lowercase (Database.foundText "sql" found) ≠ lowercase p.create.sql

end PlannedTable

structure Relation.Plans (d : Dialect) (r : Relation) (p : PlannedTable) : Prop where
  name : r.name? = some p.name
  create : createStatement d r = .ok p.create

theorem Relation.Plans.compile_create {d : Dialect} {r : Relation} {p : PlannedTable} (h : r.Plans d p) :
    (Command.create r).compile d = .ok p.create := h.create

theorem Relation.Plans.compile_drop {d : Dialect} {r : Relation} {p : PlannedTable} (h : r.Plans d p) :
    (Command.drop r).compile d = .ok p.drop := by
  show dropStatement r = .ok p.drop
  unfold dropStatement requireCreatable
  rw [h.name]
  rfl

/-- the plans are those of the tables of the schema, in order and under their names -/
def Schema.Planned (d : Dialect) (schema : Schema) (plans : List PlannedTable) : Prop :=
  List.Forall₂ (fun e p => e.1 = p.name ∧ Relation.Plans d e.2 p) schema.tables.entries plans

theorem Schema.Planned.names {d : Dialect} {schema : Schema} {plans : List PlannedTable}
    (h : schema.Planned d plans) : plans.map PlannedTable.name = schema.tables.keys := by
  have hnames : List.Forall₂ (fun name name' => name = name') (schema.tables.entries.map Prod.fst)
      (plans.map PlannedTable.name) := by
    rw [List.forall₂_map_left_iff, List.forall₂_map_right_iff]
    exact h.imp fun e p h => h.1
  rw [List.forall₂_eq_eq_eq] at hnames
  exact hnames.symm

/-- **Every table of a schema has a plan** under its own name, in every dialect. -/
theorem Schema.exists_plans (d : Dialect) {cs : List TableDeclaration}
    (hc : ∀ c ∈ cs, ∀ a ∈ c.attributes, a.Declared) : ∃ plans, (declareAll cs).Planned d plans := by
  unfold Planned
  obtain ⟨accepted, hsub, hentries⟩ := exists_accepted cs
  have hdeclared : ∀ c ∈ accepted, ∀ a ∈ c.attributes, a.Declared := fun c h => hc c (hsub.subset h)
  clear hsub
  generalize (declareAll cs).tables.entries = entries at hentries ⊢
  induction hentries with
  | nil => exact ⟨[], .nil⟩
  | @cons c e accepted entries henters _ ih =>
    obtain ⟨plans, hplans⟩ := ih fun c' h => hdeclared c' (List.mem_cons_of_mem c h)
    obtain ⟨s, hs⟩ := TableDeclaration.exists_createStatement d (hdeclared c List.mem_cons_self) henters.2
    exact ⟨⟨c.name, s⟩ :: plans, .cons ⟨henters.1.symm, c.name?_of_run henters.2, hs⟩ hplans⟩

/-! ## visits -/

section

variable {σ : Type}

/-- the table is dropped, or left as it is if that is not asked for -/
inductive Prepares (driver : Driver σ) (p : PlannedTable) : Bool → σ → σ → Prop where
  | kept (s : σ) : Prepares driver p false s s
  | dropped {s s₁ : σ} {rows : List ResultRow} (answer : driver p.drop s = (.ok rows, s₁)) :
      Prepares driver p true s s₁

/-- what comes of looking the table up -/
inductive Settles (driver : Driver σ) (d : Dialect) (p : PlannedTable) :
    σ → Except DatabaseError TableStatus → σ → Prop where
  | unseen {s s' : σ} {message : String}
      (lookup : driver (d.definitionLookup p.name) s = (.error message, s')) :
      Settles driver d p s (.error (.driver message)) s'
  | uncreated {s s₁ s' : σ} {message : String}
      (lookup : driver (d.definitionLookup p.name) s = (.ok [], s₁))
      (create : driver p.create s₁ = (.error message, s')) :
      Settles driver d p s (.error (.driver message)) s'
  | created {s s₁ s' : σ} {rows : List ResultRow}
      (lookup : driver (d.definitionLookup p.name) s = (.ok [], s₁))
      (create : driver p.create s₁ = (.ok rows, s')) :
      Settles driver d p s (.ok .created) s'
  | drifted {s s' : σ} {found : ResultRow} {rest : List ResultRow}
      (lookup : driver (d.definitionLookup p.name) s = (.ok (found :: rest), s'))
      (drifts : p.Drifts d found) :
      Settles driver d p s
        (.error (.schemaDrift p.name p.create.sql (Database.foundText "sql" found))) s'
  | verified {s s' : σ} {found : ResultRow} {rest : List ResultRow}
      (lookup : driver (d.definitionLookup p.name) s = (.ok (found :: rest), s'))
      (agrees : ¬ p.Drifts d found) :
      Settles driver d p s (.ok .verified) s'

/-- a visit of a table, dropping it first if asked to -/
inductive TableVisit (driver : Driver σ) (d : Dialect) (drop : Bool) (p : PlannedTable) :
    σ → Except DatabaseError TableStatus → σ → Prop where
  | undropped {s s' : σ} {message : String} (asked : drop = true)
      (answer : driver p.drop s = (.error message, s')) :
      TableVisit driver d drop p s (.error (.driver message)) s'
  | reached {s s₁ s' : σ} {result : Except DatabaseError TableStatus}
      (prepares : Prepares driver p drop s s₁) (settles : Settles driver d p s₁ result s') :
      TableVisit driver d drop p s result s'

/-- visits in turn, up to the first one that fails -/
inductive TableVisits (driver : Driver σ) (d : Dialect) (drop : Bool) :
    List PlannedTable → σ → Except DatabaseError (List (String × TableStatus)) → σ → Prop where
  | done (s : σ) : TableVisits driver d drop [] s (.ok []) s
  | stopped {p : PlannedTable} {ps : List PlannedTable} {s s' : σ} {e : DatabaseError}
      (visit : TableVisit driver d drop p s (.error e) s') : TableVisits driver d drop (p :: ps) s (.error e) s'
  | next {p : PlannedTable} {ps : List PlannedTable} {s s₁ s' : σ} {status : TableStatus}
      {result : Except DatabaseError (List (String × TableStatus))}
      (visit : TableVisit driver d drop p s (.ok status) s₁)
      (rest : TableVisits driver d drop ps s₁ result s') :
      TableVisits driver d drop (p :: ps) s (result.map ((p.name, status) :: ·)) s'

theorem exists_settles (driver : Driver σ) (d : Dialect) (p : PlannedTable) (s : σ) :
    ∃ result s', Settles driver d p s result s' := by
  obtain ⟨answer, s₁, hlookup⟩ : ∃ answer s₁, driver (d.definitionLookup p.name) s = (answer, s₁) :=
    ⟨_, _, rfl⟩
  cases answer with
  | error message => exact ⟨_, _, .unseen hlookup⟩
  | ok rows =>
    cases rows with
    | nil =>
      obtain ⟨answer, s', hcreate⟩ : ∃ answer s', driver p.create s₁ = (answer, s') := ⟨_, _, rfl⟩
      cases answer with
      | error message => exact ⟨_, _, .uncreated hlookup hcreate⟩
      | ok rows => exact ⟨_, _, .created hlookup hcreate⟩
    | cons found rest =>
      by_cases hdrifts : p.Drifts d found
      · exact ⟨_, _, .drifted hlookup hdrifts⟩
      · exact ⟨_, _, .verified hlookup hdrifts⟩

theorem exists_visit (driver : Driver σ) (d : Dialect) (drop : Bool) (p : PlannedTable) (s : σ) :
    ∃ result s', TableVisit driver d drop p s result s' := by
  cases drop with
  | false =>
    obtain ⟨result, s', h⟩ := exists_settles driver d p s
    exact ⟨result, s', .reached (.kept s) h⟩
  | true =>
    obtain ⟨answer, s₁, hdrop⟩ : ∃ answer s₁, driver p.drop s = (answer, s₁) := ⟨_, _, rfl⟩
    cases answer with
    | error message => exact ⟨_, _, .undropped rfl hdrop⟩
    | ok rows =>
      obtain ⟨result, s', h⟩ := exists_settles driver d p s₁
      exact ⟨result, s', .reached (.dropped hdrop) h⟩

end

/-! ## validation makes visits -/

namespace Database

variable {σ : Type} {db : Database σ} {drop : Bool} {r : Relation} {p : PlannedTable} {s s' : σ}

theorem runs_verify_of_drifts {found : ResultRow} (h : p.Drifts db.dialect found) (s : σ) :
    (db.verify p.name p.create found).Runs s
      (.error (.schemaDrift p.name p.create.sql (foundText "sql" found))) s := by
  obtain ⟨hd, hdiffers⟩ := h
  unfold verify
  rw [hd]
  show Action.Runs (if lowercase (foundText "sql" found) != lowercase p.create.sql then _ else _) _ _ _
  rw [if_pos (bne_iff_ne.mpr hdiffers)]
  exact .bind (.report _ s) (.throw _ s)

theorem runs_verify {found : ResultRow} (h : ¬ p.Drifts db.dialect found) (s : σ) :
    (db.verify p.name p.create found).Runs s (.ok ()) s := by
  unfold verify
  cases hd : db.dialect with
  | postgres => exact .pure () s
  | sqlite =>
    have hsame : ¬ (lowercase (foundText "sql" found) != lowercase p.create.sql) = true :=
      fun hdiffers => h ⟨hd, bne_iff_ne.mp hdiffers⟩
    show Action.Runs (if lowercase (foundText "sql" found) != lowercase p.create.sql then _ else _) _ _ _
    rw [if_neg hsame]
    exact .pure () s

/-- looks a table up, and creates or verifies it -/
def settle (db : Database σ) (p : PlannedTable) : Action σ TableStatus := do
  match ← db.execute (db.dialect.definitionLookup p.name) with
  | [] =>
    let _ ← db.execute p.create
    Action.report (.createdTable p.name)
    return .created
  | definition :: _ =>
    db.verify p.name p.create definition
    Action.report (.verifiedTable p.name)
    return .verified

theorem runs_settle {result : Except DatabaseError TableStatus}
    (h : Settles db.driver db.dialect p s result s') : (db.settle p).Runs s result s' := by
  unfold settle
  cases h with
  | unseen hlookup => exact .bind_error (runs_execute hlookup)
  | uncreated hlookup hcreate =>
    exact .bind (runs_execute hlookup) (.bind_error (runs_execute hcreate))
  | created hlookup hcreate =>
    exact .bind (runs_execute hlookup) (.bind (runs_execute hcreate) (.bind (.report _ _) (.pure _ _)))
  | drifted hlookup hdrifts =>
    exact .bind (runs_execute hlookup) (.bind_error (runs_verify_of_drifts hdrifts _))
  | verified hlookup hagrees =>
    exact .bind (runs_execute hlookup) (.bind (runs_verify hagrees _) (.bind (.report _ _) (.pure _ _)))

theorem runs_validateTable (hp : r.Plans db.dialect p) {result : Except DatabaseError TableStatus}
    (h : TableVisit db.driver db.dialect drop p s result s') :
    (db.validateTable drop p.name r).Runs s result s' := by
  unfold validateTable
  refine .bind (.compile hp.compile_create s) ?_
  cases h with
  | undropped asked hdrop =>
    subst asked
    exact .bind (.compile hp.compile_drop s) (.bind_error (runs_execute hdrop))
  | reached hprepares hsettles =>
    cases hprepares with
    | kept => exact runs_settle hsettles
    | dropped hdrop =>
      exact .bind (.compile hp.compile_drop s) (.bind (runs_execute hdrop) (runs_settle hsettles))

theorem runs_validateTables {rs : List Relation} {ps : List PlannedTable}
    (hplans : List.Forall₂ (Relation.Plans db.dialect) rs ps)
    {result : Except DatabaseError (List (String × TableStatus))}
    (h : TableVisits db.driver db.dialect drop ps s result s') :
    (db.validateTables drop rs).Runs s result s' := by
  induction h generalizing rs with
  | done s =>
    rw [List.forall₂_nil_right_iff.mp hplans]
    exact .pure [] s
  | @stopped p ps s s' e hvisit =>
    obtain ⟨r, rs, hr, -, rfl⟩ := List.forall₂_cons_right_iff.mp hplans
    rw [validateTables, hr.name]
    exact .bind_error (runs_validateTable hr hvisit)
  | @next p ps s s₁ s' status result hvisit _ ih =>
    obtain ⟨r, rs, hr, hrs, rfl⟩ := List.forall₂_cons_right_iff.mp hplans
    rw [validateTables, hr.name]
    exact .bind (runs_validateTable hr hvisit) ((ih hrs).map _)

theorem runs_validate {schema : Schema} {ps : List PlannedTable}
    (hplans : schema.Planned db.dialect ps)
    {result : Except DatabaseError (List (String × TableStatus))}
    (h : TableVisits db.driver db.dialect drop ps s result s') : (db.validate schema drop).Runs s result s' := by
  refine runs_validateTables ?_ h
  unfold OrderedMap.values
  rw [List.forall₂_map_left_iff]
  exact hplans.imp fun e p h => h.2

/-- **Validation makes visits and nothing else**: one to each table of the schema in turn, up to the first that
fails. -/
theorem exists_visits (db : Database σ) {schema : Schema} {ps : List PlannedTable}
    (hplans : schema.Planned db.dialect ps) (drop : Bool) (s : σ) :
    ∃ result s', TableVisits db.driver db.dialect drop ps s result s' ∧
      (db.validate schema drop).Runs s result s' := by
  have hvisits : ∃ result s', TableVisits db.driver db.dialect drop ps s result s' := by
    clear hplans
    induction ps generalizing s with
    | nil => exact ⟨_, _, .done s⟩
    | cons p ps ih =>
      obtain ⟨result, s₁, hvisit⟩ := exists_visit db.driver db.dialect drop p s
      cases result with
      | error e => exact ⟨_, _, .stopped hvisit⟩
      | ok status =>
        obtain ⟨result, s', hrest⟩ := ih s₁
        exact ⟨_, _, .next hvisit hrest⟩
  obtain ⟨result, s', h⟩ := hvisits
  exact ⟨result, s', h, runs_validate hplans h⟩

end Database

end TableAlgebra
