import TableAlgebra.Proofs.Database.Convergence
import TableAlgebra.Proofs.Sql.SameDefinition

/-!
# Drift is detected

A table that is there is reported as verified only if the statement that created it agrees in lower case with
the one of its declaration.  So the table that is there has the columns that are declared, in order and with
their types, keys, marks and defaults.  Letter case is passed over everywhere, and a default that is a string
is no exception: two strings that differ in letter case only are not told apart.

* `TableVisits.names`                   visits that succeed report every table;
* `Database.verified_sameDefinition`    a table that is reported as verified is defined as it is declared;
* `Database.verified_other_default`     but for the letter case of its string defaults.
-/

namespace TableAlgebra

section

variable {σ : Type} {driver : Driver σ} {d : Dialect} {tables : σ → String → Option String}
  {columns : String → List String} {s s' : σ}

theorem TableVisits.names {drop : Bool} {ps : List PlannedTable} {report : List (String × TableStatus)}
    (h : TableVisits driver d drop ps s (.ok report) s') :
    report.map Prod.fst = ps.map PlannedTable.name := by
  generalize hresult : Except.ok report = result at h
  induction h generalizing report with
  | done s =>
    obtain rfl := Except.ok.inj hresult
    rfl
  | stopped _ => exact nomatch hresult
  | @next p ps s s₁ s' status result _ _ ih =>
    cases result with
    | error e => exact nomatch hresult
    | ok rest =>
      obtain rfl := Except.ok.inj hresult
      show p.name :: rest.map Prod.fst = p.name :: ps.map PlannedTable.name
      rw [ih rfl]

/-- a table that was there when visits began and is reported as verified agrees with its plan -/
theorem TableVisits.agrees (hk : KeepsTables driver .sqlite tables columns) {drop : Bool}
    {ps : List PlannedTable} (hps : ∀ p ∈ ps, p.Sound columns) (hnodup : (ps.map PlannedTable.name).Nodup)
    {report : List (String × TableStatus)} (h : TableVisits driver .sqlite drop ps s (.ok report) s')
    {p : PlannedTable} (hp : p ∈ ps) (hverified : (p.name, .verified) ∈ report) {text : String}
    (holds : tables s p.name = some text) : lowercase text = lowercase p.create.sql := by
  cases drop with
  | true =>
    obtain ⟨hreport, -⟩ := h.recreates hk hps hnodup
    obtain rfl := Except.ok.inj hreport
    obtain ⟨q, -, hq⟩ := List.mem_map.mp hverified
    exact nomatch (Prod.mk.inj hq).2
  | false =>
    obtain ⟨hstands, hextends⟩ := h.fills hk hps
    obtain ⟨found, hfound, haccepts⟩ := hstands p hp
    have hpresent : tables s p.name ≠ none := by
      rw [holds]
      exact Option.some_ne_none text
    rw [hextends p.name (.inl hpresent), holds] at hfound
    obtain rfl := Option.some.inj hfound
    exact haccepts

/-- **Drift is detected.**  If the table of a name was created from one declaration and validation of a schema
reports the table of that name as verified, then the schema has a table of that name, and it has as many columns
as the other one, each with the same definition, letter case in names and in string defaults aside. -/
theorem Database.verified_sameDefinition (hk : KeepsTables driver .sqlite tables columns)
    {cs : List TableDeclaration} (hc : ∀ c ∈ cs, ∀ a ∈ c.attributes, a.Declared)
    {held : TableDeclaration} {t : Relation} {create : Statement}
    (declared : ∀ a ∈ held.attributes, a.Declared) (made : held.run = .ok t)
    (compiled : createStatement .sqlite t = .ok create)
    (holds : tables s held.name = some create.sql) {drop : Bool} {report : List (String × TableStatus)}
    (run : (((⟨driver, .sqlite⟩ : Database σ).validate (Schema.declareAll cs) drop).runOn s).1 = .ok report)
    (verified : (held.name, .verified) ∈ report) :
    ∃ u, (Schema.declareAll cs).get? held.name = some u ∧
      List.Forall₂ (Attribute.SameDefinition Literal.SameIgnoringCase) t.attributes u.attributes := by
  obtain ⟨plans, hplans, hsound⟩ := hk.exists_plans hc
  obtain ⟨result, s', hvisits, hruns⟩ := exists_visits ⟨driver, .sqlite⟩ hplans drop s
  obtain ⟨events, hrun⟩ := hruns.runOn
  rw [hrun] at run
  obtain rfl : result = .ok report := run
  have hnodup : (plans.map PlannedTable.name).Nodup := by
    rw [hplans.names]
    exact (Schema.declareAll cs).tables.nodup
  -- the report names the plans, and each plan is that of an entry of the schema
  have hname : held.name ∈ plans.map PlannedTable.name := by
    rw [← hvisits.names]
    exact List.mem_map_of_mem verified
  obtain ⟨p, hp, hpname⟩ := List.mem_map.mp hname
  obtain ⟨⟨name, u⟩, he, hplan⟩ := exists_mem_of_forall₂ hplans hp
  obtain ⟨c, hmem, henters, hu⟩ := Schema.exists_declaration he
  rw [← hpname] at verified holds
  have hagrees := hvisits.agrees hk hsound hnodup hp verified holds
  have hget : (Schema.declareAll cs).get? held.name = some u := by
    rw [← hpname, ← hplan.1]
    exact OrderedMap.find?_of_mem he
  exact ⟨u, hget, forall₂_sameDefinition declared (hc c hmem) made hu compiled hplan.2.create hagrees⟩

end

/-! ## letter case -/

section

/-- notes with a status that has a default -/
def notes (status : String) : TableDeclaration where
  serial := ⟨6⟩
  name := "notes"
  attributes := [⟨"status", .string, { default := some (.string status) }, .loose ⟨5⟩⟩]
  options := ∅

def noteTable (status : String) : Relation where
  kind := .table "notes" ∅
  sources := ["notes"]
  columns := [⟨"status", .attr ⟨"status", .string, { default := some (.string status) },
    .bound (notes status).owner⟩⟩]
  restrictions := []
  groups := []
  orders := []

theorem declared_notes (status : String) : ∀ a ∈ (notes status).attributes, a.Declared := by
  have hstatus : Attribute.declare ⟨5⟩ "status" .string { default := some (.string status) } = .ok _ := rfl
  intro a ha
  rw [List.mem_singleton.mp ha]
  exact .declare hstatus

/-- the tables of a database that holds one text under one name -/
def holding (name text : String) : String → Option String := Function.update (fun _ => none) name (some text)

/-- A default that is a string is compared in lower case like everything else, so a drift of its letter case
goes unseen. -/
theorem Database.verified_other_default : ¬ ∀ (held declared : TableDeclaration) (t u : Relation)
    (create : Statement) (report : List (String × TableStatus)), (∀ a ∈ held.attributes, a.Declared) →
      (∀ a ∈ declared.attributes, a.Declared) → held.run = .ok t → declared.run = .ok u →
      held.name = declared.name → createStatement .sqlite t = .ok create →
      (((⟨catalog .sqlite, .sqlite⟩ : Database _).validate (Schema.declareAll [declared]) false).runOn
        (holding held.name create.sql)).1 = .ok report →
      (declared.name, .verified) ∈ report →
      List.Forall₂ (Attribute.SameDefinition fun l m => l.sqlText .sqlite = m.sqlText .sqlite) t.attributes
        u.attributes := by
  intro h
  have hsame := h (notes "Open") (notes "open") (noteTable "Open") (noteTable "open")
    { sql := "create table notes (status text default 'Open')" } [("notes", .verified)]
    (declared_notes "Open") (declared_notes "open") rfl rfl rfl (by decide +kernel) (by decide +kernel)
    (List.mem_singleton_self _)
  cases hsame with
  | cons hstatus _ =>
    have hdefault : Option.Rel (fun l m : Literal => l.sqlText .sqlite = m.sqlText .sqlite)
        (some (.string "Open")) (some (.string "open")) := hstatus.default
    cases hdefault with
    | some htext => exact absurd htext (by decide +kernel)

/-- persons under names with capitals -/
def capitalPersons : TableDeclaration where
  serial := ⟨9⟩
  name := "persons"
  attributes := [⟨"ID", .integer, { primaryKey := true }, .loose ⟨7⟩⟩, ⟨"Born", .integer, {}, .loose ⟨8⟩⟩]
  options := ∅

/-- the table `persons` under these names -/
def capitalPersonTable : Relation where
  kind := .table "persons" ∅
  sources := ["persons"]
  columns := [⟨"ID", .attr ⟨"ID", .integer, { primaryKey := true }, .bound capitalPersons.owner⟩⟩,
    ⟨"Born", .attr ⟨"Born", .integer, {}, .bound capitalPersons.owner⟩⟩]
  restrictions := []
  groups := []
  orders := []

theorem declared_capitalPersons : ∀ a ∈ capitalPersons.attributes, a.Declared := by
  have hid : Attribute.declare ⟨7⟩ "ID" .integer { primaryKey := true } = .ok _ := rfl
  have hborn : Attribute.declare ⟨8⟩ "Born" .integer {} = .ok _ := rfl
  intro a ha
  simp only [capitalPersons, List.mem_cons, List.not_mem_nil, or_false] at ha
  rcases ha with rfl | rfl
  · exact .declare hid
  · exact .declare hborn

/-- the hypotheses of `Database.verified_sameDefinition` can be met, by a table whose columns have other letter
case than those declared -/
theorem Database.verified_sameDefinition_capitals :
    KeepsTables (catalog .sqlite) .sqlite (fun tables => tables) definedColumns ∧
      (∀ c ∈ clubDeclarations, ∀ a ∈ c.attributes, a.Declared) ∧
      (∀ a ∈ capitalPersons.attributes, a.Declared) ∧ capitalPersons.run = .ok capitalPersonTable ∧
      createStatement .sqlite capitalPersonTable
        = .ok { sql := "create table persons (ID integer primary key, Born integer)" } ∧
      (((⟨catalog .sqlite, .sqlite⟩ : Database _).validate (Schema.declareAll clubDeclarations) false).runOn
        (holding "persons" "create table persons (ID integer primary key, Born integer)")).1
          = .ok [("persons", .verified), ("members", .created)] ∧
      ∃ u, (Schema.declareAll clubDeclarations).get? "persons" = some u ∧
        List.Forall₂ (Attribute.SameDefinition Literal.SameIgnoringCase) capitalPersonTable.attributes
          u.attributes := by
  have hcreate : createStatement .sqlite capitalPersonTable
      = .ok { sql := "create table persons (ID integer primary key, Born integer)" } := by decide +kernel
  have hrun : (((⟨catalog .sqlite, .sqlite⟩ : Database _).validate (Schema.declareAll clubDeclarations)
      false).runOn (holding "persons" "create table persons (ID integer primary key, Born integer)")).1
        = .ok [("persons", .verified), ("members", .created)] := by decide +kernel
  exact ⟨keepsTables_catalog .sqlite, declared_club, declared_capitalPersons, rfl, hcreate, hrun,
    Database.verified_sameDefinition (keepsTables_catalog .sqlite) declared_club declared_capitalPersons rfl
      hcreate rfl hrun List.mem_cons_self⟩

end

end TableAlgebra
