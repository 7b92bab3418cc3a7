import TableAlgebra.Config.Environment

/-!
# The settings one by one

There is a setting for each variable, and a place for it in a file: a key within a section.  What a file does not
write at its place takes its default, whether the section is missing or the key in it.

* `Setting`, `Config.setting`    the value of a setting, by the variable that holds it;
* `Variable.place`, `Yaml.Writes`  where a setting stands in a file, and that it is written there;
* `Config.default_or_writes`     a setting that a file leaves out is the default.
-/

namespace TableAlgebra

inductive Setting where
  | dialect (dialect : Dialect)
  | flag (value : Bool)
  | text (text : String)
  deriving DecidableEq

namespace Config

def setting (c : Config) : Variable → Setting
  | .dialect => .dialect c.database.dialect
  | .databaseUrl => .text c.database.url
  | .dropExisting => .flag c.database.dropExisting
  | .level => .text c.logging.level
  | .format => .text c.logging.format
  | .output => .text c.logging.output
  | .directory => .text c.logging.directory

end Config

/-- where the setting of a variable stands in a file: the name of the section, and the key in it -/
def Variable.place : Variable → String × String
  | dialect => ("database", "dialect")
  | databaseUrl => ("database", "url")
  | dropExisting => ("database", "drop_existing")
  | level => ("logging", "level")
  | format => ("logging", "format")
  | output => ("logging", "output")
  | directory => ("logging", "directory")

namespace Yaml

/-- a document writes a setting: one of its sections has the key -/
def Writes (root : Yaml) (v : Variable) : Prop :=
  ∃ sections entries node value, entries? root root = some sections ∧ (v.place.1, node) ∈ sections ∧
    entries? root node = some entries ∧ (v.place.2, value) ∈ entries

variable {α : Type} {read : Yaml → Option α} {missing a : α} {key : String} {entries : List (String × Yaml)}

/-- the value of a key is that of one of its entries, or else the default -/
theorem entryOr?_cases (h : entryOr? read missing key entries = some a) :
    a = missing ∨ ∃ node, (key, node) ∈ entries ∧ read node = some a := by
  unfold entryOr? at h
  split at h
  case h_1 => exact .inl (Option.some.inj h).symm
  case h_2 entry hentry =>
    have hmem : entry ∈ entries.filter fun e => e.1 == key := hentry ▸ List.mem_singleton_self entry
    obtain ⟨hmem, hkey⟩ := List.mem_filter.mp hmem
    exact .inr ⟨entry.2, eq_of_beq hkey ▸ hmem, h⟩
  case h_3 => cases h

/-- A field of a section is the default, or its key is written there: if that is so of the sections that are read,
then also of one that may be missing. -/
theorem default_or_writes {σ β : Type} {root : Yaml} {sections : List (String × Yaml)}
    {readSection : Yaml → Option σ} {missing s : σ} (v : Variable) (field : σ → β)
    (hsections : entries? root root = some sections)
    (hsection : entryOr? readSection missing v.place.1 sections = some s)
    (hfield : ∀ node, readSection node = some s → ∃ entries, entries? root node = some entries ∧
      (field s = field missing ∨ ∃ value, (v.place.2, value) ∈ entries)) :
    field s = field missing ∨ root.Writes v := by
  rcases entryOr?_cases hsection with rfl | ⟨node, hnode, hread⟩
  · exact .inl rfl
  · obtain ⟨entries, hentries, hdefault | ⟨value, hvalue⟩⟩ := hfield node hread
    · exact .inl hdefault
    · exact .inr ⟨sections, entries, node, value, hsections, hnode, hentries, hvalue⟩

theorem default_or_mem (h : entryOr? read missing key entries = some a) :
    a = missing ∨ ∃ value, (key, value) ∈ entries :=
  (entryOr?_cases h).imp_right fun ⟨node, hnode, _⟩ => ⟨node, hnode⟩

end Yaml

variable {root node : Yaml}

theorem DatabaseConfig.default_or_mem {c : DatabaseConfig} (h : ofYaml? root node = some c) :
    ∃ entries, Yaml.entries? root node = some entries ∧
      (c.dialect = ({} : DatabaseConfig).dialect ∨ ∃ value, ("dialect", value) ∈ entries) ∧
      (c.url = ({} : DatabaseConfig).url ∨ ∃ value, ("url", value) ∈ entries) ∧
      (c.dropExisting = ({} : DatabaseConfig).dropExisting ∨ ∃ value, ("drop_existing", value) ∈ entries) := by
  simp only [ofYaml?, Option.bind_eq_bind, Option.bind_eq_some_iff, Option.pure_def, Option.some.injEq] at h
  obtain ⟨entries, hentries, dialect, hdialect, url, hurl, dropExisting, hdrop, rfl⟩ := h
  exact ⟨entries, hentries, Yaml.default_or_mem hdialect, Yaml.default_or_mem hurl, Yaml.default_or_mem hdrop⟩

theorem LoggingConfig.default_or_mem {c : LoggingConfig} (h : ofYaml? root node = some c) :
    ∃ entries, Yaml.entries? root node = some entries ∧
      (c.level = ({} : LoggingConfig).level ∨ ∃ value, ("level", value) ∈ entries) ∧
      (c.format = ({} : LoggingConfig).format ∨ ∃ value, ("format", value) ∈ entries) ∧
      (c.output = ({} : LoggingConfig).output ∨ ∃ value, ("output", value) ∈ entries) ∧
      (c.directory = ({} : LoggingConfig).directory ∨ ∃ value, ("directory", value) ∈ entries) := by
  simp only [ofYaml?, Option.bind_eq_bind, Option.bind_eq_some_iff, Option.pure_def, Option.some.injEq] at h
  obtain ⟨entries, hentries, level, hlevel, format, hformat, output, houtput, directory, hdirectory, rfl⟩ := h
  exact ⟨entries, hentries, Yaml.default_or_mem hlevel, Yaml.default_or_mem hformat,
    Yaml.default_or_mem houtput, Yaml.default_or_mem hdirectory⟩

/-- a setting is the default, or the file writes it -/
theorem Config.default_or_writes {c : Config} (h : ofYaml? root = some c) (v : Variable) :
    c.setting v = ({} : Config).setting v ∨ root.Writes v := by
  simp only [ofYaml?, Option.bind_eq_bind, Option.bind_eq_some_iff, Option.pure_def, Option.some.injEq] at h
  obtain ⟨sections, hsections, database, hdatabase, logging, hlogging, rfl⟩ := h
  cases v with
  | dialect =>
    exact (Yaml.default_or_writes .dialect DatabaseConfig.dialect hsections hdatabase fun _ h =>
      (DatabaseConfig.default_or_mem h).imp fun _ h => ⟨h.1, h.2.1⟩).imp_left (congrArg Setting.dialect)
  | databaseUrl =>
    exact (Yaml.default_or_writes .databaseUrl DatabaseConfig.url hsections hdatabase fun _ h =>
      (DatabaseConfig.default_or_mem h).imp fun _ h => ⟨h.1, h.2.2.1⟩).imp_left (congrArg Setting.text)
  | dropExisting =>
    exact (Yaml.default_or_writes .dropExisting DatabaseConfig.dropExisting hsections hdatabase fun _ h =>
      (DatabaseConfig.default_or_mem h).imp fun _ h => ⟨h.1, h.2.2.2⟩).imp_left (congrArg Setting.flag)
  | level =>
    exact (Yaml.default_or_writes .level LoggingConfig.level hsections hlogging fun _ h =>
      (LoggingConfig.default_or_mem h).imp fun _ h => ⟨h.1, h.2.1⟩).imp_left (congrArg Setting.text)
  | format =>
    exact (Yaml.default_or_writes .format LoggingConfig.format hsections hlogging fun _ h =>
      (LoggingConfig.default_or_mem h).imp fun _ h => ⟨h.1, h.2.2.1⟩).imp_left (congrArg Setting.text)
  | output =>
    exact (Yaml.default_or_writes .output LoggingConfig.output hsections hlogging fun _ h =>
      (LoggingConfig.default_or_mem h).imp fun _ h => ⟨h.1, h.2.2.2.1⟩).imp_left (congrArg Setting.text)
  | directory =>
    exact (Yaml.default_or_writes .directory LoggingConfig.directory hsections hlogging fun _ h =>
      (LoggingConfig.default_or_mem h).imp fun _ h => ⟨h.1, h.2.2.2.2⟩).imp_left (congrArg Setting.text)

end TableAlgebra
