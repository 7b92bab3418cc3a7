import Mathlib.Logic.Relation
import TableAlgebra.Logging.Setup
import TableAlgebra.Proofs.Config.Precedence
import TableAlgebra.Proofs.Config.VariableFile

/-!
# Settings read and exported

Settings come from a file and the variables, or from a variable file and the variables, and the log can be set up by
the variables alone.  All three read the same variables.  An export of the logging settings sets four of them, and a
variable that is set is changed by no variable file; so as long as nothing else changes the four, whoever reads them
comes to the exported settings, whatever the files hold.

* `Environment.Step`, `Environment.Later`   what happens to the variables, in one step and in many;
* `Environment.Carries`                     the variables of the log hold the logging settings;
* `Carries.step`, `Carries.later`           they keep them;
* `Config.load_then_export`                 where settings come from, and where exported ones go.
-/

namespace TableAlgebra

variable {env : Environment}

/-! ## settings without a file -/

theorem Config.parseYaml?_empty : parseYaml? "" = some {} := rfl

/-- settings depend on the values of the variables alone -/
theorem Config.override_congr {other : Environment} (h : ∀ name, other.find? name = env.find? name) (c : Config) :
    c.override other = c.override env := by
  have hget : other.get? = env.get? := funext fun v => h v.name
  unfold Config.override LoggingConfig.override Environment.override
  rw [hget]

theorem Config.fst_fromEnvironment {file : String} {extended : Environment}
    (h : env.Extended file extended) : (fromEnvironment file env).1 = load (some "") extended := by
  have hfind : ∀ name, (env.withFile file).find? name = extended.find? name := fun name =>
    (env.extended_withFile file name).trans (h name).symm
  show override {} (env.withFile file) = _
  rw [override_congr hfind, load, parseYaml?_empty]

/-! ## exported settings -/

def Variable.ofLog : List Variable := [level, format, output, directory]

/-- What happens to variables in one step: a variable file is read, or something else is done that leaves those of
the log alone.  Reading settings from a file and setting up the log change no variable. -/
inductive Environment.Step : Environment → Environment → Prop
  | readFile (env : Environment) (file : String) : Step env (Config.fromEnvironment file env).2
  | elsewhere {env other : Environment} (h : ∀ v ∈ Variable.ofLog, other.get? v = env.get? v) : Step env other

def Environment.Later : Environment → Environment → Prop := Relation.ReflTransGen Step

/-- the variables of the log are set to the logging settings -/
structure Environment.Carries (env : Environment) (c : LoggingConfig) : Prop where
  level : env.get? .level = some c.level
  format : env.get? .format = some c.format
  output : env.get? .output = some c.output
  directory : env.get? .directory = some c.directory

namespace Environment

variable {c : LoggingConfig}

theorem carries_exportLogging (config : Config) (env : Environment) :
    (config.exportLogging env).Carries config.logging := by
  unfold Config.exportLogging
  constructor <;> simp [get?, OrderedMap.find?_insert, Variable.name]

theorem Carries.congr (h : env.Carries c) {other : Environment}
    (hother : ∀ v ∈ Variable.ofLog, other.get? v = env.get? v) : other.Carries c where
  level := (hother .level (by decide)).trans h.level
  format := (hother .format (by decide)).trans h.format
  output := (hother .output (by decide)).trans h.output
  directory := (hother .directory (by decide)).trans h.directory

theorem Carries.step (h : env.Carries c) {other : Environment} (hstep : Step env other) : other.Carries c := by
  cases hstep with
  | readFile file =>
    exact ⟨find?_withFile_of_some h.level file, find?_withFile_of_some h.format file,
      find?_withFile_of_some h.output file, find?_withFile_of_some h.directory file⟩
  | elsewhere hother => exact h.congr hother

theorem Carries.later (h : env.Carries c) {later : Environment} (hlater : env.Later later) : later.Carries c := by
  induction hlater with
  | refl => exact h
  | tail _ hstep ih => exact ih.step hstep

theorem Carries.override_eq (h : env.Carries c) (base : LoggingConfig) : base.override env = c := by
  unfold LoggingConfig.override
  rw [h.level, h.format, h.output, h.directory]
  rfl

theorem Carries.logging_eq (h : env.Carries c) {base loaded : Config} (hloaded : base.override env = .ok loaded) :
    loaded.logging = c :=
  (Config.logging_of_override hloaded).symm.trans (h.override_eq base.logging)

theorem Carries.load (h : env.Carries c) {source : Option String} {loaded : Config}
    (hloaded : Config.load source env = .ok loaded) : loaded.logging = c := by
  unfold Config.load at hloaded
  split at hloaded
  · cases hloaded
  split at hloaded
  · cases hloaded
  · exact h.logging_eq hloaded

theorem Carries.fromEnvironment (h : env.Carries c) {file : String} {loaded : Config}
    (hloaded : (Config.fromEnvironment file env).1 = .ok loaded) : loaded.logging = c :=
  (h.step (.readFile env file)).logging_eq hloaded

theorem Carries.start (h : env.Carries c) (log : Logging) : log.startFromEnvironment env = log.start c :=
  congrArg log.start (h.override_eq {})

end Environment

namespace Config

open Environment

/-- Settings come from the file and the variables, the variables first.  Those that come without a file come from an
empty one, after the variable file has been read.  Exported logging settings come back. -/
theorem load_then_export {text : String} {file : Config} (h : parseYaml? text = some file) (env : Environment) :
    ((∃ root, Yaml.parse? text = some root ∧ ∀ v, file.setting v = ({} : Config).setting v ∨ root.Writes v) ∧
      (∀ v, (∃ e, load (some text) env = .error e ∧ e.variable? = some v) ↔ env.Refused v) ∧
      ((∃ loaded, load (some text) env = .ok loaded) ↔ ∀ v, ¬ env.Refused v) ∧
      (∀ loaded, load (some text) env = .ok loaded ↔ ∀ v : Variable, v.Settled env file loaded) ∧
      ∀ v other loaded loaded', env.get? v = other.get? v → load (some text) env = .ok loaded →
        load (some text) other = .ok loaded' → loaded.setting v = loaded'.setting v) ∧
    (∀ dotEnv, env.Extended dotEnv (fromEnvironment dotEnv env).2 ∧
      ∀ extended, env.Extended dotEnv extended →
        (fromEnvironment dotEnv env).1 = load (some "") extended) ∧
    ∀ config later, (exportLogging config env).Later later →
      (∀ source loaded, load source later = .ok loaded → loaded.logging = config.logging) ∧
      (∀ dotEnv loaded, (fromEnvironment dotEnv later).1 = .ok loaded → loaded.logging = config.logging) ∧
      LoggingConfig.ofEnvironment later = config.logging ∧
      ∀ log, Logging.startFromEnvironment later log = log.start config.logging := by
  have hload : ∀ env, load (some text) env = file.override env := fun env => by rw [load, h]
  simp only [hload]
  refine ⟨⟨?_, fun v => exists_override_eq_error, exists_override_eq_ok, fun loaded => override_eq_ok, ?_⟩, ?_, ?_⟩
  · obtain ⟨root, hroot, hfile⟩ := Option.bind_eq_some_iff.mp h
    exact ⟨root, hroot, default_or_writes hfile⟩
  · intro v other loaded loaded' hv hloaded hloaded'
    exact Variable.Settled.unique hv (override_eq_ok.mp hloaded v) (override_eq_ok.mp hloaded' v)
  · exact fun dotEnv => ⟨extended_withFile env dotEnv, fun extended => fst_fromEnvironment⟩
  · intro config later hlater
    have hcarries : later.Carries config.logging := (carries_exportLogging config env).later hlater
    exact ⟨fun source loaded => hcarries.load, fun dotEnv loaded => hcarries.fromEnvironment,
      hcarries.override_eq {}, hcarries.start⟩

/-- a file that leaves out the dialect and most of the logging settings -/
def clubFile : String := "database:\n  url: file:club.db\n  drop_existing: true\nlogging:\n  level: debug\n"

def clubSettings : Config where
  database := { url := "file:club.db", dropExisting := true }
  logging := { level := "debug" }

def clubVariables : Environment :=
  .ofList [("RELALG_DIALECT", "PG"), ("RELALG_DROP_EXISTING", " Off "), ("LOG_FORMAT", "json")]

def clubLoaded : Config where
  database := { dialect := .postgres, url := "file:club.db" }
  logging := { level := "debug", format := "json" }

/-- two unreadable variables -/
def clubMistakes : Environment := .ofList [("RELALG_DROP_EXISTING", "maybe"), ("RELALG_DIALECT", " pg")]

def clubDotEnv : String := "LOG_FORMAT=compact\nexport LOG_DIR=$HOME/logs\n"

/-- the variables after an export and the reading of the variable file -/
def clubLater : Environment := (fromEnvironment clubDotEnv (clubLoaded.exportLogging clubVariables)).2

theorem load_then_export_club :
    parseYaml? clubFile = some clubSettings ∧
      load (some clubFile) clubVariables = .ok clubLoaded ∧
      (∀ v : Variable, v.Settled clubVariables clubSettings clubLoaded) ∧
      load (some clubFile) clubMistakes = .error (.unknownDialect " pg") ∧ clubMistakes.Refused .dialect ∧
      clubVariables.Extended clubDotEnv (fromEnvironment clubDotEnv clubVariables).2 ∧
      (fromEnvironment clubDotEnv clubVariables).1
        = load (some "") (fromEnvironment clubDotEnv clubVariables).2 ∧
      (clubLoaded.exportLogging clubVariables).Later clubLater ∧
      LoggingConfig.ofEnvironment clubLater = clubLoaded.logging := by
  have hfile : parseYaml? clubFile = some clubSettings := by decide +kernel
  have hload : load (some clubFile) clubVariables = .ok clubLoaded := by
    rw [load, hfile]
    decide +kernel
  have hmistakes : load (some clubFile) clubMistakes = .error (.unknownDialect " pg") := by
    rw [load, hfile]
    decide +kernel
  have hlater : (clubLoaded.exportLogging clubVariables).Later clubLater := .single (.readFile _ clubDotEnv)
  obtain ⟨⟨-, -, -, hsettled, -⟩, hempty, hexport⟩ := load_then_export hfile clubVariables
  obtain ⟨⟨-, hrefused, -⟩, -⟩ := load_then_export hfile clubMistakes
  obtain ⟨hextended, hequal⟩ := hempty clubDotEnv
  exact ⟨hfile, hload, (hsettled clubLoaded).mp hload, hmistakes, (hrefused .dialect).mp ⟨_, hmistakes, rfl⟩,
    hextended, hequal _ hextended, hlater, (hexport _ _ hlater).2.2.1⟩

end Config

end TableAlgebra
