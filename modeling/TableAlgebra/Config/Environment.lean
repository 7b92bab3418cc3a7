import TableAlgebra.Config.Settings
import TableAlgebra.OrderedMap
import TableAlgebra.Text.Blank

/-!
# Settings from the environment

Each setting has a variable, and a variable that is set wins over the file.  Only the dialect and the
flag can be set to something they do not understand, and the dialect is looked at first.
-/

namespace TableAlgebra

abbrev Environment := OrderedMap String

inductive Variable where
  | dialect
  | databaseUrl
  | dropExisting
  | level
  | format
  | output
  | directory
  deriving DecidableEq, Inhabited

namespace Variable

def name : Variable → String
  | dialect => "RELALG_DIALECT"
  | databaseUrl => "RELALG_DATABASE_URL"
  | dropExisting => "RELALG_DROP_EXISTING"
  | level => "RUST_LOG"
  | format => "LOG_FORMAT"
  | output => "LOG_OUTPUT"
  | directory => "LOG_DIR"

def all : List Variable := [dialect, databaseUrl, dropExisting, level, format, output, directory]

end Variable

def Environment.get? (env : Environment) (v : Variable) : Option String := OrderedMap.find? env v.name

inductive ConfigError where
  | unreadable
  | malformed
  | unknownDialect (lower : String)
  | notFlag (text : String)
  deriving DecidableEq

/-- the wording of an error about a variable; of the others only the kind is fixed -/
def ConfigError.message? : ConfigError → Option String
  | unreadable => none
  | malformed => none
  | unknownDialect lower =>
    some s!"Invalid value for {Variable.name .dialect}: {Dialect.unknownMessage lower}"
  | notFlag text =>
    some s!"Invalid value for {Variable.name .dropExisting}: expected a boolean, found '{text}'"

/-- the words for true and false, in any letter case and with blanks around them -/
def parseFlag? (text : String) : Option Bool :=
  let word := lowercase (trimBlanks text)
  if ["1", "true", "yes", "on"].contains word then some true
  else if ["0", "false", "no", "off"].contains word then some false
  else none

/-- the value of a variable, read by `read`, or the value there is where it is not set -/
def Environment.override {α : Type} (env : Environment) (v : Variable)
    (read : String → Except ConfigError α) (current : α) : Except ConfigError α :=
  match env.get? v with
  | some text => read text
  | none => .ok current

def readDialect (text : String) : Except ConfigError Dialect :=
  (Dialect.parse? text).mapError ConfigError.unknownDialect

def readFlag (text : String) : Except ConfigError Bool :=
  match parseFlag? text with
  | some b => .ok b
  | none => .error (.notFlag text)

/-- logging settings with the variables applied -/
def LoggingConfig.override (c : LoggingConfig) (env : Environment) : LoggingConfig where
  level := (env.get? .level).getD c.level
  format := (env.get? .format).getD c.format
  output := (env.get? .output).getD c.output
  directory := (env.get? .directory).getD c.directory

def LoggingConfig.ofEnvironment (env : Environment) : LoggingConfig := LoggingConfig.override {} env

/-- settings with the variables applied -/
def Config.override (c : Config) (env : Environment) : Except ConfigError Config := do
  let dialect ← env.override .dialect readDialect c.database.dialect
  let dropExisting ← env.override .dropExisting readFlag c.database.dropExisting
  let url := (env.get? .databaseUrl).getD c.database.url
  return { database := { dialect, url, dropExisting }, logging := c.logging.override env }

/-- settings from the text of a file, or none where the file cannot be read, with the variables
applied -/
def Config.load (file : Option String) (env : Environment) : Except ConfigError Config :=
  match file with
  | none => .error .unreadable
  | some text =>
    match Config.parseYaml? text with
    | none => .error .malformed
    | some config => config.override env

/-- the variables with those of the log set to the logging settings -/
def Config.exportLogging (c : Config) (env : Environment) : Environment :=
  (((OrderedMap.insert env (Variable.name .level) c.logging.level).insert
    (Variable.name .format) c.logging.format).insert
    (Variable.name .output) c.logging.output).insert
    (Variable.name .directory) c.logging.directory

end TableAlgebra
