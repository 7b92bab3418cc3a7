import TableAlgebra.Sql.Dialect
import TableAlgebra.Yaml.Document

/-!
# Settings

The settings of an application: which database it talks to, and how it logs.  They are read from YAML
and from JSON; a section or a setting that is missing takes its default.
-/

namespace TableAlgebra

structure DatabaseConfig where
  dialect : Dialect := .sqlite
  url : String := ":memory:"
  dropExisting : Bool := false
  deriving DecidableEq, Inhabited

/-- how an application logs: the filter, then pretty, json or compact, then stdout, file or both, and
where the files go -/
structure LoggingConfig where
  level : String := "info"
  format : String := "pretty"
  output : String := "stdout"
  directory : String := "./logs"
  deriving DecidableEq, Inhabited

structure Config where
  database : DatabaseConfig := {}
  logging : LoggingConfig := {}
  deriving DecidableEq, Inhabited

/-! ## JSON -/

def DatabaseConfig.toJson (c : DatabaseConfig) : Json :=
  .ofPairs [("dialect", c.dialect.toJson), ("url", .string c.url),
    ("drop_existing", .bool c.dropExisting)]

def LoggingConfig.toJson (c : LoggingConfig) : Json :=
  .ofPairs [("level", .string c.level), ("format", .string c.format), ("output", .string c.output),
    ("directory", .string c.directory)]

def Config.toJson (c : Config) : Json :=
  .ofPairs [("database", c.database.toJson), ("logging", c.logging.toJson)]

def DatabaseConfig.fieldNames : List String := ["dialect", "url", "drop_existing"]

def LoggingConfig.fieldNames : List String := ["level", "format", "output", "directory"]

def Config.fieldNames : List String := ["database", "logging"]

def DatabaseConfig.ofWritten? (w : Written) : Option DatabaseConfig := do
  let [dialect, url, dropExisting] ← w.fields? fieldNames | none
  let defaults : DatabaseConfig := {}
  return {
    dialect := ← Written.fieldOr? Dialect.ofWritten? defaults.dialect dialect
    url := ← Written.fieldOr? Written.string? defaults.url url
    dropExisting := ← Written.fieldOr? Written.bool? defaults.dropExisting dropExisting }

def LoggingConfig.ofWritten? (w : Written) : Option LoggingConfig := do
  let [level, format, output, directory] ← w.fields? fieldNames | none
  let defaults : LoggingConfig := {}
  return {
    level := ← Written.fieldOr? Written.string? defaults.level level
    format := ← Written.fieldOr? Written.string? defaults.format format
    output := ← Written.fieldOr? Written.string? defaults.output output
    directory := ← Written.fieldOr? Written.string? defaults.directory directory }

def Config.ofWritten? (w : Written) : Option Config := do
  let [database, logging] ← w.fields? fieldNames | none
  return {
    database := ← Written.fieldOr? DatabaseConfig.ofWritten? {} database
    logging := ← Written.fieldOr? LoggingConfig.ofWritten? {} logging }

def Config.parseJson? (text : String) : Option Config := (Written.parse? text).bind Config.ofWritten?

/-! ## YAML -/

namespace Yaml

/-- The scalar that a node stands for.  Here and below `root` is the tree in which aliases are looked
up. -/
def scalar? (root node : Yaml) : Option (Properties × ScalarStyle × String) :=
  match root.resolve? node with
  | some (.scalar p style text) => some (p, style, text)
  | _ => none

/-- the text of a scalar, whatever its style and its tag -/
def text? (root node : Yaml) : Option String := (scalar? root node).map fun (_, _, text) => text

/-- a plain scalar that stands for nothing -/
def isNull (text : String) : Bool := ["", "~", "null", "Null", "NULL"].contains text

/-- the truth value of a plain scalar, or of a literal one with the tag of truth values -/
def flag? (root node : Yaml) : Option Bool := do
  let (p, style, text) ← scalar? root node
  if style == .plain || (style == .literal && p.tag == some Tag.bool) then
    if ["true", "True", "TRUE"].contains text then some true
    else if ["false", "False", "FALSE"].contains text then some false
    else none
  else none

/-- the name of a choice: the text of a scalar, or the name of its own tag in front of nothing -/
def choice? (root node : Yaml) : Option String := do
  let (p, style, text) ← scalar? root node
  match p.tag.bind Tag.localName? with
  | some name => if style == .plain && isNull text then some name else none
  | none => some text

/-- the entries of a section, whose keys must be scalars; one where nothing is written has none -/
def entries? (root node : Yaml) : Option (List (String × Yaml)) :=
  match root.resolve? node with
  | some (.mapping _ entries) => entries.mapM fun e => (text? root e.key).map (·, e.value)
  | some (.scalar _ style text) => if style == .plain && text.isEmpty then some [] else none
  | _ => none

/-- the value of a key among entries: the default if it is missing, and nothing if it comes twice or
does not fit -/
def entryOr? {α : Type} (read : Yaml → Option α) (missing : α) (key : String)
    (entries : List (String × Yaml)) : Option α :=
  match entries.filter fun e => e.1 == key with
  | [] => some missing
  | [e] => read e.2
  | _ => none

end Yaml

def DatabaseConfig.ofYaml? (root node : Yaml) : Option DatabaseConfig := do
  let entries ← Yaml.entries? root node
  let defaults : DatabaseConfig := {}
  let readDialect := fun y => (Yaml.choice? root y).bind Dialect.ofName?
  return {
    dialect := ← Yaml.entryOr? readDialect defaults.dialect "dialect" entries
    url := ← Yaml.entryOr? (Yaml.text? root) defaults.url "url" entries
    dropExisting := ← Yaml.entryOr? (Yaml.flag? root) defaults.dropExisting "drop_existing" entries }

def LoggingConfig.ofYaml? (root node : Yaml) : Option LoggingConfig := do
  let entries ← Yaml.entries? root node
  let defaults : LoggingConfig := {}
  let readText := Yaml.text? root
  return {
    level := ← Yaml.entryOr? readText defaults.level "level" entries
    format := ← Yaml.entryOr? readText defaults.format "format" entries
    output := ← Yaml.entryOr? readText defaults.output "output" entries
    directory := ← Yaml.entryOr? readText defaults.directory "directory" entries }

def Config.ofYaml? (root : Yaml) : Option Config := do
  let entries ← Yaml.entries? root root
  return {
    database := ← Yaml.entryOr? (DatabaseConfig.ofYaml? root) {} "database" entries
    logging := ← Yaml.entryOr? (LoggingConfig.ofYaml? root) {} "logging" entries }

def Config.parseYaml? (text : String) : Option Config := (Yaml.parse? text).bind Config.ofYaml?

end TableAlgebra
