import TableAlgebra.Config.Environment
import TableAlgebra.Logging.FileTree
import TableAlgebra.Logging.Filter

/-!
# Setting up the log

The log is set up once: a filter, a format, and the places it goes to.  The filter is read first, then
the directory is made and its file opened, and only then is it noticed that the log is set up already; so
a second attempt leaves an empty file behind.
-/

namespace TableAlgebra

/-! ## formats and places -/

inductive LogFormat where
  | pretty
  | json
  | compact
  deriving DecidableEq, Inhabited

inductive LogOutput where
  | stdout
  | file
  | both
  deriving DecidableEq, Inhabited

namespace LogFormat

/-- the format of exactly that name; every other name means pretty -/
def parse (text : String) : LogFormat :=
  if text == "json" then json
  else if text == "compact" then compact
  else pretty

def name : LogFormat → String
  | pretty => "Pretty"
  | json => "Json"
  | compact => "Compact"

end LogFormat

namespace LogOutput

/-- the output of exactly that name; every other name means stdout -/
def parse (text : String) : LogOutput :=
  if text == "file" then file
  else if text == "both" then both
  else stdout

def name : LogOutput → String
  | stdout => "Stdout"
  | file => "File"
  | both => "Both"

def writesFile (o : LogOutput) : Bool := o != stdout

def writesConsole (o : LogOutput) : Bool := o != file

end LogOutput

/-! ## records -/

structure LogRecord where
  level : Level
  target : String
  message : String
  fields : List (String × FieldValue)
  deriving DecidableEq

def logFileName : String := "relalg.log"

/-- the target of the records about the log itself -/
def loggingTarget : String := "relalg_driver::logging"

def relationTarget : String := "relalg_core::relation"

namespace LogRecord

/-- the names of the fields, the wording being one of them -/
def fieldNames (r : LogRecord) : List String := "message" :: r.fields.map Prod.fst

/-- the log has been set up -/
def initialized (format : LogFormat) (output : LogOutput) (level : String) : LogRecord where
  level := .info
  target := loggingTarget
  message := "logging initialized"
  fields := [("format", .text format.name), ("output", .text output.name), ("level", .text level)]

/-- the log goes to files -/
def writingFiles (directory : String) : LogRecord where
  level := .debug
  target := loggingTarget
  message := "writing log files"
  fields := [("directory", .text directory), ("file", .text logFileName)]

/-- a table has been declared -/
def ofEvent (showTransaction : Serial → String) (e : Event) : LogRecord where
  level := e.level
  target := relationTarget
  message := e.message
  fields := e.fields showTransaction

end LogRecord

/-! ## setting up -/

inductive LoggingError where
  | invalidFilter (directive : String)
  | unwritable
  | alreadyStarted
  deriving DecidableEq

structure LogSetup where
  format : LogFormat
  output : LogOutput
  filter : LogFilter
  directory : Option Location

/-- the log that is set up, the files around it, the directories that have a log file, and the records
let through -/
structure Logging where
  setup : Option LogSetup := none
  tree : FileTree := {}
  directories : List Location := []
  records : List LogRecord := []
  deriving Inhabited

namespace Logging

def write (l : Logging) (r : LogRecord) : Logging :=
  match l.setup with
  | some setup =>
    if setup.filter.enabled r.target r.fieldNames r.level then { l with records := l.records ++ [r] }
    else l
  | none => l

/-- makes a directory and a log file in it, and gives the place of the directory -/
def openFile (directory : String) (l : Logging) : Option Location × Logging :=
  match Path.ofText? directory with
  | none => (none, l)
  | some path =>
    match l.tree.ensureAll path with
    | (some place, tree) => (some place, { l with tree, directories := l.directories ++ [place] })
    | (none, tree) => (none, { l with tree })

/-- sets the log up if nothing is set up yet; the file, if there is one, is open already -/
def begin (setup : LogSetup) (c : LoggingConfig) (l : Logging) : Except LoggingError Unit × Logging :=
  match l.setup with
  | some _ => (.error .alreadyStarted, l)
  | none =>
    let l := { l with setup := some setup }
    let l := l.write (.initialized setup.format setup.output c.level)
    (.ok (), if setup.output.writesFile then l.write (.writingFiles c.directory) else l)

def start (c : LoggingConfig) (l : Logging) : Except LoggingError Unit × Logging :=
  let format := LogFormat.parse c.format
  let output := LogOutput.parse c.output
  match LogFilter.parse? c.level with
  | none => (.error (.invalidFilter c.level), l)
  | some filter =>
    if output.writesFile then
      match l.openFile c.directory with
      | (none, l) => (.error .unwritable, l)
      | (some place, l) => l.begin { format, output, filter, directory := some place } c
    else l.begin { format, output, filter, directory := none } c

/-- sets the log up by the variables alone -/
def startFromEnvironment (env : Environment) (l : Logging) : Except LoggingError Unit × Logging :=
  l.start (.ofEnvironment env)

def console (l : Logging) : List LogRecord :=
  match l.setup with
  | some setup => if setup.output.writesConsole then l.records else []
  | none => []

def fileIn (l : Logging) (directory : Location) : List LogRecord :=
  match l.setup with
  | some setup => if setup.directory == some directory then l.records else []
  | none => []

end Logging

end TableAlgebra
