import TableAlgebra.Config.Environment
import TableAlgebra.Text.Alphanumeric

/-!
# Variable files

A file of lines `KEY=value` that fills in variables not set yet.  Lines may be empty, may be comments and
may begin with `export`.  In a value single quotes keep everything, double quotes keep blanks, and a
backslash escapes outside of single quotes.  A dollar sign with letters and numbers of any script after
it, or with a name in braces, stands for the value of a variable.  A quoted value may run over several
lines.  Reading stops at the first line that is not understood; the lines before it count.
-/

namespace TableAlgebra.DotEnv

/-! ## logical lines -/

/-- where a logical line stands after a character -/
inductive LineState where
  | complete
  | escape
  | strong
  | strongEscape
  | weak
  | weakEscape
  | blank
  | comment
  deriving DecidableEq, Inhabited

/-- the state outside of quotes after a character that is neither blank nor the start of a comment -/
def openState (c : Char) : LineState :=
  if c == '\\' then .escape
  else if c == '"' then .weak
  else if c == '\'' then .strong
  else .complete

def LineState.step : LineState → Char → LineState
  | .blank, c => if c == '#' then .comment else openState c
  | .escape, _ => .complete
  | .complete, c =>
    if isBlank c && c != '\n' && c != '\r' then .blank else openState c
  | .weak, c => if c == '\\' then .weakEscape else if c == '"' then .complete else .weak
  | .weakEscape, _ => .weak
  | .strong, c => if c == '\\' then .strongEscape else if c == '\'' then .complete else .strong
  | .strongEscape, _ => .strong
  | .comment, _ => .comment

/-- Runs over a physical line: the state at its end, or the characters before the sign that opens a
comment. -/
def scanLine : LineState → List Char → LineState × List Char
  | s, [] => (s, [])
  | s, c :: cs =>
    let s := s.step c
    if s == .comment then (.comment, [])
    else
      let (last, kept) := scanLine s cs
      (last, c :: kept)

/-- the physical lines of a file, each with the line feed that ends it -/
def physicalLines : List Char → List (List Char)
  | [] => []
  | c :: cs =>
    if c == '\n' then [c] :: physicalLines cs
    else
      match physicalLines cs with
      | [] => [[c]]
      | line :: lines => (c :: line) :: lines

/-- a line that is given from its end, without the line break there -/
def dropBreak : List Char → List Char
  | '\n' :: '\r' :: rest => rest
  | '\n' :: rest => rest
  | cs => cs

def opensComment (cs : List Char) : Bool := (cs.dropWhile isBlank).head? == some '#'

/-- Puts a physical line that ends inside of quotes, an escape or blanks together with the next one.  What
has been put together so far is `done`, given from its end.  A file that ends with such a line gives no
line for it but `none`, which stops the reading.  A line that begins with a comment sign is empty. -/
def gatherLines : LineState → List Char → List (List Char) → List (Option (List Char))
  | .complete, _, [] => []
  | _, _, [] => [none]
  | s, done, line :: lines =>
    if done.isEmpty && opensComment line then
      some [] :: gatherLines .complete [] lines
    else
      match scanLine s line with
      | (.complete, _) =>
        some (dropBreak (line.reverseAux done)).reverse :: gatherLines .complete [] lines
      | (.comment, kept) => some (kept.reverseAux done).reverse :: gatherLines .complete [] lines
      | (s, _) => gatherLines s (line.reverseAux done) lines

/-- the logical lines of a file; a byte-order mark in front of it is passed over -/
def logicalLines (text : String) : List (Option (List Char)) :=
  let cs := match text.toList with
    | '\uFEFF' :: cs => cs
    | cs => cs
  gatherLines .complete [] (physicalLines cs)

/-! ## values -/

/-- where the reading of a value stands with a variable to stand in; its name is given from the end -/
inductive Substitution where
  | none
  | plain (name : List Char)
  | braced (name : List Char)
  deriving Inhabited

/-- where the reading of a value stands; what has been read is given from its end -/
structure ValueState where
  strong : Bool := false
  weak : Bool := false
  escaped : Bool := false
  ended : Bool := false
  substitution : Substitution := .none
  output : List Char := []
  deriving Inhabited

def ValueState.push (s : ValueState) (c : Char) : ValueState := { s with output := c :: s.output }

/-- adds the value of the variable whose name is given from its end -/
def ValueState.pushValue (s : ValueState) (value : String → String) (name : List Char) : ValueState :=
  { s with output := (value (String.ofList name.reverse)).toList.reverseAux s.output }

/-- one character outside of an escape, single quotes and a variable's name -/
def ValueState.ordinary (s : ValueState) (c : Char) : ValueState :=
  if c == '$' then { s with substitution := .plain [] }
  else if s.weak then
    if c == '"' then { s with weak := false }
    else if c == '\\' then { s with escaped := true }
    else s.push c
  else if c == '\'' then { s with strong := true }
  else if c == '"' then { s with weak := true }
  else if c == '\\' then { s with escaped := true }
  else if c == ' ' || c == '\t' then { s with ended := true }
  else s.push c

/-- Reads the characters of a value, `value` giving the values of variables.  After a blank only blanks
and a comment may follow. -/
def readValue? (value : String → String) : ValueState → List Char → Option ValueState
  | s, [] => some s
  | s, c :: cs =>
    if s.ended then
      if c == ' ' || c == '\t' then readValue? value s cs
      else if c == '#' then some s
      else none
    else if s.escaped then
      if c == '\\' || c == '\'' || c == '"' || c == '$' || c == ' ' then
        readValue? value ({ s with escaped := false }.push c) cs
      else if c == 'n' then readValue? value ({ s with escaped := false }.push '\n') cs
      else none
    else if s.strong then
      readValue? value (if c == '\'' then { s with strong := false } else s.push c) cs
    else
      match s.substitution with
      | .none => readValue? value (s.ordinary c) cs
      | .plain name =>
        if isAlphanumeric c then readValue? value { s with substitution := .plain (c :: name) } cs
        else if c == '\x7b' && name.isEmpty then
          readValue? value { s with substitution := .braced [] } cs
        else
          let s := s.pushValue value name
          if c == '$' then readValue? value { s with substitution := .plain [] } cs
          else readValue? value ({ s with substitution := .none }.push c) cs
      | .braced name =>
        if c == '\x7d' then
          readValue? value ({ s with substitution := .none }.pushValue value name) cs
        else readValue? value { s with substitution := .braced (c :: name) } cs

/-- what a value comes to at its end; a quote or a brace left open is refused -/
def finishValue? (value : String → String) (s : ValueState) : Option String :=
  if s.strong || s.weak then none
  else
    match s.substitution with
    | .none => some (String.ofList s.output.reverse)
    | .plain name => some (String.ofList (s.pushValue value name).output.reverse)
    | .braced _ => none

/-! ## assignments -/

/-- a key: a letter or an underscore, then letters, digits, underscores and points -/
def readKey? (cs : List Char) : Option (List Char × List Char) :=
  match cs with
  | [] => none
  | c :: _ =>
    if isIdentifierStart c || c == '_' then
      let isPart := fun c => isIdentifierPart c || c == '.'
      some (cs.takeWhile isPart, cs.dropWhile isPart)
    else none

def afterEqual? : List Char → Option (List Char)
  | '=' :: cs => some cs
  | _ => none

/-- the key of a line and the text of its value; a first word `export` is passed over, unless it is the
key itself -/
def splitAssignment? (cs : List Char) : Option (List Char × List Char) := do
  let (key, cs) ← readKey? cs
  let cs := cs.dropWhile isBlank
  match afterEqual? cs with
  | some cs => return (key, cs.dropWhile isBlank)
  | none =>
    if String.ofList key == "export" then
      let (key, cs) ← readKey? cs
      let cs ← afterEqual? (cs.dropWhile isBlank)
      return (key, cs.dropWhile isBlank)
    else none

/-- the assignment of a line, if there is one: none within for a line that is empty or a comment, and
none at all for a line that is not understood -/
def readAssignment? (value : String → String) (line : List Char) :
    Option (Option (String × String)) :=
  match (trimBlanksRight line).dropWhile isBlank with
  | [] => some none
  | '#' :: _ => some none
  | cs => do
    let (key, rest) ← splitAssignment? cs
    match rest with
    | [] => return some (String.ofList key, "")
    | '#' :: _ => return some (String.ofList key, "")
    | rest =>
      let text ← (readValue? value {} rest).bind (finishValue? value)
      return some (String.ofList key, text)

/-- The variables after the lines of a file.  A variable that is set keeps its value; in a value it goes
before one of the file's own, kept in `own`. -/
def readLines (env own : Environment) : List (Option (List Char)) → Environment
  | [] => env
  | none :: _ => env
  | some line :: lines =>
    let value := fun name => ((env.find? name).or (own.find? name)).getD ""
    match readAssignment? value line with
    | none => env
    | some none => readLines env own lines
    | some (some (key, text)) =>
      readLines (if env.contains key then env else env.insert key text) (own.insert key text) lines

end TableAlgebra.DotEnv

namespace TableAlgebra

/-- the variables with those of a file that were not set -/
def Environment.withFile (env : Environment) (file : String) : Environment :=
  DotEnv.readLines env ∅ (DotEnv.logicalLines file)

/-- default settings with the variables applied, those of a variable file included; also the variables
after it -/
def Config.fromEnvironment (file : String) (env : Environment) :
    Except ConfigError Config × Environment :=
  let env := env.withFile file
  (Config.override {} env, env)

end TableAlgebra
