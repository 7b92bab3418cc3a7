import TableAlgebra.Sql.Error
import TableAlgebra.Sql.Row
import TableAlgebra.Sql.Select

/-!
# Commands

What can be asked of a database about a relation, and the statement for it in a dialect.  Only a declared
table can be created, dropped or written to.
-/

namespace TableAlgebra

inductive Command where
  | select (relation : Relation) (rename : Bool)
  | create (relation : Relation)
  | drop (relation : Relation)
  | insert (relation : Relation) (rows : List Row)
  | update (relation : Relation) (row : Row) (condition : Option Expr)
  | remove (relation : Relation) (condition : Option Expr)

def Command.kindName : Command → String
  | select _ _ => "select"
  | create _ => "create"
  | drop _ => "drop"
  | insert _ _ => "insert"
  | update _ _ _ => "update"
  | remove _ _ => "remove"

/-! ## tables -/

def requireCreatable (r : Relation) : Except CompileError String :=
  match r.name? with
  | some name => .ok name
  | none => .error .notCreatable

def requireWritable (r : Relation) (kind : WriteKind) : Except CompileError String :=
  match r.name? with
  | some name => .ok name
  | none => .error (.notWritable kind)

/-- the text of a default in the definition of a column: a truth value as the dialect has it, anything else
as its literal -/
def defaultText (d : Dialect) (value : Value) : Except CompileError String :=
  match value with
  | .bool b => .ok (d.booleanLiteral b)
  | value =>
    match value.toLiteral with
    | .ok literal => .ok literal.text
    | .error e => .error (.algebra e)

/-- the text of a default is that of its literal in an expression -/
theorem defaultText_eq (d : Dialect) (value : Value) : defaultText d value =
    match value.toLiteral with
    | .ok literal => .ok (literal.sqlText d)
    | .error e => .error (.algebra e) := by
  cases value with
  | float x =>
    rw [defaultText, Value.toLiteral]
    · cases x.isFinite with
      | false => rfl
      | true => cases x.toInt64? <;> rfl
    · exact nofun
  | _ => rfl

/-- the definition of a column: name, type, key, and the options in a fixed order -/
def definitionText (d : Dialect) (a : Attribute) : Except CompileError String := do
  let default ← match a.qualifiers.default with
    | some value => (defaultText d value).map (" default " ++ ·)
    | none => pure ""
  return a.name ++ " " ++ d.columnType a
    ++ (match d.keyConstraint? a with
      | some key => " " ++ key
      | none => "")
    ++ (if a.qualifiers.unique then " unique" else "")
    ++ (if a.qualifiers.notNull then " not null" else "")
    ++ default

def Relation.attributes (r : Relation) : List Attribute :=
  r.columns.filterMap fun c => c.expr.attribute?

def createStatement (d : Dialect) (r : Relation) : Except CompileError Statement := do
  let name ← requireCreatable r
  let definitions ← r.attributes.mapM (definitionText d)
  return { sql := "create table " ++ name ++ " (" ++ ", ".intercalate definitions ++ ")" }

def dropStatement (r : Relation) : Except CompileError Statement := do
  let name ← requireCreatable r
  return { sql := "drop table if exists " ++ name }

/-! ## writing -/

/-- The text of a value for a column: the column exists, the value is in scope of the relation, and its
type meets that of the column. -/
def valueText (d : Dialect) (r : Relation) (table : String) (use : TypedUse) (column : String)
    (value : Operand) : Except CompileError String := do
  let target ← match r.column? column with
    | some target => pure target
    | none => throw (.unknownColumn table column)
  let e ← (value.toExpr).mapError CompileError.algebra
  if !r.valid e then
    throw (.algebra (.outOfScope .writeValue))
  if !target.type.joinable e.type then
    throw (.algebra (.incompatibleTypes use target.type e.type))
  return exprText d false e

/-- the text of a condition: in scope and a truth value -/
def conditionText (d : Dialect) (r : Relation) (place : Place) (condition : Expr) :
    Except CompileError String := do
  if !r.valid condition then
    throw (.algebra (.outOfScope place))
  if !condition.type.isBoolean then
    throw (.algebra (.notBoolean place condition.type))
  return exprText d false condition

/-- a condition after its keyword, or nothing where there is none -/
def whereText (d : Dialect) (r : Relation) (place : Place) (condition : Option Expr) :
    Except CompileError String :=
  match condition with
  | some c => (conditionText d r place c).map (" where " ++ ·)
  | none => .ok ""

/-- the tuple of a row, its values in the order of `columns` -/
def tupleText (d : Dialect) (r : Relation) (table : String) (first row : Row) (index : Nat) :
    Except CompileError String := do
  if !row.sameColumns first then
    throw (.heterogeneousRows index)
  let values ← first.keys.mapM fun column =>
    match row.find? column with
    | some value => valueText d r table .insert column value
    | none => throw (.heterogeneousRows index)
  return ",".intercalate values

/-- the tuples of rows counted from `index` -/
def tupleTexts (d : Dialect) (r : Relation) (table : String) (first : Row) : Nat → List Row →
    Except CompileError (List String)
  | _, [] => .ok []
  | index, row :: rows => do
    let tuple ← tupleText d r table first row index
    return tuple :: (← tupleTexts d r table first (index + 1) rows)

/-- The statement that inserts rows.  The first row says which columns are written and in which order;
every other row sets the same ones. -/
def insertStatement (d : Dialect) (r : Relation) (rows : List Row) :
    Except CompileError Statement := do
  let name ← requireWritable r .insert
  match rows with
  | [] => throw (.emptyRow .insert)
  | first :: _ =>
    if first.isEmpty then
      throw (.emptyRow .insert)
    if rows.length > 1 && !d.multiRow then
      throw (.multiRowUnsupported d)
    let tuples ← tupleTexts d r name first 0 rows
    return { sql := "insert into " ++ name ++ " (" ++ ",".intercalate first.keys ++ ") values ("
      ++ "), (".intercalate tuples ++ ")" ++ d.insertSuffix }

def updateStatement (d : Dialect) (r : Relation) (row : Row) (condition : Option Expr) :
    Except CompileError Statement := do
  let name ← requireWritable r .update
  if row.isEmpty then
    throw (.emptyRow .update)
  let assignments ← row.entries.mapM fun (column, value) => do
    return column ++ " = " ++ (← valueText d r name .update column value)
  let condition ← whereText d r .updateCondition condition
  return { sql := "update " ++ name ++ " set " ++ ",".intercalate assignments ++ condition }

def removeStatement (d : Dialect) (r : Relation) (condition : Option Expr) :
    Except CompileError Statement := do
  let name ← requireWritable r .remove
  let condition ← whereText d r .removeCondition condition
  return { sql := "delete from " ++ name ++ condition }

def selectStatement (d : Dialect) (r : Relation) (rename : Bool) : Statement :=
  { sql := selectText d rename r }

def Command.compile (d : Dialect) : Command → Except CompileError Statement
  | select r rename => .ok (selectStatement d r rename)
  | create r => createStatement d r
  | drop r => dropStatement r
  | insert r rows => insertStatement d r rows
  | update r row condition => updateStatement d r row condition
  | remove r condition => removeStatement d r condition

end TableAlgebra
