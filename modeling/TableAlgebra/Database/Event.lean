import TableAlgebra.Sql.Command

/-!
# Events

What the library reports while it works: a level, a fixed wording and named fields.  How the number of a
transaction is written is for the caller to say.
-/

namespace TableAlgebra

/-- the levels of events, the gravest first -/
inductive Level where
  | error
  | warn
  | info
  | debug
  | trace
  deriving DecidableEq, Inhabited

namespace Level

def name : Level → String
  | error => "ERROR"
  | warn => "WARN"
  | info => "INFO"
  | debug => "DEBUG"
  | trace => "TRACE"

/-- the place of a level: the larger, the less grave -/
def rank : Level → Nat
  | error => 1
  | warn => 2
  | info => 3
  | debug => 4
  | trace => 5

end Level

inductive FieldValue where
  | text (value : String)
  | count (value : Nat)
  deriving DecidableEq

def FieldValue.toText : FieldValue → String
  | text s => s
  | count n => toString n

inductive Event where
  | declaredRelation (table : String) (attributes : Nat)
  | compiledStatement (dialect : Dialect) (kind : String) (statement : Statement)
  | openingDatabase (dialect : Dialect)
  | executingStatement (statement : Statement)
  | executingInTransaction (transaction : Serial) (sql : String)
  | createdTable (table : String)
  | verifiedTable (table : String)
  | schemaDrift (table expected found : String)
  | transactionBegin (transaction : Serial)
  | transactionCommit (transaction : Serial)
  | transactionRollback (transaction : Serial)
  | transactionDropped (transaction : Serial)
  deriving DecidableEq

namespace Event

def level : Event → Level
  | declaredRelation _ _ => .debug
  | compiledStatement _ _ _ => .debug
  | openingDatabase _ => .info
  | executingStatement _ => .debug
  | executingInTransaction _ _ => .debug
  | createdTable _ => .info
  | verifiedTable _ => .info
  | schemaDrift _ _ _ => .warn
  | transactionBegin _ => .info
  | transactionCommit _ => .info
  | transactionRollback _ => .info
  | transactionDropped _ => .warn

def message : Event → String
  | declaredRelation _ _ => "declared relation"
  | compiledStatement _ _ _ => "compiled statement"
  | openingDatabase _ => "opening database"
  | executingStatement _ => "executing statement"
  | executingInTransaction _ _ => "executing statement"
  | createdTable _ => "created table"
  | verifiedTable _ => "verified table"
  | schemaDrift _ _ _ => "schema drift"
  | transactionBegin _ => "transaction begin"
  | transactionCommit _ => "transaction commit"
  | transactionRollback _ => "transaction rollback"
  | transactionDropped _ => "transaction dropped without commit or rollback"

/-- the fields of an event, transactions written by `showTransaction` -/
def fields (showTransaction : Serial → String) : Event → List (String × FieldValue)
  | declaredRelation table attributes => [("table", .text table), ("attributes", .count attributes)]
  | compiledStatement dialect kind statement =>
    [("dialect", .text dialect.name), ("kind", .text kind), ("sql", .text statement.sql),
      ("fingerprint", .text statement.fingerprint)]
  | openingDatabase dialect => [("dialect", .text dialect.name)]
  | executingStatement statement =>
    [("sql", .text statement.sql), ("params", .count statement.params.length)]
  | executingInTransaction transaction sql =>
    [("transaction", .text (showTransaction transaction)), ("sql", .text sql)]
  | createdTable table => [("table", .text table)]
  | verifiedTable table => [("table", .text table)]
  | schemaDrift table expected found =>
    [("table", .text table), ("expected", .text expected), ("found", .text found)]
  | transactionBegin transaction => [("transaction", .text (showTransaction transaction))]
  | transactionCommit transaction => [("transaction", .text (showTransaction transaction))]
  | transactionRollback transaction => [("transaction", .text (showTransaction transaction))]
  | transactionDropped transaction => [("transaction", .text (showTransaction transaction))]

/-- the event of a declared table; a derived relation reports nothing -/
def ofDeclared (r : Relation) : List Event :=
  match r.name? with
  | some name => [declaredRelation name r.columns.length]
  | none => []

end Event

end TableAlgebra
