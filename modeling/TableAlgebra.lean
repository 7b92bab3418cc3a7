import TableAlgebra.Config.DotEnv
import TableAlgebra.Database.Transaction
import TableAlgebra.Logging.Setup
import TableAlgebra.Proofs.Config.Export
import TableAlgebra.Proofs.Database.Delivery
import TableAlgebra.Proofs.Database.Drift
import TableAlgebra.Proofs.Database.Lifecycle
import TableAlgebra.Proofs.Database.ResultColumns
import TableAlgebra.Proofs.Expr.OperatorTree
import TableAlgebra.Proofs.Json.RoundTrip
import TableAlgebra.Proofs.Number.IntegerLiteral
import TableAlgebra.Proofs.Program.Precedence
import TableAlgebra.Proofs.Program.Strings
import TableAlgebra.Proofs.Program.Typing
import TableAlgebra.Proofs.Relation.GroupingKeys
import TableAlgebra.Proofs.Relation.JoinOrder
import TableAlgebra.Proofs.Relation.Joins
import TableAlgebra.Proofs.Relation.Narrowing
import TableAlgebra.Proofs.Relation.OrderingKeys
import TableAlgebra.Proofs.Schema
import TableAlgebra.Proofs.Sql.Default
import TableAlgebra.Proofs.Sql.Dialects
import TableAlgebra.Proofs.Sql.Readability
import TableAlgebra.Proofs.Sql.SameDefinition
import TableAlgebra.Relation.Handle
import TableAlgebra.Schema
