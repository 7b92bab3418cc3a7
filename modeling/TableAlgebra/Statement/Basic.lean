import TableAlgebra.Digest.Sha256
import TableAlgebra.Value.Json

/-!
# Statements

A statement is a text with values for its placeholders.  Its JSON form leaves out an empty list of
values, and its fingerprint is the SHA-256 digest of that form.
-/

namespace TableAlgebra

/-- the text of a statement and the values of its placeholders, in order -/
structure Statement where
  sql : String
  params : List Value := []
  deriving DecidableEq, Inhabited

namespace Statement

def toJson (s : Statement) : Json :=
  .ofPairs ([("sql", .string s.sql)] ++
    if s.params.isEmpty then [] else [("params", .array (s.params.map Value.toJson))])

def jsonText (s : Statement) : String := s.toJson.compact

/-- the digest of the JSON text, the same for equal statements -/
def fingerprint (s : Statement) : String := Sha256.hexDigest s.jsonText

def readParams? (w : Written) : Option (List Value) := do
  (← w.elements?).mapM Value.ofWritten?

/-- the statement a part stands for; the text must be there, the values need not -/
def ofWritten? (w : Written) : Option Statement := do
  let [some sql, params] ← w.fields? ["sql", "params"] | none
  return { sql := ← sql.string?, params := ← Written.fieldOr? readParams? [] params }

def parse? (text : String) : Option Statement := (Written.parse? text).bind ofWritten?

end Statement

end TableAlgebra
