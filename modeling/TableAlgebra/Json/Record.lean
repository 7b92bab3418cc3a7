import TableAlgebra.Json.Written

/-!
# Records in JSON

A record with named fields is read from an object or from an array.  In an object the fields come in any
order, unknown members are passed over and a known one may not come twice.  In an array the fields stand
in their order of declaration; those at the end may be missing, and there may be no more.  Either way
the result is one part or none for each field, and what a missing field means is for the record to say.
-/

namespace TableAlgebra

namespace Written

def partsNamed (field : String) (members : List (String × Written)) : List Written :=
  (members.filter fun m => m.1 == field).map Prod.snd

/-- the only part of a list, or none; a second one is refused -/
def atMostOne? : List Written → Option (Option Written)
  | [] => some none
  | [w] => some (some w)
  | _ => none

/-- the members of an object under their names -/
def namedMembers? (members : List WrittenMember) : Option (List (String × Written)) :=
  members.mapM fun m => m.name?.map fun name => (name, m.value)

/-- the parts of a record for its fields in order, from an object or an array -/
def fields? (names : List String) : Written → Option (List (Option Written))
  | object members => do
    let named ← namedMembers? members
    names.mapM fun field => atMostOne? (partsNamed field named)
  | array elements =>
    if elements.length ≤ names.length then
      some (elements.map some ++ List.replicate (names.length - elements.length) none)
    else none
  | _ => none

/-- the value of a field, or the value a missing field has -/
def fieldOr? {α : Type} (read : Written → Option α) (missing : α) : Option Written → Option α
  | none => some missing
  | some w => read w

end Written

end TableAlgebra
