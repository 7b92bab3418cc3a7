import TableAlgebra.AlgebraError

/-!
# Declaring enumerations and domains

Labels and domain names are identifiers, the labels of one enumeration are distinct, and a domain is
based on a base type, never on another domain.
-/

namespace TableAlgebra

/-- the first label that is no identifier or stands earlier in the list -/
def badLabel? : List String → List String → Option String
  | _, [] => none
  | seen, label :: rest =>
    if !isIdentifier label || seen.contains label then some label
    else badLabel? (label :: seen) rest

/-- the enumeration with the given labels: identifiers, none of them twice -/
def BaseType.enumeration (labels : List String) : Except AlgebraError BaseType :=
  match badLabel? [] labels with
  | some label => .error (.invalidEnumLabel label)
  | none => .ok (.enum labels)

namespace Domain

/-- declares a domain over a base type; a domain over a domain is refused -/
def declare (serial : Serial) (name : String) (type : DataType) (defaults : Qualifiers) :
    Except AlgebraError Domain := do
  requireIdentifier name
  match type with
  | .domain d => throw (.invalidBaseType d.name)
  | .base base => return { serial, name, base, defaults }

def value (d : Domain) (label : String) : Except AlgebraError EnumValue :=
  if d.base.labels.contains label then .ok ⟨d, label⟩ else .error (.unknownEnumLabel d.name label)

def values (d : Domain) : List EnumValue := d.base.labels.map fun label => ⟨d, label⟩

end Domain

end TableAlgebra
