import TableAlgebra.Pattern.Basic
import TableAlgebra.Text.Alphanumeric

/-!
# Groups of patterns

How patterns are read.  A group may have a name, which is given once in a pattern, or a change of flags.
Repetitions with counts, references to groups, and looking around are no patterns.
-/

namespace TableAlgebra

/-! ## openings -/

inductive GroupOpening where
  /-- a group, with a change of flags for it, and perhaps a name -/
  | group (change : FlagChange) (name : Option (List Char))
  /-- no group, but a change of flags for the rest of the group around it -/
  | flags (change : FlagChange)

/-- a name begins with a letter or an underscore; points and brackets may follow as well as numbers -/
def isGroupName : List Char → Bool
  | [] => false
  | c :: cs =>
    (c == '_' || isAlphabetic c) &&
      cs.all fun c => c == '_' || c == '.' || c == '[' || c == ']' || isAlphanumeric c

/-- the name of a group, up to the angle that ends it -/
def groupName? (cs : List Char) : Option (GroupOpening × List Char) :=
  let name := cs.takeWhile fun c => c != '>'
  match cs.dropWhile fun c => c != '>' with
  | _ :: rest => if isGroupName name then some (.group {} (some name), rest) else none
  | [] => none

/-- the flags of a group, up to the colon or the parenthesis that ends them -/
def groupFlags? (cs : List Char) : Option (GroupOpening × List Char) := do
  let change ← FlagChange.ofText? (cs.takeWhile fun c => c != ':' && c != ')')
  match cs.dropWhile fun c => c != ':' && c != ')' with
  | ':' :: rest => some (.group change none, rest)
  | ')' :: rest => if change.isEmpty then none else some (.flags change, rest)
  | _ => none

/-- the opening of a group after its parenthesis -/
def groupOpening? : List Char → Option (GroupOpening × List Char)
  | '?' :: 'P' :: '<' :: cs => groupName? cs
  | '?' :: '<' :: cs => groupName? cs
  | '?' :: cs => groupFlags? cs
  | cs => some (.group {} none, cs)

/-! ## open groups -/

/-- A group whose closing parenthesis is still to come, or the whole pattern: whether spaces count, the
names that have been given to groups, the branches that are complete and the parts of the last one, the
last of each first. -/
structure OpenGroup where
  spaced : Bool := false
  names : List (List Char) := []
  branches : List Pattern := []
  parts : List Pattern := []

namespace OpenGroup

def add (g : OpenGroup) (p : Pattern) : OpenGroup := { g with parts := p :: g.parts }

def branch (g : OpenGroup) : Pattern := .ofSequence g.parts.reverse

def nextBranch (g : OpenGroup) : OpenGroup :=
  { g with branches := g.branch :: g.branches, parts := [] }

def content (g : OpenGroup) : Pattern := .ofChoice (g.branch :: g.branches).reverse

/-- with its last part repeated -/
def repeated? (g : OpenGroup) : Option OpenGroup :=
  match g.parts with
  | p :: parts => if p.isRepeatable then some { g with parts := .repetition p :: parts } else none
  | [] => none

def inner? (g : OpenGroup) (change : FlagChange) (name : Option (List Char)) : Option OpenGroup :=
  let spaced := change.apply 'x' g.spaced
  match name with
  | none => some { spaced, names := g.names }
  | some name => if g.names.contains name then none else some { spaced, names := name :: g.names }

def addGroup (g : OpenGroup) (change : FlagChange) (inner : OpenGroup) : OpenGroup :=
  { g with names := inner.names, parts := .group change inner.content :: g.parts }

def addFlags (g : OpenGroup) (change : FlagChange) : OpenGroup :=
  { g with spaced := change.apply 'x' g.spaced, parts := .flags change :: g.parts }

end OpenGroup

/-! ## reading -/

/-- a sign outside of sets; counts of repetitions are refused -/
def patternSign? (spaced : Bool) : List Char → Option (PatternSign × List Char)
  | [] => none
  | '\\' :: cs => escape? spaced cs
  | c :: cs =>
    if c == '\x7b' then none
    else if c == '.' then some (.any, cs)
    else if c == '^' || c == '$' then some (.bound, cs)
    else some (.char c, cs)

/-- The rest of a group, and its closing parenthesis with what comes after it, if there is one.  A
question mark right behind a repetition belongs to it.  No more than `levels` groups may be open in this
one; every call uses up one unit of fuel. -/
def groupRest? : Nat → (levels : Nat) → OpenGroup → List Char → Option (OpenGroup × List Char)
  | 0, _, _, _ => none
  | fuel + 1, levels, g, cs =>
    match skipSpace g.spaced cs with
    | [] => some (g, [])
    | ')' :: cs => some (g, ')' :: cs)
    | '|' :: cs => groupRest? fuel levels g.nextBranch cs
    | '(' :: cs => do
      let (opening, cs) ← groupOpening? (skipSpace g.spaced cs)
      match opening with
      | .flags change => groupRest? fuel levels (g.addFlags change) cs
      | .group change name =>
        if levels = 0 then none
        else
          match ← groupRest? fuel (levels - 1) (← g.inner? change name) cs with
          | (inner, ')' :: cs) => groupRest? fuel levels (g.addGroup change inner) cs
          | _ => none
    | '[' :: cs => do
      let (s, cs) ← charSet? g.spaced fuel Pattern.maxDepth cs
      groupRest? fuel levels (g.add (.set s)) cs
    | c :: cs =>
      if c == '*' || c == '+' || c == '?' then do
        groupRest? fuel levels (← g.repeated?) (if cs.head? == some '?' then cs.tail else cs)
      else do
        let (s, cs) ← patternSign? g.spaced (c :: cs)
        groupRest? fuel levels (g.add (.sign s)) cs

/-- The pattern that a text stands for.  Groups that are too deep to be accepted are not read at all. -/
def Pattern.ofText? (cs : List Char) : Option Pattern :=
  match groupRest? (cs.length + 1) maxDepth {} cs with
  | some (g, []) => some g.content
  | _ => none

def isPattern (cs : List Char) : Bool := (Pattern.ofText? cs).any Pattern.accepted

end TableAlgebra
