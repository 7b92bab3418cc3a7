import TableAlgebra.Yaml.Layout
import TableAlgebra.Yaml.Node

/-!
# YAML documents

The only document of a text: directives and an opening line perhaps, then a node, then closing lines.  A
text without any document is read as an empty node.
-/

namespace TableAlgebra.Yaml

namespace NodeReader

/-- the handles that every document knows, but for those that its directives give another meaning -/
def defaultHandles : List (String × List UInt8) :=
  [("!", (Tag.ofAscii "!").octets), ("!!", (Tag.ofAscii "tag:yaml.org,2002:").octets)]

/-- The directives in front of a document: one version at most, which is 1.1 or 1.2, and every handle at
most once.  `versioned` says that the version has been read; every call uses up one unit of fuel. -/
def directives : Nat → Bool → NodeReader Unit
  | 0, _ => failure
  | fuel + 1, versioned => do
    match ← peek with
    | some (.directive (.version major minor)) =>
      if versioned || major != 1 || (minor != 1 && minor != 2) then failure
      skip
      directives fuel true
    | some (.directive (.handle name stem)) =>
      let handles := (← get).handles
      if (handles.lookup name).isSome then failure
      modify fun input => { input with handles := (name, stem) :: handles }
      skip
      directives fuel versioned
    | _ => return ()

def closings : NodeReader Unit := modify fun input =>
  { input with tokens := input.tokens.dropWhile (· == .documentEnd) }

/-- The next token opens a document with a line of its own, or is a directive before that line. -/
def opensDocument : Option Token → Bool
  | some .documentStart => true
  | some (.directive _) => true
  | _ => false

/-- a node after an opening line, which may be left out -/
def content (fuel : Nat) : NodeReader Yaml := do
  match ← peek with
  | none => return empty
  | some .documentEnd => return empty
  | token => if opensDocument token then return empty else node fuel true false

def document (fuel : Nat) : NodeReader Yaml := do
  let first ← peek
  if first.isNone then return empty
  let explicit := opensDocument first
  if explicit then
    directives fuel false
    if !(← skipIf .documentStart) then failure
  modify fun input => { input with handles := input.handles ++ defaultHandles }
  let root ← if explicit then content fuel else node fuel true false
  closings
  if (← peek).isSome then failure
  return root

end NodeReader

/-- The only document of a text.  A second document is refused, and so is a text with characters that no
document holds. -/
def parse? (text : String) : Option Yaml :=
  let cs := text.toList
  if cs.any isForbidden then none
  else do
    let tokens ← tokens? (spots (unifyBreaks cs))
    let (root, _) ← (NodeReader.document (4 * tokens.length + 4)).run { tokens }
    return root

end TableAlgebra.Yaml
