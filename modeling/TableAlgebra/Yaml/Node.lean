import TableAlgebra.OrderedMap
import TableAlgebra.Yaml.Token

/-!
# YAML trees

The tree of a document, read from its tokens.  A node may carry a tag and an anchor, and an alias stands
for the node with its anchor.  An anchor is known by a number, which is how many names had been taken
when it was set; of two nodes with one number the alias means the one that begins later.
-/

namespace TableAlgebra

/-- what a node carries besides its contents -/
structure Yaml.Properties where
  anchor : Option Nat := none
  tag : Option Yaml.Tag := none
  deriving DecidableEq, Inhabited

mutual

/-- a YAML tree; the entries of a mapping are in order, and a key may come twice -/
inductive Yaml where
  | alias (anchor : Nat)
  | scalar (properties : Yaml.Properties) (style : Yaml.ScalarStyle) (text : String)
  | sequence (properties : Yaml.Properties) (items : List Yaml)
  | mapping (properties : Yaml.Properties) (entries : List YamlEntry)

structure YamlEntry where
  key : Yaml
  value : Yaml

end

namespace Yaml

/-- the node of a place where nothing is written -/
def empty : Yaml := .scalar {} .plain ""

instance : Inhabited Yaml := ⟨empty⟩

/-! ## anchors -/

mutual

/-- the nodes with an anchor, in the order in which they begin -/
def anchored (anchor : Nat) : Yaml → List Yaml
  | .alias _ => []
  | .scalar p style text => if p.anchor == some anchor then [.scalar p style text] else []
  | .sequence p items =>
    (if p.anchor == some anchor then [.sequence p items] else []) ++ anchoredItems anchor items
  | .mapping p entries =>
    (if p.anchor == some anchor then [.mapping p entries] else []) ++ anchoredEntries anchor entries

def anchoredItems (anchor : Nat) : List Yaml → List Yaml
  | [] => []
  | item :: items => anchored anchor item ++ anchoredItems anchor items

def anchoredEntries (anchor : Nat) : List YamlEntry → List Yaml
  | [] => []
  | ⟨key, value⟩ :: entries =>
    anchored anchor key ++ (anchored anchor value ++ anchoredEntries anchor entries)

end

/-- the node that a node of the tree `root` stands for -/
def resolve? (root : Yaml) : Yaml → Option Yaml
  | .alias anchor => (root.anchored anchor).getLast?
  | node => some node

/-! ## reading -/

/-- the tokens that are left, the names of anchors with their numbers, and what handles stand for -/
structure NodeInput where
  tokens : List Token
  anchors : OrderedMap Nat := ∅
  handles : List (String × List UInt8) := []

abbrev NodeReader := StateT NodeInput Option

namespace NodeReader

def peek : NodeReader (Option Token) := do return (← get).tokens.head?

def skip : NodeReader Unit := modify fun input => { input with tokens := input.tokens.drop 1 }

def next : NodeReader (Option Token) := do
  let token ← peek
  skip
  return token

/-- passes over the next token if it is this one, and says whether it was -/
def skipIf (token : Token) : NodeReader Bool := do
  if (← peek) == some token then
    skip
    return true
  else return false

/-- sets an anchor; its number is how many names are taken -/
def setAnchor (name : String) : NodeReader Nat := do
  let anchors := (← get).anchors
  let number := anchors.entries.length
  modify fun input => { input with anchors := anchors.insert name number }
  return number

def anchorNumber (name : String) : NodeReader Nat := do (← get).anchors.find? name

/-- a tag in full; its handle must be known, and no handle stands for nothing -/
def fullTag (name : TagName) : NodeReader Tag := do
  if name.handle.isEmpty then return ⟨name.suffix⟩
  else return ⟨(← (← get).handles.lookup name.handle) ++ name.suffix⟩

def anchorName : NodeReader (Option String) := do
  match ← peek with
  | some (.anchor name) =>
    skip
    return some name
  | _ => return none

def tagName : NodeReader (Option TagName) := do
  match ← peek with
  | some (.tag name) =>
    skip
    return some name
  | _ => return none

/-- the anchor and the tag in front of a node, in either order, each at most once -/
def properties : NodeReader Properties := do
  let first ← anchorName
  let tag ← tagName
  let anchor ← if first.isNone && tag.isSome then anchorName else pure first
  let tag ← tag.mapM fullTag
  return { anchor := ← anchor.mapM setAnchor, tag }

def isLeftOut (ends : List Token) : NodeReader Bool := do
  match ← peek with
  | some token => return ends.contains token
  | none => return false

def leftOut (p : Properties) : NodeReader Yaml :=
  if p.anchor.isSome || p.tag.isSome then return .scalar p .plain "" else failure

/-- the tokens at which an item of an indentless sequence, a key or a value of a block mapping is left
out; an item of a block sequence is left out at fewer -/
def blockEnds : List Token := [.key, .value, .blockEnd]

mutual

/-- One node.  `block` says that it may be a block collection, and `indentless` that it may be a sequence
whose dashes are no further in than the key before it.  Every call uses up one unit of fuel. -/
def node : Nat → Bool → Bool → NodeReader Yaml
  | 0, _, _ => failure
  | fuel + 1, block, indentless => do
    if let some (.alias name) := ← peek then
      skip
      return .alias (← anchorNumber name)
    let p ← properties
    match ← peek with
    | some .blockEntry =>
      if indentless then return .sequence p (← indentlessItems fuel) else leftOut p
    | some (.scalar style text) =>
      skip
      return .scalar p style text
    | some .flowSequenceStart =>
      skip
      return .sequence p (← flowItems fuel true)
    | some .flowMappingStart =>
      skip
      return .mapping p (← flowEntries fuel true)
    | some .blockSequenceStart =>
      if block then
        skip
        return .sequence p (← blockItems fuel)
      else leftOut p
    | some .blockMappingStart =>
      if block then
        skip
        return .mapping p (← blockEntries fuel)
      else leftOut p
    | _ => leftOut p

def nodeUnless : Nat → List Token → Bool → Bool → NodeReader Yaml
  | 0, _, _, _ => failure
  | fuel + 1, ends, block, indentless => do
    if ← isLeftOut ends then return empty else node fuel block indentless

def blockItems : Nat → NodeReader (List Yaml)
  | 0 => failure
  | fuel + 1 => do
    match ← next with
    | some .blockEntry =>
      let item ← nodeUnless fuel [.blockEntry, .blockEnd] true false
      return item :: (← blockItems fuel)
    | some .blockEnd => return []
    | _ => failure

/-- the items of a sequence whose dashes are no further in than the key before it -/
def indentlessItems : Nat → NodeReader (List Yaml)
  | 0 => failure
  | fuel + 1 => do
    if ← skipIf .blockEntry then
      let item ← nodeUnless fuel (.blockEntry :: blockEnds) true false
      return item :: (← indentlessItems fuel)
    else return []

def blockEntries : Nat → NodeReader (List YamlEntry)
  | 0 => failure
  | fuel + 1 => do
    match ← next with
    | some .key =>
      let key ← nodeUnless fuel blockEnds true true
      let value ← if ← skipIf .value then nodeUnless fuel blockEnds true true else pure empty
      return ⟨key, value⟩ :: (← blockEntries fuel)
    | some .blockEnd => return []
    | _ => failure

/-- the items of a flow sequence and its end; before every item but the first there is a comma, and one
may stand before the end -/
def flowItems : Nat → Bool → NodeReader (List Yaml)
  | 0, _ => failure
  | fuel + 1, first => do
    if ← skipIf .flowSequenceEnd then return []
    if !first then
      if !(← skipIf .flowEntry) then failure
      if ← skipIf .flowSequenceEnd then return []
    let item ← if ← skipIf .key then do
        pure (.mapping {} [← flowPair fuel])
      else node fuel false false
    return item :: (← flowItems fuel false)

/-- the only entry of a mapping that is an item of a flow sequence; a key that is left out takes the next
token with it -/
def flowPair : Nat → NodeReader YamlEntry
  | 0 => failure
  | fuel + 1 => do
    let key ← if ← isLeftOut [.value, .flowEntry, .flowSequenceEnd] then do
        skip
        pure empty
      else node fuel false false
    let value ← if ← skipIf .value then
        nodeUnless fuel [.flowEntry, .flowSequenceEnd] false false
      else pure empty
    return ⟨key, value⟩

/-- the entries of a flow mapping and its end; before every entry but the first there is a comma, and one
may stand before the end -/
def flowEntries : Nat → Bool → NodeReader (List YamlEntry)
  | 0, _ => failure
  | fuel + 1, first => do
    if ← skipIf .flowMappingEnd then return []
    if !first then
      if !(← skipIf .flowEntry) then failure
      if ← skipIf .flowMappingEnd then return []
    let ends := [.flowEntry, .flowMappingEnd]
    if ← skipIf .key then
      let key ← nodeUnless fuel (.value :: ends) false false
      let value ← if ← skipIf .value then nodeUnless fuel ends false false else pure empty
      return ⟨key, value⟩ :: (← flowEntries fuel false)
    else
      let key ← node fuel false false
      return ⟨key, empty⟩ :: (← flowEntries fuel false)

end

end NodeReader

end Yaml

end TableAlgebra
