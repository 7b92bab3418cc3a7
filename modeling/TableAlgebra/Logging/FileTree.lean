import TableAlgebra.Logging.Path
import TableAlgebra.Text.Bytes

/-!
# File trees

The files and directories around the working directory, as far as they are known, and how directories are
made.  A path is walked part by part, and a directory that is missing on the way is made in the one that
has been reached.  Those that have been made stay, even if the way leads no further.
-/

namespace TableAlgebra

/-! ## what there is -/

/-- a file, or a directory with what is in it, by name -/
inductive FileNode where
  | file
  | directory (entries : List (List Char × FileNode))

abbrev Entries := List (List Char × FileNode)

def Entries.without (entries : Entries) (name : List Char) : Entries :=
  entries.filter fun entry => entry.1 != name

/-- what is in the bases; one that is not listed is empty -/
structure FileTree where
  bases : List (Base × Entries) := []
  deriving Inhabited

namespace FileTree

/-- the working directory, with files of these names in it -/
def ofFiles (names : List String) : FileTree :=
  { bases := [(.here, names.map fun name => (name.toList, .file))] }

def entriesOf (t : FileTree) (base : Base) : Entries := (t.bases.lookup base).getD []

def withEntries (t : FileTree) (base : Base) (entries : Entries) : FileTree :=
  { bases := (base, entries) :: t.bases.filter fun known => known.1 != base }

theorem entriesOf_withEntries (t : FileTree) (base : Base) (entries : Entries) :
    (t.withEntries base entries).entriesOf base = entries := by
  simp [entriesOf, withEntries]

end FileTree

/-! ## being in a directory -/

/-- A directory that a way has led to.  Around it are the directories from there up to the base, each as
the name that leads further in and the entries beside it; the tree holds what is in the other bases. -/
structure Visit where
  tree : FileTree
  base : Base
  around : List (List Char × Entries)
  entries : Entries

def FileTree.visit (t : FileTree) (base : Base) : Visit :=
  { tree := t, base, around := [], entries := t.entriesOf base }

namespace Visit

def place (v : Visit) : Location := ⟨v.base, v.around.map Prod.fst⟩

/-- goes into the directory of a name, with these entries in it -/
def enter (v : Visit) (name : List Char) (entries : Entries) : Visit :=
  { v with around := (name, v.entries.without name) :: v.around, entries }

def up (v : Visit) : Visit :=
  match v.around with
  | [] => (v.tree.withEntries v.base v.entries).visit v.base.up
  | (name, beside) :: around => { v with around, entries := (name, .directory v.entries) :: beside }

/-- the tree when the visit is over -/
def close (v : Visit) : FileTree :=
  v.tree.withEntries v.base
    (v.around.foldl (fun inside (name, beside) => (name, .directory inside) :: beside) v.entries)

theorem place_enter (v : Visit) (name : List Char) (entries : Entries) :
    (v.enter name entries).place = v.place.within name := rfl

/-- going up leads to the directory that the place lies in -/
theorem place_up (v : Visit) : v.up.place = v.place.up := by
  obtain ⟨tree, base, around, entries⟩ := v
  cases around <;> rfl

/-- what is done inside a directory is there from outside -/
theorem lookup_up_enter (v : Visit) (name : List Char) (entries : Entries) :
    (v.enter name entries).up.entries.lookup name = some (.directory entries) := by
  simp [enter, up]

/-! ## the way along a path -/

/-- a name that the file system takes -/
def takesName (name : List Char) : Bool := byteLength name ≤ 255

/-- A name that is missing is made if the path ends with it or leads on from it.  A path that ends in
single points asks for a directory that is there, so the name before them is not made. -/
def mayMake (after : List (List Char)) : Bool := after.isEmpty || !after.all isPoint

/-- The way along parts, on which missing directories are made, and whether it gets to the end.  It stops
at a file, at a name that is too long, and at one that is missing and not made. -/
def walk (v : Visit) : List (List Char) → Bool × Visit
  | [] => (true, v)
  | part :: parts =>
    if isPoint part then v.walk parts
    else if isPoints part then v.up.walk parts
    else if !takesName part then (false, v)
    else
      match v.entries.lookup part with
      | some (.directory entries) => (v.enter part entries).walk parts
      | some .file => (false, v)
      | none => if mayMake parts then (v.enter part []).walk parts else (false, v)

end Visit

/-- makes the directory of a path and those that it lies in, where they are missing; gives its place -/
def FileTree.ensureAll (t : FileTree) (path : Path) : Option Location × FileTree :=
  match (t.visit path.start).walk path.parts with
  | (true, v) => (some v.place, v.close)
  | (false, v) => (none, v.close)

/-- no parts lead to the base itself -/
theorem FileTree.ensureAll_nil (t : FileTree) (base : Base) :
    (t.ensureAll ⟨base, []⟩).1 = some ⟨base, []⟩ := rfl

end TableAlgebra
