/-
A tree of files held in memory. A path is walked part by part from the root, and every part it goes
through must be a directory; a directory is there as long as a file lies below it.
-/
import TagHarvest.OrderedMap
import TagHarvest.Source.File
import TagHarvest.Text.Cut
import TagHarvest.Text.Utf8

namespace TagHarvest

/-- Files by the parts of their paths. -/
abbrev FileTree := OrderedMap (List String) (List UInt8)

/-- What a place in a tree holds. -/
inductive FileNode where
  | file (content : List UInt8)
  | directory

namespace FileTree

/-- True of a path that does not begin in the tree: an absolute one, or none at all. -/
def isOutside (path : String) : Bool :=
  match path.toList with
  | [] => true
  | c :: _ => c == '/'

/-- The parts of a path between slashes. -/
def parts (path : String) : List String := (Text.pieces '/' path.toList).map String.ofList

/-- True of the root and of the places above it, which are told by as many `..`. -/
def isAtOrAboveRoot (place : List String) : Bool := place.all (· == "..")

/--
What is at a place. The root and what is above it are always directories; of their other contents nothing
is known.
-/
def node? (t : FileTree) (place : List String) : Option FileNode :=
  match t.get? place with
  | some content => some (.file content)
  | none =>
    if isAtOrAboveRoot place || t.keys.any place.isPrefixOf then some .directory else none

/-- Goes one part further from a place that must be a directory. -/
def step (t : FileTree) (place : List String) (part : String) : Except FileFault (List String) :=
  match t.node? place with
  | none => .error .missing
  | some (.file _) => .error .notDirectory
  | some .directory =>
    if part = "" ∨ part = "." then .ok place
    else if part = ".." then .ok (if isAtOrAboveRoot place then place ++ [part] else place.dropLast)
    else .ok (place ++ [part])

/-- The place that a path leads to. -/
def locate (t : FileTree) (path : String) : Except FileFault (List String) :=
  if isOutside path then .error .missing else (parts path).foldlM t.step []

def read (t : FileTree) (path : String) : Except FileFault (List UInt8) := do
  match t.node? (← t.locate path) with
  | some (.file content) => return content
  | some .directory => throw .isDirectory
  | none => throw .missing

/-- Writes a file, whose directory must be there. A path with a slash at its end is of no file. -/
def write (t : FileTree) (path : String) (content : List UInt8) : Except FileFault FileTree := do
  if isOutside path then throw .missing
  let names := ((parts path).reverse.dropWhile (· == "")).reverse
  let name := names.getLast?.getD ""
  let place ← t.step (← names.dropLast.foldlM t.step []) name
  if path.toList.getLast? = some '/' ∨ name = "." ∨ name = ".." then throw .isDirectory
  match t.node? place with
  | some .directory => throw .isDirectory
  | _ => return t.insert place content

/-- The tree of files with their paths. -/
def ofFiles (files : List (String × List UInt8)) : FileTree :=
  .ofList (files.map fun (path, content) =>
    ((parts path).filter fun p => p != "" && p != ".", content))

/-- The files of a tree as a program sees them. -/
def view (t : FileTree) : FileView := ⟨fun path => (t.read path).isOk, t.read⟩

end FileTree
end TagHarvest
