/-
References to sources: a path, or a path and the name of a sheet with a colon between them. A colon
counts only if a file of the path before it is there, so a file name may have colons of its own.
-/
import TagHarvest.Source.File
import TagHarvest.Text.Cut

namespace TagHarvest

structure SourceReference where
  path : String
  sheet : Option String
  deriving DecidableEq, Repr

namespace SourceReference

/-- The path and the sheet that a text may name, cut at its last colon. -/
def cutSheet? (text : String) : Option (String × String) :=
  match Text.cutAtLast? ':' text.toList with
  | some (path, sheet) =>
    if sheet.isEmpty || sheet.contains '/' || sheet.contains '\\' then none
    else some (String.ofList path, String.ofList sheet)
  | none => none

def ofText (view : FileView) (text : String) : SourceReference :=
  match cutSheet? text with
  | some (path, sheet) => if view.isFile path then ⟨path, some sheet⟩ else ⟨text, none⟩
  | none => ⟨text, none⟩

/-- The name of the file that a path leads to; none if it leads to a directory by its form. -/
def fileName? (path : String) : Option (List Char) :=
  match ((Text.pieces '/' path.toList).filter fun p => p != [] && p != ['.']).getLast? with
  | some ['.', '.'] => none
  | name => name

/-- A file name without its extension, and the extension; a dot in front begins no extension. -/
def splitExtension (name : List Char) : List Char × Option (List Char) :=
  match Text.cutAtLast? '.' name with
  | some ([], _) => (name, none)
  | some (stem, extension) => (stem, some extension)
  | none => (name, none)

/-- The name of a reference's file without its extension, and the extension in lower case. -/
def stemAndExtension? (r : SourceReference) : Option (String × String) :=
  (fileName? r.path).bind fun name =>
    match splitExtension name with
    | (stem, some extension) =>
      some (String.ofList stem, String.ofList (extension.map Char.toLower))
    | (_, none) => none

end SourceReference
end TagHarvest
