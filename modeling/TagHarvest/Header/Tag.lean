/-
What a single tag says. Beside the markers `#tags`, `#ignore` and `#table`, a tag names an attribute
of the field before it (`#%unit`) or a field: `#table.field`, `#field`, `#table.field%unit`, and
`#table%child.field` for a field of a child record.
-/
import TagHarvest.Text.Cut
import TagHarvest.Header.Fault

namespace TagHarvest

/-- A field as a tag names it; the table may be left to the cell's context. -/
structure FieldName where
  table : Option String
  base : String
  attr : Option String
  child : Bool
  deriving DecidableEq, Repr

/-- The name of an attribute of a field. -/
def attributeName (base attr : String) : String := base ++ "%" ++ attr

/-- The name inside a record: the base, with the attribute after a percent sign. -/
def FieldName.name (f : FieldName) : String :=
  match f.attr with
  | some a => attributeName f.base a
  | none => f.base

inductive Tag where
  | tags
  | ignore
  | table
  | attr (name : String)
  | field (name : FieldName)
  deriving DecidableEq, Repr

namespace Tag

/-- The ending of a table name that turns a tag into one of a child record. -/
def childEnding : String := "%child"

/-- The table and field part of a tag's body: a table, a path, and whether it is a child's. -/
def splitPath (tag : String) (body : List Char) :
    Except GrammarFault (String × List Char × Bool) :=
  match Text.cutAt? '.' body with
  | some (head, path) =>
    match Text.beforeEnding? childEnding (String.ofList head) with
    | some owner => .ok (owner, path, true)
    | none => .ok (String.ofList head, path, false)
  | none =>
    if childEnding.toList.isSuffixOf body then .error (.childWithoutField tag)
    else .ok ("", body, false)

/-- The field and its attribute, if a percent sign follows it. -/
def splitAttribute (tag : String) (path : List Char) :
    Except GrammarFault (String × Option String) :=
  match Text.cutAt? '%' path with
  | some (_, []) => .error (.namelessAttribute tag)
  | some (base, name) => .ok (String.ofList base, some (String.ofList name))
  | none => .ok (String.ofList path, none)

/-- Reads a tag with its leading `#`. -/
def ofText (tag : String) : Except GrammarFault Tag :=
  let body := (Text.afterStart? "#" tag).getD tag
  match body.toList with
  | [] => .error .emptyTag
  | '%' :: [] => .error .emptyAttribute
  | '%' :: name => .ok (.attr (String.ofList name))
  | cs =>
    if body = "tags" then .ok .tags
    else if body = "ignore" then .ok .ignore
    else if body = "table" then .ok .table
    else do
      let (owner, path, child) ← splitPath tag cs
      let (base, name) ← splitAttribute tag path
      if base.isEmpty then .error (.namelessField tag)
      else .ok (.field ⟨if owner.isEmpty then none else some owner, base, name, child⟩)

end Tag
end TagHarvest
