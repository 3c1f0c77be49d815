/-
Recipes: what a compiled header makes of a row. A field recipe joins fixed texts and cells to a value; a
record recipe collects the field recipes of one table. A row from which the id recipe yields nothing
gives no record.
-/
import TagHarvest.Text.Cut
import TagHarvest.Record.Store
import TagHarvest.Sheet.Worksheet
import TagHarvest.Header.Fault

namespace TagHarvest

/-- A field of the same header that a recipe refers to, and the column of the cell that does. -/
structure FieldReference where
  table : String
  field : String
  usedAt : Nat
  deriving DecidableEq, Repr

/-- One part of a field's text. -/
inductive Operand where
  | literal (text : String)
  | column (index : Nat)
  | reference (r : FieldReference)
  deriving DecidableEq, Repr

namespace Operand

/-- The text of an operand; none for an empty cell, and for a reference that is not resolved. -/
def text? (row : Row) : Operand → Option String
  | literal s => some s
  | column i =>
    match row[i]? with
    | none => none
    | some cell => let s := Text.trim cell; if s.isEmpty then none else some s
  | reference _ => none

def isLiteral : Operand → Bool
  | literal _ => true
  | _ => false

end Operand

/-- The items of a list cell: cut at semicolons, or at commas if there are none; blank items go. -/
def listItems (s : String) : List String :=
  let separator := if s.toList.contains ';' then ';' else ','
  ((Text.pieces separator s.toList).map fun p => String.ofList (Text.trimChars p)).filter
    fun item => !item.isEmpty

/-- How the value of one field comes from a row. -/
structure FieldRecipe where
  name : String
  operands : List Operand
  /-- A list recipe splits its text, and repeated ones add up. -/
  list : Bool
  /-- The column of the declaration. -/
  column : Nat
  deriving DecidableEq, Repr

namespace FieldRecipe

/-- The column a recipe reads and nothing else, if it is so simple. -/
def sourceColumn? (f : FieldRecipe) : Option Nat :=
  match f.operands with
  | [.column i] => some i
  | _ => none

/-- True if no operand looks at the row. -/
def isLiteral (f : FieldRecipe) : Bool := f.operands.all Operand.isLiteral

/-- The joined operands; none as soon as one of them has no text. -/
def text? (f : FieldRecipe) (row : Row) : Option String :=
  (f.operands.mapM (Operand.text? row)).map String.join

/-- The value on a row, never an empty one. -/
def evaluate (f : FieldRecipe) (row : Row) : Option FieldValue :=
  (f.text? row).bind fun text =>
    let value := if f.list then FieldValue.list (listItems text) else .scalar text
    if value.isEmpty then none else some value

end FieldRecipe

/-- How the record of one table comes from a row. -/
structure RecordRecipe where
  table : String
  fields : List FieldRecipe
  /-- The index of the parent's recipe, if this one makes child records. -/
  parent : Option Nat
  deriving DecidableEq, Repr

namespace RecordRecipe

/-- A recipe without fields. -/
def new (table : String) : RecordRecipe := ⟨table, [], none⟩

def isChild (r : RecordRecipe) : Bool := r.parent.isSome

/-- The first declaration of a field. -/
def field? (r : RecordRecipe) (name : String) : Option FieldRecipe :=
  r.fields.find? (·.name == name)

def hasId (r : RecordRecipe) : Bool := (r.field? idField).isSome

/-- Adds a declaration at the end. -/
def push (r : RecordRecipe) (f : FieldRecipe) : RecordRecipe := { r with fields := r.fields ++ [f] }

/-- Adds a declaration; a name may be repeated only among lists. -/
def add (r : RecordRecipe) (f : FieldRecipe) : Except StructureFault RecordRecipe :=
  match r.field? f.name with
  | some old =>
    if old.list && f.list then .ok (r.push f)
    else .error (.duplicateField f.name r.table old.column)
  | none => .ok (r.push f)

/-- Adds a declaration of a name that has none. -/
def addDefault (r : RecordRecipe) (f : FieldRecipe) : RecordRecipe :=
  if (r.field? f.name).isSome then r else r.push f

/--
The recipe of child records: it inherits the literal fields, without the prefix of the own table, and
links to the parent by the parent's id recipe. None while the parent has no id.
-/
def childOf (parent : RecordRecipe) (index : Nat) : Option RecordRecipe :=
  (parent.field? idField).map fun id =>
    let own := parent.table ++ "."
    let inherited := (parent.fields.filter fun f => f.isLiteral && f.name != idField).map fun f =>
      { f with name := (Text.afterStart? own f.name).getD f.name }
    ⟨parent.table, inherited ++ [{ id with name := parentField }], some index⟩

/-- A record with the value of one more declaration. -/
def addValue (row : Row) (record : Record) (f : FieldRecipe) : Record :=
  match f.evaluate row with
  | none => record
  | some v => record.alter f.name fun | some old => old.extend v | none => v

/-- The record of a row: its id first, then the other fields in the order of declaration. -/
def build (r : RecordRecipe) (row : Row) : Option Record :=
  match (r.field? idField).bind (·.evaluate row) with
  | some (.scalar id) =>
    some ((r.fields.filter (·.name != idField)).foldl (addValue row)
      (.single idField (.scalar id)))
  | _ => none

end RecordRecipe
end TagHarvest
