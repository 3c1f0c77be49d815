/-
Conversion directives written as a worksheet. A header row names a table and field by a `.value` column;
each data row below it is one directive, whose key stands in that column and whose edits stand in the
columns of the operations. Further columns say how the key is compared.
-/
import TagHarvest.Directive.Document
import TagHarvest.Directive.Error
import TagHarvest.Text.Cut

namespace TagHarvest

/-- The operations that a column can stand for. -/
inductive Operation where
  | assign
  | append
  | prepend
  | regex
  | delete
  | rename
  deriving DecidableEq, Repr

namespace Operation

def ofName? : String → Option Operation
  | "assign" => some assign
  | "append" => some append
  | "prepend" => some prepend
  | "regex" => some regex
  | "delete" => some delete
  | "rename" => some rename
  | _ => none

end Operation

/-- A column of operations on a field. -/
structure OperationColumn where
  column : Nat
  target : String
  operation : Operation
  deriving DecidableEq, Repr

/-- The field that the keys of a block are compared with, and the column of the keys. -/
structure KeyColumn where
  table : String
  field : String
  column : Nat
  deriving DecidableEq, Repr

/-- What the header of a block has said so far. -/
structure BlockColumns where
  key : Option KeyColumn := none
  operations : List OperationColumn := []
  comparison : Option Nat := none
  unique : Option Nat := none
  required : Option Nat := none
  deriving DecidableEq, Repr

/-- The header of a block of directives. -/
structure BlockHeader where
  key : KeyColumn
  operations : List OperationColumn
  comparison : Option Nat
  unique : Option Nat
  required : Option Nat
  deriving DecidableEq, Repr

/-- The cells that say yes. -/
def isTruthy (cell : String) : Bool :=
  ["true", "yes", "y", "1", "x"].contains (Text.lowerAscii (Text.trim cell))

/-- A tag `#table.field.suffix`, cut at its first and its last point. -/
def splitDirectiveTag (tag : String) : Option (String × String × String) := do
  let body ← Text.afterStart? "#" tag
  let (table, rest) ← Text.cutAt? '.' body.toList
  let (field, suffix) ← Text.cutAtLast? '.' rest
  if table.isEmpty || field.isEmpty then none
  else return (String.ofList table, String.ofList field, String.ofList suffix)

namespace BlockColumns

/-- Takes the column of a tag `#table.field.suffix` into a header. -/
def addTag (here : Location) (tag : String) (b : BlockColumns) : Except TagError BlockColumns := do
  match splitDirectiveTag tag with
  | none => .error (.grammar here (.unknownDirectiveTag tag))
  | some (table, field, suffix) =>
    match b.key with
    | some key =>
      if table ≠ key.table then .error (.shape here (.foreignTable tag table key.table))
      else if suffix = "value" then .error (.shape here .secondValueColumn)
      else addOperation table field suffix
    | none =>
      if suffix = "value" then .ok { b with key := some ⟨table, field, here.column⟩ }
      else addOperation table field suffix
where
  addOperation (table field suffix : String) : Except TagError BlockColumns :=
    match Operation.ofName? suffix with
    | none => .error (.grammar here (.unknownOperation suffix))
    | some op =>
      .ok { b with operations := b.operations ++ [⟨here.column, table ++ "." ++ field, op⟩] }

/-- Takes one header cell into a header. -/
def addCell (here : Location) (cell : String) (b : BlockColumns) : Except TagError BlockColumns :=
  match Token.tokenize cell with
  | .error e => .error (.grammar here (.lexical e))
  | .ok [] => .ok b
  | .ok [.tag tag] =>
    if tag = "#comparison" then .ok { b with comparison := some here.column }
    else if tag = "#unique" then .ok { b with unique := some here.column }
    else if tag = "#required" then .ok { b with required := some here.column }
    else b.addTag here tag
  | .ok _ => .error (.grammar here .severalDirectiveTags)

/-- Takes the cells of a header row from a column on. -/
def addCells (place : Nat → Location) : (column : Nat) → Row → BlockColumns →
    Except TagError BlockColumns
  | _, [], b => .ok b
  | column, cell :: rest, b => do
    addCells place (column + 1) rest (← b.addCell (place column) cell)

/-- An operation with the table's name taken off its target. -/
def ownTarget (place : Nat → Location) (table : String) (c : OperationColumn) :
    Except TagError OperationColumn :=
  match Text.afterStart? (table ++ ".") c.target with
  | some target => .ok { c with target }
  | none => .error (.shape (place c.column) (.foreignOperation c.target table))

/-- The finished header: it has a key column, and all operations are on the key's table. -/
def finish (place : Nat → Location) (b : BlockColumns) : Except TagError BlockHeader := do
  match b.key with
  | none => .error (.shape (place 0) .missingValueColumn)
  | some key =>
    let operations ← b.operations.mapM (ownTarget place key.table)
    return ⟨key, operations, b.comparison, b.unique, b.required⟩

end BlockColumns

/-- The header of a block, from the cells of its row right of the marker. -/
def BlockHeader.compile (place : Nat → Location) (row : Row) : Except TagError BlockHeader := do
  (← BlockColumns.addCells place 1 (row.drop 1) {}).finish place

/-- The pattern and replacement in a cell: two literals with a comma between them. -/
def readPair (cell target : String) (here : Location) : Except DirectiveError (List String) :=
  match Token.tokenize cell with
  | .error e => .error (.malformedPair target (.lexical e here))
  | .ok [a, .comma, b] =>
    match text? a, text? b with
    | some p, some r => .ok [p, r]
    | _, _ => .error (.malformedPair target (.shape cell here))
  | .ok _ => .error (.malformedPair target (.shape cell here))
where
  text? : Token → Option String
    | .literal s => some s
    | .pattern s => some s
    | _ => none

namespace Edits

/-- The edits with those of one cell added. -/
def addCell (op : Operation) (target cell : String) (here : Location) (e : Edits) :
    Except DirectiveError Edits :=
  match op with
  | .assign => .ok { e with assign := e.assign.insert target (.scalar cell) }
  | .append => .ok { e with append := e.append.insert target (.scalar cell) }
  | .prepend => .ok { e with prepend := e.prepend.insert target (.scalar cell) }
  | .regex => do
    let pair ← readPair cell target here
    return { e with regex := e.regex.insert target pair }
  | .delete => .ok (if isTruthy cell then { e with delete := e.delete ++ [target] } else e)
  | .rename => .ok { e with rename := e.rename.insert target cell }

end Edits

namespace BlockHeader

/-- True if a column is there and says yes in a row. -/
def isYes (column : Option Nat) (row : Row) : Bool :=
  match column with
  | some c => isTruthy (row.cell c)
  | none => false

/-- How the keys of a row are compared. -/
def comparisonOf (h : BlockHeader) (place : Nat → Location) (row : Row) :
    Except DirectiveError Comparison :=
  let cell := (h.comparison.map row.cell).getD ""
  match MatchKind.ofCell? cell with
  | some kind => .ok ⟨kind, isYes h.unique row⟩
  | none =>
    .error (.tag (.shape (place (h.comparison.getD 0)) (.unknownComparison (Text.trim cell))))

/-- The edits of a row: those of its cells that are not blank. -/
def editsOf (h : BlockHeader) (place : Nat → Location) (row : Row) : Except DirectiveError Edits :=
  h.operations.foldlM (fun e c =>
    let cell := Text.trim (row.cell c.column)
    if cell.isEmpty then .ok e else e.addCell c.operation c.target cell (place c.column))
    { required := isYes h.required row }

/-- The directives with the one of a data row added; a row without a key has none. -/
def addRow (h : BlockHeader) (place : Nat → Location) (row : Row) (d : ConversionDirectives) :
    Except DirectiveError ConversionDirectives := do
  let key := Text.trim (row.cell h.key.column)
  if key.isEmpty then return d
  else
    let comparison ← h.comparisonOf place row
    let edits ← h.editsOf place row
    return d.put h.key.table h.key.field comparison key edits

end BlockHeader

namespace ConversionDirectives

/-- The directives of the rows of a worksheet from an index on, under the header in force. -/
def ofRows (sheet : Worksheet) : (index : Nat) → List Row → Option BlockHeader →
    ConversionDirectives → Except DirectiveError ConversionDirectives
  | _, [], _, d => .ok d
  | index, row :: rest, header, d =>
    if row.isTags then
      match BlockHeader.compile (sheet.location index) row with
      | .ok h => ofRows sheet (index + 1) rest (some h) d
      | .error e => .error (.tag e)
    else if row.isIgnore then ofRows sheet (index + 1) rest header d
    else if row.isBlank then ofRows sheet (index + 1) rest none d
    else match header with
    | none => ofRows sheet (index + 1) rest none d
    | some h => do
      ofRows sheet (index + 1) rest header (← h.addRow (sheet.location index) row d)

/-- The conversion directives of a worksheet. -/
def ofWorksheet (sheet : Worksheet) : Except DirectiveError ConversionDirectives :=
  ofRows sheet 0 sheet.rows none .empty

end ConversionDirectives

end TagHarvest
