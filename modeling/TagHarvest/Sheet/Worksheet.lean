/-
Worksheets: ragged grids of cells, read from a source under a sheet name. The first cell of a row may
mark it as a header (`#tags`) or as a row to skip (`#ignore`).
-/
import TagHarvest.Cell.Token

namespace TagHarvest

/-- A row of cells. -/
abbrev Row := List String

/-- The place of a cell; rows and columns count from 0. -/
structure Location where
  file : String
  sheet : String
  row : Nat
  column : Nat
  deriving DecidableEq, Repr

/-- The place shown to a reader, who counts from 1. -/
def Location.display (l : Location) : String :=
  s!"{l.file}:{l.sheet} row {l.row + 1}, column {l.column + 1}"

structure Worksheet where
  source : String
  name : String
  rows : List Row
  deriving DecidableEq, Repr

namespace Row

/-- True if every cell is empty or blank. -/
def isBlank (row : Row) : Bool := row.all Text.isBlankText

/-- True if the first cell starts with the bare text `marker`. -/
def isMarked (marker : String) (row : Row) : Bool :=
  match row with
  | [] => false
  | cell :: _ => Token.leadingBare cell == marker

/-- True of a header row. -/
def isTags (row : Row) : Bool := row.isMarked "#tags"

/-- True of a row that carries no record. -/
def isIgnore (row : Row) : Bool := row.isMarked "#ignore"

/-- The text of a cell, empty right of the row's end. -/
def cell (row : Row) (column : Nat) : String := row[column]?.getD ""

/-- The row with empty cells added up to a width. -/
def pad (width : Nat) (row : Row) : Row :=
  row ++ List.replicate (width - row.length) ""

end Row

namespace Worksheet

/-- The row at an index, empty below the grid. -/
def row (s : Worksheet) (i : Nat) : Row := s.rows[i]?.getD []

def cell (s : Worksheet) (row column : Nat) : String := (s.row row).cell column

/-- The length of the longest row. -/
def width (s : Worksheet) : Nat := (s.rows.map List.length).foldl max 0

def location (s : Worksheet) (row column : Nat) : Location := ⟨s.source, s.name, row, column⟩

def pad (width : Nat) (s : Worksheet) : Worksheet :=
  { s with rows := s.rows.map (Row.pad width) }

end Worksheet
end TagHarvest
