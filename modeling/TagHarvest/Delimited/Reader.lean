/-
The reader of delimited rows. A line feed, a carriage return, or the two together end a row outside
quotes; rows without a character are passed over; a quote opens a quoted cell only where the cell begins,
and inside it two quotes stand for one. Text after the closing quote belongs to the cell as it is. The
reader works on any alphabet, on characters as well as on octets.
-/

namespace TagHarvest.Delimited

/-- The marks that cells and rows are told by. -/
structure Marks (α : Type) where
  delimiter : α
  quote : α
  lineFeed : α
  carriageReturn : α

/-- Where a reader stands. -/
inductive Place where
  | rowStart
  /-- After a carriage return, which a line feed may still belong to. -/
  | afterReturn
  | cellStart
  | cell
  | quoted
  /-- After a quote in a quoted cell. -/
  | quoteInQuoted
  deriving DecidableEq, Repr

/-- What a reader does with a character. -/
inductive Effect where
  | skip
  /-- Takes the character into the cell. -/
  | keep
  | endCell
  | endRow
  deriving DecidableEq, Repr

section

variable {α : Type} [DecidableEq α] (m : Marks α)

/-- A character in a cell without quotes. -/
def inCell (c : α) : Place × Effect :=
  if c = m.delimiter then (.cellStart, .endCell)
  else if c = m.lineFeed then (.rowStart, .endRow)
  else if c = m.carriageReturn then (.afterReturn, .endRow)
  else (.cell, .keep)

/-- A character where a cell begins. -/
def atCellStart (c : α) : Place × Effect :=
  if c = m.quote then (.quoted, .skip) else inCell m c

/-- A character where a row begins. -/
def atRowStart (c : α) : Place × Effect :=
  if c = m.lineFeed ∨ c = m.carriageReturn then (.rowStart, .skip) else atCellStart m c

/-- The place after a character, and what is done with it. -/
def Place.next : Place → α → Place × Effect
  | rowStart, c => atRowStart m c
  | afterReturn, c => if c = m.lineFeed then (.rowStart, .skip) else atRowStart m c
  | cellStart, c => atCellStart m c
  | cell, c => inCell m c
  | quoted, c => if c = m.quote then (.quoteInQuoted, .skip) else (.quoted, .keep)
  | quoteInQuoted, c => if c = m.quote then (.quoted, .keep) else inCell m c

/-- True between rows, where the text may end without a further row. -/
def Place.isBetween : Place → Bool
  | rowStart | afterReturn => true
  | _ => false

/--
The rows of a text from a place on; `current` is the cell so far and `before` the cells before it, both
in reverse.
-/
def rowsFrom : Place → (current : List α) → (before : List (List α)) → List α → List (List (List α))
  | p, current, before, [] =>
    if p.isBetween then [] else [(current.reverse :: before).reverse]
  | p, current, before, c :: cs =>
    match p.next m c with
    | (p, .skip) => rowsFrom p current before cs
    | (p, .keep) => rowsFrom p (c :: current) before cs
    | (p, .endCell) => rowsFrom p [] (current.reverse :: before) cs
    | (p, .endRow) => (current.reverse :: before).reverse :: rowsFrom p [] [] cs

/-- The rows of a text. -/
def rows (text : List α) : List (List (List α)) := rowsFrom m .rowStart [] [] text

end

end TagHarvest.Delimited
