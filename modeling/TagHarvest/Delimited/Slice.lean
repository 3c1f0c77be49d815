/-
The record slices of a delimited text: the pieces between those line feeds that stand outside quoted
cells. A quote opens a cell only where the cell begins, and a doubled quote does not close it.
-/
import TagHarvest.Text.Blank

namespace TagHarvest

namespace Slice

/-- Where a scan stands. -/
inductive Place where
  | cellStart
  | cell
  | quoted
  /-- After a quote in a quoted cell: it closes the cell or is the first of two. -/
  | quoteInQuoted
  deriving DecidableEq, Repr

/-- The place after a character; none if it is the line feed that ends the slice. -/
def Place.next? (delimiter : Char) : Place → Char → Option Place
  | quoted, '"' => some quoteInQuoted
  | quoted, _ => some quoted
  | quoteInQuoted, '"' => some quoted
  | cellStart, '"' => some quoted
  | _, '\n' => none
  | _, c => some (if c = delimiter then cellStart else cell)

/-- The slices of a text from a place on; `before` is the current slice so far, in reverse. -/
def cut (delimiter : Char) : Place → (before : List Char) → List Char → List (List Char)
  | _, before, [] => if before.isEmpty then [] else [before.reverse]
  | p, before, c :: cs =>
    match p.next? delimiter c with
    | none => before.reverse :: cut delimiter .cellStart [] cs
    | some p => cut delimiter p (c :: before) cs

/-- Slices with the lines they begin in, counted from `line`. -/
def number : (line : Nat) → List (List Char) → List (Nat × List Char)
  | _, [] => []
  | line, s :: ss => (line, s) :: number (line + s.count '\n' + 1) ss

/-- The text without the carriage returns at its end. -/
def trimReturns (cs : List Char) : List Char :=
  (cs.reverse.dropWhile (· == '\r')).reverse

end Slice

/-- A record of a delimited text, not yet read. -/
structure Slice where
  /-- The line it begins in, counted from 1. -/
  line : Nat
  text : List Char
  deriving DecidableEq, Repr

namespace Slice

def isBlank (s : Slice) : Bool := s.text.all Text.isBlank

/-- The slices of a text; nothing after the last line feed is no slice. -/
def all (delimiter : Char) (text : List Char) : List Slice :=
  (number 1 (cut delimiter .cellStart [] text)).map fun (line, s) => ⟨line, trimReturns s⟩

end Slice
end TagHarvest
