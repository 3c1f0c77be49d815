/-
Delimited texts as rows of cells. Cells are kept as they are, rows may differ in length, and blank rows
stay as empty rows. A delimiter is one octet of the text: one that is not ASCII may cut a character in
two, and then the text cannot be read.
-/
import TagHarvest.Delimited.Reader
import TagHarvest.Delimited.Slice
import TagHarvest.Sheet.Worksheet
import TagHarvest.Text.Utf8

namespace TagHarvest.Delimited

/-- Why a delimited text cannot be read. -/
inductive Fault where
  | wideDelimiter (delimiter : Char)
  /-- A cell of the row that begins in a line is no text. -/
  | brokenCell (line : Nat)
  deriving DecidableEq, Repr

def Fault.line : Fault → Nat
  | wideDelimiter _ => 0
  | brokenCell line => line

def Fault.message : Fault → String
  | wideDelimiter d => s!"delimiter '{d}' is not a single byte"
  | brokenCell _ => "CSV parse error: a field is not valid UTF-8"

/-- The marks for a delimiter on characters. -/
def characterMarks (delimiter : Char) : Marks Char := ⟨delimiter, '"', '\n', '\r'⟩

/-- The marks for a delimiter on octets. -/
def octetMarks (delimiter : Char) : Marks UInt8 := ⟨UInt8.ofNat delimiter.toNat, 34, 10, 13⟩

/-- The rows of a text read octet by octet; a row with a cell that is no text is none. -/
def octetRows (delimiter : Char) (body : List Char) : List (Option Row) :=
  (rows (octetMarks delimiter) (String.ofList body).toUTF8.toList).map fun cells =>
    cells.mapM fun cell => (Text.Utf8.decode? cell).map String.ofList

/-- The rows of a text; a byte order mark in front of it is no part of a cell. -/
def readRows (delimiter : Char) (body : List Char) : List (Option Row) :=
  let body := Text.dropMark body
  if delimiter.toNat < 0x80 then
    (rows (characterMarks delimiter) body).map fun cells => some (cells.map String.ofList)
  else octetRows delimiter body

/-- The rows up to the first that cannot be read, which is a fault of its slice. -/
def readable : List Slice → List (Option Row) → Except Fault (List Row)
  | _, [] => .ok []
  | slices, none :: _ => .error (.brokenCell ((slices.head?.map (·.line)).getD 0))
  | slices, some row :: rest => (readable slices.tail rest).map (row :: ·)

/-- The rows read, in turn, for the slices that are not blank, and empty rows for the others. -/
def place : List Slice → List Row → List Row
  | [], _ => []
  | s :: ss, rows => if s.isBlank then [] :: place ss rows else rows.head?.getD [] :: place ss rows.tail

/-- The rows of a delimited text. -/
def parse (delimiter : Char) (text : String) : Except Fault (List Row) :=
  if delimiter.toNat ≤ 0xFF then
    let slices := Slice.all delimiter text.toList
    let filled := slices.filter fun s => !s.isBlank
    let body := List.intercalate ['\n'] (filled.map (·.text))
    (readable filled (readRows delimiter body)).map (place slices)
  else .error (.wideDelimiter delimiter)

end TagHarvest.Delimited
