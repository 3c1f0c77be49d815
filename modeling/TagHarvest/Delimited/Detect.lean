/-
Detecting the delimiter: the separator that occurs most often outside quotes in the first line that is
not blank, the earlier one of two that occur equally often, and the comma if none occurs.
-/
import TagHarvest.Text.Blank
import TagHarvest.Text.Cut

namespace TagHarvest.Delimited

/-- The separators that are looked for, the preferred ones first. -/
def separators : List Char := [',', ';', '\t', '|']

/-- The characters outside quotes, where each quote changes the side. -/
def outsideQuotes : (quoted : Bool) → List Char → List Char
  | _, [] => []
  | quoted, c :: cs =>
    if c = '"' then outsideQuotes (!quoted) cs
    else if quoted then outsideQuotes quoted cs
    else c :: outsideQuotes quoted cs

/-- The first line with a character that is not blank. -/
def firstLine (text : List Char) : List Char :=
  ((Text.pieces '\n' text).find? fun l => !l.all Text.isBlank).getD []

/-- The earliest of the characters that occur most often in a line. -/
def mostFrequent (line : List Char) (fallback : Char) (candidates : List Char) : Char :=
  (candidates.foldl
    (fun (best, most) c => if line.count c > most then (c, line.count c) else (best, most))
    (fallback, 0)).1

def detect (text : String) : Char :=
  mostFrequent (outsideQuotes false (firstLine text.toList)) ',' separators

end TagHarvest.Delimited
