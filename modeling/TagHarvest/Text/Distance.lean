/-
Edit distance: the least number of insertions, deletions and substitutions of single characters that
turn one text into the other. Distances are computed row by row; a row holds those of all prefixes of
the second text to one prefix of the first.
-/

namespace TagHarvest.Text

/--
The rest of a row: `diagonal` and the head of `above` are the neighbours of the next cell in the row
before, `left` is the cell written last.
-/
def distanceCells (c : Char) : (diagonal left : Nat) → List Char → (above : List Nat) → List Nat
  | diagonal, left, d :: ds, up :: above =>
    let cell := min (min (left + 1) (up + 1)) (if c = d then diagonal else diagonal + 1)
    cell :: distanceCells c up cell ds above
  | _, _, _, _ => []

/-- The row after one more character of the first text. -/
def distanceRow (t : List Char) (row : List Nat) (c : Char) : List Nat :=
  match row with
  | [] => []
  | corner :: above => (corner + 1) :: distanceCells c corner (corner + 1) t above

/-- The edit distance of two texts. -/
def distance (s t : String) : Nat :=
  let cs := t.toList
  ((s.toList.foldl (distanceRow cs) (List.range (cs.length + 1))).getLast?).getD 0

end TagHarvest.Text
