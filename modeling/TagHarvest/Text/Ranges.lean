/-
Sets of characters as lists of ranges of code points, and maps of characters as lists of runs. A run
moves every `step`-th code point from `first` to `last` by the same amount.
-/

namespace TagHarvest.Text

/-- True if a code point lies in one of the ranges, ends included. -/
def inRanges (ranges : List (Nat × Nat)) (n : Nat) : Bool :=
  ranges.any fun (a, b) => a ≤ n && n ≤ b

/-- Code points that are all moved by the same amount. -/
structure Run where
  first : Nat
  last : Nat
  step : Nat
  offset : Int
  deriving DecidableEq, Repr

namespace Run

def covers (r : Run) (n : Nat) : Bool :=
  r.first ≤ n && n ≤ r.last && (n - r.first) % r.step == 0

/-- The code points that a run moves, each with its image. -/
def pairs (r : Run) : List (Nat × Nat) :=
  (List.range' r.first ((r.last - r.first) / r.step + 1) r.step).map fun (n : Nat) =>
    (n, ((n : Int) + r.offset).toNat)

/-- The image of a code point under the first run that covers it, or itself. -/
def image (runs : List Run) (n : Nat) : Nat :=
  match runs.find? (·.covers n) with
  | some r => ((n : Int) + r.offset).toNat
  | none => n

/-- The code points that the runs move to `n`. -/
def sources (runs : List Run) (n : Nat) : List Nat :=
  runs.filterMap fun r =>
    let m := ((n : Int) - r.offset).toNat
    if r.covers m && ((m : Int) + r.offset).toNat == n then some m else none

end Run
end TagHarvest.Text
