/-
Classes of characters: what one character of a pattern may match. `ranges` lists what `contains` tests.
-/
import TagHarvest.Text.Blank
import TagHarvest.Text.Case
import TagHarvest.Text.Word

namespace TagHarvest.Pattern

inductive CharClass where
  | none
  /-- Code points between two ends, both included. -/
  | range (first last : Nat)
  | digit
  | space
  | word
  | union (a b : CharClass)
  | both (a b : CharClass)
  /-- In the first and not in the second. -/
  | without (a b : CharClass)
  | complement (a : CharClass)
  /-- The characters that differ from one of the class in case only. -/
  | anyCase (a : CharClass)
  deriving Repr

namespace CharClass

/-- The class of one character. -/
def single (c : Char) : CharClass := range c.toNat c.toNat

def ofRanges (rs : List (Nat × Nat)) : CharClass :=
  rs.foldl (fun k r => union k (range r.1 r.2)) none

def contains : CharClass → Char → Bool
  | none, _ => false
  | range a b, c => a ≤ c.toNat && c.toNat ≤ b
  | digit, c => Text.isDecimalDigit c
  | space, c => Text.isBlank c
  | word, c => Text.isWordChar c
  | union a b, c => a.contains c || b.contains c
  | both a b, c => a.contains c && b.contains c
  | without a b, c => a.contains c && !b.contains c
  | complement a, c => !a.contains c
  | anyCase a, c => a.contains c || (Text.sameFold c).any fun d => a.contains d

/-- The white space characters. -/
def blanks : Text.RangeSet := [
    (0x09, 0x0D), (0x20, 0x20), (0x85, 0x85), (0xA0, 0xA0), (0x1680, 0x1680), (0x2000, 0x200A),
    (0x2028, 0x2029), (0x202F, 0x202F), (0x205F, 0x205F), (0x3000, 0x3000)]

/-- The characters of a class. -/
def ranges : CharClass → Text.RangeSet
  | none => []
  | range a b => .between a b
  | digit => Text.digitRanges
  | space => blanks
  | word => Text.wordRanges
  | union a b => .union a.ranges b.ranges
  | both a b => .meet a.ranges b.ranges
  | without a b => .meet a.ranges (.complement b.ranges)
  | complement a => .complement a.ranges
  | anyCase a => Text.foldClosure a.ranges

def asciiDigit : CharClass := range 48 57
def asciiWord : CharClass := ofRanges [(48, 57), (65, 90), (95, 95), (97, 122)]
def asciiSpace : CharClass := ofRanges [(9, 13), (32, 32)]

/-- The classes that have a name between `[:` and `:]`. -/
def named? : String → Option CharClass
  | "alnum" => some (ofRanges [(48, 57), (65, 90), (97, 122)])
  | "alpha" => some (ofRanges [(65, 90), (97, 122)])
  | "ascii" => some (range 0 127)
  | "blank" => some (ofRanges [(9, 9), (32, 32)])
  | "cntrl" => some (ofRanges [(0, 31), (127, 127)])
  | "digit" => some asciiDigit
  | "graph" => some (range 33 126)
  | "lower" => some (range 97 122)
  | "print" => some (range 32 126)
  | "punct" => some (ofRanges [(33, 47), (58, 64), (91, 96), (123, 126)])
  | "space" => some asciiSpace
  | "upper" => some (range 65 90)
  | "word" => some asciiWord
  | "xdigit" => some (ofRanges [(48, 57), (65, 70), (97, 102)])
  | _ => .none

end CharClass
end TagHarvest.Pattern
