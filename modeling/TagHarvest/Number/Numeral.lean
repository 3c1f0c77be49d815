/-
Numerals in cells. A numeral has an optional sign, digits with at most one point among or beside them,
and an optional decimal exponent; `inf`, `infinity` and `nan` are numerals too, in any case of letters.
Two numerals are close when the numbers of the format binary64 next to them differ by at most one part
in a hundred million of the larger, each step of that comparison again rounded to the format.
-/
import TagHarvest.Number.Binary64

namespace TagHarvest

/-- What a numeral stands for. -/
inductive Numeral where
  | nan
  | infinite (negative : Bool)
  | finite (negative : Bool) (digits : Nat) (exponent : Int)
  deriving DecidableEq, Repr

/-- A number of the format binary64. -/
inductive Quantity where
  | nan
  | infinite (negative : Bool)
  | finite (value : Rat)
  deriving DecidableEq

namespace Numeral

def digitValue (c : Char) : Nat := c.toNat - '0'.toNat

/-- The number that decimal digits write. -/
def ofDigits (cs : List Char) : Nat := cs.foldl (fun n c => n * 10 + digitValue c) 0

def isDigit (c : Char) : Bool := '0' ≤ c && c ≤ '9'

/-- Takes a sign off, and tells whether it is a minus. -/
def splitSign : List Char → Bool × List Char
  | '-' :: cs => (true, cs)
  | '+' :: cs => (false, cs)
  | cs => (false, cs)

/-- An exponent after its `e`, with nothing following. -/
def readExponent? (cs : List Char) : Option Int :=
  let (negative, ds) := splitSign cs
  if ds.isEmpty || !ds.all isDigit then none
  else some (if negative then -(ofDigits ds : Int) else ofDigits ds)

/-- The digits before and after the point, and what follows them. -/
def splitDigits (cs : List Char) : List Char × List Char × List Char :=
  let whole := cs.takeWhile isDigit
  match cs.dropWhile isDigit with
  | '.' :: r => (whole, r.takeWhile isDigit, r.dropWhile isDigit)
  | r => (whole, [], r)

/-- A numeral without sign that is written in digits. -/
def readDigits? (negative : Bool) (cs : List Char) : Option Numeral :=
  let (whole, fraction, rest) := splitDigits cs
  if whole.isEmpty && fraction.isEmpty then none
  else
    let number (e : Int) : Numeral :=
      .finite negative (ofDigits (whole ++ fraction)) (e - fraction.length)
    match rest with
    | [] => some (number 0)
    | c :: r => if c = 'e' ∨ c = 'E' then (readExponent? r).map number else none

/-- The numeral that a text is, from its first to its last character. -/
def read? (s : String) : Option Numeral :=
  let (negative, cs) := splitSign s.toList
  match String.ofList (cs.map Char.toLower) with
  | "inf" => some (.infinite negative)
  | "infinity" => some (.infinite negative)
  | "nan" => some .nan
  | _ => readDigits? negative cs

/-- The number next to a numeral; a size beyond the format is infinite. -/
def quantity : Numeral → Quantity
  | nan => .nan
  | infinite negative => .infinite negative
  | finite negative digits exponent =>
    match Binary64.nearestDecimal digits exponent with
    | none => .infinite negative
    | some x => .finite (if negative then -x else x)

end Numeral

namespace Quantity

/-- The number next to one hundred-millionth. -/
def tolerance : Rat := ((Binary64.nearest (1 / 100000000)).getD 0)

/--
Closeness: equal, or apart by at most the tolerance times the larger. The difference and the bound are
rounded to the format, so two numbers of which one is infinite differ by no more than their bound.
-/
def close : Quantity → Quantity → Bool
  | nan, _ => false
  | _, nan => false
  | infinite _, _ => true
  | _, infinite _ => true
  | finite a, finite b =>
    a = b ||
      let larger := if a.abs ≤ b.abs then b.abs else a.abs
      match Binary64.nearest (a - b).abs, Binary64.nearest (tolerance * larger) with
      | some difference, some bound => difference ≤ bound
      | _, _ => false

end Quantity
end TagHarvest
