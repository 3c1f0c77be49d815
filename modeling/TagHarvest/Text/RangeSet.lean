/-
Sets of characters as ranges of code points in ascending order, none of which touches the next one.
-/
import TagHarvest.Text.Ranges

namespace TagHarvest.Text

/-- Ranges of code points, ends included. -/
abbrev RangeSet := List (Nat × Nat)

namespace RangeSet

/-- All characters: code points that are no surrogates. -/
def full : RangeSet := [(0, 0xD7FF), (0xE000, 0x10FFFF)]

/-- The set with one more range, which is joined to those that it touches. -/
def insert (first last : Nat) : RangeSet → RangeSet
  | [] => [(first, last)]
  | (a, b) :: rest =>
    if last + 1 < a then (first, last) :: (a, b) :: rest
    else if b + 1 < first then (a, b) :: insert first last rest
    else insert (min first a) (max last b) rest

/-- The code points of one set or the other. -/
def union (s t : RangeSet) : RangeSet := t.foldl (fun s r => insert r.1 r.2 s) s

/-- The code points of both sets. -/
def meet (s t : RangeSet) : RangeSet :=
  s.flatMap fun (a, b) => t.filterMap fun (c, d) =>
    if max a c ≤ min b d then some (max a c, min b d) else none

/-- What the ranges leave out from a code point on. -/
def gaps (start : Nat) : RangeSet → RangeSet
  | [] => [(start, 0x10FFFF)]
  | (a, b) :: rest =>
    if start < a then (start, a - 1) :: gaps (b + 1) rest else gaps (b + 1) rest

/-- The characters that are not in the set. -/
def complement (s : RangeSet) : RangeSet := meet (gaps 0 s) full

/-- The characters between two code points, ends included. -/
def between (first last : Nat) : RangeSet := meet [(first, last)] full

/-- True if all code points are below 128. -/
def isAscii (s : RangeSet) : Bool := s.all fun r => r.2 < 128

/-- The only character of a set, if it has one only. -/
def single? : RangeSet → Option Char
  | [(a, b)] => if a = b then some (Char.ofNat a) else none
  | _ => none

end RangeSet
end TagHarvest.Text
