/-
Sets of characters as they look in UTF-8. A range of characters is cut into pieces whose octets vary
independently: a piece is a sequence of ranges of octets, one for each octet of its characters. The
pieces come in the order of their characters.
-/
import TagHarvest.Text.RangeSet

namespace TagHarvest.Text

/-- The octets of characters of one length, by their place. -/
abbrev OctetRanges := List (Nat × Nat)

namespace OctetRanges

/-- The number of values that a number of continuation octets can have. -/
def values : Nat → Nat
  | 0 => 1
  | n + 1 => 64 * values n

/--
The pieces of the numbers between two ends, written with an octet that carries `mark` and a number of
continuation octets after it. The ends are cut off where they do not fill the values of the octets that
follow.
-/
def pieces (mark : Nat) : (following : Nat) → (first last : Nat) → List OctetRanges
  | 0, a, b => [[(mark + a, mark + b)]]
  | n + 1, a, b =>
    let v := values (n + 1)
    let low := a / v
    let high := b / v
    if low = high then
      (pieces 0x80 n (a % v) (b % v)).map ((mark + low, mark + low) :: ·)
    else
      let start := if a % v = 0 then []
        else (pieces 0x80 n (a % v) (v - 1)).map ((mark + low, mark + low) :: ·)
      let stop := if b % v = v - 1 then []
        else (pieces 0x80 n 0 (b % v)).map ((mark + high, mark + high) :: ·)
      let low := if start.isEmpty then low else low + 1
      let past := if stop.isEmpty then high + 1 else high
      let full := if low < past then
          [(mark + low, mark + past - 1) :: List.replicate (n + 1) (0x80, 0xBF)]
        else []
      start ++ full ++ stop

/-- The lengths of characters: the code points, the mark of the first octet and the octets after it. -/
def lengths : List (Nat × Nat × Nat × Nat) :=
  [(0, 0x7F, 0, 0), (0x80, 0x7FF, 0xC0, 1), (0x800, 0xFFFF, 0xE0, 2), (0x10000, 0x10FFFF, 0xF0, 3)]

/-- The pieces of a set of characters. -/
def ofSet (s : RangeSet) : List OctetRanges :=
  (RangeSet.meet s RangeSet.full).flatMap fun (a, b) =>
    lengths.flatMap fun (least, most, mark, following) =>
      if max a least ≤ min b most then pieces mark following (max a least) (min b most) else []

end OctetRanges
end TagHarvest.Text
