/-
UTF-16. A surrogate without its partner cannot be read, nor can what is left when the octets end inside a
unit or between the two surrogates of a character.
-/
import TagHarvest.Text.Utf8

namespace TagHarvest.Text.Utf16

/-- Which octet of a unit comes first. -/
inductive Order where
  | little
  | big
  deriving DecidableEq, Repr

def Order.unit : Order → UInt8 → UInt8 → Nat
  | little, a, b => b.toNat * 256 + a.toNat
  | big, a, b => a.toNat * 256 + b.toNat

/-- The units of octets, after those of `before` in reverse; and whether an octet is left. -/
def units (o : Order) (before : List Nat) : List UInt8 → List Nat × Bool
  | [] => (before.reverse, false)
  | [_] => (before.reverse, true)
  | a :: b :: bs => units o (o.unit a b :: before) bs

def isHigh (n : Nat) : Bool := 0xD800 ≤ n && n < 0xDC00
def isLow (n : Nat) : Bool := 0xDC00 ≤ n && n < 0xE000

/-- The characters of units; `high` is a surrogate that waits for its partner. -/
def characters (octetLeft : Bool) (before : List Char) : (high : Option Nat) → List Nat → List Char
  | high, [] => (if high.isSome || octetLeft then replacement :: before else before).reverse
  | none, u :: us =>
    if isHigh u then characters octetLeft before (some u) us
    else
      let c := if isLow u then replacement else Char.ofNat u
      characters octetLeft (c :: before) none us
  | some h, u :: us =>
    if isLow u then
      let c := Char.ofNat (0x10000 + (h - 0xD800) * 0x400 + (u - 0xDC00))
      characters octetLeft (c :: before) none us
    else if isHigh u then characters octetLeft (replacement :: before) (some u) us
    else characters octetLeft (Char.ofNat u :: replacement :: before) none us

def decode (o : Order) (bs : List UInt8) : List Char :=
  let (us, octetLeft) := units o [] bs
  characters octetLeft [] none us

end TagHarvest.Text.Utf16
