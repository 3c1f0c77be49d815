/-
Numbers of the format binary64, as the rationals they stand for. `nearest` takes a rational to the
number next to it, and of two equally near ones to that with the even significand; beyond the greatest
number there is none. `shortest` is the way back: the fewest decimal digits that `nearest` reads as the
same number.
-/

namespace TagHarvest.Binary64

/-- The width of the significand. -/
def precision : Nat := 53

/-- The exponent of the least positive number. -/
def leastExponent : Int := -1074

/-- The exponent of the least power of two that is beyond every number. -/
def limitExponent : Int := 1024

/-- A natural number next to a rational that is not negative, the even one of two equally near. -/
def roundEven (q : Rat) : Nat :=
  let n := q.floor.toNat
  let r := q - n
  if r < 1 / 2 then n
  else if 1 / 2 < r then n + 1
  else n + n % 2

/-- The exponent that makes the significand of a positive rational fill its width. -/
def exponentOf (q : Rat) : Int :=
  let guess := (Nat.log2 q.num.toNat : Int) - Nat.log2 q.den - (precision - 1 : Nat)
  let fitted := if q < (2 : Rat) ^ (guess + (precision - 1 : Nat)) then guess - 1 else guess
  max fitted leastExponent

/-- The number nearest to a rational that is not negative; none beyond the greatest number. -/
def nearestPos (q : Rat) : Option Rat :=
  if q = 0 then some 0
  else
    let e := exponentOf q
    let x := (roundEven (q / (2 : Rat) ^ e) : Rat) * (2 : Rat) ^ e
    if x < (2 : Rat) ^ limitExponent then some x else none

/-- The number nearest to a rational; none if it is beyond the greatest number in size. -/
def nearest (q : Rat) : Option Rat :=
  if q < 0 then (nearestPos (-q)).map (- ·) else nearestPos q

/--
The number nearest to `digits · 10 ^ exponent`. Exponents that lead beyond the range are told by the
size of the digits, so that no such power is ever computed.
-/
def nearestDecimal (digits : Nat) (exponent : Int) : Option Rat :=
  if digits = 0 then some 0
  else if exponent > 400 then none
  else if exponent + (Nat.log2 digits + 1 : Nat) < -400 then some 0
  else nearestPos ((digits : Rat) * (10 : Rat) ^ exponent)

/-- A number as a whole number of units of a power of ten. -/
structure Decimal where
  digits : Nat
  exponent : Int
  deriving DecidableEq, Repr

/-- `n` units of `10 ^ k`; ten units are one of the next power. -/
def Decimal.ofUnits (n : Nat) (k : Int) : Decimal :=
  if n = 10 then ⟨1, k + 1⟩ else ⟨n, k⟩

/-- The least power of ten above a positive rational, found near the estimate that its logarithm gives. -/
def tenExponent (q : Rat) : Int :=
  let bits := (Nat.log2 q.num.toNat : Int) - Nat.log2 q.den
  let guess := bits * 30103 / 100000 - 1
  let up (k : Int) : Int := if (10 : Rat) ^ k ≤ q then k + 1 else k
  up (up (up (up guess)))

/-- The number of `count` digits that `nearest` reads as `x`, the nearer of two. -/
def withDigits? (x : Rat) (count : Nat) : Option Decimal :=
  let k := tenExponent x - count
  let scaled := x / (10 : Rat) ^ k
  let low := scaled.floor.toNat
  let hit (n : Nat) : Bool := nearestPos ((n : Rat) * (10 : Rat) ^ k) == some x
  let first := roundEven scaled
  let second := if first = low then low + 1 else low
  if hit first then some (.ofUnits first k)
  else if hit second then some (.ofUnits second k)
  else none

/-- The fewest digits that read back as the positive number `x`; 17 always do. -/
def shortest (x : Rat) : Decimal :=
  ((List.range 17).findSome? fun i => withDigits? x (i + 1)).getD ⟨0, 0⟩

end TagHarvest.Binary64
