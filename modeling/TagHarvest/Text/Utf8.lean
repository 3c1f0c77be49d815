/-
UTF-8. Reading goes on after octets that no character has: the octets up to the first one that cannot
continue the character begun are one gap, so a gap is as long as a beginning of a character can be.
-/

namespace TagHarvest.Text

/-- The character that stands for what cannot be read. -/
def replacement : Char := '\uFFFD'

/-- The byte order mark, which may stand in front of a text. -/
def byteOrderMark : Char := '\uFEFF'

/-- The characters after a byte order mark, if there is one. -/
def dropMark : List Char → List Char
  | [] => []
  | c :: cs => if c = byteOrderMark then cs else c :: cs

namespace Utf8

/-- What the first octet of a character tells of it. -/
structure Lead where
  /-- The number of octets that follow. -/
  following : Nat
  /-- The range of the first of them; any other is between 80 and BF. -/
  low : Nat
  high : Nat
  /-- The leading bits of the code point. -/
  bits : Nat

/-- What an octet tells as the first of a character; none if it cannot be that. -/
def lead? (n : Nat) : Option Lead :=
  if n < 0x80 then some ⟨0, 0x80, 0xBF, n⟩
  else if n < 0xC2 then none
  else if n < 0xE0 then some ⟨1, 0x80, 0xBF, n - 0xC0⟩
  else if n < 0xF0 then
    some ⟨2, if n = 0xE0 then 0xA0 else 0x80, if n = 0xED then 0x9F else 0xBF, n - 0xE0⟩
  else if n < 0xF5 then
    some ⟨3, if n = 0xF0 then 0x90 else 0x80, if n = 0xF4 then 0x8F else 0xBF, n - 0xF0⟩
  else none

/-- Reads the octets that follow the first: the code point, if all are there, and the octets left. -/
def follow : (count low high value : Nat) → List UInt8 → Option Nat × List UInt8
  | 0, _, _, value, bs => (some value, bs)
  | _ + 1, _, _, _, [] => (none, [])
  | n + 1, low, high, value, b :: bs =>
    if low ≤ b.toNat ∧ b.toNat ≤ high then
      follow n 0x80 0xBF (value * 64 + (b.toNat - 0x80)) bs
    else (none, b :: bs)

theorem length_follow (count low high value : Nat) (bs : List UInt8) :
    (follow count low high value bs).2.length ≤ bs.length := by
  induction count, low, high, value, bs using follow.induct with
  | case1 => simp [follow]
  | case2 => simp [follow]
  | case3 n low high value b bs h ih =>
    simp only [follow, h, and_self, if_true, List.length_cons]; omega
  | case4 n low high value b bs h => simp [follow, h]

/-- The first character, none if it is a gap, and the octets after it. -/
def next (b : UInt8) (bs : List UInt8) : Option Char × List UInt8 :=
  match lead? b.toNat with
  | none => (none, bs)
  | some l =>
    let (value, rest) := follow l.following l.low l.high l.bits bs
    (value.map Char.ofNat, rest)

theorem length_next (b : UInt8) (bs : List UInt8) : (next b bs).2.length ≤ bs.length := by
  unfold next
  split
  · exact Nat.le_refl _
  · exact length_follow _ _ _ _ _

/-- The characters and gaps of octets, in front of them those of `before` in reverse. -/
def scan (before : List (Option Char)) : List UInt8 → List (Option Char)
  | [] => before.reverse
  | b :: bs =>
    have := length_next b bs
    scan ((next b bs).1 :: before) (next b bs).2
termination_by bs => bs.length

/-- The text of octets, if they are UTF-8 throughout. -/
def decode? (bs : List UInt8) : Option (List Char) := (scan [] bs).mapM id

/-- The text of octets, with a replacement for each gap. -/
def decode (bs : List UInt8) : List Char := (scan [] bs).map (·.getD replacement)

end Utf8
end TagHarvest.Text
