/-
Decimal numerals as they are written: a sign or none, digits with a point or none among or beside them, and an
exponent or none. What is written is read back, and nothing is lost in reading: the numeral that is read has
the exact value of what was written, whatever the number of digits and the size of the exponent.
-/
import TagHarvest.Number.Numeral
import TagHarvest.Proofs.Text.Cut
import Mathlib.Algebra.Order.Field.Power
import Mathlib.Algebra.Order.Ring.Rat
import Mathlib.Tactic.FieldSimp
import Mathlib.Tactic.NormNum
import Mathlib.Tactic.Positivity
import Mathlib.Tactic.Ring

namespace TagHarvest

/-! ## Written numerals -/

/-- The number that decimal digits stand for. -/
def digitsValue (ds : List (Fin 10)) : Nat := ds.foldl (fun n d => n * 10 + d.val) 0

/-- The character of a digit. -/
def digitChar (d : Fin 10) : Char := Char.ofNat ('0'.toNat + d.val)

inductive WrittenSign where
  | absent
  | plus
  | minus
  deriving DecidableEq

namespace WrittenSign

def chars : WrittenSign → List Char
  | absent => []
  | plus => ['+']
  | minus => ['-']

def isMinus (s : WrittenSign) : Bool := s = minus

end WrittenSign

/-- The exponent of a numeral, after an `e` or an `E`. -/
structure WrittenExponent where
  capital : Bool
  sign : WrittenSign
  digits : List (Fin 10)
  digits_ne_nil : digits ≠ []

namespace WrittenExponent

def chars (e : WrittenExponent) : List Char :=
  (if e.capital then 'E' else 'e') :: (e.sign.chars ++ e.digits.map digitChar)

def value (e : WrittenExponent) : Int :=
  if e.sign.isMinus then -(digitsValue e.digits : Int) else digitsValue e.digits

end WrittenExponent

/-- A numeral written in decimal digits, of which there is at least one beside the point. -/
structure WrittenNumeral where
  sign : WrittenSign
  whole : List (Fin 10)
  /-- The digits after the point, if there is a point. -/
  fraction : Option (List (Fin 10))
  exponent : Option WrittenExponent
  digits_ne_nil : whole ++ fraction.getD [] ≠ []

namespace WrittenNumeral

variable (w : WrittenNumeral)

def fractionChars : List Char := (w.fraction.map fun ds => '.' :: ds.map digitChar).getD []

def exponentChars : List Char := (w.exponent.map WrittenExponent.chars).getD []

/-- The characters after the sign. -/
def bodyChars : List Char := w.whole.map digitChar ++ (w.fractionChars ++ w.exponentChars)

def text : String := String.ofList (w.sign.chars ++ w.bodyChars)

/-- The size of the number: the digits before the point, those after it by their place, and the exponent. -/
def size : Rat :=
  (digitsValue w.whole + (digitsValue (w.fraction.getD []) : Rat) / 10 ^ (w.fraction.getD []).length) *
    10 ^ ((w.exponent.map WrittenExponent.value).getD 0)

/-- The exact number. -/
def value : Rat := if w.sign.isMinus then -w.size else w.size

end WrittenNumeral

/-! ## Digits -/

theorem isDigit_digitChar : ∀ d : Fin 10, Numeral.isDigit (digitChar d) = true := by decide

theorem digitValue_digitChar : ∀ d : Fin 10, Numeral.digitValue (digitChar d) = d := by decide

theorem isBlank_digitChar : ∀ d : Fin 10, Text.isBlank (digitChar d) = false := by decide

theorem exists_digitChar {c : Char} (h : Numeral.isDigit c = true) : ∃ d, c = digitChar d := by
  have hbounds : '0'.toNat ≤ c.toNat ∧ c.toNat ≤ '9'.toNat := by
    simpa [Numeral.isDigit, Char.le_def, UInt32.le_iff_toNat_le] using h
  refine ⟨⟨c.toNat - '0'.toNat, by simp at hbounds ⊢; omega⟩, ?_⟩
  unfold digitChar
  rw [Nat.add_sub_cancel' hbounds.1, Char.ofNat_toNat]

theorem exists_digits {cs : List Char} (h : ∀ c ∈ cs, Numeral.isDigit c = true) :
    ∃ ds : List (Fin 10), cs = ds.map digitChar := by
  induction cs with
  | nil => exact ⟨[], rfl⟩
  | cons c cs ih =>
    obtain ⟨hc, hcs⟩ := List.forall_mem_cons.1 h
    obtain ⟨d, rfl⟩ := exists_digitChar hc
    obtain ⟨ds, rfl⟩ := ih hcs
    exact ⟨d :: ds, rfl⟩

theorem digitChar_injective : Function.Injective digitChar := by
  unfold Function.Injective
  decide

theorem ofDigits_map_digitChar (ds : List (Fin 10)) : Numeral.ofDigits (ds.map digitChar) = digitsValue ds := by
  unfold Numeral.ofDigits digitsValue
  rw [List.foldl_map]
  simp only [digitValue_digitChar]

theorem foldl_digits (ds : List (Fin 10)) (n : Nat) :
    ds.foldl (fun n d => n * 10 + d.val) n = n * 10 ^ ds.length + digitsValue ds := by
  unfold digitsValue
  induction ds generalizing n with
  | nil => simp
  | cons d ds ih =>
    rw [List.foldl_cons, List.foldl_cons, ih, ih (0 * 10 + d.val), List.length_cons]
    ring

theorem digitsValue_append (ds ds' : List (Fin 10)) :
    digitsValue (ds ++ ds') = digitsValue ds * 10 ^ ds'.length + digitsValue ds' := by
  rw [digitsValue, List.foldl_append, foldl_digits]
  rfl

/-- Digits are taken up to what follows them. -/
theorem takeWhile_digits (ds : List (Fin 10)) {rest : List Char} (hrest : ∀ c ∈ rest.head?, Numeral.isDigit c = false) :
    (ds.map digitChar ++ rest).takeWhile Numeral.isDigit = ds.map digitChar ∧
      (ds.map digitChar ++ rest).dropWhile Numeral.isDigit = rest :=
  Text.takeWhile_append_of_head (by simpa using fun d _ => isDigit_digitChar d) hrest

/-! ## Reading -/

theorem WrittenSign.splitSign_append (s : WrittenSign) {cs : List Char} (hcs : ∀ c ∈ cs.head?, c ≠ '+' ∧ c ≠ '-') :
    Numeral.splitSign (s.chars ++ cs) = (s.isMinus, cs) := by
  cases s with
  | plus | minus => rfl
  | absent =>
    cases cs with
    | nil => rfl
    | cons c cs =>
      obtain ⟨hplus, hminus⟩ := hcs c rfl
      show Numeral.splitSign (c :: cs) = (false, c :: cs)
      unfold Numeral.splitSign
      split
      · rename_i h
        cases h
        exact absurd rfl hminus
      · rename_i h
        cases h
        exact absurd rfl hplus
      · rfl

theorem head?_map_digitChar {ds : List (Fin 10)} {c : Char} (hc : c ∈ (ds.map digitChar).head?) : ∃ d, c = digitChar d := by
  cases ds with
  | nil => cases hc
  | cons d ds =>
    cases hc
    exact ⟨d, rfl⟩

theorem WrittenExponent.readExponent? (e : WrittenExponent) :
    Numeral.readExponent? (e.sign.chars ++ e.digits.map digitChar) = some e.value := by
  have hdigits : ∀ d : Fin 10, digitChar d ≠ '+' ∧ digitChar d ≠ '-' := by decide
  have hhead : ∀ c ∈ (e.digits.map digitChar).head?, c ≠ '+' ∧ c ≠ '-' := by
    intro c hc
    obtain ⟨d, rfl⟩ := head?_map_digitChar hc
    exact hdigits d
  have hall : (e.digits.map digitChar).all Numeral.isDigit = true := by simp [isDigit_digitChar]
  unfold Numeral.readExponent?
  rw [e.sign.splitSign_append hhead]
  dsimp only
  rw [hall, ofDigits_map_digitChar, List.isEmpty_map, List.isEmpty_eq_false_iff.2 e.digits_ne_nil]
  rfl

namespace WrittenNumeral

variable (w : WrittenNumeral)

/-- All digits of a numeral, as one number. -/
def digits : Nat := digitsValue (w.whole ++ w.fraction.getD [])

/-- The power of ten that the digits are counted in. -/
def scale : Int := (w.exponent.map WrittenExponent.value).getD 0 - (w.fraction.getD []).length

theorem exponentChars_head : ∀ c ∈ w.exponentChars.head?, c = 'e' ∨ c = 'E' := by
  unfold exponentChars
  cases w.exponent with
  | none => nofun
  | some e =>
    intro c hc
    have hletter : (if e.capital then 'E' else 'e') = c := Option.some.inj hc
    rw [← hletter]
    cases e.capital
    · exact .inl rfl
    · exact .inr rfl

theorem exponentChars_not_digit : ∀ c ∈ w.exponentChars.head?, Numeral.isDigit c = false := by
  intro c hc
  rcases w.exponentChars_head c hc with rfl | rfl <;> decide

theorem splitDigits_bodyChars :
    Numeral.splitDigits w.bodyChars = (w.whole.map digitChar, (w.fraction.getD []).map digitChar, w.exponentChars) := by
  have hexponent := w.exponentChars_not_digit
  unfold Numeral.splitDigits bodyChars fractionChars
  cases w.fraction with
  | none =>
    obtain ⟨htake, hdrop⟩ := takeWhile_digits w.whole hexponent
    dsimp only [Option.map_none, Option.getD_none, List.nil_append]
    rw [htake, hdrop]
    split
    · rename_i r hpoint
      exact absurd (w.exponentChars_head '.' (by rw [hpoint]; rfl)) (by decide)
    · rfl
  | some ds =>
    have hpoint : ∀ c ∈ ('.' :: ds.map digitChar ++ w.exponentChars).head?, Numeral.isDigit c = false := by
      intro c hc
      cases hc
      decide
    obtain ⟨htake, hdrop⟩ := takeWhile_digits w.whole hpoint
    obtain ⟨htake', hdrop'⟩ := takeWhile_digits ds hexponent
    dsimp only [Option.map_some, Option.getD_some]
    rw [htake, hdrop]
    show (_, (ds.map digitChar ++ w.exponentChars).takeWhile Numeral.isDigit,
      (ds.map digitChar ++ w.exponentChars).dropWhile Numeral.isDigit) = _
    rw [htake', hdrop']

theorem readDigits?_bodyChars (negative : Bool) :
    Numeral.readDigits? negative w.bodyChars = some (.finite negative w.digits w.scale) := by
  have hsome : ((w.whole.map digitChar).isEmpty && ((w.fraction.getD []).map digitChar).isEmpty) = false := by
    have hne := w.digits_ne_nil
    rw [ne_eq, List.append_eq_nil_iff] at hne
    simpa using hne
  unfold Numeral.readDigits?
  rw [w.splitDigits_bodyChars]
  dsimp only
  rw [hsome, if_neg Bool.false_ne_true, ← List.map_append, ofDigits_map_digitChar, List.length_map]
  unfold exponentChars digits scale
  cases w.exponent with
  | none => rfl
  | some e =>
    show (if _ then (Numeral.readExponent? (e.sign.chars ++ e.digits.map digitChar)).map _ else none) = _
    rw [e.readExponent?, if_pos (by cases e.capital <;> simp)]
    rfl

/-- After the sign comes a digit or the point. -/
theorem bodyChars_head : ∃ c cs, w.bodyChars = c :: cs ∧ c ∈ ".0123456789".toList := by
  have hdigit : ∀ d : Fin 10, digitChar d ∈ ".0123456789".toList := by decide
  unfold bodyChars
  cases hwhole : w.whole with
  | cons d ds => exact ⟨digitChar d, _, rfl, hdigit d⟩
  | nil =>
    cases hfraction : w.fraction with
    | some ds => exact ⟨'.', ds.map digitChar ++ w.exponentChars, by simp [fractionChars, hfraction], by decide⟩
    | none =>
      have hne := w.digits_ne_nil
      rw [hwhole, hfraction] at hne
      exact absurd rfl hne

/-- A written numeral is read as its digits and their power of ten. -/
theorem read?_text : Numeral.read? w.text = some (.finite w.sign.isMinus w.digits w.scale) := by
  obtain ⟨c, cs, hbody, hc⟩ := w.bodyChars_head
  have hchars : ".0123456789".toList.all
      (fun c => (c ≠ '+' ∧ c ≠ '-') ∧ c.toLower ≠ 'i' ∧ c.toLower ≠ 'n') = true := by decide
  obtain ⟨hsign, hi, hn⟩ := of_decide_eq_true (List.all_eq_true.1 hchars c hc)
  have hsplit : Numeral.splitSign w.text.toList = (w.sign.isMinus, w.bodyChars) := by
    rw [text, String.toList_ofList]
    refine w.sign.splitSign_append fun c' hc' => ?_
    rw [hbody] at hc'
    cases hc'
    exact hsign
  have hword : ∀ (word : String) (d : Char) (ds : List Char), word.toList = d :: ds → c.toLower ≠ d →
      String.ofList (w.bodyChars.map Char.toLower) ≠ word := by
    intro word d ds hword hne heq
    rw [← String.toList_inj, String.toList_ofList, hword, hbody, List.map_cons] at heq
    exact hne (List.cons_eq_cons.1 heq).1
  unfold Numeral.read?
  rw [hsplit]
  dsimp only
  split
  · rename_i h
    exact absurd h (hword _ _ _ rfl hi)
  · rename_i h
    exact absurd h (hword _ _ _ rfl hi)
  · rename_i h
    exact absurd h (hword _ _ _ rfl hn)
  · exact w.readDigits?_bodyChars _

theorem size_eq : w.size = w.digits * 10 ^ w.scale := by
  unfold size digits scale
  rw [digitsValue_append, zpow_sub₀ (by norm_num), zpow_natCast]
  push_cast
  field_simp

/-- No blank stands in a numeral. -/
theorem trim_text : Text.trim w.text = w.text := by
  have hsign (s : WrittenSign) : ∀ c ∈ s.chars, Text.isBlank c = false := by
    cases s with
    | absent => nofun
    | plus | minus => exact List.forall_mem_singleton.2 (by decide)
  have hdigits (ds : List (Fin 10)) : ∀ c ∈ ds.map digitChar, Text.isBlank c = false :=
    List.forall_mem_map.2 fun d _ => isBlank_digitChar d
  have hfraction : ∀ c ∈ w.fractionChars, Text.isBlank c = false := by
    unfold fractionChars
    cases w.fraction with
    | none => nofun
    | some ds => exact List.forall_mem_cons.2 ⟨by decide, hdigits ds⟩
  have hexponent : ∀ c ∈ w.exponentChars, Text.isBlank c = false := by
    unfold exponentChars
    cases w.exponent with
    | none => nofun
    | some e =>
      refine List.forall_mem_cons.2 ⟨by cases e.capital <;> decide, ?_⟩
      exact List.forall_mem_append.2 ⟨hsign e.sign, hdigits e.digits⟩
  have hall : ∀ c ∈ w.text.toList, Text.isBlank c = false := by
    rw [text, String.toList_ofList]
    refine List.forall_mem_append.2 ⟨hsign w.sign, List.forall_mem_append.2 ⟨hdigits w.whole, ?_⟩⟩
    exact List.forall_mem_append.2 ⟨hfraction, hexponent⟩
  refine Text.trim_eq_self_iff.2 ⟨fun c hc => hall c ?_, fun c hc => hall c ?_⟩
  · exact List.mem_of_mem_head? hc
  · exact List.mem_of_getLast? hc

end WrittenNumeral

end TagHarvest
