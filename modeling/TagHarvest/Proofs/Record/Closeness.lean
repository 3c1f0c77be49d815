/-
Numerals of which one is more than twice the other. Within the range of the format they never agree: their
numbers differ by at least a quarter of the larger, and rounding the difference and its bound does not make
up for that. At the ends of the range they do: a size beyond the range is infinite, and the infinite is close
to everything; sizes that become zero are the same; and so are two that become the least number.
-/
import TagHarvest.Record.Difference
import TagHarvest.Proofs.Number.Numeral
import TagHarvest.Proofs.Number.Rounding

namespace TagHarvest

open Binary64

/-! ## Units of the least number -/

/-- A whole number next to a rational: off by half of one or by less than one part in a thousand. -/
def WholeNear (x : Rat) (n : Nat) : Prop := |(n : Rat) - x| ≤ 1 / 2 ∨ |(n : Rat) - x| ≤ x / 1000

/-- What a rational is rounded to is a whole number of units next to it. -/
theorem Binary64.Near.wholeNear {x : Rat} {n : Nat} (hx : 0 ≤ x) (h : Near (x * least) n) : WholeNear x n := by
  have hleast := least_pos
  have hunits : |n * least - x * least| = |(n : Rat) - x| * least := by
    rw [← sub_mul, abs_mul, abs_of_pos hleast]
  have hpart : x / 2 ^ precision ≤ x / 1000 := div_le_div_of_nonneg_left hx (by norm_num) (by decide +kernel)
  unfold Near at h
  rw [hunits] at h
  refine h.imp (fun h => ?_) fun h => ?_
  · exact le_of_mul_le_mul_right (by linarith) hleast
  · refine (le_of_mul_le_mul_right ?_ hleast).trans hpart
    rwa [div_mul_eq_mul_div]

namespace WholeNear

variable {x y : Rat} {k m : Nat}

/-- Of two sizes, one more than twice the other, the smaller is not rounded beyond the larger. -/
theorem le_of_apart (hk : WholeNear x k) (hm : WholeNear y m) (hy : 0 < y) (hxy : 2 * y < x) : m ≤ k := by
  unfold WholeNear at hk hm
  rw [abs_le, abs_le] at hk hm
  by_contra! hlt
  have hcast : (k : Rat) + 1 ≤ m := by exact_mod_cast hlt
  rcases hk with ⟨hk, -⟩ | ⟨hk, -⟩ <;> rcases hm with ⟨-, hm⟩ | ⟨-, hm⟩ <;> linarith

/-- They are rounded to the same only if that is zero or one. -/
theorem le_one_of_apart (hk : WholeNear x k) (hm : WholeNear y k) (hxy : 2 * y < x) : k ≤ 1 := by
  unfold WholeNear at hk hm
  rw [abs_le, abs_le] at hk hm
  by_contra! hlt
  have hcast : (2 : Rat) ≤ k := by exact_mod_cast hlt
  rcases hk with ⟨hk, -⟩ | ⟨hk, -⟩ <;> rcases hm with ⟨-, hm⟩ | ⟨-, hm⟩ <;> linarith

/-- Else a quarter of the larger is left between them. -/
theorem quarter_of_apart (hk : WholeNear x k) (hm : WholeNear y m) (hxy : 2 * y < x) (hlt : m < k) :
    4 * m ≤ 3 * k := by
  unfold WholeNear at hk hm
  rw [abs_le, abs_le] at hk hm
  by_contra! hlarge
  have hcast : (m : Rat) + 1 ≤ k := by exact_mod_cast hlt
  have hlarge : 3 * (k : Rat) + 1 ≤ 4 * m := by exact_mod_cast hlarge
  rcases hk with ⟨hk, -⟩ | ⟨hk, -⟩ <;> rcases hm with ⟨-, hm⟩ | ⟨-, hm⟩ <;> linarith

/-- A rational that is small beside a size of at least one is rounded below it. -/
theorem lt_of_small (hk : WholeNear x k) (hm : WholeNear y m) (hx : 1 ≤ x) (hy : y ≤ x / 100000) : m < k := by
  unfold WholeNear at hk hm
  rw [abs_le, abs_le] at hk hm
  have hpos : (0 : Rat) < k := by rcases hk with ⟨hk, -⟩ | ⟨hk, -⟩ <;> linarith
  have hunit : (1 : Rat) ≤ k := by exact_mod_cast hpos
  by_contra! hle
  have hcast : (k : Rat) ≤ m := by exact_mod_cast hle
  -- what is rounded to one or more is no small part of a size that is rounded to as little
  rcases hk with ⟨hk, -⟩ | ⟨hk, -⟩ <;> rcases hm with ⟨-, hm⟩ | ⟨-, hm⟩ <;> linarith

end WholeNear

/-! ## Closeness -/

theorem rat_abs_eq (a : Rat) : a.abs = |a| := by
  unfold Rat.abs
  split_ifs with h
  · exact (abs_of_nonneg h).symm
  · exact (abs_of_nonpos (not_le.1 h).le).symm

namespace Quantity

/-- The number next to a size, with a sign. -/
def ofSize (negative : Bool) (size : Rat) : Quantity :=
  match nearestPos size with
  | none => .infinite negative
  | some x => .finite (if negative then -x else x)

theorem tolerance_bounds : 0 < tolerance ∧ tolerance ≤ 1 / 1000000 := by decide +kernel

theorem close_finite_iff {a b : Rat} :
    (finite a).close (finite b) = true ↔ a = b ∨ ∃ difference bound, nearestPos |a - b| = some difference ∧
      nearestPos (tolerance * max |a| |b|) = some bound ∧ difference ≤ bound := by
  have hlarger : (if |a| ≤ |b| then |b| else |a|) = max |a| |b| := (max_def _ _).symm
  have hbound : 0 ≤ tolerance * max |a| |b| :=
    mul_nonneg tolerance_bounds.1.le ((abs_nonneg a).trans (le_max_left ..))
  unfold close
  simp only [rat_abs_eq, hlarger, nearest_of_nonneg (abs_nonneg (a - b)), nearest_of_nonneg hbound,
    Bool.or_eq_true, decide_eq_true_eq]
  refine or_congr_right ?_
  cases nearestPos |a - b| <;> cases nearestPos (tolerance * max |a| |b|) <;> simp

theorem close_comm (a b : Quantity) : a.close b = b.close a := by
  cases a with
  | nan => cases b <;> rfl
  | infinite s => cases b <;> rfl
  | finite a =>
    cases b with
    | nan | infinite => rfl
    | finite b => rw [Bool.eq_iff_iff, close_finite_iff, close_finite_iff, eq_comm, abs_sub_comm, max_comm]

/-- Numbers of the format are not close if their difference is not small beside the larger. -/
theorem not_close_of_units {i j : Int} (hne : i ≠ j) (hlarge : max |i| |j| ≤ 4 * |i - j|) :
    ¬ (finite (i * least)).close (finite (j * least)) = true := by
  have hleast := least_pos
  have hdistance : |i * least - j * least| = ((|i - j| : Int) : Rat) * least := by
    rw [← sub_mul, abs_mul, abs_of_pos hleast, Int.cast_abs, Int.cast_sub]
  have hlarger : max |i * least| |j * least| = ((max |i| |j| : Int) : Rat) * least := by
    rw [abs_mul, abs_mul, abs_of_pos hleast, Int.cast_max, Int.cast_abs, Int.cast_abs, max_mul_of_nonneg _ _ hleast.le]
  have hone : 1 ≤ |i - j| := Int.one_le_abs (sub_ne_zero.2 hne)
  have hnonneg : 0 ≤ max |i| |j| := (abs_nonneg i).trans (le_max_left ..)
  rw [close_finite_iff, hdistance, hlarger, ← mul_assoc]
  generalize |i - j| = d at hlarge hone
  generalize max |i| |j| = l at hlarge hnonneg
  rintro (heq | ⟨difference, bound, hdifference, hbound, hle⟩)
  · exact hne (by exact_mod_cast mul_right_cancel₀ hleast.ne' heq)
  have hd : (1 : Rat) ≤ d := by exact_mod_cast hone
  have hl : (0 : Rat) ≤ l := by exact_mod_cast hnonneg
  have hld : (l : Rat) ≤ 4 * d := by exact_mod_cast hlarge
  obtain ⟨htpos, htle⟩ := tolerance_bounds
  have ht : tolerance * l ≤ d / 100000 := by nlinarith
  have ht0 : 0 ≤ tolerance * l := mul_nonneg htpos.le hl
  obtain ⟨n, rfl, hn⟩ := exists_near (by positivity) hdifference
  obtain ⟨m, rfl, hm⟩ := exists_near (by positivity) hbound
  have hmn : m < n := (hn.wholeNear (by linarith)).lt_of_small (hm.wholeNear ht0) hd ht
  have hcast : (m : Rat) < n := by exact_mod_cast hmn
  exact absurd hle (not_le.2 (mul_lt_mul_of_pos_right hcast hleast))

/-- The units of the least number in a number with a sign. -/
def signedUnits (negative : Bool) (n : Nat) : Int := if negative then -n else n

theorem ofSize_of_units {negative : Bool} {x : Rat} {n : Nat} (h : nearestPos x = some (n * least)) :
    ofSize negative x = finite (signedUnits negative n * least) := by
  unfold ofSize signedUnits
  rw [h]
  cases negative <;> simp

variable {s t : Bool} {x y : Rat}

/-- What two sizes within the range are rounded to, one more than twice the other. -/
theorem exists_units_of_apart (hy : 0 < y) (hxy : 2 * y < x) (hx : x < overflow) :
    ∃ k m : Nat, nearestPos x = some (k * least) ∧ nearestPos y = some (m * least) ∧
      m ≤ k ∧ (k = m → k ≤ 1) ∧ (m < k → 4 * m ≤ 3 * k) := by
  have hleast := least_pos
  obtain ⟨a, ha⟩ := Option.ne_none_iff_exists'.1 (mt (nearestPos_eq_none_iff (by linarith)).1 (not_le.2 hx))
  obtain ⟨b, hb⟩ := Option.ne_none_iff_exists'.1
    (mt (nearestPos_eq_none_iff hy.le).1 (not_le.2 (by linarith : y < overflow)))
  obtain ⟨k, rfl, hk⟩ := exists_near (by linarith) ha
  obtain ⟨m, rfl, hm⟩ := exists_near hy.le hb
  have hy' : 0 < y / least := div_pos hy hleast
  have hxy' : 2 * (y / least) < x / least := by
    rw [← mul_div_assoc]
    exact div_lt_div_of_pos_right hxy hleast
  rw [← div_mul_cancel₀ x hleast.ne'] at hk
  rw [← div_mul_cancel₀ y hleast.ne'] at hm
  have hk := hk.wholeNear (by linarith)
  have hm := hm.wholeNear hy'.le
  refine ⟨k, m, ha, hb, hk.le_of_apart hm hy' hxy', ?_, hk.quarter_of_apart hm hxy'⟩
  rintro rfl
  exact hk.le_one_of_apart hm hxy'

/-- Within the range such sizes are close only if they become the same. -/
theorem close_ofSize_iff_eq (hy : 0 < y) (hxy : 2 * y < x) (hx : x < overflow) :
    (ofSize s x).close (ofSize t y) = true ↔ ofSize s x = ofSize t y := by
  obtain ⟨k, m, hk, hm, hle, -, hquarter⟩ := exists_units_of_apart hy hxy hx
  rw [ofSize_of_units hk, ofSize_of_units hm]
  constructor
  · intro hclose
    by_contra hne
    have hunits : signedUnits s k ≠ signedUnits t m := fun heq => hne (by rw [heq])
    refine not_close_of_units hunits ?_ hclose
    simp only [Int.abs_eq_natAbs]
    unfold signedUnits at hunits ⊢
    cases s <;> cases t <;> simp only [Bool.false_eq_true, if_true, if_false] at hunits ⊢ <;> omega
  · intro heq
    rw [heq]
    exact close_finite_iff.2 (.inl rfl)

/-- Such sizes become the same only if both become zero, or the least number with one sign. -/
theorem ofSize_eq_iff (hy : 0 < y) (hxy : 2 * y < x) (hx : x < overflow) :
    ofSize s x = ofSize t y ↔ x ≤ least / 2 ∨ s = t ∧ x < 3 / 2 * least ∧ least / 2 < y := by
  have hxpos : 0 ≤ x := by linarith
  obtain ⟨k, m, hk, hm, hle, hone, -⟩ := exists_units_of_apart hy hxy hx
  constructor
  · intro heq
    rw [ofSize_of_units hk, ofSize_of_units hm] at heq
    have hunits : signedUnits s k = signedUnits t m := by
      exact_mod_cast mul_right_cancel₀ least_pos.ne' (finite.inj heq)
    rcases Nat.eq_zero_or_pos k with rfl | hkpos
    · left
      rw [← nearestPos_eq_zero_iff hxpos, hk]
      simp
    · right
      have hsame : s = t ∧ k = m := by
        unfold signedUnits at hunits
        cases s <;> cases t <;> simp only [Bool.false_eq_true, if_true, if_false] at hunits <;>
          simp <;> omega
      obtain ⟨hst, rfl⟩ := hsame
      obtain rfl : k = 1 := le_antisymm (hone rfl) hkpos
      rw [Nat.cast_one, one_mul] at hk hm
      exact ⟨hst, ((nearestPos_eq_least_iff hxpos).1 hk).2, ((nearestPos_eq_least_iff hy.le).1 hm).1⟩
  · rintro (hzero | ⟨rfl, hxleast, hyleast⟩)
    · unfold ofSize
      rw [(nearestPos_eq_zero_iff hxpos).2 hzero, (nearestPos_eq_zero_iff hy.le).2 (by linarith)]
      simp
    · unfold ofSize
      rw [(nearestPos_eq_least_iff hxpos).2 ⟨by linarith, hxleast⟩,
        (nearestPos_eq_least_iff hy.le).2 ⟨hyleast, by linarith⟩]

/--
Sizes of which one is more than twice the other are close exactly at the ends of the range: if the larger is
beyond it, if both become zero, and if both become the least number with one sign.
-/
theorem close_ofSize_iff (hy : 0 < y) (hxy : 2 * y < x) :
    (ofSize s x).close (ofSize t y) = true ↔
      overflow ≤ x ∨ x ≤ least / 2 ∨ s = t ∧ x < 3 / 2 * least ∧ least / 2 < y := by
  rcases le_or_gt overflow x with hlarge | hx
  · refine iff_of_true ?_ (.inl hlarge)
    have hinfinite : ofSize s x = infinite s := by
      unfold ofSize
      rw [(nearestPos_eq_none_iff (by linarith)).2 hlarge]
    rw [hinfinite]
    unfold ofSize
    cases nearestPos y <;> rfl
  · rw [close_ofSize_iff_eq hy hxy hx, ofSize_eq_iff hy hxy hx, or_iff_right (not_le.2 hx)]

end Quantity

/-! ## Numerals -/

namespace WrittenNumeral

theorem quantity_text (w : WrittenNumeral) :
    ∃ n, Numeral.read? w.text = some n ∧ n.quantity = .ofSize w.sign.isMinus w.size := by
  refine ⟨_, w.read?_text, ?_⟩
  have hnearest : nearestDecimal w.digits w.scale = nearestPos w.size := by rw [nearestDecimal_eq, w.size_eq]
  cases hsize : nearestPos w.size <;> simp [Numeral.quantity, Quantity.ofSize, hnearest, hsize]

theorem size_nonneg (w : WrittenNumeral) : 0 ≤ w.size := by
  unfold size
  positivity

theorem abs_value (w : WrittenNumeral) : |w.value| = w.size := by
  unfold value
  split_ifs
  · rw [abs_neg, abs_of_nonneg w.size_nonneg]
  · rw [abs_of_nonneg w.size_nonneg]

/-- The text tells the value. -/
theorem value_eq_of_text_eq {v w : WrittenNumeral} (h : v.text = w.text) : v.value = w.value := by
  have hread := v.read?_text
  rw [h, w.read?_text] at hread
  obtain ⟨hsign, hdigits, hscale⟩ := Numeral.finite.inj (Option.some.inj hread)
  unfold value
  rw [size_eq, size_eq, hsign, hdigits, hscale]

/-- The texts of two numerals agree if they are the same text, or their numbers are close. -/
theorem textsAgree_iff (v w : WrittenNumeral) :
    textsAgree v.text w.text = true ↔
      v.text = w.text ∨ (Quantity.ofSize v.sign.isMinus v.size).close (.ofSize w.sign.isMinus w.size) = true := by
  obtain ⟨m, hm, hmq⟩ := v.quantity_text
  obtain ⟨n, hn, hnq⟩ := w.quantity_text
  unfold textsAgree
  rw [v.trim_text, w.trim_text, hm, hn]
  dsimp only
  rw [hmq, hnq, Bool.or_eq_true, beq_iff_eq]

theorem isMinus_eq_iff {v w : WrittenNumeral} (hv : v.value ≠ 0) (hw : w.value ≠ 0) :
    v.sign.isMinus = w.sign.isMinus ↔ 0 < v.value * w.value := by
  have hvsize : 0 < v.size := v.abs_value ▸ abs_pos.2 hv
  have hwsize : 0 < w.size := w.abs_value ▸ abs_pos.2 hw
  have hpos := mul_pos hvsize hwsize
  unfold value
  cases v.sign.isMinus <;> cases w.sign.isMinus <;> simp <;> linarith

end WrittenNumeral

/--
Rounding hides the difference of two numbers of which the first is more than twice the second: it is beyond the
range, or both become zero, or both become the same least number.
-/
def Binary64.Merged (x y : Rat) : Prop :=
  overflow ≤ |x| ∨ |x| ≤ least / 2 ∨ 0 < x * y ∧ |x| < 3 / 2 * least ∧ least / 2 < |y|

/--
Two numerals of which one is more than twice the other are told apart, in either order, whatever the number
of their digits and the size of their exponents, except where the range of the format ends.
-/
theorem FieldValue.agrees_iff_of_apart {v w : WrittenNumeral} (hw : w.value ≠ 0) (h : 2 * |w.value| < |v.value|) :
    ((scalar v.text).agrees (scalar w.text) = true ↔ Merged v.value w.value) ∧
      ((scalar w.text).agrees (scalar v.text) = true ↔ Merged v.value w.value) := by
  have hv : v.value ≠ 0 := by
    rw [← abs_pos]
    linarith [abs_nonneg w.value]
  have hne : v.text ≠ w.text := fun htext => by
    rw [WrittenNumeral.value_eq_of_text_eq htext] at h
    linarith [abs_nonneg w.value]
  have hscalar (a b : String) : (scalar a).agrees (scalar b) = textsAgree a b := by
    simp [agrees, isList, texts]
  have hclose : (Quantity.ofSize v.sign.isMinus v.size).close (.ofSize w.sign.isMinus w.size) = true ↔
      Merged v.value w.value := by
    unfold Merged
    rw [← WrittenNumeral.isMinus_eq_iff hv hw, v.abs_value, w.abs_value]
    exact Quantity.close_ofSize_iff (w.abs_value ▸ abs_pos.2 hw) (by rwa [v.abs_value, w.abs_value] at h)
  rw [hscalar, hscalar, WrittenNumeral.textsAgree_iff, WrittenNumeral.textsAgree_iff, or_iff_right hne,
    or_iff_right hne.symm, Quantity.close_comm (.ofSize w.sign.isMinus w.size)]
  exact ⟨hclose, hclose⟩

/-- A number beyond the range agrees even with one; within the range three does not. -/
theorem FieldValue.agrees_iff_of_apart_overflow :
    (scalar "1e400").agrees (scalar "1") = true ∧ (scalar "3").agrees (scalar "1") = false := by
  let numeral (d : Fin 10) (exponent : Option WrittenExponent) : WrittenNumeral :=
    ⟨.absent, [d], none, exponent, by simp⟩
  let large := numeral 1 (some ⟨false, .absent, [4, 0, 0], by decide⟩)
  have hone : (numeral 1 none).value = 1 := by decide +kernel
  have hthree : (numeral 3 none).value = 3 := by decide +kernel
  have hlarge : large.value = 10 ^ 400 := by decide +kernel
  constructor
  · refine (agrees_iff_of_apart (v := large) (w := numeral 1 none) ?_ ?_).1.2 (.inl ?_)
    · rw [hone]
      decide
    · rw [hone, hlarge]
      decide +kernel
    · rw [hlarge]
      decide +kernel
  · rw [← Bool.not_eq_true]
    refine mt (agrees_iff_of_apart (v := numeral 3 none) (w := numeral 1 none) ?_ ?_).1.1 ?_
    · rw [hone]
      decide
    · rw [hone, hthree]
      decide +kernel
    · rw [hone, hthree]
      unfold Merged
      decide +kernel

end TagHarvest
