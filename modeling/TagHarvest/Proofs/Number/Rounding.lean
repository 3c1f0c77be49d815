/-
Rounding to the format binary64. Every number of the format is a whole multiple of the least positive one. A
rational is rounded to a multiple that is off by at most half a unit of the least number or by one part in
`2 ^ 53`. At the ends of the range it is told exactly what becomes of it: up to half of the least number it
becomes zero, below one and a half of it the least number, and from halfway between the greatest number and
the limit on nothing at all.
-/
import TagHarvest.Number.Binary64
import Mathlib.Algebra.Order.Field.Power
import Mathlib.Algebra.Order.Ring.Rat
import Mathlib.Tactic.Linarith
import Mathlib.Tactic.NormNum
import Mathlib.Tactic.Positivity
import Mathlib.Tactic.Ring

namespace TagHarvest.Binary64

/-- The least positive number. -/
def least : Rat := 2 ^ leastExponent

/-- The least size without a number next to it: halfway between the greatest number and the limit. -/
def overflow : Rat := 2 ^ limitExponent - 2 ^ (limitExponent - precision - 1)

theorem least_pos : 0 < least := by
  unfold least
  positivity

/-! ## Whole numbers -/

section RoundEven

variable {q : Rat}

theorem floor_toNat_le (hq : 0 ≤ q) : (q.floor.toNat : Rat) ≤ q ∧ q < q.floor.toNat + 1 := by
  have hfloor : 0 ≤ q.floor := Rat.le_floor_iff.2 hq
  have hcast : (q.floor.toNat : Rat) = q.floor := by exact_mod_cast congrArg (Int.cast (R := Rat)) (Int.toNat_of_nonneg hfloor)
  rw [hcast]
  exact ⟨Rat.floor_le q, by exact_mod_cast Rat.lt_floor_add_one q⟩

theorem abs_roundEven_sub_le (hq : 0 ≤ q) : |(roundEven q : Rat) - q| ≤ 1 / 2 := by
  obtain ⟨hlow, hhigh⟩ := floor_toNat_le hq
  rw [abs_le]
  unfold roundEven
  dsimp only
  split_ifs with hbelow habove
  · constructor <;> linarith
  · push_cast
    constructor <;> linarith
  · have hmod : q.floor.toNat % 2 = 0 ∨ q.floor.toNat % 2 = 1 := Nat.mod_two_eq_zero_or_one _
    rcases hmod with hmod | hmod <;> rw [hmod] <;> push_cast <;> constructor <;> linarith

theorem roundEven_zero : roundEven 0 = 0 := by decide +kernel

/-- Below `n` goes what is more than half a unit short of it, and from an odd `n` also what is just half short. -/
theorem roundEven_lt_iff {n : Nat} (hq : 0 ≤ q) :
    roundEven q < n ↔ q < n - 1 / 2 ∨ n % 2 = 1 ∧ q = n - 1 / 2 := by
  obtain ⟨hlow, hhigh⟩ := floor_toNat_le hq
  unfold roundEven
  dsimp only
  generalize q.floor.toNat = m at hlow hhigh ⊢
  rcases Nat.lt_trichotomy (m + 1) n with hlt | rfl | hgt
  · have hle : (m : Rat) + 2 ≤ n := by exact_mod_cast hlt
    refine iff_of_true ?_ (.inl (by linarith))
    split_ifs <;> omega
  · push_cast
    have hhalf : (m : Rat) + 1 - 1 / 2 = m + 1 / 2 := by ring
    rw [hhalf]
    split_ifs with hbelow habove
    · exact iff_of_true (Nat.lt_succ_self m) (.inl (by linarith))
    · refine iff_of_false (Nat.lt_irrefl _) ?_
      rintro (h | ⟨-, h⟩) <;> linarith
    · have heq : q = m + 1 / 2 := by linarith
      simp only [heq, lt_irrefl, false_or, and_true]
      omega
  · have hle : (n : Rat) ≤ m := by exact_mod_cast Nat.le_of_lt_succ hgt
    refine iff_of_false (by split_ifs <;> omega) ?_
    rintro (h | ⟨-, h⟩) <;> linarith

end RoundEven

/-! ## Exponents -/

section Exponent

variable {q : Rat}

/-- A rational lies within a factor of two of the power that its numerator and denominator tell. -/
theorem log2_bounds (hq : 0 < q) :
    (2 : Rat) ^ ((Nat.log2 q.num.toNat : Int) - Nat.log2 q.den - 1) < q ∧
      q < (2 : Rat) ^ ((Nat.log2 q.num.toNat : Int) - Nat.log2 q.den + 1) := by
  have hnum : 0 < q.num := Rat.num_pos.2 hq
  have hcast : ((q.num.toNat : Nat) : Rat) = q.num := by
    exact_mod_cast congrArg (Int.cast (R := Rat)) (Int.toNat_of_nonneg hnum.le)
  have hden : (0 : Rat) < q.den := by exact_mod_cast q.den_pos
  have hn : (2 : Rat) ^ (Nat.log2 q.num.toNat) ≤ q.num ∧ (q.num : Rat) < 2 ^ (Nat.log2 q.num.toNat + 1) := by
    rw [← hcast]
    exact ⟨by exact_mod_cast Nat.log2_self_le (by omega), by exact_mod_cast Nat.lt_log2_self⟩
  have hd : (2 : Rat) ^ (Nat.log2 q.den) ≤ q.den ∧ (q.den : Rat) < 2 ^ (Nat.log2 q.den + 1) :=
    ⟨by exact_mod_cast Nat.log2_self_le q.den_nz, by exact_mod_cast Nat.lt_log2_self⟩
  have hdiv : q * q.den = q.num := Rat.mul_den_eq_num q
  generalize Nat.log2 q.num.toNat = a at hn ⊢
  generalize Nat.log2 q.den = b at hd ⊢
  have hlow : (2 : Rat) ^ ((a : Int) - b - 1) * 2 ^ (b + 1) = 2 ^ a := by
    rw [← zpow_natCast, ← zpow_natCast, ← zpow_add₀ two_ne_zero]
    congr 1
    push_cast
    ring
  have hhigh : (2 : Rat) ^ ((a : Int) - b + 1) * 2 ^ b = 2 ^ (a + 1) := by
    rw [← zpow_natCast, ← zpow_natCast, ← zpow_add₀ two_ne_zero]
    congr 1
    push_cast
    ring
  constructor
  · by_contra! hle
    have hlt : q * q.den < 2 ^ ((a : Int) - b - 1) * 2 ^ (b + 1) :=
      (mul_lt_mul_of_pos_left hd.2 hq).trans_le (mul_le_mul_of_nonneg_right hle (by positivity))
    linarith [hn.1]
  · by_contra! hle
    have hge : 2 ^ ((a : Int) - b + 1) * 2 ^ b ≤ q * q.den := mul_le_mul hle hd.1 (by positivity) hq.le
    linarith [hn.2]

theorem two_zpow_add_precision (e : Int) : (2 : Rat) ^ (e + precision) = 2 ^ e * 2 ^ precision := by
  rw [zpow_add₀ two_ne_zero, zpow_natCast]

theorem two_zpow_add_precision_sub_one (e : Int) :
    (2 : Rat) ^ (e + precision - 1) = 2 ^ e * 2 ^ precision / 2 := by
  rw [zpow_sub_one₀ two_ne_zero, two_zpow_add_precision]
  rfl

/-- The significand of a positive rational fills its width, unless the rational is among the least. -/
theorem exponentOf_spec (hq : 0 < q) :
    leastExponent ≤ exponentOf q ∧ q < (2 : Rat) ^ (exponentOf q + precision) ∧
      (leastExponent < exponentOf q → (2 : Rat) ^ (exponentOf q + precision - 1) ≤ q) := by
  obtain ⟨hlow, hhigh⟩ := log2_bounds hq
  unfold exponentOf
  dsimp only
  generalize (Nat.log2 q.num.toNat : Int) - Nat.log2 q.den = d at hlow hhigh ⊢
  have hfill : ((precision - 1 : Nat) : Int) = precision - 1 := rfl
  have htight : ∃ e, (if q < (2 : Rat) ^ (d - (precision - 1 : Nat) + (precision - 1 : Nat)) then
      d - (precision - 1 : Nat) - 1 else d - (precision - 1 : Nat)) = e ∧
        q < (2 : Rat) ^ (e + precision) ∧ (2 : Rat) ^ (e + precision - 1) ≤ q := by
    rw [hfill, Int.sub_add_cancel]
    split_ifs with hless
    · exact ⟨_, rfl, by ring_nf; exact hless, by ring_nf; ring_nf at hlow; exact hlow.le⟩
    · exact ⟨_, rfl, by ring_nf; ring_nf at hhigh; exact hhigh, by ring_nf; exact not_lt.1 hless⟩
  obtain ⟨e, he, hbelow, hfull⟩ := htight
  rw [he]
  refine ⟨le_max_right .., hbelow.trans_le ?_, fun hlarge => ?_⟩
  · exact zpow_le_zpow_right₀ one_le_two (by have := le_max_left e leastExponent; omega)
  · rwa [max_eq_left (le_of_lt (by simpa using hlarge))]

end Exponent

/-! ## Numbers of the format -/

/-- A whole multiple of the least number that is off by half a unit of it or by one part in `2 ^ 53`. -/
def Near (q : Rat) (n : Nat) : Prop :=
  |n * least - q| ≤ least / 2 ∨ |n * least - q| ≤ q / 2 ^ precision

section Nearest

variable {q a : Rat}

theorem nearestPos_zero : nearestPos 0 = some 0 := rfl

theorem nearestPos_of_pos (hq : 0 < q) :
    nearestPos q = if (roundEven (q / 2 ^ exponentOf q) : Rat) * 2 ^ exponentOf q < 2 ^ limitExponent then
      some ((roundEven (q / 2 ^ exponentOf q) : Rat) * 2 ^ exponentOf q) else none := by
  unfold nearestPos
  rw [if_neg hq.ne']

/-- What a rational is rounded to is a multiple of the least number. -/
theorem exists_near (hq : 0 ≤ q) (h : nearestPos q = some a) : ∃ n : Nat, a = n * least ∧ Near q n := by
  rcases hq.eq_or_lt with rfl | hq
  · cases h
    exact ⟨0, by simp, .inl (by simpa using (half_pos least_pos).le)⟩
  rw [nearestPos_of_pos hq] at h
  obtain ⟨hleast, -, hfull⟩ := exponentOf_spec hq
  generalize exponentOf q = e at h hleast hfull
  split_ifs at h
  obtain rfl := Option.some.inj h
  have hpow : (0 : Rat) < 2 ^ e := by positivity
  have hunits : (2 : Rat) ^ e = (2 ^ (e - leastExponent).toNat : Nat) * least := by
    unfold least
    rw [Nat.cast_pow, Nat.cast_ofNat, ← zpow_natCast, ← zpow_add₀ two_ne_zero, Int.toNat_of_nonneg (by omega)]
    congr 1
    ring
  have herror : |(roundEven (q / 2 ^ e) : Rat) * 2 ^ e - q| ≤ 2 ^ e / 2 := by
    have hrounded := abs_roundEven_sub_le (div_nonneg hq.le hpow.le)
    calc |(roundEven (q / 2 ^ e) : Rat) * 2 ^ e - q|
        = |((roundEven (q / 2 ^ e) : Rat) - q / 2 ^ e) * 2 ^ e| := by
          rw [sub_mul, div_mul_cancel₀ _ hpow.ne']
      _ = |(roundEven (q / 2 ^ e) : Rat) - q / 2 ^ e| * 2 ^ e := by rw [abs_mul, abs_of_pos hpow]
      _ ≤ 1 / 2 * 2 ^ e := mul_le_mul_of_nonneg_right hrounded hpow.le
      _ = 2 ^ e / 2 := by ring
  have hmultiple : (roundEven (q / 2 ^ e) : Rat) * 2 ^ e =
      (roundEven (q / 2 ^ e) * 2 ^ (e - leastExponent).toNat : Nat) * least := by
    rw [Nat.cast_mul, mul_assoc, ← hunits]
  refine ⟨_, hmultiple, ?_⟩
  unfold Near
  rw [← hmultiple]
  rcases hleast.eq_or_lt with rfl | hlarge
  · exact .inl herror
  · have hfilled := hfull hlarge
    rw [two_zpow_add_precision_sub_one] at hfilled
    refine .inr (herror.trans ?_)
    rw [le_div_iff₀ (by positivity)]
    linarith

/-- Up to `2 ^ 53` units the least number is the unit of rounding. -/
theorem nearestPos_of_small (hq : 0 ≤ q) (h : q < 2 ^ precision * least) :
    nearestPos q = some (roundEven (q / least) * least) := by
  rcases hq.eq_or_lt with rfl | hq
  · rw [zero_div, roundEven_zero, nearestPos_zero]
    simp
  obtain ⟨hleast, -, hfull⟩ := exponentOf_spec hq
  have he : exponentOf q = leastExponent := by
    refine (hleast.eq_or_lt.resolve_right fun hlarge => ?_).symm
    have hpow : (2 : Rat) ^ (leastExponent + precision) ≤ 2 ^ (exponentOf q + precision - 1) :=
      zpow_le_zpow_right₀ one_le_two (by omega)
    rw [two_zpow_add_precision, ← least, mul_comm] at hpow
    linarith [hfull hlarge]
  rw [nearestPos_of_pos hq, he, ← least, if_pos]
  have hrounded := (abs_le.1 (abs_roundEven_sub_le (div_nonneg hq.le least_pos.le))).2
  have hunits : q / least < 2 ^ precision := (div_lt_iff₀ least_pos).2 h
  have hbound : (roundEven (q / least) : Rat) * least < (2 ^ precision + 1) * least :=
    mul_lt_mul_of_pos_right (by linarith) least_pos
  exact hbound.trans (by decide +kernel)

/-- Only what is about that small is rounded to zero or to the least number. -/
theorem lt_of_near {n : Nat} (hn : n ≤ 1) (hq : 0 ≤ q) (h : Near q n) : q < 2 ^ precision * least := by
  have hleast := least_pos
  have hpow : (4 : Rat) ≤ 2 ^ precision := by decide +kernel
  have hone : (n : Rat) * least ≤ least := by
    have : (n : Rat) ≤ 1 := by exact_mod_cast hn
    nlinarith
  have herror : q / 2 ^ precision ≤ q / 4 := div_le_div_of_nonneg_left hq four_pos hpow
  have hfour : 4 * least ≤ 2 ^ precision * least := mul_le_mul_of_nonneg_right hpow hleast.le
  unfold Near at h
  rw [abs_le, abs_le] at h
  rcases h with ⟨h, -⟩ | ⟨h, -⟩ <;> linarith

theorem nearestPos_eq_units_iff {n : Nat} (hn : n ≤ 1) (hq : 0 ≤ q) :
    nearestPos q = some (n * least) ↔ roundEven (q / least) = n := by
  have hunits : 0 ≤ q / least := div_nonneg hq least_pos.le
  constructor
  · intro h
    obtain ⟨m, hm, hnear⟩ := exists_near hq h
    obtain rfl : n = m := by exact_mod_cast mul_right_cancel₀ least_pos.ne' hm
    rw [nearestPos_of_small hq (lt_of_near hn hq hnear)] at h
    exact_mod_cast mul_right_cancel₀ least_pos.ne' (Option.some.inj h)
  · intro h
    have hsmall : q / least < 2 ^ precision := by
      have hpow : (2 : Rat) ≤ 2 ^ precision := by decide +kernel
      rcases (roundEven_lt_iff (n := 2) hunits).1 (by omega) with hlt | ⟨hodd, -⟩
      · push_cast at hlt
        linarith
      · cases hodd
    rw [nearestPos_of_small hq ((div_lt_iff₀ least_pos).1 hsmall), h]

/-- Up to half of the least number everything becomes zero. -/
theorem nearestPos_eq_zero_iff (hq : 0 ≤ q) : nearestPos q = some 0 ↔ q ≤ least / 2 := by
  have hunits := nearestPos_eq_units_iff (n := 0) (Nat.zero_le 1) hq
  rw [Nat.cast_zero, zero_mul] at hunits
  rw [hunits, ← Nat.lt_one_iff, roundEven_lt_iff (div_nonneg hq least_pos.le)]
  have hhalf : q / least ≤ 1 / 2 ↔ q ≤ least / 2 := by rw [div_le_iff₀ least_pos, one_div_mul_eq_div]
  rw [← hhalf, le_iff_lt_or_eq]
  norm_num

/-- From there up to one and a half of it everything becomes the least number. -/
theorem nearestPos_eq_least_iff (hq : 0 ≤ q) :
    nearestPos q = some least ↔ least / 2 < q ∧ q < 3 / 2 * least := by
  have hunits := nearestPos_eq_units_iff (n := 1) le_rfl hq
  rw [Nat.cast_one, one_mul] at hunits
  have hone : roundEven (q / least) = 1 ↔ ¬ roundEven (q / least) < 1 ∧ roundEven (q / least) < 2 := by omega
  have hzero : roundEven (q / least) < 1 ↔ q ≤ least / 2 := by
    rw [Nat.lt_one_iff, ← nearestPos_eq_zero_iff hq, ← nearestPos_eq_units_iff (Nat.zero_le 1) hq]
    simp
  have htwo : roundEven (q / least) < 2 ↔ q < 3 / 2 * least := by
    rw [roundEven_lt_iff (div_nonneg hq least_pos.le), ← div_lt_iff₀ least_pos]
    norm_num
  rw [hunits, hone, hzero, htwo, not_le]

/-- Halfway between the greatest number and the limit the range ends. -/
theorem nearestPos_eq_none_iff (hq : 0 ≤ q) : nearestPos q = none ↔ overflow ≤ q := by
  have hoverflow : overflow = (2 ^ precision - 1 / 2) * 2 ^ (limitExponent - precision) := by decide +kernel
  rcases hq.eq_or_lt with rfl | hq
  · exact iff_of_false nofun (by decide +kernel)
  obtain ⟨-, hbelow, hfull⟩ := exponentOf_spec hq
  rw [nearestPos_of_pos hq]
  generalize exponentOf q = e at hbelow hfull ⊢
  have hpow : (0 : Rat) < 2 ^ e := by positivity
  have hunits : 0 ≤ q / 2 ^ e := div_nonneg hq.le hpow.le
  have hlimit : (2 : Rat) ^ limitExponent = 2 ^ (limitExponent - precision) * 2 ^ precision := by
    rw [← two_zpow_add_precision, Int.sub_add_cancel]
  have htop : (0 : Rat) < 2 ^ (limitExponent - precision) := by positivity
  have hnone : ∀ x : Rat, (if x < 2 ^ limitExponent then some x else none) = none ↔ 2 ^ limitExponent ≤ x := by
    simp
  rw [hnone, hoverflow, hlimit]
  rw [two_zpow_add_precision] at hbelow
  have hrounded := (abs_le.1 (abs_roundEven_sub_le hunits)).2
  rcases lt_trichotomy e (limitExponent - precision) with hlt | rfl | hgt
  · -- not even a significand that is rounded up leads to the limit
    have hle : (2 : Rat) ^ e ≤ 2 ^ (limitExponent - precision) / 2 := by
      have hstep : (2 : Rat) ^ (e + 1) ≤ 2 ^ (limitExponent - precision) := zpow_le_zpow_right₀ one_le_two hlt
      rw [zpow_add_one₀ two_ne_zero] at hstep
      linarith
    have hunit : q / 2 ^ e < 2 ^ precision := (div_lt_iff₀' hpow).2 hbelow
    refine iff_of_false (not_le.2 ?_) (not_le.2 ?_)
    · calc (roundEven (q / 2 ^ e) : Rat) * 2 ^ e
          < (2 ^ precision + 1) * 2 ^ e := mul_lt_mul_of_pos_right (by linarith) hpow
        _ ≤ (2 ^ precision + 1) * (2 ^ (limitExponent - precision) / 2) :=
          mul_le_mul_of_nonneg_left hle (by positivity)
        _ ≤ 2 ^ (limitExponent - precision) * 2 ^ precision := by
          have hbig : (2 : Rat) ≤ 2 ^ precision := by decide +kernel
          nlinarith
    · calc q < 2 ^ e * 2 ^ precision := hbelow
        _ ≤ 2 ^ (limitExponent - precision) / 2 * 2 ^ precision := mul_le_mul_of_nonneg_right hle (by positivity)
        _ ≤ (2 ^ precision - 1 / 2) * 2 ^ (limitExponent - precision) := by
          have hbig : (2 : Rat) ≤ 2 ^ precision := by decide +kernel
          nlinarith
  · -- here the significand alone decides, and halfway the even neighbour is the limit
    have heven := roundEven_lt_iff (n := 2 ^ precision) hunits
    have hcast : ((2 ^ precision : Nat) : Rat) = 2 ^ precision := by push_cast; rfl
    rw [hcast, or_iff_left (fun h => absurd h.1 (by decide +kernel)), ← not_le, ← not_le, not_iff_not,
      le_div_iff₀ hpow] at heven
    rw [← heven, mul_comm (roundEven _ : Rat), mul_le_mul_iff_right₀ hpow, ← hcast, Nat.cast_le]
  · have hge : 2 * 2 ^ (limitExponent - precision) ≤ (2 : Rat) ^ e := by
      have hstep : (2 : Rat) ^ (limitExponent - precision + 1) ≤ 2 ^ e := zpow_le_zpow_right₀ one_le_two hgt
      rw [zpow_add_one₀ two_ne_zero] at hstep
      linarith
    have hfilled := hfull ((by decide : leastExponent < limitExponent - precision).trans hgt)
    rw [two_zpow_add_precision_sub_one] at hfilled
    have hbig : (1 : Rat) ≤ 2 ^ precision := by decide +kernel
    refine iff_of_true ?_ (by nlinarith)
    have hhalf : ((2 ^ (precision - 1) : Nat) : Rat) = 2 ^ precision / 2 := by decide +kernel
    have hround : 2 ^ (precision - 1) ≤ roundEven (q / 2 ^ e) := by
      rw [← not_lt, roundEven_lt_iff hunits, hhalf]
      have hunit : 2 ^ precision / 2 ≤ q / 2 ^ e := by
        rw [le_div_iff₀ hpow]
        linarith
      rintro (h | ⟨-, h⟩) <;> linarith
    have hcast : (2 : Rat) ^ precision / 2 ≤ roundEven (q / 2 ^ e) := by
      rw [← hhalf]
      exact_mod_cast hround
    calc (2 : Rat) ^ (limitExponent - precision) * 2 ^ precision
        = 2 ^ precision / 2 * (2 * 2 ^ (limitExponent - precision)) := by ring
      _ ≤ roundEven (q / 2 ^ e) * 2 ^ e := mul_le_mul hcast hge (by positivity) (Nat.cast_nonneg _)

theorem nearest_of_nonneg (hq : 0 ≤ q) : nearest q = nearestPos q := by
  unfold nearest
  rw [if_neg (not_lt.2 hq)]

/-- The exponents that are told without a power are those that lead beyond an end of the range. -/
theorem nearestDecimal_eq (digits : Nat) (exponent : Int) :
    nearestDecimal digits exponent = nearestPos (digits * 10 ^ exponent) := by
  unfold nearestDecimal
  split_ifs with hzero hlarge hsmall
  · rw [hzero, Nat.cast_zero, zero_mul, nearestPos_zero]
  · refine ((nearestPos_eq_none_iff (by positivity)).2 ?_).symm
    have hone : (1 : Rat) ≤ digits := by exact_mod_cast Nat.one_le_iff_ne_zero.2 hzero
    calc overflow ≤ 10 ^ (401 : Int) := by decide +kernel
      _ ≤ 10 ^ exponent := zpow_le_zpow_right₀ (by norm_num) (by omega)
      _ ≤ digits * 10 ^ exponent := le_mul_of_one_le_left (by positivity) hone
  · refine ((nearestPos_eq_zero_iff (by positivity)).2 ?_).symm
    have hdigits : (digits : Rat) ≤ 10 ^ ((Nat.log2 digits + 1 : Nat) : Int) := by
      rw [zpow_natCast]
      exact_mod_cast Nat.lt_log2_self.le.trans (Nat.pow_le_pow_left (by decide) _)
    calc (digits : Rat) * 10 ^ exponent
        ≤ 10 ^ ((Nat.log2 digits + 1 : Nat) : Int) * 10 ^ exponent :=
          mul_le_mul_of_nonneg_right hdigits (by positivity)
      _ = 10 ^ (exponent + (Nat.log2 digits + 1 : Nat)) := by
          rw [← zpow_add₀ (by norm_num), add_comm]
      _ ≤ 10 ^ (-401 : Int) := zpow_le_zpow_right₀ (by norm_num) (by omega)
      _ ≤ least / 2 := by decide +kernel
  · rfl

end Nearest

end TagHarvest.Binary64
