import CodeFirst.Binary64
import Mathlib.Algebra.Order.Field.Basic
import Mathlib.Algebra.Order.Field.Power
import Mathlib.Data.Rat.Cast.Order
import Mathlib.Tactic.FieldSimp
import Mathlib.Tactic.Linarith
import Mathlib.Tactic.NormNum
import Mathlib.Tactic.Positivity
import Mathlib.Tactic.Ring

/-! Rounding of ratios to doubles, said of rational numbers: how far a double is from the ratio that
it is rounded from, and that no ratio below the greatest double and half a step is beyond it. -/
namespace CodeFirst.Binary64

theorem zpow_eq_div {base : ℚ} (power : ℤ) :
    base ^ power = base ^ power.toNat / base ^ (-power).toNat := by
  rcases le_total 0 power with up | down
  · obtain ⟨count, rfl⟩ := Int.eq_ofNat_of_zero_le up
    simp
  · obtain ⟨count, same⟩ := Int.eq_ofNat_of_zero_le (Int.neg_nonneg_of_nonpos down)
    obtain rfl : power = -count := by omega
    simp

/-- The magnitude of a finite double. -/
def value (x : Binary64) : ℚ :=
  x.significand * 2 ^ x.power

theorem value_eq_div (x : Binary64) : x.value = x.magnitude.1 / x.magnitude.2 := by
  rw [value, zpow_eq_div, magnitude]
  push_cast [Nat.pow_eq]
  rw [mul_div_assoc]

theorem magnitude_pos (x : Binary64) : 0 < x.magnitude.2 :=
  Nat.pow_pos Nat.two_pos

theorem value_nonneg (x : Binary64) : 0 ≤ x.value := by
  rw [value]
  positivity

theorem significand_lt (x : Binary64) : x.significand < 2 ^ 53 := by
  have small : x.fraction < 2 ^ 52 := Nat.mod_lt _ (by decide)
  rw [significand, Nat.pow_eq]
  split
  · omega
  · omega

theorem power_le {x : Binary64} (finite : x.isFinite = true) : x.power ≤ 971 := by
  have small : x.exponent < 2 ^ 11 := Nat.mod_lt _ (by decide)
  have other : x.exponent ≠ 2047 := by simpa [isFinite, topExponent] using finite
  rw [power]
  split
  · decide
  · omega

theorem infinityCode_eq : infinityCode = 2047 * 2 ^ 52 := rfl

section Code

variable {negative : Bool} {code : Nat}

theorem bits_ofCode (small : code < 2 ^ 63) :
    (ofCode negative code).bits.toNat = if negative then code + 2 ^ 63 else code :=
  Nat.mod_eq_of_lt (by rw [Nat.pow_eq]; split <;> omega)

theorem exponent_ofCode (small : code < 2 ^ 63) :
    (ofCode negative code).exponent = code / 2 ^ 52 := by
  rw [exponent, bits_ofCode small, Nat.pow_eq, Nat.pow_eq]
  split
  · omega
  · omega

theorem fraction_ofCode (small : code < 2 ^ 63) :
    (ofCode negative code).fraction = code % 2 ^ 52 := by
  rw [fraction, bits_ofCode small, Nat.pow_eq]
  split
  · omega
  · omega

theorem isFinite_ofCode (small : code < infinityCode) : (ofCode negative code).isFinite = true := by
  rw [infinityCode_eq] at small
  rw [isFinite, exponent_ofCode (by omega), topExponent, bne_iff_ne]
  omega

theorem significand_zero (negative : Bool) : (ofCode negative 0).significand = 0 := by
  cases negative with
  | false => decide
  | true => decide

/-- A code is read as steps of a size, also where rounding carried into the exponent. -/
theorem value_ofCode {power : ℤ} {steps : Nat} (least : -1074 ≤ power) (most : steps ≤ 2 ^ 53)
    (normal : power = -1074 ∨ 2 ^ 52 ≤ steps) (same : code = (power + 1074).toNat * 2 ^ 52 + steps)
    (small : code < infinityCode) : (ofCode negative code).value = steps * 2 ^ power := by
  rw [infinityCode_eq] at small
  rw [value, significand, Binary64.power, exponent_ofCode (by omega), fraction_ofCode (by omega),
    Nat.pow_eq]
  by_cases tiny : steps < 2 ^ 52
  · obtain rfl := normal.resolve_right (by omega)
    have none : code / 2 ^ 52 = 0 := by omega
    have all : code % 2 ^ 52 = steps := by omega
    rw [if_pos none, if_pos none, all]
  -- Steps rounded up to a power of two leave no fraction, and one more in the exponent.
  by_cases carried : steps = 2 ^ 53
  · have up : ((code / 2 ^ 52 : Nat) : ℤ) - 1075 = power + 1 := by omega
    have none : code % 2 ^ 52 = 0 := by omega
    rw [if_neg (by omega), if_neg (by omega), none, up, zpow_add_one₀ two_ne_zero, carried]
    push_cast
    ring
  · have here : ((code / 2 ^ 52 : Nat) : ℤ) - 1075 = power := by omega
    have behind : code % 2 ^ 52 + 2 ^ 52 = steps := by omega
    rw [if_neg (by omega), if_neg (by omega), behind, here]

end Code

section Ratio

variable {num den : Nat}

/-- Rounding to an integer moves by a half at most. -/
theorem nearestEven_le (positive : 0 < den) : 2 * (nearestEven num den * den) ≤ 2 * num + den := by
  have whole := Nat.div_add_mod num den
  rw [Nat.mul_comm] at whole
  have part := Nat.mod_lt num positive
  simp only [nearestEven]
  split
  · omega
  · split
    · rw [Nat.add_mul]
      omega
    · have : num / den % 2 ≤ 1 := by omega
      have := Nat.mul_le_mul_right den this
      rw [Nat.add_mul]
      omega

theorem le_nearestEven : num / den ≤ nearestEven num den := by
  simp only [nearestEven]
  split
  · exact Nat.le_refl _
  · split
    · exact Nat.le_succ _
    · exact Nat.le_add_right _ _

theorem log2_le (positive : 0 < num) : (2 : ℚ) ^ (Nat.log2 num : ℤ) ≤ num := by
  rw [zpow_natCast]
  exact_mod_cast Nat.log2_self_le positive.ne'

theorem lt_log2 (num : Nat) : (num : ℚ) < 2 ^ ((Nat.log2 num : ℤ) + 1) := by
  exact_mod_cast Nat.lt_log2_self

/-- The orders of the parts give the order of a ratio but for one. -/
theorem log2_bracket (nonzero : 0 < num) (positive : 0 < den) :
    (2 : ℚ) ^ ((Nat.log2 num : ℤ) - Nat.log2 den - 1) ≤ num / den ∧
      (num / den : ℚ) < 2 ^ ((Nat.log2 num : ℤ) - Nat.log2 den + 1) := by
  have down : (0 : ℚ) < den := by exact_mod_cast positive
  rw [le_div_iff₀ down, div_lt_iff₀ down]
  constructor
  · calc (2 : ℚ) ^ ((Nat.log2 num : ℤ) - Nat.log2 den - 1) * den
        ≤ 2 ^ ((Nat.log2 num : ℤ) - Nat.log2 den - 1) * 2 ^ ((Nat.log2 den : ℤ) + 1) := by
          gcongr
          exact (lt_log2 den).le
      _ = 2 ^ (Nat.log2 num : ℤ) := by
          rw [← zpow_add₀ two_ne_zero]
          congr 1
          omega
      _ ≤ num := log2_le nonzero
  · calc (num : ℚ) < 2 ^ ((Nat.log2 num : ℤ) + 1) := lt_log2 num
      _ = 2 ^ ((Nat.log2 num : ℤ) - Nat.log2 den + 1) * 2 ^ (Nat.log2 den : ℤ) := by
          rw [← zpow_add₀ two_ne_zero]
          congr 1
          omega
      _ ≤ 2 ^ ((Nat.log2 num : ℤ) - Nat.log2 den + 1) * den := by
          gcongr
          exact log2_le positive

/-- The binary order of a ratio brackets it between two powers of two. -/
theorem binaryOrder_spec (nonzero : 0 < num) (positive : 0 < den) :
    (2 : ℚ) ^ binaryOrder num den ≤ num / den ∧
      (num / den : ℚ) < 2 ^ (binaryOrder num den + 1) := by
  have down : (0 : ℚ) < den := by exact_mod_cast positive
  obtain ⟨below, above⟩ := log2_bracket nonzero positive
  simp only [binaryOrder]
  generalize (Nat.log2 num : ℤ) - Nat.log2 den = guess at below above ⊢
  have compare : num * Nat.pow 2 (-guess).toNat < den * Nat.pow 2 guess.toNat ↔
      (num / den : ℚ) < 2 ^ guess := by
    rw [zpow_eq_div, div_lt_div_iff₀ down (by positivity), mul_comm (_ ^ _) (den : ℚ)]
    exact_mod_cast Iff.rfl
  split
  · rename_i less
    rw [sub_add_cancel]
    exact ⟨below, compare.mp less⟩
  · rename_i notLess
    exact ⟨not_lt.mp (mt compare.mpr notLess), above⟩

/-- The steps that the ratio counts, before it is rounded to one. -/
theorem steps_eq (num den : Nat) (power : ℤ) :
    ((num * Nat.pow 2 (-power).toNat : Nat) : ℚ) / (den * Nat.pow 2 power.toNat : Nat) =
      num / den / 2 ^ power := by
  rw [zpow_eq_div]
  push_cast [Nat.pow_eq]
  field_simp

theorem nearestEven_le_ratio (positive : 0 < den) :
    (nearestEven num den : ℚ) ≤ num / den + 1 / 2 := by
  have down : (0 : ℚ) < den := by exact_mod_cast positive
  have near : (2 * (nearestEven num den * den) : ℚ) ≤ 2 * num + den := by
    exact_mod_cast nearestEven_le positive
  rw [← sub_le_iff_le_add, le_div_iff₀ down]
  linarith

theorem le_nearestEven_of_le {steps : Nat} (positive : 0 < den)
    (enough : (steps : ℚ) ≤ num / den) : steps ≤ nearestEven num den := by
  have down : (0 : ℚ) < den := by exact_mod_cast positive
  rw [le_div_iff₀ down] at enough
  refine le_trans ?_ le_nearestEven
  rw [Nat.le_div_iff_mul_le positive]
  exact_mod_cast enough

/-- What is not below this is rounded beyond the doubles. -/
def limit : ℚ :=
  (2 ^ 53 - 1 / 2) * 2 ^ (971 : ℤ)

theorem limit_lt : limit < 2 ^ (1024 : ℤ) := by
  have step : (2 : ℚ) ^ (1024 : ℤ) = 2 ^ 53 * 2 ^ (971 : ℤ) := by
    rw [← zpow_natCast, ← zpow_add₀ two_ne_zero]
    rfl
  rw [limit, step]
  gcongr
  linarith

/-- The power of two that a ratio of an order is rounded at. -/
def stepPower (order : ℤ) : ℤ :=
  max (order - 52) (-1074)

/-- The steps that a ratio below the limit is rounded to make a code of a finite double. -/
theorem code_lt {order : ℤ} {steps : Nat} {ratio : ℚ} (high : ratio < 2 ^ (order + 1))
    (small : ratio < limit) (bounded : order < 1024)
    (near : (steps : ℚ) ≤ ratio / 2 ^ stepPower order + 1 / 2) :
    steps ≤ 2 ^ 53 ∧
      (stepPower order + 1074).toNat * 2 ^ 52 + steps < infinityCode := by
  have step : (0 : ℚ) < 2 ^ stepPower order := by positivity
  have most : steps ≤ 2 ^ 53 := by
    have scaled : ratio / 2 ^ stepPower order < 2 ^ (53 : ℤ) := by
      rw [div_lt_iff₀ step, ← zpow_add₀ two_ne_zero]
      refine high.trans_le (zpow_le_zpow_right₀ one_le_two ?_)
      rw [stepPower]
      omega
    have less : (steps : ℚ) < 2 ^ 53 + 1 := by
      refine near.trans_lt ?_
      rw [← zpow_natCast (2 : ℚ) 53]
      push_cast
      linarith
    exact Nat.lt_succ_iff.mp (by exact_mod_cast less)
  refine ⟨most, ?_⟩
  rw [infinityCode_eq]
  by_cases top : stepPower order = 971
  · have fewer : (steps : ℚ) < 2 ^ 53 := by
      rw [top] at near step
      refine near.trans_lt ?_
      rw [← lt_sub_iff_add_lt, div_lt_iff₀ step]
      exact small
    have : steps < 2 ^ 53 := by exact_mod_cast fewer
    omega
  · have : stepPower order ≤ 970 := by
      rw [stepPower] at top ⊢
      omega
    omega

/-- Where the order is not the least, the steps fill a significand. -/
theorem normal_steps {order : ℤ} {ratio : ℚ} (low : (2 : ℚ) ^ order ≤ ratio)
    (above : stepPower order ≠ -1074) : ((2 ^ 52 : Nat) : ℚ) ≤ ratio / 2 ^ stepPower order := by
  have power : order = stepPower order + 52 := by
    rw [stepPower] at above ⊢
    omega
  rw [le_div_iff₀ (by positivity)]
  rw [power, zpow_add₀ two_ne_zero, mul_comm] at low
  exact_mod_cast low

/-- Steps that fill a significand exceed the ratio by the last of its binary places at most. -/
theorem steps_bounds {order : ℤ} {steps : Nat} {ratio : ℚ} (up : 0 ≤ order)
    (low : (2 : ℚ) ^ order ≤ ratio) (normal : 2 ^ 52 ≤ steps)
    (near : (steps : ℚ) ≤ ratio / 2 ^ stepPower order + 1 / 2) :
    (1 : ℚ) ≤ steps * 2 ^ stepPower order ∧
      steps * 2 ^ stepPower order ≤ ratio * (1 + 1 / 2 ^ 53) := by
  have power : order = 52 + stepPower order := by
    rw [stepPower]
    omega
  have step : (2 : ℚ) ^ order = 2 ^ 52 * 2 ^ stepPower order := by
    rw [power, zpow_add₀ two_ne_zero, ← power]
    rfl
  have full : (2 : ℚ) ^ 52 ≤ steps := by exact_mod_cast normal
  constructor
  · calc (1 : ℚ) ≤ 2 ^ order := one_le_zpow₀ one_le_two up
      _ = 2 ^ 52 * 2 ^ stepPower order := step
      _ ≤ steps * 2 ^ stepPower order := by gcongr
  · calc steps * (2 : ℚ) ^ stepPower order
        ≤ (ratio / 2 ^ stepPower order + 1 / 2) * 2 ^ stepPower order := by gcongr
      _ = ratio + 2 ^ stepPower order / 2 := by field_simp
      _ ≤ ratio * (1 + 1 / 2 ^ 53) := by
        rw [step] at low
        linarith

/-- A ratio below the limit is rounded to a finite double. A ratio of one or more stays so, and grows
by the last of its binary places at most. -/
theorem ofRatio?_eq_some (negative : Bool) (positive : 0 < den) (small : (num / den : ℚ) < limit) :
    ∃ x, ofRatio? negative num den = some x ∧ x.isFinite = true ∧
      ((1 : ℚ) ≤ num / den → 1 ≤ x.value ∧ x.value ≤ num / den * (1 + 1 / 2 ^ 53)) := by
  rcases Nat.eq_zero_or_pos num with rfl | nonzero
  · refine ⟨ofCode negative 0, rfl, isFinite_ofCode (by decide), fun large => ?_⟩
    norm_num at large
  obtain ⟨low, high⟩ := binaryOrder_spec nonzero positive
  have bounded : binaryOrder num den < 1024 :=
    (zpow_lt_zpow_iff_right₀ one_lt_two).mp ((low.trans_lt small).trans limit_lt)
  have coded : nearestCode num den = min ((stepPower (binaryOrder num den) + 1074).toNat * 2 ^ 52 +
      nearestEven (num * Nat.pow 2 (-stepPower (binaryOrder num den)).toNat)
        (den * Nat.pow 2 (stepPower (binaryOrder num den)).toNat)) infinityCode :=
    if_neg nonzero.ne'
  generalize binaryOrder num den = order at low high bounded coded
  have down : 0 < den * Nat.pow 2 (stepPower order).toNat :=
    Nat.mul_pos positive (Nat.pow_pos Nat.two_pos)
  have near := @nearestEven_le_ratio (num * Nat.pow 2 (-stepPower order).toNat) _ down
  have enough := @le_nearestEven_of_le (num * Nat.pow 2 (-stepPower order).toNat) _ (2 ^ 52) down
  rw [steps_eq] at near enough
  -- From here on it only matters between which bounds the steps are.
  generalize nearestEven _ _ = steps at near enough coded
  obtain ⟨most, less⟩ := code_lt high small bounded near
  rw [Nat.min_eq_left less.le] at coded
  rw [← coded] at less
  have normal : stepPower order = -1074 ∨ 2 ^ 52 ≤ steps :=
    or_iff_not_imp_left.mpr fun above => enough (normal_steps low above)
  refine ⟨ofCode negative (nearestCode num den), if_pos less, isFinite_ofCode less, fun large => ?_⟩
  rw [value_ofCode (le_max_right _ _) most normal coded less]
  have up : 0 ≤ order := by
    have above : (2 : ℚ) ^ (0 : ℤ) < 2 ^ (order + 1) := by
      rw [zpow_zero]
      exact large.trans_lt high
    have := (zpow_lt_zpow_iff_right₀ one_lt_two).mp above
    omega
  have full : 2 ^ 52 ≤ steps := normal.resolve_left (by rw [stepPower]; omega)
  exact steps_bounds up low full near

end Ratio

section Scaling

variable {x : Binary64} {count : Nat} {exponent : ℤ}

theorem value_lt_limit (finite : x.isFinite = true) : x.value < limit := by
  have most : (x.significand : ℚ) ≤ 2 ^ 53 - 1 := by
    rw [le_sub_iff_add_le]
    exact_mod_cast x.significand_lt
  have power : (2 : ℚ) ^ x.power ≤ 2 ^ (971 : ℤ) :=
    zpow_le_zpow_right₀ one_le_two (power_le finite)
  calc x.value ≤ (2 ^ 53 - 1) * 2 ^ (971 : ℤ) :=
        mul_le_mul most power (by positivity) (by norm_num)
    _ < limit := mul_lt_mul_of_pos_right (by norm_num) (by positivity)

theorem ten_lt_limit (few : count ≤ greatestTen) : (10 ^ count : ℚ) < limit := by
  have tens : (10 : ℚ) ^ greatestTen = (10 ^ 44) ^ 7 := by
    rw [← pow_mul]
    rfl
  have twos : (2 : ℚ) ^ (971 : ℤ) = (2 ^ 146) ^ 6 * 2 ^ 95 := by
    rw [← pow_mul, ← pow_add]
    rfl
  calc (10 : ℚ) ^ count ≤ 10 ^ greatestTen := pow_le_pow_right₀ (by norm_num) few
    _ ≤ (121 / 100 * 2 ^ 146) ^ 7 := by
      rw [tens]
      gcongr
      norm_num
    _ = (2 ^ 146) ^ 6 * ((121 / 100) ^ 7 * 2 ^ 146) := by ring
    _ < (2 ^ 146) ^ 6 * ((2 ^ 53 - 1 / 2) * 2 ^ 95) :=
      mul_lt_mul_of_pos_left (by norm_num) (by positivity)
    _ = limit := by
      rw [limit, twos]
      ring

/-- The power of ten that doubles are scaled by, as a double. -/
theorem ten_eq_some (few : count ≤ greatestTen) :
    ∃ ten, ofRatio? false (Nat.pow 10 count) 1 = some ten ∧ 1 ≤ ten.value ∧
      ten.value ≤ 10 ^ count * (1 + 1 / 2 ^ 53) := by
  have whole : ((Nat.pow 10 count : Nat) : ℚ) / (1 : Nat) = 10 ^ count := by simp [Nat.pow_eq]
  have large : (1 : ℚ) ≤ 10 ^ count := one_le_pow₀ (by norm_num)
  obtain ⟨ten, found, _, bounds⟩ := ofRatio?_eq_some false Nat.one_pos (whole ▸ ten_lt_limit few)
  rw [whole] at bounds
  exact ⟨ten, found, bounds large⟩

theorem timesTen?_of_lt {ten : Binary64}
    (found : ofRatio? false (Nat.pow 10 count) 1 = some ten) (small : x.value * ten.value < limit) :
    ∃ y, x.timesTen? count = some y ∧ y.isFinite = true := by
  have product : ((x.magnitude.1 * ten.magnitude.1 : Nat) : ℚ) /
      (x.magnitude.2 * ten.magnitude.2 : Nat) = x.value * ten.value := by
    rw [value_eq_div, value_eq_div]
    push_cast
    exact (div_mul_div_comm _ _ _ _).symm
  obtain ⟨y, scaled, finite, _⟩ := ofRatio?_eq_some x.isNegative
    (Nat.mul_pos x.magnitude_pos ten.magnitude_pos) (product ▸ small)
  exact ⟨y, by rw [timesTen?, found]; exact scaled, finite⟩

theorem timesTen?_eq_some (few : count ≤ greatestTen)
    (small : x.value * (10 ^ count * (1 + 1 / 2 ^ 53)) < limit) :
    ∃ y, x.timesTen? count = some y ∧ y.isFinite = true := by
  obtain ⟨ten, found, _, most⟩ := ten_eq_some few
  exact timesTen?_of_lt found ((mul_le_mul_of_nonneg_left most x.value_nonneg).trans_lt small)

theorem timesTen?_zero (finite : x.isFinite = true) :
    ∃ y, x.timesTen? 0 = some y ∧ y.isFinite = true := by
  have found : ofRatio? false (Nat.pow 10 0) 1 = some ⟨0x3FF0000000000000⟩ := by decide +kernel
  have one : value ⟨0x3FF0000000000000⟩ = 1 := by
    rw [value_eq_div]
    have parts : (⟨0x3FF0000000000000⟩ : Binary64).magnitude = (2 ^ 52, 2 ^ 52) := by decide +kernel
    rw [parts]
    norm_num
  exact timesTen?_of_lt found (by rw [one, mul_one]; exact value_lt_limit finite)

theorem overTen?_eq_some (finite : x.isFinite = true) (few : count ≤ greatestTen) :
    ∃ y, x.overTen? count = some y ∧ y.isFinite = true := by
  obtain ⟨ten, found, least, _⟩ := ten_eq_some few
  have quotient : ((x.magnitude.1 * ten.magnitude.2 : Nat) : ℚ) /
      (x.magnitude.2 * ten.magnitude.1 : Nat) = x.value / ten.value := by
    rw [value_eq_div, value_eq_div]
    push_cast
    exact (div_div_div_eq _ _ _ _).symm
  have bounded : x.value / ten.value < limit :=
    (div_le_self x.value_nonneg least).trans_lt (value_lt_limit finite)
  have positive : 0 < ten.magnitude.1 := by
    rw [value_eq_div] at least
    refine Nat.pos_of_ne_zero fun none => ?_
    rw [none] at least
    norm_num at least
  obtain ⟨y, scaled, finite, _⟩ := ofRatio?_eq_some x.isNegative
    (Nat.mul_pos x.magnitude_pos positive) (quotient ▸ bounded)
  exact ⟨y, by rw [overTen?, found]; exact scaled, finite⟩

/-- Down the powers of ten no double is lost. -/
theorem scaleByTen?_of_nonpos (finite : x.isFinite = true) (down : exponent ≤ 0) :
    ∃ y, x.scaleByTen? exponent = some y ∧ y.isFinite = true := by
  induction measured : exponent.natAbs using Nat.strongRecOn generalizing x exponent with
  | ind size ih =>
      rw [scaleByTen?]
      split
      · rename_i few
        split
        · obtain rfl : exponent = 0 := by omega
          exact timesTen?_zero finite
        · exact overTen?_eq_some finite few
      · rename_i many
        split
        · exact ⟨x, rfl, finite⟩
        · rw [if_neg (by rw [greatestTen] at many; omega)]
          obtain ⟨y, divided, finite⟩ := overTen?_eq_some finite (Nat.le_refl greatestTen)
          rw [divided]
          exact ih _ (by rw [greatestTen] at many ⊢; omega) finite
            (by rw [greatestTen] at many ⊢; omega) rfl

theorem limit_lt_ten : limit < 10 ^ (greatestTen + 1) := by
  have twos : (2 : ℚ) ^ (1024 : ℤ) = (2 ^ 128) ^ 8 := by
    rw [← pow_mul]
    rfl
  have tens : (10 : ℚ) ^ (greatestTen + 1) = (10 ^ 38) ^ 8 * 10 ^ 5 := by
    rw [← pow_mul, ← pow_add]
    rfl
  calc limit < 2 ^ (1024 : ℤ) := limit_lt
    _ ≤ (341 / 100 * 10 ^ 38) ^ 8 := by
      rw [twos]
      gcongr
      norm_num
    _ = (10 ^ 38) ^ 8 * (341 / 100) ^ 8 := by ring
    _ ≤ (10 ^ 38) ^ 8 * 10 ^ 5 := mul_le_mul_of_nonneg_left (by norm_num) (by positivity)
    _ = 10 ^ (greatestTen + 1) := tens.symm

/-- Two roundings, that of the digits and that of the power of ten, lead beyond no limit that the
exact product keeps away from. -/
theorem scaleByTen?_eq_some {size : ℚ} (finite : x.isFinite = true)
    (bounded : x.value ≤ size * (1 + 1 / 2 ^ 53)) (whole : x.significand ≠ 0 → 1 ≤ size)
    (small : size * 10 ^ exponent * (1 + 1 / 2 ^ 53) ^ 2 < limit) :
    ∃ y, x.scaleByTen? exponent = some y ∧ y.isFinite = true := by
  rcases le_or_gt exponent 0 with down | up
  · exact scaleByTen?_of_nonpos finite down
  obtain ⟨count, rfl⟩ := Int.eq_ofNat_of_zero_le up.le
  rw [zpow_natCast] at small
  rw [scaleByTen?, Int.natAbs_natCast, if_pos (Int.natCast_nonneg count),
    if_pos (Int.natCast_nonneg count)]
  split
  · rename_i few
    refine timesTen?_eq_some few ?_
    calc x.value * (10 ^ count * (1 + 1 / 2 ^ 53))
        ≤ size * (1 + 1 / 2 ^ 53) * (10 ^ count * (1 + 1 / 2 ^ 53)) := by gcongr
      _ = size * 10 ^ count * (1 + 1 / 2 ^ 53) ^ 2 := by ring
      _ < limit := small
  · rename_i many
    split
    · exact ⟨x, rfl, finite⟩
    · rename_i nonzero
      have one := whole nonzero
      -- So great a power of ten is beyond the limit by itself.
      have beyond : limit < size * 10 ^ count * (1 + 1 / 2 ^ 53) ^ 2 := by
        calc limit < 10 ^ (greatestTen + 1) := limit_lt_ten
          _ ≤ 10 ^ count := pow_le_pow_right₀ (by norm_num) (by omega)
          _ = 1 * 10 ^ count * 1 := by ring
          _ ≤ size * 10 ^ count * (1 + 1 / 2 ^ 53) ^ 2 := by
            gcongr
            norm_num
      exact absurd small beyond.not_gt

end Scaling

end CodeFirst.Binary64
