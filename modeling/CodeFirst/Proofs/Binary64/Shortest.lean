import CodeFirst.Binary64.Shortest
import CodeFirst.Proofs.Binary64.Rounding

/-! The shortest decimal of a double is half a step above it at most. Read with a rounding of its
digits and one of its power of ten, it is a finite double again but next to the greatest. -/
namespace CodeFirst

/-- The number that a decimal writes. -/
def Decimal.value (d : Decimal) : ℚ :=
  d.digits * 10 ^ d.exponent

namespace Binary64

variable {x : Binary64} {exponent : ℤ} {point : Nat}

theorem nearestEven_le_succ {num den : Nat} : nearestEven num den ≤ num / den + 1 := by
  simp only [nearestEven]
  split
  · exact Nat.le_succ _
  · split
    · exact Nat.le_refl _
    · omega

theorem le_of_rounds {even : Prop} [Decidable even] {low value high : Nat}
    (rounds : (if even then decide (low ≤ value) && decide (value ≤ high)
      else decide (low < value) && decide (value < high)) = true) : value ≤ high := by
  split at rounds
  · simp only [Bool.and_eq_true, decide_eq_true_eq] at rounds
    exact rounds.2
  · simp only [Bool.and_eq_true, decide_eq_true_eq] at rounds
    exact rounds.2.le

/-- A point of a grid that rounds to a double is half a step above it at most. -/
theorem gridPoint?_le (found : x.gridPoint? exponent = some point) :
    point * (Nat.pow 2 (2 - x.power).toNat * Nat.pow 10 exponent.toNat) ≤
      (4 * x.significand + 2) * (Nat.pow 2 (x.power - 2).toNat * Nat.pow 10 (-exponent).toNat) := by
  simp only [gridPoint?] at found
  split at found
  · rename_i _ above
    cases found
    exact (Nat.mul_le_mul_right _ nearestEven_le_succ).trans (le_of_rounds above)
  · rename_i below _
    cases found
    exact le_of_rounds below
  · rename_i _ above
    cases found
    exact le_of_rounds above
  · cases found

theorem value_gridPoint?_le (found : x.gridPoint? exponent = some point) :
    (point * 10 ^ exponent : ℚ) ≤ (x.significand + 1 / 2) * 2 ^ x.power := by
  have whole : (point * (2 ^ (2 - x.power).toNat * 10 ^ exponent.toNat) : ℚ) ≤
      (4 * x.significand + 2) * (2 ^ (x.power - 2).toNat * 10 ^ (-exponent).toNat) := by
    have := gridPoint?_le found
    rw [Nat.pow_eq, Nat.pow_eq, Nat.pow_eq, Nat.pow_eq] at this
    exact_mod_cast this
  have four : (2 : ℚ) ^ x.power = 4 * 2 ^ (x.power - 2) := by
    rw [zpow_sub₀ two_ne_zero, zpow_two]
    ring
  have opposite : (-(x.power - 2)).toNat = (2 - x.power).toNat := by omega
  rw [four, zpow_eq_div exponent, zpow_eq_div (x.power - 2), opposite]
  calc (point * (10 ^ exponent.toNat / 10 ^ (-exponent).toNat) : ℚ)
      = point * (2 ^ (2 - x.power).toNat * 10 ^ exponent.toNat) /
          (2 ^ (2 - x.power).toNat * 10 ^ (-exponent).toNat) := by field_simp
    _ ≤ (4 * x.significand + 2) * (2 ^ (x.power - 2).toNat * 10 ^ (-exponent).toNat) /
          (2 ^ (2 - x.power).toNat * 10 ^ (-exponent).toNat) := by gcongr
    _ = (x.significand + 1 / 2) *
          (4 * (2 ^ (x.power - 2).toNat / 2 ^ (2 - x.power).toNat)) := by
        field_simp
        ring

theorem value_shortest_le (x : Binary64) :
    x.shortest.value ≤ (x.significand + 1 / 2) * 2 ^ x.power := by
  have none : Decimal.value ⟨0, 0⟩ ≤ (x.significand + 1 / 2) * 2 ^ x.power := by
    rw [Decimal.value, Nat.cast_zero, zero_mul]
    positivity
  simp only [shortest]
  split
  · exact none
  · generalize decimalOrder _ _ = order
    generalize found : List.findSome? _ _ = decimal
    cases decimal with
    | none => exact none
    | some decimal =>
        obtain ⟨count, _, here⟩ := List.exists_of_findSome?_eq_some found
        obtain ⟨point, stands, rfl⟩ := Option.map_eq_some_iff.mp here
        exact value_gridPoint?_le stands

/-- Next to the greatest double, which is closer to the limit than two roundings may go. -/
def IsTop (x : Binary64) : Prop :=
  x.power = 971 ∧ 2 ^ 53 - 2 ≤ x.significand

theorem value_shortest_lt (finite : x.isFinite = true) (notTop : ¬ x.IsTop) :
    x.shortest.value * (1 + 1 / 2 ^ 53) ^ 2 < limit := by
  refine (mul_le_mul_of_nonneg_right x.value_shortest_le (by positivity)).trans_lt ?_
  -- Below the greatest exponent the limit is a whole order away, and with it two steps and a half.
  rcases (power_le finite).lt_or_eq with lower | top
  · have most : (x.significand : ℚ) + 1 / 2 ≤ 2 ^ 53 := by
      have whole : (x.significand : ℚ) + 1 ≤ 2 ^ 53 := by exact_mod_cast x.significand_lt
      linarith
    have power : (2 : ℚ) ^ x.power ≤ 2 ^ (970 : ℤ) :=
      zpow_le_zpow_right₀ one_le_two (by omega)
    have half : (2 : ℚ) ^ (971 : ℤ) = 2 * 2 ^ (970 : ℤ) := by
      rw [← zpow_one_add₀ two_ne_zero]
      rfl
    calc (x.significand + 1 / 2) * (2 : ℚ) ^ x.power * (1 + 1 / 2 ^ 53) ^ 2
        ≤ 2 ^ 53 * 2 ^ (970 : ℤ) * (1 + 1 / 2 ^ 53) ^ 2 := by
          gcongr
      _ = 2 ^ (970 : ℤ) * (2 ^ 53 * (1 + 1 / 2 ^ 53) ^ 2) := by ring
      _ < 2 ^ (970 : ℤ) * ((2 ^ 53 - 1 / 2) * 2) :=
          mul_lt_mul_of_pos_left (by norm_num) (by positivity)
      _ = limit := by
          rw [limit, half]
          ring
  · have most : (x.significand : ℚ) + 1 / 2 ≤ 2 ^ 53 - 5 / 2 := by
      have less : x.significand + 3 ≤ 2 ^ 53 := by
        have := not_and.mp notTop top
        omega
      have whole : (x.significand : ℚ) + 3 ≤ 2 ^ 53 := by exact_mod_cast less
      linarith
    calc (x.significand + 1 / 2) * (2 : ℚ) ^ x.power * (1 + 1 / 2 ^ 53) ^ 2
        ≤ (2 ^ 53 - 5 / 2) * 2 ^ (971 : ℤ) * (1 + 1 / 2 ^ 53) ^ 2 := by
          rw [top]
          gcongr
      _ = (2 ^ 53 - 5 / 2) * (1 + 1 / 2 ^ 53) ^ 2 * 2 ^ (971 : ℤ) := by ring
      _ < limit := mul_lt_mul_of_pos_right (by norm_num) (by positivity)

/-- There are two such magnitudes, under either sign. -/
theorem IsTop.eq (top : x.IsTop) :
    x = ⟨0x7FEFFFFFFFFFFFFE⟩ ∨ x = ⟨0x7FEFFFFFFFFFFFFF⟩ ∨
      x = ⟨0xFFEFFFFFFFFFFFFE⟩ ∨ x = ⟨0xFFEFFFFFFFFFFFFF⟩ := by
  obtain ⟨power, significand⟩ := top
  obtain ⟨bits⟩ := x
  have word := bits.toNat_lt
  rw [Binary64.power] at power
  rw [Binary64.significand, Nat.pow_eq] at significand
  split at power
  · cases power
  · rename_i normal
    rw [if_neg normal] at significand
    simp only [Binary64.exponent, Binary64.fraction, Nat.pow_eq] at power significand
    simp only [Binary64.mk.injEq, ← UInt64.toNat_inj, UInt64.reduceToNat]
    omega

end Binary64

end CodeFirst
