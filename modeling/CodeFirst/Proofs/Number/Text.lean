import CodeFirst.Proofs.Binary64.Shortest
import CodeFirst.Proofs.Number.Numeral
import Mathlib.Data.List.TakeWhile

/-! The text of a number is a numeral, and is read back as a number: an integer as itself, a finite
double as a finite double. -/
namespace CodeFirst
namespace Numeral

variable {n : Numeral} {digits : List Char} {start : Nat}

theorem leading_lt (small : start < 2 ^ 64) : (leading start digits).1 < 2 ^ 64 := by
  fun_induction leading start digits with
  | case1 => exact small
  | case2 start c rest next less ih => exact ih less
  | case3 => exact small

/-- Some of the digits count, from the first on, and the others are left. -/
theorem leading_spec (start : Nat) (digits : List Char) :
    ∃ used, digits = used ++ (leading start digits).2 ∧
      (leading start digits).1 = start * 10 ^ used.length + digitsValue used := by
  fun_induction leading start digits with
  | case1 start => exact ⟨[], rfl, by simp [digitsValue]⟩
  | case2 start c rest next less ih =>
      obtain ⟨used, parts, value⟩ := ih
      refine ⟨c :: used, congrArg (c :: ·) parts, ?_⟩
      have first := digitsValue_append [c] used
      rw [List.singleton_append] at first
      rw [value, first, List.length_cons, Nat.pow_succ]
      simp only [next, digitsValue, List.foldl_cons, List.foldl_nil]
      ring
  | case3 start c rest => exact ⟨[], rfl, by simp [digitsValue]⟩

/-- The number that the digits which count write, and the power of ten that is left for them. -/
def taken (n : Numeral) : Nat × Int :=
  let whole := leading 0 n.whole
  let all := leading whole.1 n.fraction
  (all.1, n.exponent.getD 0 + whole.2.length - ((n.fraction.length : Int) - all.2.length))

theorem double?_eq (n : Numeral) :
    n.double? = (Binary64.ofRatio? n.negative n.taken.1 1).bind (·.scaleByTen? n.taken.2) := rfl

theorem taken_lt (n : Numeral) : n.taken.1 < 2 ^ 64 :=
  leading_lt (leading_lt (by decide))

theorem taken_le (n : Numeral) : n.taken.2 ≤ n.exponent.getD 0 + n.whole.length := by
  obtain ⟨used, whole, _⟩ := leading_spec 0 n.whole
  obtain ⟨more, fraction, _⟩ := leading_spec (leading 0 n.whole).1 n.fraction
  have wholeLength := congrArg List.length whole
  have fractionLength := congrArg List.length fraction
  rw [List.length_append] at wholeLength fractionLength
  simp only [taken]
  omega

/-- A numeral that stays away from the limit has a double. -/
theorem double?_eq_some
    (small : (n.taken.1 * 10 ^ n.taken.2 * (1 + 1 / 2 ^ 53) ^ 2 : ℚ) < Binary64.limit) :
    ∃ y, n.double? = some y ∧ y.isFinite = true := by
  rw [double?_eq]
  rcases Nat.eq_zero_or_pos n.taken.1 with none | positive
  · have zero := Binary64.significand_zero n.negative
    have start : Binary64.ofRatio? n.negative 0 1 = some (Binary64.ofCode n.negative 0) := rfl
    rw [none] at small
    rw [none, start]
    refine Binary64.scaleByTen?_eq_some (Binary64.isFinite_ofCode (by decide)) ?_ ?_ small
    · rw [Binary64.value, zero, Nat.cast_zero, zero_mul, zero_mul]
    · exact fun nonzero => absurd zero nonzero
  · have fits : (n.taken.1 : ℚ) < Binary64.limit := by
      have word : (n.taken.1 : ℚ) < 2 ^ 64 := by exact_mod_cast n.taken_lt
      calc (n.taken.1 : ℚ) < 2 ^ 64 := word
        _ ≤ 10 ^ 20 := by norm_num
        _ < Binary64.limit := Binary64.ten_lt_limit (by decide)
    have whole : ((n.taken.1 : ℚ) / (1 : Nat)) = n.taken.1 := by simp
    have one : (1 : ℚ) ≤ n.taken.1 := by exact_mod_cast positive
    obtain ⟨start, found, finite, bounds⟩ :=
      Binary64.ofRatio?_eq_some n.negative Nat.one_pos (whole ▸ fits)
    rw [whole] at bounds
    rw [found]
    exact Binary64.scaleByTen?_eq_some finite (bounds one).2 (fun _ => one) small

/-- So does a numeral with few digits before the point and no power of ten. -/
theorem double?_of_few (few : n.exponent.getD 0 + n.whole.length ≤ 16) :
    ∃ y, n.double? = some y ∧ y.isFinite = true := by
  apply double?_eq_some
  have word : (n.taken.1 : ℚ) ≤ 10 ^ 20 := by
    have : (n.taken.1 : ℚ) < 2 ^ 64 := by exact_mod_cast n.taken_lt
    linarith
  have power : (10 : ℚ) ^ n.taken.2 ≤ 10 ^ (16 : ℤ) :=
    zpow_le_zpow_right₀ (by norm_num) (n.taken_le.trans few)
  calc (n.taken.1 * 10 ^ n.taken.2 * (1 + 1 / 2 ^ 53) ^ 2 : ℚ)
      ≤ 10 ^ 20 * 10 ^ (16 : ℤ) * (1 + 1 / 2 ^ 53) ^ 2 := by gcongr
    _ ≤ 10 ^ 37 := by norm_num
    _ < Binary64.limit := Binary64.ten_lt_limit (by decide)

end Numeral

namespace DecimalLayout

variable {digits : Nat}

/-- The digits that are written are the first ones of the decimal. -/
theorem significantDigits_spec (positive : 0 < digits) :
    ∃ first used post, significantDigits digits = first :: used ∧ first ≠ '0' ∧
      Nat.toDigits 10 digits = first :: used ++ post := by
  have lead := head?_toDigits positive
  obtain ⟨first, rest, all⟩ := List.exists_cons_of_ne_nil (@Nat.toDigits_ne_nil digits 10)
  rw [all] at lead
  have front : ((first :: rest).reverse.dropWhile (· == '0')).reverse <+: first :: rest := by
    have := List.reverse_prefix.mpr (List.dropWhile_suffix (· == '0') (l := (first :: rest).reverse))
    rwa [List.reverse_reverse] at this
  rw [significantDigits, all]
  split
  · rename_i none
    rw [List.reverse_eq_nil_iff, List.dropWhile_eq_nil_iff] at none
    have zero := none first (List.mem_reverse.mpr List.mem_cons_self)
    exact absurd (congrArg some (eq_of_beq zero)) lead
  · rename_i kept other
    generalize ((first :: rest).reverse.dropWhile (· == '0')).reverse = shown at front other ⊢
    cases shown with
    | nil => exact absurd rfl other
    | cons digit used =>
        obtain ⟨post, same⟩ := front
        refine ⟨digit, used, post, rfl, ?_, same.symm⟩
        rintro rfl
        exact lead (congrArg some (List.cons.inj same).1.symm)

end DecimalLayout

/-- The numeral that is written for a decimal, and what is known of it: it is no integer, and it has
few digits before the point or writes no more than the decimal. -/
structure Writes (negative : Bool) (text : List Char) (size : ℚ) (n : Numeral) : Prop where
  proper : n.Proper
  text : n.written = (if negative then ['-'] else []) ++ text
  real : n.fraction ≠ [] ∨ n.exponent ≠ none
  size : n.exponent.getD 0 + n.whole.length ≤ 16 ∨ (n.taken.1 * 10 ^ n.taken.2 : ℚ) ≤ size

namespace DecimalLayout

variable {layout : DecimalLayout} {first : Char} {used post : List Char} {size : ℚ} {order : ℤ}

theorem isDigit_zeros {count : Nat} : ∀ c ∈ zeros count, isDigit c = true := by
  intro c member
  rw [List.eq_of_mem_replicate member]
  rfl

theorem writes_zero (negative : Bool) :
    Writes negative ['0', '.', '0'] size ⟨negative, ['0'], ['0'], none⟩ := by
  constructor
  case proper => exact ⟨by simp, by simp [isDigit], Or.inl rfl, by simp [isDigit]⟩
  case text => rfl
  case real => exact Or.inl (by simp)
  case size => exact Or.inl (by simp)

theorem writtenFraction_of_ne_nil {digits : List Char} (some : digits ≠ []) :
    Numeral.writtenFraction digits = '.' :: digits := by
  cases digits with
  | nil => exact absurd rfl some
  | cons digit rest => rfl

/-- Below one, all digits stand behind the point. -/
theorem writes_below_one (negative : Bool) {count : Nat}
    (digits : ∀ c ∈ first :: used, isDigit c = true) :
    Writes negative ('0' :: '.' :: zeros count ++ first :: used) size
      ⟨negative, ['0'], zeros count ++ first :: used, none⟩ := by
  have some : zeros count ++ first :: used ≠ [] := by simp
  constructor
  case proper =>
    refine ⟨by simp, by simp [isDigit], Or.inl rfl, ?_⟩
    exact List.forall_mem_append.mpr ⟨isDigit_zeros, digits⟩
  case text =>
    simp only [Numeral.written, Numeral.writtenPower, writtenFraction_of_ne_nil some,
      List.append_nil, List.cons_append, List.nil_append]
  case real => exact Or.inl some
  case size => exact Or.inl (by simp)

/-- From one on, the digits in front of the point are filled up with zeros. -/
theorem writes_above_one (negative : Bool) (nonzero : first ≠ '0') {count : Nat}
    {fraction : List Char} (digits : ∀ c ∈ first :: used, isDigit c = true)
    (some : fraction ≠ []) (all : ∀ c ∈ fraction, isDigit c = true)
    (few : (first :: used).length + count ≤ 16) :
    Writes negative (first :: used ++ zeros count ++ '.' :: fraction) size
      ⟨negative, first :: used ++ zeros count, fraction, none⟩ := by
  constructor
  case proper =>
    refine ⟨by simp, ?_, Or.inr (by simpa using nonzero), all⟩
    exact List.forall_mem_append.mpr ⟨digits, isDigit_zeros⟩
  case text =>
    simp only [Numeral.written, Numeral.writtenPower, writtenFraction_of_ne_nil some,
      List.append_nil]
  case real => exact Or.inl some
  case size =>
    refine Or.inl ?_
    rw [zeros, List.length_append, List.length_replicate, Option.getD_none]
    omega

theorem exists_writes_positional (negative : Bool) (nonzero : first ≠ '0')
    (digits : ∀ c ∈ first :: used, isDigit c = true) (few : order ≤ 15) :
    ∃ n, Writes negative (positional (first :: used) order) size n := by
  rw [positional]
  split
  · exact ⟨_, writes_below_one negative digits⟩
  · have front : (first :: used).take (order.toNat + 1) = first :: used.take order.toNat := rfl
    have behind : (first :: used).drop (order.toNat + 1) = used.drop order.toNat := rfl
    have taken : ∀ c ∈ first :: used.take order.toNat, isDigit c = true :=
      fun c member => digits c (List.mem_of_mem_take (front ▸ member))
    have short : (first :: used.take order.toNat).length ≤ order.toNat + 1 := by
      rw [← front]
      exact List.length_take_le _ _
    simp only [front, behind]
    split
    · exact ⟨_, writes_above_one negative nonzero taken (by simp) (by simp [isDigit]) (by omega)⟩
    · refine ⟨_, writes_above_one negative nonzero taken ‹_› (fun c member => ?_) (by omega)⟩
      exact digits c (List.mem_cons_of_mem _ (List.mem_of_mem_drop member))

theorem digitValue_lt {c : Char} (digit : isDigit c = true) : digitValue c < 10 := by
  have most := toNat_le_of_isDigit digit
  have zero : '0'.toNat = 48 := rfl
  rw [digitValue, zero]
  omega

/-- Of one digit, some behind it and more that are not written, no more is taken than they are. -/
theorem taken_le_scientific (negative : Bool) (digit : isDigit first = true) :
    ((Numeral.taken ⟨negative, [first], used, some order⟩).1 *
        10 ^ (Numeral.taken ⟨negative, [first], used, some order⟩).2 : ℚ) ≤
      digitsValue (first :: used ++ post) * 10 ^ (order - used.length - post.length) := by
  have lead : Numeral.leading 0 [first] = (digitValue first, []) := by
    have := digitValue_lt digit
    rw [Numeral.leading, Numeral.leading, Nat.zero_mul, Nat.zero_add, if_pos (by omega)]
  obtain ⟨counted, parts, value⟩ := Numeral.leading_spec (digitValue first) used
  have size := congrArg List.length parts
  simp only [Numeral.taken, lead, Option.getD_some, List.length_nil]
  -- Digits that do not fit are dropped for a power of ten, which can only lower the number.
  generalize (Numeral.leading (digitValue first) used).1 = kept at value ⊢
  generalize (Numeral.leading (digitValue first) used).2 = rest at parts size ⊢
  have front : digitsValue (first :: counted) = kept := by
    rw [← List.singleton_append, digitsValue_append, value]
    simp only [digitsValue, List.foldl_cons, List.foldl_nil, Nat.zero_mul, Nat.zero_add]
  have all : digitsValue (first :: used ++ post) =
      kept * 10 ^ (rest ++ post).length + digitsValue (rest ++ post) := by
    rw [← front, ← digitsValue_append, parts, List.cons_append, List.cons_append,
      List.append_assoc]
  have power : order + (0 : Nat) - ((used.length : ℤ) - rest.length) =
      (rest ++ post).length + (order - used.length - post.length) := by
    rw [List.length_append]
    omega
  rw [all, power, zpow_add₀ (by norm_num), zpow_natCast, ← mul_assoc]
  push_cast
  gcongr
  exact le_add_of_nonneg_right (by positivity)

theorem writes_scientific (negative : Bool) (nonzero : first ≠ '0')
    (digits : ∀ c ∈ first :: used, isDigit c = true) :
    Writes negative (scientific (first :: used) order)
      (digitsValue (first :: used ++ post) * 10 ^ (order - used.length - post.length))
      ⟨negative, [first], used, some order⟩ := by
  obtain ⟨digit, others⟩ := List.forall_mem_cons.mp digits
  constructor
  case proper => exact ⟨by simp, by simpa using digit, Or.inr (by simpa using nonzero), others⟩
  case text =>
    cases used with
    | nil =>
      simp only [scientific, Numeral.written, Numeral.writtenPower, Numeral.writtenFraction]
      rfl
    | cons second rest =>
      simp only [scientific, Numeral.written, Numeral.writtenPower, Numeral.writtenFraction]
      rfl
  case real => exact Or.inr (by simp)
  case size => exact Or.inr (taken_le_scientific negative digit)

theorem exists_writes (layout : DecimalLayout) (greatest : layout.greatest ≤ 15) (negative : Bool)
    (d : Decimal) : ∃ n, Writes negative (layout.render d) d.value n := by
  rw [render]
  split
  · exact ⟨_, writes_zero negative⟩
  · rename_i nonzero
    obtain ⟨first, used, post, shown, other, all⟩ :=
      significantDigits_spec (Nat.pos_of_ne_zero nonzero)
    have digits : ∀ c ∈ first :: used, isDigit c = true := fun c member =>
      @isDigit_toDigits d.digits c (all ▸ List.mem_append_left _ member)
    rw [shown]
    split
    · rename_i between
      exact exists_writes_positional negative other digits (between.2.trans greatest)
    · have whole : digitsValue (first :: used ++ post) = d.digits := by
        rw [← all, digitsValue_toDigits]
      have power : d.exponent + (Nat.toDigits 10 d.digits).length - 1 - used.length - post.length =
          d.exponent := by
        rw [all, List.length_append, List.length_cons]
        omega
      have writes := @writes_scientific first used post
        (d.exponent + (Nat.toDigits 10 d.digits).length - 1) negative other digits
      rw [whole, power] at writes
      exact ⟨_, writes⟩

end DecimalLayout

/-- What a number is read back as: an integer as itself, a finite double as one that may differ in
the last places. -/
def Number.Reread : Number → Number → Prop
  | .integer value fits, read => read = .integer value fits
  | .double .., read => ∃ value finite, read = .double value finite

theorem Writes.double? {negative : Bool} {text : List Char} {size : ℚ} {n : Numeral}
    (writes : Writes negative text size n)
    (small : size * (1 + 1 / 2 ^ 53) ^ 2 < Binary64.limit) :
    ∃ y, n.double? = some y ∧ y.isFinite = true := by
  rcases writes.size with few | less
  · exact Numeral.double?_of_few few
  · exact Numeral.double?_eq_some ((mul_le_mul_of_nonneg_right less (by positivity)).trans_lt small)

namespace Number

theorem double?_of_isTop {x : Binary64} (top : x.IsTop) :
    ((Numeral.scan? x.text.toList).bind fun found => found.1.double?).any (·.isFinite) := by
  rcases top.eq with rfl | rfl | rfl | rfl <;> decide +kernel

/-- The text of an integer is a numeral that has this integer. -/
theorem integer_read (value : Int) (fits : FitsWord value) :
    ∃ n : Numeral, n.Proper ∧ integerText value = n.written ∧
      n.number? = some (.integer value fits) := by
  have size := digitsValue_toDigits value.natAbs
  refine ⟨⟨value < 0, Nat.toDigits 10 value.natAbs, [], none⟩, ?_, ?_, ?_⟩
  · refine ⟨Nat.toDigits_ne_nil, fun _ => isDigit_toDigits _, ?_, by simp⟩
    rcases Nat.eq_zero_or_pos value.natAbs with zero | positive
    · exact Or.inl (by rw [zero, Nat.toDigits_zero])
    · exact Or.inr (head?_toDigits positive)
  · rw [integerText, Numeral.written]
    split
    · simp [Numeral.writtenFraction, Numeral.writtenPower, *]
    · simp [Numeral.writtenFraction, Numeral.writtenPower, *]
  · have same : (if decide (value < 0) = true then -(value.natAbs : Int) else value.natAbs) =
        value := by
      simp only [decide_eq_true_eq]
      split
      · omega
      · omega
    have notMinusZero : (decide (value < 0) && (value.natAbs : Int) == 0) = false := by
      simp only [Bool.and_eq_false_iff, decide_eq_false_iff_not, beq_eq_false_iff_ne]
      omega
    simp only [Numeral.number?, size, same, notMinusZero, fits, and_self, if_true, ofInt?, dif_pos]

/-- The text of a finite double is a numeral that has a finite double. -/
theorem double_read (value : Binary64) (finite : value.isFinite = true) :
    ∃ n : Numeral, n.Proper ∧ value.text.toList = n.written ∧
      ∃ read isFinite, n.number? = some (.double read isFinite) := by
  obtain ⟨n, writes⟩ := Binary64.layout.exists_writes (Int.le_refl _) value.isNegative value.shortest
  have text : value.text.toList = n.written := by
    rw [Binary64.text, String.toList_ofList, writes.text]
  have reads : ∃ read, n.double? = some read ∧ read.isFinite = true := by
    by_cases top : value.IsTop
    · have scanned := @Numeral.scan?_written n [] writes.proper nofun
      have known := double?_of_isTop top
      rw [text, ← List.append_nil n.written, scanned] at known
      exact (Option.any_eq_true _ _).mp known
    · exact writes.double? (Binary64.value_shortest_lt finite top)
  obtain ⟨read, found, isFinite⟩ := reads
  refine ⟨n, writes.proper, text, read, isFinite, ?_⟩
  rw [Numeral.number?, if_neg]
  · rw [found, Option.bind_some, ofDouble?, dif_pos isFinite]
  · rintro ⟨none, whole, _⟩
    exact writes.real.elim (absurd none) (absurd whole)

/-- The text of a number is a numeral that is read back as it should. -/
theorem text_read (number : Number) :
    ∃ n : Numeral, n.Proper ∧ number.text.toList = n.written ∧
      ∃ read, n.number? = some read ∧ number.Reread read := by
  cases number with
  | integer value fits =>
      obtain ⟨n, proper, text, read⟩ := integer_read value fits
      refine ⟨n, proper, ?_, _, read, rfl⟩
      rw [Number.text, String.toList_ofList, text]
  | double value finite =>
      obtain ⟨n, proper, text, read, isFinite, found⟩ := double_read value finite
      exact ⟨n, proper, text, _, found, read, isFinite, rfl⟩

end Number

end CodeFirst
