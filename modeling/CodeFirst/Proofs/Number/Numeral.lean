import CodeFirst.Number
import CodeFirst.Proofs.Variables.Tokens
import Mathlib.Data.List.Basic
import Mathlib.Tactic.IntervalCases

/-! Numerals as they are spelled. A numeral is read back, whole and no further, from any text that no
number goes on with, and what is read was spelled there. -/
namespace CodeFirst

section Digits

variable {n : Nat}

theorem digitsValue_eq (digits : List Char) : digitsValue digits = Nat.ofDigitChars 10 digits 0 := by
  rw [Nat.ofDigitChars_eq_foldl]
  simp only [digitsValue, digitValue, Nat.mul_comm]

theorem digitsValue_toDigits (n : Nat) : digitsValue (Nat.toDigits 10 n) = n := by
  rw [digitsValue_eq, Nat.ofDigitChars_ten_toDigits]

theorem digitsValue_append (digits more : List Char) :
    digitsValue (digits ++ more) = digitsValue digits * 10 ^ more.length + digitsValue more := by
  rw [digitsValue_eq, digitsValue_eq, digitsValue_eq, Nat.ofDigitChars_append,
    Nat.ofDigitChars_eq_ofDigitChars_zero, Nat.mul_comm]

theorem isDigit_toDigits : ∀ c ∈ Nat.toDigits 10 n, isDigit c = true := by
  intro c member
  exact Nat.isDigit_of_mem_toDigits (by decide) (by decide) member

theorem toNat_le_of_isDigit {c : Char} (digit : isDigit c = true) : c.toNat ≤ 57 := by
  simp only [isDigit, Bool.and_eq_true, decide_eq_true_eq] at digit
  exact digit.2

/-- Digits of a number do not begin with zero, but for zero itself. -/
theorem head?_toDigits (positive : 0 < n) : (Nat.toDigits 10 n).head? ≠ some '0' := by
  induction n using Nat.strongRecOn with
  | ind n ih =>
      rw [Nat.toDigits_eq_if (by decide)]
      split
      · rename_i small
        interval_cases n <;> decide
      · rename_i large
        rw [List.head?_append, Option.or_of_isSome (by simp)]
        exact ih (n / 10) (by omega) (by omega)

end Digits

namespace Numeral

/-- No number goes on with this text. -/
def EndsNumber (text : List Char) : Prop :=
  ∀ c ∈ text.head?, isDigit c = false ∧ c ≠ '.' ∧ c ≠ 'e' ∧ c ≠ 'E'

/-- A lone zero, or digits that do not begin with zero; behind them any digits. -/
structure Proper (n : Numeral) : Prop where
  nonempty : n.whole ≠ []
  whole : ∀ c ∈ n.whole, isDigit c = true
  lead : n.whole = ['0'] ∨ n.whole.head? ≠ some '0'
  fraction : ∀ c ∈ n.fraction, isDigit c = true

def writtenFraction : List Char → List Char
  | [] => []
  | digits => '.' :: digits

def writtenPower : Option Int → List Char
  | none => []
  | some power => 'e' :: (if power < 0 then '-' else '+') :: Nat.toDigits 10 power.natAbs

/-- How a power of ten may stand behind a number: behind `e` or `E`, with or without a sign. -/
inductive SpellsPower : Option Int → List Char → Prop
  | absent : SpellsPower none []
  | present {mark : Char} {sign digits : List Char} : mark = 'e' ∨ mark = 'E' →
      sign ∈ [[], ['+'], ['-']] → digits ≠ [] → (∀ c ∈ digits, isDigit c = true) →
      SpellsPower
        (some (if sign = ['-'] then -(digitsValue digits : Int) else digitsValue digits))
        (mark :: (sign ++ digits))

/-- The text of a numeral with this text for its power of ten. -/
def spelling (n : Numeral) (power : List Char) : List Char :=
  (if n.negative then ['-'] else []) ++ (n.whole ++ (writtenFraction n.fraction ++ power))

/-- A numeral may be written so. -/
def Spells (n : Numeral) (text : List Char) : Prop :=
  n.Proper ∧ ∃ power, SpellsPower n.exponent power ∧ text = n.spelling power

/-- The text of a numeral, with the sign of its power of ten. -/
def written (n : Numeral) : List Char :=
  (if n.negative then ['-'] else []) ++
    (n.whole ++ (writtenFraction n.fraction ++ writtenPower n.exponent))

variable {n : Numeral} {digits rest power text : List Char} {exponent : Option Int}

theorem spellsPower_written (exponent : Option Int) :
    SpellsPower exponent (writtenPower exponent) := by
  cases exponent with
  | none => exact .absent
  | some size =>
      have digits := digitsValue_toDigits size.natAbs
      have spells := fun sign member => @SpellsPower.present 'e' sign _ (Or.inl rfl) member
        (@Nat.toDigits_ne_nil size.natAbs 10) isDigit_toDigits
      rw [digits] at spells
      by_cases down : size < 0
      · have same : -(size.natAbs : Int) = size := by omega
        have negative := spells ['-'] (by decide)
        rw [if_pos rfl, same] at negative
        rwa [writtenPower, if_pos down]
      · have same : (size.natAbs : Int) = size := by omega
        have positive := spells ['+'] (by decide)
        rw [if_neg (by decide), same] at positive
        rwa [writtenPower, if_neg down]

theorem spells_written (proper : n.Proper) : n.Spells n.written :=
  ⟨proper, _, spellsPower_written n.exponent, rfl⟩

/-- A numeral begins with its sign or with a digit. -/
theorem Spells.exists_cons (spells : n.Spells text) :
    ∃ c rest, text = c :: rest ∧ (c = '-' ∨ isDigit c = true) := by
  obtain ⟨proper, power, _, rfl⟩ := spells
  obtain ⟨first, digits, whole⟩ := List.exists_cons_of_ne_nil proper.nonempty
  rw [spelling, whole]
  split
  · exact ⟨_, _, rfl, Or.inl rfl⟩
  · exact ⟨_, _, rfl, Or.inr (proper.whole first (whole ▸ List.mem_cons_self))⟩

theorem scanExponent_spelled (spells : SpellsPower exponent power) (ends : EndsNumber rest) :
    scanExponent (power ++ rest) = (exponent, rest) := by
  cases spells with
  | absent =>
      cases rest with
      | nil => rfl
      | cons c rest =>
          obtain ⟨_, _, small, large⟩ := ends c rfl
          exact if_neg (not_or.mpr ⟨small, large⟩)
  | @present mark sign digits isMark isSign nonempty all =>
      have stops : ∀ c ∈ rest.head?, isDigit c = false := fun c first => (ends c first).1
      have taken := Variables.takeWhile_append_of_ends all stops
      have left := Variables.dropWhile_append_of_ends all stops
      obtain ⟨first, digits, rfl⟩ := List.exists_cons_of_ne_nil nonempty
      rw [List.cons_append] at taken left
      have digit := (List.forall_mem_cons.mp all).1
      have noMinus : first ≠ '-' := by
        rintro rfl
        cases digit
      have noPlus : first ≠ '+' := by
        rintro rfl
        cases digit
      simp only [List.mem_cons, List.not_mem_nil, or_false] at isSign
      rcases isSign with rfl | rfl | rfl
      · simp [scanExponent, isMark, noMinus, noPlus, taken, left]
      · simp [scanExponent, isMark, taken, left]
      · simp [scanExponent, isMark, taken, left]

theorem head_spelled (spells : SpellsPower exponent power) (ends : EndsNumber rest) :
    ∀ c ∈ (power ++ rest).head?, isDigit c = false ∧ c ≠ '.' := by
  cases spells with
  | absent => exact fun c first => ⟨(ends c first).1, (ends c first).2.1⟩
  | present isMark =>
      rcases isMark with rfl | rfl
      · rintro c ⟨⟩
        decide
      · rintro c ⟨⟩
        decide

theorem scanFraction_written (all : ∀ c ∈ digits, isDigit c = true)
    (ends : ∀ c ∈ rest.head?, isDigit c = false ∧ c ≠ '.') :
    scanFraction (writtenFraction digits ++ rest) = (digits, rest) := by
  cases digits with
  | nil =>
      rw [writtenFraction, List.nil_append, scanFraction]
      rintro behind rfl
      exact (ends '.' rfl).2 rfl
  | cons first digits =>
      have stops : ∀ c ∈ rest.head?, isDigit c = false := fun c first => (ends c first).1
      have taken := Variables.takeWhile_append_of_ends all stops
      have left := Variables.dropWhile_append_of_ends all stops
      rw [List.cons_append] at taken left
      simp only [writtenFraction, List.cons_append, scanFraction, taken, left]

theorem scanWhole?_written (proper : n.Proper) (ends : ∀ c ∈ rest.head?, isDigit c = false) :
    scanWhole? (n.whole ++ rest) = some (n.whole, rest) := by
  obtain ⟨nonempty, all, lead, _⟩ := proper
  generalize n.whole = whole at *
  cases whole with
  | nil => exact absurd rfl nonempty
  | cons first digits =>
      rw [List.cons_append, scanWhole?]
      split
      · subst first
        rcases lead with one | other
        · cases one
          rfl
        · exact absurd rfl other
      · obtain ⟨digit, others⟩ := List.forall_mem_cons.mp all
        rw [if_pos digit, Variables.takeWhile_append_of_ends others ends,
          Variables.dropWhile_append_of_ends others ends]

theorem scan?_signed (negative : Bool) {unsigned : List Char}
    (plain : ∀ c ∈ unsigned.head?, c ≠ '-') :
    scan? ((if negative then ['-'] else []) ++ unsigned) =
      (scanWhole? unsigned).bind fun found =>
        let fraction := scanFraction found.2
        let power := scanExponent fraction.2
        some (⟨negative, found.1, fraction.1, power.1⟩, power.2) := by
  cases negative with
  | true => rfl
  | false =>
      rw [if_neg Bool.false_ne_true, List.nil_append, scan?]
      · rfl
      · rintro rest rfl
        exact plain '-' rfl rfl

/-- A numeral is read back from any text that no number goes on with. -/
theorem Spells.scan? (spells : n.Spells text) (ends : EndsNumber rest) :
    scan? (text ++ rest) = some (n, rest) := by
  obtain ⟨proper, power, spellsPower, rfl⟩ := spells
  have behind := head_spelled spellsPower ends
  have fraction := scanFraction_written proper.fraction behind
  have stops : ∀ c ∈ (writtenFraction n.fraction ++ (power ++ rest)).head?, isDigit c = false := by
    cases n.fraction with
    | nil => exact fun c first => (behind c first).1
    | cons digit digits =>
        rintro c ⟨⟩
        rfl
  have plain : ∀ c ∈ (n.whole ++ (writtenFraction n.fraction ++ (power ++ rest))).head?,
      c ≠ '-' := by
    obtain ⟨first, digits, whole⟩ := List.exists_cons_of_ne_nil proper.nonempty
    have digit := proper.whole
    rw [whole] at digit ⊢
    rintro c ⟨⟩ rfl
    cases (List.forall_mem_cons.mp digit).1
  rw [spelling, List.append_assoc, List.append_assoc, List.append_assoc, scan?_signed _ plain,
    scanWhole?_written proper stops, Option.bind_some]
  simp only [fraction, scanExponent_spelled spellsPower ends]

theorem scan?_written (proper : n.Proper) (ends : EndsNumber rest) :
    Numeral.scan? (n.written ++ rest) = some (n, rest) :=
  (spells_written proper).scan? ends

theorem isDigit_takeWhile : ∀ c ∈ digits.takeWhile isDigit, isDigit c = true :=
  List.all_eq_true.mp List.all_takeWhile

theorem whole_of_scanWhole? (scanned : scanWhole? text = some (digits, rest)) :
    text = digits ++ rest ∧ digits ≠ [] ∧ (∀ c ∈ digits, isDigit c = true) ∧
      (digits = ['0'] ∨ digits.head? ≠ some '0') := by
  unfold scanWhole? at scanned
  split at scanned
  · cases scanned
  · rename_i first tail
    split at scanned
    · rename_i zero
      cases scanned
      subst zero
      exact ⟨rfl, by simp, List.forall_mem_singleton.mpr rfl, Or.inl rfl⟩
    · rename_i nonzero
      split at scanned
      · rename_i digit
        cases scanned
        refine ⟨?_, by simp, List.forall_mem_cons.mpr ⟨digit, isDigit_takeWhile⟩, Or.inr ?_⟩
        · rw [List.cons_append, List.takeWhile_append_dropWhile]
        · rintro ⟨⟩
          exact nonzero rfl
      · cases scanned

theorem fraction_of_scanFraction (text : List Char) :
    text = writtenFraction (scanFraction text).1 ++ (scanFraction text).2 ∧
      ∀ c ∈ (scanFraction text).1, isDigit c = true := by
  unfold scanFraction
  split
  · rename_i tail
    have whole := @List.takeWhile_append_dropWhile _ isDigit tail
    have all := @isDigit_takeWhile tail
    cases taken : tail.takeWhile isDigit with
    | nil => exact ⟨rfl, by simp⟩
    | cons digit digits =>
        rw [taken] at whole all
        exact ⟨congrArg ('.' :: ·) whole.symm, all⟩
  · exact ⟨rfl, by simp⟩

theorem power_of_scanExponent (text : List Char) :
    ∃ power, SpellsPower (scanExponent text).1 power ∧ text = power ++ (scanExponent text).2 := by
  unfold scanExponent
  split
  · exact ⟨[], .absent, rfl⟩
  · rename_i mark tail
    split
    · rename_i isMark
      split
      rename_i negative digits signed
      have parts : ∃ sign ∈ [[], ['+'], ['-']], tail = sign ++ digits ∧
          negative = decide (sign = ['-']) := by
        split at signed
        · cases signed
          exact ⟨['-'], by decide, rfl, rfl⟩
        · cases signed
          exact ⟨['+'], by decide, rfl, rfl⟩
        · cases signed
          exact ⟨[], by decide, rfl, rfl⟩
      clear signed
      obtain ⟨sign, isSign, rfl, rfl⟩ := parts
      have whole := @List.takeWhile_append_dropWhile _ isDigit digits
      have all := @isDigit_takeWhile digits
      cases taken : digits.takeWhile isDigit with
      | nil => exact ⟨[], .absent, rfl⟩
      | cons first others =>
          rw [taken] at whole all
          have spells := SpellsPower.present isMark isSign (by simp) all
          refine ⟨mark :: (sign ++ first :: others), ?_, ?_⟩
          · simpa using spells
          · simp only [List.cons_append, List.append_assoc] at whole ⊢
            rw [whole]
    · exact ⟨[], .absent, rfl⟩

/-- What is read stands spelled at the head of the text. -/
theorem spells_of_scan? (scanned : Numeral.scan? text = some (n, rest)) :
    ∃ spelled, n.Spells spelled ∧ text = spelled ++ rest := by
  unfold Numeral.scan? at scanned
  split at scanned
  rename_i negative unsigned signed
  have parts : text = (if negative then ['-'] else []) ++ unsigned := by
    split at signed
    · cases signed
      rfl
    · cases signed
      rfl
  clear signed
  simp only [Option.bind_eq_bind, Option.bind_eq_some_iff] at scanned
  obtain ⟨⟨whole, afterWhole⟩, found, scanned⟩ := scanned
  obtain ⟨rfl, nonempty, digits, lead⟩ := whole_of_scanWhole? found
  obtain ⟨fraction, decimals⟩ := fraction_of_scanFraction afterWhole
  obtain ⟨power, spells, behind⟩ := power_of_scanExponent (scanFraction afterWhole).2
  cases scanned
  refine ⟨_, ⟨⟨nonempty, digits, lead, decimals⟩, power, spells, rfl⟩, ?_⟩
  rw [behind] at fraction
  simp only [spelling, List.append_assoc]
  rw [← fraction, parts]

/-- The characters of a power of ten, the last of which is a digit. -/
theorem SpellsPower.characters (spells : SpellsPower exponent power) :
    (∀ c ∈ power, isDigit c = true ∨ c ∈ ['-', '+', '.', 'e', 'E']) ∧
      ∀ c ∈ power.getLast?, isDigit c = true := by
  cases spells with
  | absent => exact ⟨nofun, nofun⟩
  | @present mark sign digits isMark isSign nonempty all =>
      refine ⟨List.forall_mem_cons.mpr ⟨?_, List.forall_mem_append.mpr ⟨?_, ?_⟩⟩, ?_⟩
      · rcases isMark with rfl | rfl <;> decide
      · simp only [List.mem_cons, List.not_mem_nil, or_false] at isSign
        rcases isSign with rfl | rfl | rfl <;> simp
      · exact fun c member => Or.inl (all c member)
      · rw [← List.cons_append, List.getLast?_append_of_ne_nil _ nonempty]
        exact fun c last => all c (List.mem_of_getLast? last)

theorem characters_fraction {digits : List Char} (all : ∀ c ∈ digits, isDigit c = true) :
    (∀ c ∈ writtenFraction digits, isDigit c = true ∨ c ∈ ['-', '+', '.', 'e', 'E']) ∧
      ∀ c ∈ (writtenFraction digits).getLast?, isDigit c = true := by
  cases digits with
  | nil => exact ⟨nofun, nofun⟩
  | cons first rest =>
      refine ⟨List.forall_mem_cons.mpr ⟨by decide, fun c member => Or.inl (all c member)⟩, ?_⟩
      rw [writtenFraction, List.getLast?_cons_cons]
      · exact fun c last => all c (List.mem_of_getLast? last)
      · nofun

/-- The characters of a numeral, the last of which is a digit. -/
theorem Spells.characters (spells : n.Spells text) :
    (∀ c ∈ text, isDigit c = true ∨ c ∈ ['-', '+', '.', 'e', 'E']) ∧
      ∀ c ∈ text.getLast?, isDigit c = true := by
  obtain ⟨proper, power, spellsPower, rfl⟩ := spells
  obtain ⟨powerCharacters, powerLast⟩ := spellsPower.characters
  obtain ⟨fractionCharacters, fractionLast⟩ := characters_fraction proper.fraction
  constructor
  · refine List.forall_mem_append.mpr ⟨by split <;> simp, List.forall_mem_append.mpr ⟨?_, ?_⟩⟩
    · exact fun c member => Or.inl (proper.whole c member)
    · exact List.forall_mem_append.mpr ⟨fractionCharacters, powerCharacters⟩
  · intro c last
    have some : n.whole ++ (writtenFraction n.fraction ++ power) ≠ [] :=
      List.append_ne_nil_of_left_ne_nil proper.nonempty _
    rw [spelling, List.getLast?_append_of_ne_nil _ some, List.getLast?_append,
      List.getLast?_append] at last
    rcases Option.or_eq_some_iff.mp last with behind | ⟨_, whole⟩
    · rcases Option.or_eq_some_iff.mp behind with inPower | ⟨_, inFraction⟩
      · exact powerLast c inPower
      · exact fractionLast c inFraction
    · exact proper.whole c (List.mem_of_getLast? whole)

end Numeral

end CodeFirst
