import CodeFirst.Binary64.Shortest

/-!
Numbers of data and of query documents: integers of 64 bits and finite doubles, their text, and the
reading of numerals.
-/

namespace CodeFirst

/-- ASCII digits only, as in every numeral of data and documents. -/
def isDigit (c : Char) : Bool :=
  '0' ≤ c && c ≤ '9'

def digitValue (c : Char) : Nat :=
  c.toNat - '0'.toNat

/-- The number that digits write, the first of them counting most. -/
def digitsValue (digits : List Char) : Nat :=
  digits.foldl (fun value c => value * 10 + digitValue c) 0

/-- An integer that a signed or an unsigned word of 64 bits holds: from `-2 ^ 63` to below
`2 ^ 64`. -/
def FitsWord (value : Int) : Prop :=
  -9223372036854775808 ≤ value ∧ value < 18446744073709551616

instance (value : Int) : Decidable (FitsWord value) :=
  inferInstanceAs (Decidable (_ ∧ _))

/-- A number is an integer of 64 bits or a finite double; `1` and `1.0` are different numbers. -/
inductive Number where
  | integer (value : Int) (fits : FitsWord value)
  | double (value : Binary64) (finite : value.isFinite = true)
deriving DecidableEq

namespace Number

instance : Inhabited Number :=
  ⟨.integer 0 (by decide)⟩

def ofInt? (value : Int) : Option Number :=
  if fits : FitsWord value then some (.integer value fits) else none

def ofDouble? (value : Binary64) : Option Number :=
  if finite : value.isFinite = true then some (.double value finite) else none

/-- An integer as a signed word, if it is one. -/
def signed? : Number → Option Int64
  | .integer value _ =>
    if -9223372036854775808 ≤ value ∧ value < 9223372036854775808 then some (.ofInt value)
    else none
  | .double .. => none

/-- An integer as an unsigned word, if it is one. -/
def unsigned? : Number → Option UInt64
  | .integer value _ => if 0 ≤ value then some (.ofNat value.toNat) else none
  | .double .. => none

/-- A double, or the one that is nearest to an integer. -/
def double? : Number → Option Binary64
  | .integer value _ => Binary64.ofRatio? (value < 0) value.natAbs 1
  | .double value _ => some value

def ofSigned (word : Int64) : Number :=
  .integer word.toInt (by
    have := word.le_toInt
    have := word.toInt_lt
    unfold FitsWord
    omega)

def ofUnsigned (word : UInt64) : Number :=
  .integer word.toNat (by
    have := word.toNat_lt
    unfold FitsWord
    omega)

/-- The decimal digits of an integer, with a sign in front of a negative one. -/
def integerText (value : Int) : List Char :=
  if value < 0 then '-' :: Nat.toDigits 10 value.natAbs else Nat.toDigits 10 value.natAbs

def text : Number → String
  | .integer value _ => String.ofList (integerText value)
  | .double value _ => value.text

end Number

/-- The written form of a number: a sign, digits, digits after a point, a power of ten. -/
structure Numeral where
  negative : Bool
  whole : List Char
  fraction : List Char
  exponent : Option Int
deriving DecidableEq

namespace Numeral

/-- The digits before the point: a lone zero, or digits that do not begin with zero. -/
def scanWhole? : List Char → Option (List Char × List Char)
  | [] => none
  | c :: rest =>
    if c = '0' then some (['0'], rest)
    else if isDigit c then
      some (c :: rest.takeWhile isDigit, rest.dropWhile isDigit)
    else none

/-- The digits after a point; a point without digits is not part of a numeral. -/
def scanFraction : List Char → List Char × List Char
  | '.' :: rest =>
    match rest.takeWhile isDigit with
    | [] => ([], '.' :: rest)
    | digits => (digits, rest.dropWhile isDigit)
  | rest => ([], rest)

/-- A power of ten: `e` or `E`, a sign or none, digits. -/
def scanExponent : List Char → Option Int × List Char
  | [] => (none, [])
  | mark :: rest =>
    if mark = 'e' ∨ mark = 'E' then
      let (negative, digits) :=
        match rest with
        | '-' :: after => (true, after)
        | '+' :: after => (false, after)
        | after => (false, after)
      match digits.takeWhile isDigit with
      | [] => (none, mark :: rest)
      | taken =>
        let size : Int := digitsValue taken
        (some (if negative then -size else size), digits.dropWhile isDigit)
    else (none, mark :: rest)

/-- Reads a numeral at the head of a text and gives what follows it. -/
def scan? (text : List Char) : Option (Numeral × List Char) := do
  let (negative, unsigned) :=
    match text with
    | '-' :: rest => (true, rest)
    | rest => (false, rest)
  let (whole, afterWhole) ← scanWhole? unsigned
  let (fraction, afterFraction) := scanFraction afterWhole
  let (exponent, rest) := scanExponent afterFraction
  some (⟨negative, whole, fraction, exponent⟩, rest)

theorem length_takeWhile_add_dropWhile (digits : List Char) :
    (digits.takeWhile isDigit).length + (digits.dropWhile isDigit).length = digits.length := by
  rw [← List.length_append, List.takeWhile_append_dropWhile]

theorem length_of_scanWhole? {text digits rest : List Char}
    (h : scanWhole? text = some (digits, rest)) : rest.length < text.length := by
  unfold scanWhole? at h
  split at h
  · cases h
  · rename_i c tail
    have := length_takeWhile_add_dropWhile tail
    split at h
    · cases h
      exact Nat.lt_succ_self _
    · split at h
      · cases h
        simp only [List.length_cons]
        omega
      · cases h

theorem length_scanFraction_le (text : List Char) : (scanFraction text).2.length ≤ text.length := by
  unfold scanFraction
  split
  · rename_i tail
    have := length_takeWhile_add_dropWhile tail
    split
    · exact Nat.le_refl _
    · simp only [List.length_cons]
      omega
  · exact Nat.le_refl _

theorem length_scanExponent_le (text : List Char) : (scanExponent text).2.length ≤ text.length := by
  unfold scanExponent
  split
  · exact Nat.le_refl _
  · rename_i mark tail
    split
    · split
      rename_i negative digits after
      have : digits.length ≤ tail.length := by
        split at after <;> cases after <;> simp
      have := length_takeWhile_add_dropWhile digits
      split
      · exact Nat.le_refl _
      · simp only [List.length_cons]
        omega
    · exact Nat.le_refl _

theorem length_of_scan? {text rest : List Char} {n : Numeral} (h : scan? text = some (n, rest)) :
    rest.length < text.length := by
  unfold scan? at h
  split at h
  rename_i negative unsigned sign
  have : unsigned.length ≤ text.length := by
    split at sign <;> cases sign <;> simp
  simp only [Option.bind_eq_bind, Option.bind_eq_some_iff] at h
  obtain ⟨⟨whole, afterWhole⟩, found, h⟩ := h
  have := length_of_scanWhole? found
  have := length_scanFraction_le afterWhole
  have := length_scanExponent_le (scanFraction afterWhole).2
  cases h
  simp only
  omega

/-- Appends digits to a number as long as it stays below `2 ^ 64`; gives the digits left over. -/
def leading (start : Nat) : List Char → Nat × List Char
  | [] => (start, [])
  | c :: rest =>
    let next := start * 10 + digitValue c
    if next < 18446744073709551616 then leading next rest else (start, c :: rest)

/-- The double of a numeral: as many leading digits as fit 64 bits, rounded to a double and then
scaled by the power of ten that is left, with rounding at each step. -/
def double? (n : Numeral) : Option Binary64 := do
  let (whole, droppedWhole) := leading 0 n.whole
  let (significand, droppedFraction) := leading whole n.fraction
  let places : Int := (n.fraction.length : Int) - droppedFraction.length
  let start ← Binary64.ofRatio? n.negative significand 1
  start.scaleByTen? (n.exponent.getD 0 + droppedWhole.length - places)

/-- The number of a numeral: an integer if it has neither point nor exponent and fits 64 bits, else
a double. Minus zero is a double. A numeral beyond the doubles has none. -/
def number? (n : Numeral) : Option Number :=
  let size : Int := digitsValue n.whole
  let value := if n.negative then -size else size
  let isMinusZero := n.negative && size == 0
  if n.fraction = [] ∧ n.exponent = none ∧ isMinusZero = false ∧ FitsWord value then
    Number.ofInt? value
  else n.double?.bind Number.ofDouble?

end Numeral

end CodeFirst
