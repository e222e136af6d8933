/-!
Doubles as exact numbers: the fields of a 64-bit word, and rounding of a ratio to the nearest
double. All arithmetic is on natural numbers.
-/

namespace CodeFirst

/-- A double, as its 64 bits: a sign, eleven bits of exponent, fifty-two bits of fraction. -/
structure Binary64 where
  bits : UInt64
deriving DecidableEq, Inhabited

namespace Binary64

/-- The exponent field of infinities and of what is not a number. -/
def topExponent : Nat := 2047

def fraction (x : Binary64) : Nat :=
  x.bits.toNat % Nat.pow 2 52

def exponent (x : Binary64) : Nat :=
  x.bits.toNat / Nat.pow 2 52 % Nat.pow 2 11

def isNegative (x : Binary64) : Bool :=
  Nat.pow 2 63 ≤ x.bits.toNat

def isFinite (x : Binary64) : Bool :=
  x.exponent != topExponent

/-- The significand `m` of a finite double, whose magnitude is `m * 2 ^ x.power`. -/
def significand (x : Binary64) : Nat :=
  if x.exponent = 0 then x.fraction else x.fraction + Nat.pow 2 52

/-- The power of two that goes with `significand`. -/
def power (x : Binary64) : Int :=
  if x.exponent = 0 then -1074 else (x.exponent : Int) - 1075

/-- The magnitude of a finite double as numerator and denominator. -/
def magnitude (x : Binary64) : Nat × Nat :=
  (x.significand * Nat.pow 2 x.power.toNat, Nat.pow 2 (-x.power).toNat)

/-- The integer nearest to `num / den`; a tie goes to the even neighbour. -/
def nearestEven (num den : Nat) : Nat :=
  let whole := num / den
  let twice := 2 * (num % den)
  if twice < den then whole else if den < twice then whole + 1 else whole + whole % 2

/-- The greatest `e` with `2 ^ e ≤ num / den`, for positive arguments. -/
def binaryOrder (num den : Nat) : Int :=
  let guess : Int := (Nat.log2 num : Int) - Nat.log2 den
  if num * Nat.pow 2 (-guess).toNat < den * Nat.pow 2 guess.toNat then guess - 1 else guess

/-- The word of the sign and a magnitude code below `2 ^ 63`. -/
def ofCode (negative : Bool) (code : Nat) : Binary64 :=
  ⟨UInt64.ofNat (if negative then code + Nat.pow 2 63 else code)⟩

/-- The code of infinity, one above that of the greatest finite magnitude. -/
def infinityCode : Nat := topExponent * Nat.pow 2 52

/-- The code of the double nearest to `num / den`, at most that of infinity; ties go to even.
A carry out of the fraction moves into the exponent by itself. -/
def nearestCode (num den : Nat) : Nat :=
  if num = 0 then 0
  else
    let power := max (binaryOrder num den - 52) (-1074)
    let rounded := nearestEven (num * Nat.pow 2 (-power).toNat) (den * Nat.pow 2 power.toNat)
    min ((power + 1074).toNat * Nat.pow 2 52 + rounded) infinityCode

/-- The finite double nearest to a ratio, if the ratio does not round to infinity. -/
def ofRatio? (negative : Bool) (num den : Nat) : Option Binary64 :=
  let code := nearestCode num den
  if code < infinityCode then some (ofCode negative code) else none

def infinity (negative : Bool) : Binary64 :=
  ofCode negative infinityCode

def notANumber : Binary64 :=
  ofCode false (infinityCode + Nat.pow 2 51)

/-- The rounded product of the magnitude of `x` and ten to the `count`. -/
def timesTen? (x : Binary64) (count : Nat) : Option Binary64 := do
  let ten ← ofRatio? false (Nat.pow 10 count) 1
  ofRatio? x.isNegative (x.magnitude.1 * ten.magnitude.1) (x.magnitude.2 * ten.magnitude.2)

/-- The rounded quotient of the magnitude of `x` and ten to the `count`. -/
def overTen? (x : Binary64) (count : Nat) : Option Binary64 := do
  let ten ← ofRatio? false (Nat.pow 10 count) 1
  ofRatio? x.isNegative (x.magnitude.1 * ten.magnitude.2) (x.magnitude.2 * ten.magnitude.1)

def greatestTen : Nat := 308

/-- Multiplies by a power of ten in steps of at most `greatestTen`, rounding after each step.
There is no result beyond the greatest double. -/
def scaleByTen? (x : Binary64) (exponent : Int) : Option Binary64 :=
  if exponent.natAbs ≤ greatestTen then
    if 0 ≤ exponent then x.timesTen? exponent.natAbs else x.overTen? exponent.natAbs
  else if x.significand = 0 then some x
  else if 0 ≤ exponent then none
  else do
    let y ← x.overTen? greatestTen
    scaleByTen? y (exponent + greatestTen)
termination_by exponent.natAbs
decreasing_by simp only [greatestTen] at *; omega

end Binary64

end CodeFirst
