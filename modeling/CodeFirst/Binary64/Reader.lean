import CodeFirst.Number

/-!
Reading a double from decimal text: the nearest double to the exact value, whatever its length.
-/

namespace CodeFirst.Binary64

/-- Decimal text of a double: digits around a point or none, and a power of ten. -/
structure Written where
  digits : List Char
  /-- The value of the digits counts ten to this power. -/
  power : Int

/-- A sign or none, and what is behind it; true for a minus. -/
def splitSign : List Char → Bool × List Char
  | '-' :: rest => (true, rest)
  | '+' :: rest => (false, rest)
  | rest => (false, rest)

/-- The power of ten behind the digits: none, or a mark, a sign and digits up to the end. -/
def readPower? : List Char → Option Int
  | [] => some 0
  | mark :: rest =>
    let (negative, digits) := splitSign rest
    if (mark = 'e' ∨ mark = 'E') ∧ digits ≠ [] ∧ digits.all isDigit then
      some (if negative then -(digitsValue digits : Int) else digitsValue digits)
    else none

/-- Reads unsigned decimal text. There must be a digit before or after the point. -/
def readWritten? (text : List Char) : Option Written := do
  let whole := text.takeWhile isDigit
  let behind := text.dropWhile isDigit
  let (fraction, rest) := match behind with
    | '.' :: rest => (rest.takeWhile isDigit, rest.dropWhile isDigit)
    | rest => ([], rest)
  if whole ++ fraction = [] then none
  else
    let power ← readPower? rest
    some ⟨whole ++ fraction, power - fraction.length⟩

/-- Decimal orders of magnitude beyond this hold no finite double but zero, in either direction. -/
def orderLimit : Int := 400

/-- The double nearest to decimal text, which is infinite beyond the greatest one. -/
def Written.nearest (written : Written) (negative : Bool) : Binary64 :=
  let value := digitsValue written.digits
  let order := written.power + ((written.digits.dropWhile (· = '0')).length : Int)
  if value = 0 ∨ order < -orderLimit then ofCode negative 0
  else if orderLimit < order then infinity negative
  else
    ofCode negative
      (nearestCode (value * Nat.pow 10 written.power.toNat) (Nat.pow 10 (-written.power).toNat))

/-- The double of a text: decimal, infinite, or not a number; words may be in any case. -/
def ofText? (text : String) : Option Binary64 :=
  let (negative, unsigned) := splitSign text.toList
  let word := String.ofList (unsigned.map Char.toLower)
  if word = "inf" ∨ word = "infinity" then some (infinity negative)
  else if word = "nan" then some notANumber
  else (readWritten? unsigned).map (·.nearest negative)

end CodeFirst.Binary64
