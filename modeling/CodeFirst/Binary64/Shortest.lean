import CodeFirst.Binary64

/-!
The shortest decimal that reads back as a given double, and its layout as text.
-/

namespace CodeFirst

/-- The decimal `digits * 10 ^ exponent`. -/
structure Decimal where
  digits : Nat
  exponent : Int
deriving DecidableEq, Inhabited

namespace Binary64

/-- The greatest `k` with `10 ^ k ≤ num / den`, for positive arguments. -/
def decimalOrder (num den : Nat) : Int :=
  if den ≤ num then (Nat.toDigits 10 (num / den)).length - 1
  else -(Nat.toDigits 10 ((den - 1) / num)).length

/-- The point of the grid of step `10 ^ exponent` that rounds to the finite double `x`,
if one of the two neighbours of `x` on that grid does: the nearer of two, the even of a tie. -/
def gridPoint? (x : Binary64) (exponent : Int) : Option Nat :=
  let m := x.significand
  let scale := Nat.pow 2 (x.power - 2).toNat * Nat.pow 10 (-exponent).toNat
  let unit := Nat.pow 2 (2 - x.power).toNat * Nat.pow 10 exponent.toNat
  let low := (if m = Nat.pow 2 52 ∧ -1074 < x.power then 4 * m - 1 else 4 * m - 2) * scale
  let high := (4 * m + 2) * scale
  let value := 4 * m * scale
  let rounds (point : Nat) : Bool :=
    if m % 2 = 0 then low ≤ point * unit && point * unit ≤ high
    else low < point * unit && point * unit < high
  let below := value / unit
  match rounds below, rounds (below + 1) with
  | true, true => some (nearestEven value unit)
  | true, false => some below
  | false, true => some (below + 1)
  | false, false => none

/-- The decimal of fewest digits that rounds to a finite double; of several the nearest.
Seventeen digits always suffice. -/
def shortest (x : Binary64) : Decimal :=
  if x.significand = 0 then ⟨0, 0⟩
  else
    let order := decimalOrder x.magnitude.1 x.magnitude.2
    ((List.range 17).findSome? fun (count : Nat) =>
      (x.gridPoint? (order - count)).map (⟨·, order - count⟩)).getD ⟨0, 0⟩

end Binary64

/-- Where a decimal is written positionally: for orders of magnitude from `least` to `greatest`. -/
structure DecimalLayout where
  least : Int
  greatest : Int
deriving DecidableEq

namespace DecimalLayout

def zeros (count : Nat) : List Char :=
  List.replicate count '0'

/-- The digits without the zeros at the end; a lone zero stays. -/
def significantDigits (digits : Nat) : List Char :=
  match ((Nat.toDigits 10 digits).reverse.dropWhile (· == '0')).reverse with
  | [] => ['0']
  | kept => kept

/-- Positional text: always with a point and at least one digit on each side of it. -/
def positional (digits : List Char) (order : Int) : List Char :=
  if order < 0 then '0' :: '.' :: zeros (-order - 1).toNat ++ digits
  else
    let whole := digits.take (order.toNat + 1)
    let rest := digits.drop (order.toNat + 1)
    whole ++ zeros (order.toNat + 1 - whole.length) ++ '.' :: (if rest = [] then ['0'] else rest)

/-- Scientific text: one digit before the point, no point without digits after it, an exponent with
its sign. -/
def scientific (digits : List Char) (order : Int) : List Char :=
  let sign := if order < 0 then '-' else '+'
  digits.take 1 ++ (if digits.drop 1 = [] then [] else '.' :: digits.drop 1)
    ++ 'e' :: sign :: Nat.toDigits 10 order.natAbs

def render (layout : DecimalLayout) (d : Decimal) : List Char :=
  let order := d.exponent + (Nat.toDigits 10 d.digits).length - 1
  let digits := significantDigits d.digits
  if d.digits = 0 then ['0', '.', '0']
  else if layout.least ≤ order ∧ order ≤ layout.greatest then positional digits order
  else scientific digits order

end DecimalLayout

namespace Binary64

/-- Doubles are written positionally from `0.00001` to below `10 ^ 16`. -/
def layout : DecimalLayout := ⟨-5, 15⟩

/-- The text of a finite double; the sign of zero is kept. -/
def text (x : Binary64) : String :=
  String.ofList ((if x.isNegative then ['-'] else []) ++ layout.render x.shortest)

end Binary64

end CodeFirst
