import SurfaceRegistry.Decimal.Shortest

/-!
# Decimal text of binary64 numbers

The shortest decimal of a number, written positionally or with an exponent. Positional text always has
a digit on both sides of the point.
-/

namespace SurfaceRegistry

/-- How numbers are written. -/
structure DecimalFormat where
  /-- Which of two equally short and near decimals is taken. -/
  tie : Tie
  /-- Whether a number whose first digit stands at this power of ten is written positionally. -/
  positional : Int → Bool

namespace DecimalFormat

/-- The digits with a point so that the last digit has the power of ten `exponent`. -/
def positionalChars (digits : List Char) (exponent : Int) : List Char :=
  if 0 ≤ exponent then digits ++ List.replicate exponent.toNat '0' ++ ['.', '0']
  else
    let places := (-exponent).toNat
    if places < digits.length then
      digits.take (digits.length - places) ++ '.' :: digits.drop (digits.length - places)
    else '0' :: '.' :: List.replicate (places - digits.length) '0' ++ digits

/-- The digits with a point after the first, and the power of ten of the first. -/
def scientificChars (digits : List Char) (first : Int) : List Char :=
  let mantissa :=
    match digits with
    | [] => []
    | [d] => [d]
    | d :: r => d :: '.' :: r
  let sign := if first < 0 then '-' else '+'
  mantissa ++ 'e' :: sign :: Nat.toDigits 10 first.natAbs

/-- The text of a number. -/
def chars (f : DecimalFormat) (b : Binary64) : List Char :=
  let d := Decimal.shortest f.tie b
  let digits := Nat.toDigits 10 d.digits
  let first := d.exponent + digits.length - 1
  (if b.negative then ['-'] else []) ++
    (if b.isZero || f.positional first then positionalChars digits d.exponent
     else scientificChars digits first)

end DecimalFormat

end SurfaceRegistry
