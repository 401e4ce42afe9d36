import SurfaceRegistry.Decimal.Binary64

/-!
# Shortest decimals

The fewest decimal digits that read back as a given binary64 number. The numbers that round to it form
an interval, whose ends belong to it if the significand is even. For one digit, two digits and so on up
to 17, the two multiples of the decimal place next to the number are tried; the first place that has one
of them in the interval decides, and of two in the interval the nearer is taken.
-/

namespace SurfaceRegistry

/-- Which of two equally near decimals is taken. -/
inductive Tie where
  /-- The one whose last digit is even. -/
  | toEven
  /-- The larger one. -/
  | up
  deriving DecidableEq

/-- The decimal number `digits * 10 ^ exponent`. -/
structure Decimal where
  /-- The digits as a natural number. -/
  digits : Nat
  /-- The power of ten of the last digit. -/
  exponent : Int
  deriving DecidableEq

namespace Decimal

/-- The same number without zeros at the end, at most `fuel` of them. -/
def trim : Nat → Decimal → Decimal
  | 0, d => d
  | fuel + 1, d =>
    if d.digits ≠ 0 ∧ d.digits % 10 = 0 then trim fuel ⟨d.digits / 10, d.exponent + 1⟩ else d

/-- How many zeros stand between the point and the first digit of a fraction, at most `fuel`. -/
def leadingZeros : Nat → Nat → Nat → Nat
  | 0, _, _ => 0
  | fuel + 1, num, den => if num * 10 ≥ den then 0 else leadingZeros fuel (num * 10) den + 1

/-- The `p` for which `num / den` is at least `10 ^ (p - 1)` and less than `10 ^ p`. -/
def pointPosition (num den : Nat) : Int :=
  if num ≥ den then (Nat.toDigits 10 (num / den)).length else -(leadingZeros 400 num den : Int)

/-- The numbers, in quarters of a unit, between which all numbers round to one of a given rank. -/
structure Interval where
  /-- The lower end. -/
  low : Nat
  /-- The number itself. -/
  centre : Nat
  /-- The upper end. -/
  high : Nat
  /-- Whether the ends belong to the interval. -/
  closed : Bool

/-- The interval of a number. Below a power of two the numbers lie twice as dense. -/
def interval (b : Binary64) : Interval where
  low :=
    4 * b.units -
      (if Binary64.significand b.rank = 1 <<< 52 ∧ 1 <<< 53 ≤ b.rank.val then 1 else 2) <<<
        Binary64.spacing b.rank
  centre := 4 * b.units
  high := 4 * b.units + 2 <<< Binary64.spacing b.rank
  closed := Binary64.significand b.rank % 2 == 0

/-- Whether the quotient lies in the interval, when the ends are multiplied by `scale`. -/
def Interval.holds (i : Interval) (x scale : Nat) : Bool :=
  if i.closed then i.low * scale ≤ x && x ≤ i.high * scale
  else i.low * scale < x && x < i.high * scale

/-- The decimal with its last digit at `10 ^ k` that is nearest among those next to the number and in
its interval. -/
def onGrid (tie : Tie) (i : Interval) (k : Int) : Option Decimal :=
  let place := 4 * Binary64.one * Nat.pow 10 k.toNat
  let scale := Nat.pow 10 (-k).toNat
  let below := i.centre * scale / place
  let rest := i.centre * scale % place
  let lower := i.holds (below * place) scale
  let upper := i.holds ((below + 1) * place) scale
  let preferUpper :=
    2 * rest > place || (2 * rest == place && (tie == .up || below % 2 == 1))
  if lower && !(upper && preferUpper) then some ⟨below, k⟩
  else if upper then some ⟨below + 1, k⟩
  else none

/-- The first decimal found on grids that get finer, at most `fuel` of them. -/
def search (tie : Tie) (i : Interval) : Nat → Int → Decimal
  | 0, k => ⟨i.centre * Nat.pow 10 (-k).toNat / (4 * Binary64.one * Nat.pow 10 k.toNat), k⟩
  | fuel + 1, k =>
    match onGrid tie i k with
    | some d => d
    | none => search tie i fuel (k - 1)

/-- The shortest decimal that reads back as the magnitude of `b`. -/
def shortest (tie : Tie) (b : Binary64) : Decimal :=
  if b.isZero then ⟨0, 0⟩
  else trim 400 (search tie (interval b) 17 (pointPosition b.units Binary64.one - 1))

end Decimal

end SurfaceRegistry
