/-!
# Finite binary64 numbers

The non-negative numbers of the format are numbered in increasing order, from zero on; a finite number
is a sign and such a rank. All magnitudes are multiples of one unit, two to the power of -1074, so that
rounding to a nearest number is exact arithmetic on natural numbers. Of two nearest numbers the one of
even rank is taken.
-/

namespace SurfaceRegistry

/-- The number of finite magnitudes. -/
def Binary64.rankLimit : Nat := 2047 <<< 52

/-- A finite number of the format. -/
structure Binary64 where
  /-- Whether the sign is a minus. Zero has a sign too. -/
  negative : Bool
  /-- The place of the magnitude in the increasing order of all magnitudes. -/
  rank : Fin Binary64.rankLimit
  deriving DecidableEq

namespace Binary64

/-- The binary logarithm of the distance, in units, to the next magnitude. -/
def spacing (rank : Nat) : Nat :=
  rank >>> 52 - 1

/-- How many of these distances the magnitude is from zero. -/
def significand (rank : Nat) : Nat :=
  if rank < 1 <<< 52 then rank else 1 <<< 52 + rank % 1 <<< 52

/-- The magnitude in units. -/
def units (b : Binary64) : Nat :=
  significand b.rank <<< spacing b.rank

/-- The units in one. -/
def one : Nat := 1 <<< 1074

/-- A quotient rounded to a nearest integer, to the even one if there are two. -/
def roundHalfEven (num den : Nat) : Nat :=
  if 2 * (num % den) < den ∨ (2 * (num % den) = den ∧ num / den % 2 = 0) then num / den
  else num / den + 1

/-- The rank of a nearest magnitude to a number of units. It may lie beyond the finite ones. -/
def nearestRank (num den : Nat) : Nat :=
  let s := (num / den).log2 + 1 - 53
  s <<< 52 + roundHalfEven num (den <<< s)

/-- The number nearest to a quotient, unless that is too large. -/
def ofRatio? (negative : Bool) (num den : Nat) : Option Binary64 :=
  if h : nearestRank (num * one) den < rankLimit then some ⟨negative, ⟨_, h⟩⟩ else none

/-- Zero with a sign. -/
def zero (negative : Bool) : Binary64 :=
  ⟨negative, ⟨0, by decide⟩⟩

/-- Whether the number is zero, of either sign. -/
def isZero (b : Binary64) : Bool :=
  b.rank.val == 0

/-- The product of two numbers, rounded. The sign is that of the first. -/
def mul? (a b : Binary64) : Option Binary64 :=
  ofRatio? a.negative (a.units * b.units) (one * one)

/-- The quotient of two numbers, rounded. The sign is that of the first. -/
def div? (a b : Binary64) : Option Binary64 :=
  ofRatio? a.negative a.units b.units

/-- The number nearest to a decimal number `m * 10 ^ e`, unless that is too large. -/
def ofDecimal? (negative : Bool) (m : Nat) (e : Int) : Option Binary64 :=
  let size : Int := (Nat.toDigits 10 m).length + e
  if m = 0 ∨ size < -330 then some (zero negative)
  else if size > 310 then none
  else if e ≥ 0 then ofRatio? negative (m * Nat.pow 10 e.toNat) 1
  else ofRatio? negative m (Nat.pow 10 (-e).toNat)

end Binary64

end SurfaceRegistry
