import SurfaceRegistry.Json.Value

/-!
# Numbers in a JSON document

A number is a minus at will, digits without a zero in front, and possibly decimal places and a power of
ten. One with digits alone is an integer, unless it is too large for 64 bits or a zero with a minus.

Any other number is read quickly rather than exactly: as many digits as fit in 64 bits are taken, the
others only move the point; what is taken is rounded to a binary64 number, and this is multiplied or
divided by a power of ten and rounded once more.
-/

namespace SurfaceRegistry.Json

/-- A number as it is spelled. -/
structure Numeral where
  /-- Whether there is a minus. -/
  negative : Bool
  /-- The digits before the point. -/
  whole : List Char
  /-- The digits after the point; none if there is no point. -/
  fraction : List Char
  /-- The power of ten: whether it has a minus, and its digits. -/
  exponent : Option (Bool × List Char)
  deriving DecidableEq

namespace Numeral

/-! ### Scanning -/

/-- The decimal places, if the text goes on with a point. -/
def scanFraction : List Char → Option (List Char × List Char)
  | '.' :: r =>
    let digits := r.takeWhile Char.isDigit
    if digits.isEmpty then none else some (digits, r.dropWhile Char.isDigit)
  | s => some ([], s)

/-- The sign of a power of ten, and the rest. -/
def scanExponentSign : List Char → Bool × List Char
  | '+' :: r => (false, r)
  | '-' :: r => (true, r)
  | s => (false, s)

/-- The power of ten, after the letter for it. -/
def scanExponentDigits (s : List Char) : Option (Option (Bool × List Char) × List Char) :=
  let (negative, r) := scanExponentSign s
  let digits := r.takeWhile Char.isDigit
  if digits.isEmpty then none else some (some (negative, digits), r.dropWhile Char.isDigit)

/-- The power of ten, if the text goes on with the letter for it. -/
def scanExponent : List Char → Option (Option (Bool × List Char) × List Char)
  | 'e' :: r | 'E' :: r => scanExponentDigits r
  | s => some (none, s)

/-- The digits before the point, without a zero in front of others. -/
def scanWhole (s : List Char) : Option (List Char × List Char) :=
  match s.takeWhile Char.isDigit with
  | [] => none
  | '0' :: _ :: _ => none
  | digits => some (digits, s.dropWhile Char.isDigit)

/-- A number after its sign, and the rest of the text. -/
def scanUnsigned (negative : Bool) (s : List Char) : Option (Numeral × List Char) := do
  let (whole, s) ← scanWhole s
  let (fraction, s) ← scanFraction s
  let (exponent, s) ← scanExponent s
  some (⟨negative, whole, fraction, exponent⟩, s)

/-- The number with which the text begins, and the rest of the text. -/
def scan : List Char → Option (Numeral × List Char)
  | '-' :: r => scanUnsigned true r
  | s => scanUnsigned false s

/-! ### Values -/

/-- The largest number that the digits taken may make up. -/
def significandLimit : Nat := UInt64.size

/-- Digits taken one after another until one would not fit, and how many are left. -/
def takeDigits (v : Nat) : List Char → Nat × Nat
  | [] => (v, 0)
  | c :: r =>
    if 10 * v + (c.toNat - 48) < significandLimit then takeDigits (10 * v + (c.toNat - 48)) r
    else (v, r.length + 1)

/-- The value of digits as a natural number. -/
def digitsValue (s : List Char) : Nat :=
  s.foldl (fun v c => 10 * v + (c.toNat - 48)) 0

/-- A power of ten as a binary64 number. -/
def power (e : Nat) : Binary64 :=
  (Binary64.ofRatio? false (Nat.pow 10 e) 1).getD (.zero false)

/-- A number times a power of ten. A power below that of any number is applied in parts, at most
`fuel` of them. -/
def scale : Nat → Binary64 → Int → Option Binary64
  | 0, x, _ => some (.zero x.negative)
  | fuel + 1, x, e =>
    if x.isZero then some x
    else if e > 308 then none
    else if 0 ≤ e then x.mul? (power e.toNat)
    else if -308 ≤ e then x.div? (power (-e).toNat)
    else (x.div? (power 308)).bind fun y => scale fuel y (e + 308)

/-- The power of ten that is spelled, if it has 31 bits. -/
def exponentValue? (n : Numeral) : Option Int :=
  match n.exponent with
  | none => some 0
  | some (negative, digits) =>
    let e := digitsValue digits
    if e < 1 <<< 31 then some (if negative then -(e : Int) else e) else none

/-- The value as a binary64 number, unless it is too large. -/
def toFloat? (n : Numeral) : Option Binary64 :=
  let (v, left) := takeDigits 0 n.whole
  let (v, dropped) := takeDigits v n.fraction
  let place : Int := (left : Int) - (n.fraction.length - dropped : Nat)
  match n.exponentValue? with
  | some e =>
    (Binary64.ofRatio? n.negative v 1).bind fun x => scale 8 x (place + e)
  | none =>
    match n.exponent with
    | some (false, _) => if v = 0 then some (.zero n.negative) else none
    | _ => some (.zero n.negative)

/-- Whether only digits are spelled. -/
def isWhole (n : Numeral) : Bool :=
  n.fraction.isEmpty && n.exponent.isNone

/-- The value as an integer of 64 bits, with or without a sign. A zero with a minus is none. -/
def toInteger? (n : Numeral) : Option Int :=
  let v := digitsValue n.whole
  if !n.isWhole then none
  else if n.negative then if 0 < v ∧ v ≤ 1 <<< 63 then some (-(v : Int)) else none
  else if v < UInt64.size then some v
  else none

/-- The value of a number, unless it is too large. -/
def value? (n : Numeral) : Option Json :=
  match n.toInteger? with
  | some i => some (.integer i)
  | none => n.toFloat?.map .float

end Numeral

end SurfaceRegistry.Json
