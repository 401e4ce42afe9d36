import SurfaceRegistry.Text.Encoding
import SurfaceRegistry.Text.Split
import SurfaceRegistry.Timestamp
import SurfaceRegistry.Toml.Chars
import SurfaceRegistry.Toml.Value

/-!
# Numbers, dates and truth values in a TOML document

The values that are written without quotation marks or brackets. An integer is decimal, with a sign at
will and without a zero in front, or hexadecimal, octal or binary; a number with a point, an exponent or
both is a binary64 number. Single underscores may separate digits. Dates and times are those of the
calendar; a time may leave out its seconds.

Not every integer that a document may hold has a value. The digits after a base may be missing, and once
an underscore follows the first digits of a decimal integer, only the neighbours of the underscores are
looked at. What such an integer stands for matters to those alone who ask for it.
-/

namespace SurfaceRegistry.Toml

/-! ### Digits -/

/-- The digits of a number, if they are not empty, are all of the given kind, and every underscore
stands between two of them. -/
def separatedDigits? (isDigit : Char → Bool) (s : List Char) : Option (List Char) :=
  let groups := Text.splitAt '_' s
  if groups.all fun g => !g.isEmpty && g.all isDigit then some groups.flatten else none

/-- Whether digits stand on both sides of each underscore of a text that follows the character
`before`. -/
def separates (isDigit : Char → Bool) : Char → List Char → Bool
  | _, [] => true
  | before, c :: r =>
    (c != '_' || (isDigit before && r.head?.any isDigit)) && separates isDigit c r

/-- The value of digits in a base. -/
def digitsValue (base : Nat) (s : List Char) : Nat :=
  s.foldl (fun v c => base * v + (Text.hexValue? c).getD 0) 0

/-- Whether a zero stands in front of other digits. -/
def hasLeadingZero : List Char → Bool
  | '0' :: _ :: _ => true
  | _ => false

/-- The value of digits with a minus or without one. -/
def signedValue (negative : Bool) (digits : List Char) : Int :=
  if negative then -(digitsValue 10 digits : Int) else digitsValue 10 digits

/-! ### Integers -/

/-- The sign of a number. -/
inductive Sign where
  /-- There is none. -/
  | none
  /-- A plus. -/
  | plus
  /-- A minus. -/
  | minus
  deriving DecidableEq

/-- The sign of a number, and what follows it. -/
def splitSign : List Char → Sign × List Char
  | '+' :: r => (.plus, r)
  | '-' :: r => (.minus, r)
  | s => (.none, s)

/-- What an underscore right after the sign is taken to follow: a sign may be set apart from the digits,
but nothing can be set apart from no sign. -/
def Sign.before : Sign → Char
  | .none => '_'
  | .plus | .minus => '0'

/-- Whether a text contains a character that only a number with a point or an exponent has. -/
def hasFloatMark (s : List Char) : Bool :=
  s.any fun c => c == '.' || c == 'e' || c == 'E'

/-- Whether what follows a sign is spelled like a decimal integer. -/
def isDecimalSpelling (sign : Sign) (s : List Char) : Bool :=
  match s.dropWhile Char.isDigit with
  | [] => !s.isEmpty && !hasLeadingZero s
  | '_' :: r =>
    s.head? != some '0' && !hasFloatMark r &&
      separates (fun c => (Text.hexValue? c).isSome) sign.before s
  | _ => false

/-- The integer of decimal digits between underscores, if there is nothing else between these. -/
def decimalValue (sign : Sign) (s : List Char) : Value :=
  let digits := s.filter (· != '_')
  if digits.all Char.isDigit then .integer (signedValue (sign = .minus) digits) else .voidInteger

/-- A decimal integer. -/
def decimalInteger? (s : List Char) : Option Value :=
  let (sign, s) := splitSign s
  if isDecimalSpelling sign s then some (decimalValue sign s) else none

/-- An integer in another base than ten, by its digits. There may be none. -/
def digitsInBase? (base : Nat) (isDigit : Char → Bool) (s : List Char) : Option Value :=
  if s.isEmpty then some .voidInteger
  else (separatedDigits? isDigit s).map fun digits => .integer (digitsValue base digits)

/-- An integer in another base than ten, after a zero and a letter that tell the base. -/
def basedInteger? : List Char → Option Value
  | '0' :: 'x' :: r => digitsInBase? 16 (fun c => (Text.hexValue? c).isSome) r
  | '0' :: 'o' :: r => digitsInBase? 8 (fun c => '0' ≤ c ∧ c ≤ '7') r
  | '0' :: 'b' :: r => digitsInBase? 2 (fun c => c = '0' ∨ c = '1') r
  | _ => none

/-! ### Numbers with a point or an exponent -/

/-- Digits and underscores, without the underscores, and what follows them. -/
def digitRun? (s : List Char) : Option (List Char × List Char) :=
  let digits := (s.takeWhile fun c => c.isDigit || c == '_').filter Char.isDigit
  if digits.isEmpty then none else some (digits, s.dropWhile fun c => c.isDigit || c == '_')

/-- The decimal places, if a point comes next, and what follows them. -/
def fraction? : List Char → Option (List Char × List Char)
  | '.' :: r => digitRun? r
  | s => some ([], s)

/-- A power of ten after the letter for it, up to the end of the text. -/
def exponentDigits? (s : List Char) : Option Int :=
  let (sign, s) := splitSign s
  match digitRun? s with
  | some (digits, []) => some (signedValue (sign = .minus) digits)
  | _ => none

/-- The power of ten up to the end of the text. -/
def exponent? : List Char → Option Int
  | [] => some 0
  | 'e' :: r | 'E' :: r => exponentDigits? r
  | _ => none

/-- A number with a point, an exponent or both, after its sign: its digits, and the power of ten of the
last one. -/
def floatDigits? (s : List Char) : Option (List Char × Int) := do
  let (whole, r) ← digitRun? s
  let (places, r) ← fraction? r
  let exponent ← exponent? r
  if !hasFloatMark s || (s.head? == some '0' && hasLeadingZero whole) then none
  else some (whole ++ places, exponent - places.length)

/-- A number that is no integer. -/
def float? (s : List Char) : Option FloatValue :=
  let (sign, s) := splitSign s
  let negative : Bool := sign = .minus
  if s = ['i', 'n', 'f'] then some (.infinity negative)
  else if s = ['n', 'a', 'n'] then some .nan
  else if separates Char.isDigit sign.before s then
    (floatDigits? s).map fun (digits, exponent) =>
      match Binary64.ofDecimal? negative (digitsValue 10 digits) exponent with
      | some x => .finite x
      | none => .tooLarge
  else none

/-! ### Dates and times -/

/-- A number of exactly `n` digits, and what follows it. -/
def fixedNumber? (n : Nat) (s : List Char) : Option (Nat × List Char) :=
  let digits := s.take n
  if digits.length = n ∧ digits.all Char.isDigit then some (digitsValue 10 digits, s.drop n) else none

/-- What follows a date of the calendar. -/
def afterDate? (s : List Char) : Option (List Char) := do
  match ← fixedNumber? 4 s with
  | (year, '-' :: s) =>
    match ← fixedNumber? 2 s with
    | (month, '-' :: s) =>
      let (day, s) ← fixedNumber? 2 s
      let _ ← Date.ofNumbers? year month day
      some s
    | _ => none
  | _ => none

/-- What follows the seconds of a time, with their decimal places. -/
def afterSeconds? (s : List Char) : Option (List Char) := do
  let (second, s) ← fixedNumber? 2 s
  if second > 60 then none
  else
    match s with
    | '.' :: s => if (s.takeWhile Char.isDigit).isEmpty then none else some (s.dropWhile Char.isDigit)
    | s => some s

/-- What follows an hour and a minute. -/
def afterMinutes? (s : List Char) : Option (List Char) := do
  match ← fixedNumber? 2 s with
  | (hour, ':' :: s) =>
    let (minute, s) ← fixedNumber? 2 s
    if hour > 23 ∨ minute > 59 then none else some s
  | _ => none

/-- What follows a time of day. -/
def afterTime? (s : List Char) : Option (List Char) := do
  match ← afterMinutes? s with
  | ':' :: s => afterSeconds? s
  | s => some s

/-- Whether a text is an offset from universal time, or empty. -/
def isOffset : List Char → Bool
  | [] => true
  | ['Z'] | ['z'] => true
  | '+' :: s | '-' :: s => afterMinutes? s == some []
  | _ => false

/-- Whether a text is a time of day. -/
def isTime (s : List Char) : Bool :=
  afterTime? s == some []

/-- Whether a text is a date, possibly with a time and an offset. -/
def isDateTime (s : List Char) : Bool :=
  match afterDate? s with
  | none => false
  | some [] => true
  | some (c :: s) =>
    (c == 'T' || c == 't' || c == ' ') &&
      match afterTime? s with
      | none => false
      | some s => isOffset s

/-! ### Scalars -/

/-- The value of a text without quotation marks or brackets. -/
def scalar? (s : List Char) : Option Value :=
  if s = ['t', 'r', 'u', 'e'] then some (.boolean true)
  else if s = ['f', 'a', 'l', 's', 'e'] then some (.boolean false)
  else if isTime s || isDateTime s then some .datetime
  else
    basedInteger? s <|> decimalInteger? s <|> (float? s).map .float

/-- A text without quotation marks or brackets, and the rest of the document. One space may stand
between a date and a time. -/
def splitScalar (s : List Char) : List Char × List Char :=
  let first := s.takeWhile isScalarChar
  match s.dropWhile isScalarChar with
  | ' ' :: d :: r =>
    if (afterDate? first) == some [] && d.isDigit then
      (first ++ ' ' :: (d :: r).takeWhile isScalarChar, (d :: r).dropWhile isScalarChar)
    else (first, ' ' :: d :: r)
  | r => (first, r)

end SurfaceRegistry.Toml
