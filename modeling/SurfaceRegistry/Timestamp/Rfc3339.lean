import SurfaceRegistry.Timestamp

/-!
# Timestamps as text

The text of a timestamp after RFC 3339. Written text has a `T` between date and time, as many digits of
the second as are needed, and `Z` for universal time. Read text may have any one ASCII character for the
`T`, a small `z`, and any number of digits of the second, of which nine count. It may also name a leap
second, in the last minute of a month of universal time; this is kept as the last nanosecond before it.
-/

namespace SurfaceRegistry.Timestamp

/-! ### Writing -/

/-- The `n` low decimal digits of `v`. -/
def paddedDigits : Nat → Nat → List Char
  | 0, _ => []
  | n + 1, v => paddedDigits n (v / 10) ++ [Nat.digitChar (v % 10)]

/-- A list of digits without the zeros at its end. -/
def dropTrailingZeros : List Char → List Char
  | [] => []
  | c :: r =>
    match dropTrailingZeros r with
    | [] => if c = '0' then [] else [c]
    | d :: s => c :: d :: s

/-- The part of a second, with its point, unless it is zero. -/
def fractionChars (nanosecond : Nat) : List Char :=
  if nanosecond = 0 then [] else '.' :: dropTrailingZeros (paddedDigits 9 nanosecond)

/-- An offset as sign, hours and minutes. -/
def offsetChars (o : UtcOffset) : List Char :=
  if o.minutes = 0 then ['Z']
  else
    (if o.minutes < 0 then '-' else '+') ::
      paddedDigits 2 (o.minutes.natAbs / 60) ++ ':' :: paddedDigits 2 (o.minutes.natAbs % 60)

/-- The text of a timestamp. -/
def chars (t : Timestamp) : List Char :=
  paddedDigits 4 t.date.year ++ '-' :: paddedDigits 2 t.date.month ++ '-' ::
    paddedDigits 2 t.date.day ++ 'T' :: paddedDigits 2 t.time.hour ++ ':' ::
    paddedDigits 2 t.time.minute ++ ':' :: paddedDigits 2 t.time.second ++
    fractionChars t.time.nanosecond ++ offsetChars t.offset

/-- The text of a timestamp. -/
def text (t : Timestamp) : String :=
  String.ofList t.chars

/-! ### Reading -/

/-- The value of a decimal digit. -/
def digit? (c : Char) : Option Nat :=
  if c.isDigit then some (c.toNat - 48) else none

/-- A number of exactly `n` digits after the number `v`, and the rest of the text. -/
def readNumber (v : Nat) : Nat → List Char → Option (Nat × List Char)
  | 0, s => some (v, s)
  | _ + 1, [] => none
  | n + 1, c :: r =>
    match digit? c with
    | some d => readNumber (10 * v + d) n r
    | none => none

/-- The rest of the text after a given character. -/
def expect (c : Char) : List Char → Option (List Char)
  | [] => none
  | d :: r => if d = c then some r else none

/-- The nanoseconds that the digits of a part of a second stand for: the first `places` count. -/
def nanosecondsOf : Nat → List Char → Nat
  | _, [] => 0
  | 0, _ :: _ => 0
  | places + 1, c :: r => (c.toNat - 48) * Nat.pow 10 places + nanosecondsOf places r

/-- The part of a second, if there is one, and the rest of the text. -/
def readFraction : List Char → Option (Nat × List Char)
  | '.' :: r =>
    let digits := r.takeWhile Char.isDigit
    if digits.isEmpty then none else some (nanosecondsOf 9 digits, r.dropWhile Char.isDigit)
  | s => some (0, s)

/-- An offset of hours and minutes with a sign. -/
def readSignedOffset (negative : Bool) (s : List Char) : Option UtcOffset := do
  let (hours, s) ← readNumber 0 2 s
  let s ← expect ':' s
  let (minutes, s) ← readNumber 0 2 s
  if s ≠ [] ∨ hours > 23 ∨ minutes > 59 then none
  else
    let total : Int := hours * 60 + minutes
    let minutes := if negative then -total else total
    if h : minutes.natAbs < 24 * 60 then some ⟨minutes, h⟩ else none

/-- An offset, up to the end of the text. -/
def readOffset : List Char → Option UtcOffset
  | ['Z'] | ['z'] => some .zero
  | '+' :: r => readSignedOffset false r
  | '-' :: r => readSignedOffset true r
  | _ => none

/-- Whether the minute of a clock is the last of a month in universal time. The last minute of the next
day is out of reach of an offset of less than a day. -/
def isLastMinuteOfMonth (date : Date) (hour minute : Nat) (offset : UtcOffset) : Bool :=
  let universal : Int := (hour : Int) * 60 + minute - offset.minutes
  (universal == 1439 && date.isEndOfMonth) ||
  (universal == -1 && date.day == 1)

/-- The time of day with these numbers, if there is one. -/
def timeOfDay? (hour minute second nanosecond : Nat) : Option TimeOfDay :=
  if h : hour < 24 ∧ minute < 60 ∧ second < 60 ∧ nanosecond < 1000000000 then
    some ⟨⟨hour, h.1⟩, ⟨minute, h.2.1⟩, ⟨second, h.2.2.1⟩, ⟨nanosecond, h.2.2.2⟩⟩
  else none

/-- The timestamp that a text stands for. -/
def parse? (s : List Char) : Option Timestamp := do
  let (year, s) ← readNumber 0 4 s
  let s ← expect '-' s
  let (month, s) ← readNumber 0 2 s
  let s ← expect '-' s
  let (day, s) ← readNumber 0 2 s
  let date ← Date.ofNumbers? year month day
  let s ← match s with
    | [] => none
    | c :: r => if c.toNat < 128 then some r else none
  let (hour, s) ← readNumber 0 2 s
  let s ← expect ':' s
  let (minute, s) ← readNumber 0 2 s
  let s ← expect ':' s
  let (second, s) ← readNumber 0 2 s
  let (nanosecond, s) ← readFraction s
  let offset ← readOffset s
  if second = 60 then
    if isLastMinuteOfMonth date hour minute offset then
      let time ← timeOfDay? hour minute 59 999999999
      some ⟨date, time, offset⟩
    else none
  else
    let time ← timeOfDay? hour minute second nanosecond
    some ⟨date, time, offset⟩

end SurfaceRegistry.Timestamp
