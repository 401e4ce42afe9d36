/-!
# Bytes and hexadecimal digits

Texts are ordered by their UTF-8 bytes, compared one by one; a proper beginning comes first. Natural numbers are
written as hexadecimal digits of a fixed width, and digits of either case are read as numbers.
-/

namespace SurfaceRegistry.Text

/-! ### Bytes -/

/-- The UTF-8 bytes of a text. -/
def utf8 (s : String) : List UInt8 :=
  s.toList.flatMap String.utf8EncodeChar

/-- The order of two texts by their bytes. -/
def compareBytes (s t : String) : Ordering :=
  compare (utf8 s) (utf8 t)

instance : Std.TransCmp compareBytes :=
  inferInstanceAs (Std.TransCmp (compareOn utf8))

/-- Whether `s` comes before `t` or is equal to it. -/
def bytesLe (s t : String) : Bool :=
  (compareBytes s t).isLE

/-! ### Hexadecimal digits -/

/-- The lower-case hexadecimal digit of `d`. -/
def hexDigit (d : Nat) : Char :=
  if d < 10 then Char.ofNat (48 + d) else Char.ofNat (87 + d)

/-- The `n` low hexadecimal digits of `v`, highest first. -/
def hexDigits : Nat → Nat → List Char
  | 0, _ => []
  | n + 1, v => hexDigits n (v / 16) ++ [hexDigit (v % 16)]

/-- The value of a hexadecimal digit, of either case. -/
def hexValue? (c : Char) : Option Nat :=
  let n := c.toNat
  if 48 ≤ n ∧ n ≤ 57 then some (n - 48)
  else if 97 ≤ n ∧ n ≤ 102 then some (n - 87)
  else if 65 ≤ n ∧ n ≤ 70 then some (n - 55)
  else none

/-- Every digit has its value. -/
theorem hexValue?_hexDigit : ∀ d < 16, hexValue? (hexDigit d) = some d := by
  decide

end SurfaceRegistry.Text
