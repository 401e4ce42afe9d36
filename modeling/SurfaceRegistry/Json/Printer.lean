import SurfaceRegistry.Decimal.Format
import SurfaceRegistry.Json.Value
import SurfaceRegistry.Text.Quoted

/-!
# Printing JSON

The indented form of a value: every item and every member on a line of its own, two spaces deeper than
the bracket that opens before it; nothing between the brackets of an empty array or object. Texts keep
their characters but for quotation marks, backslashes and control characters.
-/

namespace SurfaceRegistry.Json

/-- Numbers are positional from `10 ^ -5` up to `10 ^ 16`, and have an exponent beyond. -/
def decimalFormat : DecimalFormat where
  tie := .toEven
  positional first := -5 ≤ first ∧ first ≤ 15

/-- A character inside a text. -/
def escapedChar (c : Char) : List Char :=
  match c with
  | '"' => ['\\', '"']
  | '\\' => ['\\', '\\']
  | '\x08' => ['\\', 'b']
  | '\t' => ['\\', 't']
  | '\n' => ['\\', 'n']
  | '\x0c' => ['\\', 'f']
  | '\r' => ['\\', 'r']
  | c => if c.toNat < 0x20 then ['\\', 'u'] ++ Text.hexDigits 4 c.toNat else [c]

/-- A text between quotation marks. -/
def stringChars (s : List Char) : List Char :=
  '"' :: s.flatMap escapedChar ++ ['"']

/-- The decimal digits of an integer, after a minus if it is negative. -/
def integerChars : Int → List Char
  | .ofNat n => Nat.toDigits 10 n
  | .negSucc n => '-' :: Nat.toDigits 10 (n + 1)

/-- The end of a line and the indentation of the next. -/
def newline (depth : Nat) : List Char :=
  '\n' :: List.replicate (2 * depth) ' '

mutual

/-- A value whose closing bracket is indented to `depth`. -/
def prettyAt (depth : Nat) : Json → List Char
  | null => ['n', 'u', 'l', 'l']
  | bool true => ['t', 'r', 'u', 'e']
  | bool false => ['f', 'a', 'l', 's', 'e']
  | integer n => integerChars n
  | float x => decimalFormat.chars x
  | string s => stringChars s.toList
  | array [] => ['[', ']']
  | array (v :: vs) =>
    '[' :: newline (depth + 1) ++ prettyAt (depth + 1) v ++ prettyItems (depth + 1) vs ++
      newline depth ++ [']']
  | object [] => ['\x7b', '\x7d']
  | object ((k, v) :: ms) =>
    '\x7b' :: newline (depth + 1) ++ stringChars k.toList ++ [':', ' '] ++ prettyAt (depth + 1) v ++
      prettyMembers (depth + 1) ms ++ newline depth ++ ['\x7d']

/-- Further items of an array, each after a comma on a line of its own. -/
def prettyItems (depth : Nat) : List Json → List Char
  | [] => []
  | v :: vs => ',' :: newline depth ++ prettyAt depth v ++ prettyItems depth vs

/-- Further members of an object, each after a comma on a line of its own. -/
def prettyMembers (depth : Nat) : List (String × Json) → List Char
  | [] => []
  | (k, v) :: ms =>
    ',' :: newline depth ++ stringChars k.toList ++ [':', ' '] ++ prettyAt depth v ++
      prettyMembers depth ms

end

/-- The indented text of a value. -/
def pretty (v : Json) : String :=
  String.ofList (prettyAt 0 v)

end SurfaceRegistry.Json
