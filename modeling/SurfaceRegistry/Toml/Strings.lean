import SurfaceRegistry.Text.Encoding
import SurfaceRegistry.Toml.Chars

/-!
# Texts in a TOML document

A text stands between quotation marks or apostrophes, on one line between single ones and on any number
of lines between triple ones. Between quotation marks a backslash starts an escape. Two more marks may
stand before a closing triple; they belong to the text.

Each reader starts after the opening marks and gives the characters of the text and the rest of the
document after the closing marks.
-/

namespace SurfaceRegistry.Toml

/-- What a reader between quotation marks is in the middle of. -/
inductive EscapeMode where
  /-- Nothing. -/
  | plain
  /-- An escape, of which only the backslash is read. -/
  | escape
  /-- An escape by code point: the hexadecimal digits to come, and the value of those read. -/
  | hex (left : Nat) (value : Nat)
  /-- A backslash and spaces that the end of a line has to follow. -/
  | lineEnd
  /-- The white space after a backslash at the end of a line. -/
  | fold
  deriving DecidableEq

/-- The character that an escape of one letter stands for. -/
def shortEscape? (c : Char) : Option Char :=
  match c with
  | 'b' => some '\x08'
  | 't' => some '\t'
  | 'n' => some '\n'
  | 'f' => some '\x0c'
  | 'r' => some '\r'
  | 'e' => some '\x1b'
  | '"' => some '"'
  | '\\' => some '\\'
  | _ => none

/-- How many digits an escape by code point has. -/
def hexEscapeLength? (c : Char) : Option Nat :=
  match c with
  | 'x' => some 2
  | 'u' => some 4
  | 'U' => some 8
  | _ => none

/-- The character with a code point. -/
def charOfCode? (n : Nat) : Option Char :=
  if h : n.isValidChar then some (Char.ofNatAux n h) else none

/-- A text and the rest of the document. -/
abbrev TextAndRest := List Char × List Char

/-- A text and the rest, with one more character in front. -/
def consText (c : Char) (t : Option TextAndRest) : Option TextAndRest :=
  t.map fun p => (c :: p.1, p.2)

/-- The character that ends an escape by code point, unless there are more digits to come. -/
def hexStep (left value : Nat) (c : Char) : Option (Option Char × EscapeMode) :=
  match Text.hexValue? c with
  | none => none
  | some d =>
    if left = 1 then (charOfCode? (16 * value + d)).map fun e => (some e, .plain)
    else some (none, .hex (left - 1) (16 * value + d))

/-- The step after a backslash. -/
def escapeStep (c : Char) : Option (Option Char × EscapeMode) :=
  match shortEscape? c with
  | some e => some (some e, .plain)
  | none => (hexEscapeLength? c).map fun n => (none, .hex n 0)

/-- A text between single quotation marks. -/
def basicText : EscapeMode → List Char → Option TextAndRest
  | _, [] => none
  | .plain, c :: r =>
    if c = '"' then some ([], r)
    else if c = '\\' then basicText .escape r
    else if isPlain c then consText c (basicText .plain r)
    else none
  | .escape, c :: r =>
    match escapeStep c with
    | none => none
    | some (none, mode) => basicText mode r
    | some (some e, mode) => consText e (basicText mode r)
  | .hex left value, c :: r =>
    match hexStep left value c with
    | none => none
    | some (none, mode) => basicText mode r
    | some (some e, mode) => consText e (basicText mode r)
  | .lineEnd, _ :: _ => none
  | .fold, _ :: _ => none

/-- A text between triple quotation marks. -/
def multiLineText : EscapeMode → List Char → Option TextAndRest
  | .plain, '"' :: '"' :: '"' :: '"' :: '"' :: r => some (['"', '"'], r)
  | .plain, '"' :: '"' :: '"' :: '"' :: r => some (['"'], r)
  | .plain, '"' :: '"' :: '"' :: r => some ([], r)
  | .plain, '\r' :: '\n' :: r => consText '\r' (consText '\n' (multiLineText .plain r))
  | .lineEnd, '\r' :: '\n' :: r => multiLineText .fold r
  | .escape, '\r' :: '\n' :: r => multiLineText .fold r
  | .fold, '\r' :: '\n' :: r => multiLineText .fold r
  | .fold, '"' :: '"' :: '"' :: '"' :: '"' :: r => some (['"', '"'], r)
  | .fold, '"' :: '"' :: '"' :: '"' :: r => some (['"'], r)
  | .fold, '"' :: '"' :: '"' :: r => some ([], r)
  | _, [] => none
  | .plain, c :: r =>
    if c = '\\' then multiLineText .escape r
    else if c = '\n' || isPlain c then consText c (multiLineText .plain r)
    else none
  | .escape, c :: r =>
    if c = '\n' then multiLineText .fold r
    else if isSpace c then multiLineText .lineEnd r
    else
      match escapeStep c with
      | none => none
      | some (none, mode) => multiLineText mode r
      | some (some e, mode) => consText e (multiLineText mode r)
  | .hex left value, c :: r =>
    match hexStep left value c with
    | none => none
    | some (none, mode) => multiLineText mode r
    | some (some e, mode) => consText e (multiLineText mode r)
  | .lineEnd, c :: r =>
    if c = '\n' then multiLineText .fold r
    else if isSpace c then multiLineText .lineEnd r
    else none
  | .fold, c :: r =>
    if c = '\n' || isSpace c then multiLineText .fold r
    else if c = '\\' then multiLineText .escape r
    else if isPlain c then consText c (multiLineText .plain r)
    else none

/-- A text between single apostrophes. -/
def literalText : List Char → Option TextAndRest
  | [] => none
  | c :: r =>
    if c = '\'' then some ([], r)
    else if isPlain c then consText c (literalText r)
    else none

/-- A text between triple apostrophes. -/
def multiLineLiteral : List Char → Option TextAndRest
  | '\'' :: '\'' :: '\'' :: '\'' :: '\'' :: r => some (['\'', '\''], r)
  | '\'' :: '\'' :: '\'' :: '\'' :: r => some (['\''], r)
  | '\'' :: '\'' :: '\'' :: r => some ([], r)
  | '\r' :: '\n' :: r => consText '\r' (consText '\n' (multiLineLiteral r))
  | [] => none
  | c :: r =>
    if c = '\n' || isPlain c then consText c (multiLineLiteral r) else none

/-- A text of several lines does not begin with the end of the line on which it is opened. -/
def dropFirstLineEnd : List Char → List Char
  | '\n' :: r => r
  | '\r' :: '\n' :: r => r
  | s => s

/-- The text that starts here, if the document goes on with a mark that opens one. -/
def readText? : List Char → Option (Option TextAndRest)
  | '"' :: '"' :: '"' :: r => some (multiLineText .plain (dropFirstLineEnd r))
  | '"' :: r => some (basicText .plain r)
  | '\'' :: '\'' :: '\'' :: r => some (multiLineLiteral (dropFirstLineEnd r))
  | '\'' :: r => some (literalText r)
  | _ => none

end SurfaceRegistry.Toml
