import SurfaceRegistry.Json.Numeral
import SurfaceRegistry.Text.Encoding

/-!
# The structure of a JSON document

A document is first read as a tree that follows its spelling: numbers by their digits, members in the
order of the document, also those with the same key. The tree of a document that is broken reaches to
the place where it breaks, so that a reader of the tree meets what comes before that place first.
-/

namespace SurfaceRegistry.Json

/-- A value as it is spelled. -/
inductive Tree where
  /-- The value `null`. -/
  | null
  /-- A truth value. -/
  | bool (b : Bool)
  /-- A number. -/
  | number (n : Numeral)
  /-- A text, or nothing if it names half of a surrogate pair. -/
  | string (s : Option String)
  /-- The items of an array, and whether its closing bracket follows. -/
  | array (items : List Tree) (closed : Bool)
  /-- The members of an object, and whether its closing brace follows. -/
  | object (members : List (Option String × Tree)) (closed : Bool)
  /-- The members of an object up to a key that is not a text. -/
  | badKey (members : List (Option String × Tree)) (key : Tree)
  /-- A place where the document breaks. -/
  | broken
  deriving Inhabited

namespace Tree

/-! ### Texts -/

/-- Whether `c` is white space between the parts of a document. -/
def isSpace (c : Char) : Bool :=
  c == ' ' || c == '\n' || c == '\t' || c == '\r'

/-- The rest of a document after white space. -/
def skipSpaces (s : List Char) : List Char :=
  s.dropWhile isSpace

/-- What a reader of a text is in the middle of. -/
inductive TextMode where
  /-- Nothing. -/
  | plain
  /-- An escape, of which only the backslash is read. -/
  | escape
  /-- An escape by code unit: the hexadecimal digits to come, and the value of those read. -/
  | hex (left : Nat) (value : Nat)
  deriving DecidableEq

/-- The character that an escape of one letter stands for. -/
def shortEscape? (c : Char) : Option Char :=
  match c with
  | '"' => some '"'
  | '\\' => some '\\'
  | '/' => some '/'
  | 'b' => some '\x08'
  | 'f' => some '\x0c'
  | 'n' => some '\n'
  | 'r' => some '\r'
  | 't' => some '\t'
  | _ => none

/-- Whether a code unit is the first half of a surrogate pair. -/
def isHighSurrogate (u : Nat) : Bool :=
  0xd800 ≤ u && u < 0xdc00

/-- Whether a code unit is the second half of a surrogate pair. -/
def isLowSurrogate (u : Nat) : Bool :=
  0xdc00 ≤ u && u < 0xe000

/-- The code point of a surrogate pair. -/
def pairCode (high low : Nat) : Nat :=
  0x10000 + (high - 0xd800) * 0x400 + (low - 0xdc00)

/-- The characters of a text, or nothing if one is half of a surrogate pair, and the rest of the
document after the text. -/
abbrev TextAndRest := Option (List Char) × List Char

/-- A text with one more character in front. -/
def consChar (c : Char) (t : Option TextAndRest) : Option TextAndRest :=
  t.map fun p => (p.1.map (c :: ·), p.2)

/-- A text that names half of a surrogate pair. -/
def spoil (t : Option TextAndRest) : Option TextAndRest :=
  t.map fun p => (none, p.2)

/-- A text with one more character in front, before which a surrogate pair may be left unfinished. -/
def consAfter (high : Option Nat) (c : Char) (t : Option TextAndRest) : Option TextAndRest :=
  if high.isSome then spoil t else consChar c t

/-- The characters of a text after its opening quotation mark, where `high` is the first half of a
surrogate pair just before, if there is one. -/
def readChars : TextMode → Option Nat → List Char → Option TextAndRest
  | _, _, [] => none
  | .plain, high, c :: r =>
    if c = '"' then some (if high.isSome then none else some [], r)
    else if c = '\\' then readChars .escape high r
    else if c.toNat < 0x20 then none
    else consAfter high c (readChars .plain none r)
  | .escape, high, c :: r =>
    if c = 'u' then readChars (.hex 4 0) high r
    else
      match shortEscape? c with
      | none => none
      | some e => consAfter high e (readChars .plain none r)
  | .hex left value, high, c :: r =>
    match Text.hexValue? c with
    | none => none
    | some d =>
      let u := 16 * value + d
      if left ≠ 1 then readChars (.hex (left - 1) u) high r
      else
        match high with
        | some h =>
          if isLowSurrogate u then consChar (Char.ofNat (pairCode h u)) (readChars .plain none r)
          else spoil (readChars .plain none r)
        | none =>
          if isHighSurrogate u then readChars .plain (some u) r
          else if isLowSurrogate u then spoil (readChars .plain none r)
          else consChar (Char.ofNat u) (readChars .plain none r)

/-- A text after its opening quotation mark. -/
def readText (s : List Char) : Option (Option String × List Char) :=
  (readChars .plain none s).map fun (t, r) => (t.map String.ofList, r)

/-! ### Values

Each reader gives a tree and the rest of the document, or no rest if the document breaks in the tree.
Those that call themselves by way of each other have a budget of steps; twice the length of the document
is always enough. -/

mutual

/-- A value. -/
def read : Nat → List Char → Tree × Option (List Char)
  | 0, _ => (.broken, none)
  | fuel + 1, s =>
    match skipSpaces s with
    | 'n' :: 'u' :: 'l' :: 'l' :: r => (.null, some r)
    | 't' :: 'r' :: 'u' :: 'e' :: r => (.bool true, some r)
    | 'f' :: 'a' :: 'l' :: 's' :: 'e' :: r => (.bool false, some r)
    | '"' :: r =>
      match readText r with
      | none => (.broken, none)
      | some (t, r) => (.string t, some r)
    | '[' :: r =>
      match skipSpaces r with
      | ']' :: r => (.array [] true, some r)
      | _ =>
        let (items, rest) := readItems fuel r
        (.array items rest.isSome, rest)
    | '\x7b' :: r =>
      match skipSpaces r with
      | '\x7d' :: r => (.object [] true, some r)
      | _ => readMembers fuel [] r
    | s =>
      match Numeral.scan s with
      | none => (.broken, none)
      | some (n, r) => (.number n, some r)

/-- The items of an array from the place of an item on. -/
def readItems : Nat → List Char → List Tree × Option (List Char)
  | 0, _ => ([], none)
  | fuel + 1, s =>
    let (item, rest) := read fuel s
    match rest.map skipSpaces with
    | some (']' :: r) => ([item], some r)
    | some (',' :: r) =>
      let (items, rest) := readItems fuel r
      (item :: items, rest)
    | _ => ([item], none)

/-- An object whose members up to the place of a key are given, last first. -/
def readMembers : Nat → List (Option String × Tree) → List Char → Tree × Option (List Char)
  | 0, before, _ => (.object before.reverse false, none)
  | fuel + 1, before, s =>
    match skipSpaces s with
    | '"' :: r =>
      match readText r with
      | none => (.object before.reverse false, none)
      | some (key, r) =>
        match skipSpaces r with
        | ':' :: r =>
          let (value, rest) := read fuel r
          match rest.map skipSpaces with
          | some ('\x7d' :: r) => (.object ((key, value) :: before).reverse true, some r)
          | some (',' :: r) => readMembers fuel ((key, value) :: before) r
          | _ => (.object ((key, value) :: before).reverse false, none)
        | _ => (.object ((key, .broken) :: before).reverse false, none)
    | s => (.badKey before.reverse (read fuel s).1, none)

end

/-! ### Whole trees -/

mutual

/-- Whether a tree has no place where the document breaks. -/
def isWhole : Tree → Bool
  | null | bool _ | number _ | string _ => true
  | array items closed => closed && allWhole items
  | object members closed => closed && allMembersWhole members
  | badKey _ _ | broken => false

/-- Whether all items are whole. -/
def allWhole : List Tree → Bool
  | [] => true
  | t :: ts => t.isWhole && allWhole ts

/-- Whether all members are whole. -/
def allMembersWhole : List (Option String × Tree) → Bool
  | [] => true
  | (_, t) :: ms => t.isWhole && allMembersWhole ms

end

end Tree

/-- A document: its tree, and whether nothing but white space follows. -/
structure Document where
  /-- The value of the document. -/
  root : Tree
  /-- Whether nothing but white space follows. -/
  ended : Bool

/-- The structure of a document. -/
def Document.read (s : List Char) : Document :=
  match Tree.read (2 * s.length + 2) s with
  | (root, none) => ⟨root, false⟩
  | (root, some r) => ⟨root, (Tree.skipSpaces r).isEmpty⟩

end SurfaceRegistry.Json
