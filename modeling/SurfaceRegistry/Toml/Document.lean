import SurfaceRegistry.Toml.Scalar
import SurfaceRegistry.Toml.Strings
import SurfaceRegistry.Toml.Table

/-!
# TOML documents

A document is a sequence of lines: a key with its value, the header of a table, the header of an element
of an array of tables, or nothing. Arrays and inline tables may go over several lines and end with a
comma: between their parts a line may end anywhere but inside a key. At most 80 of them lie inside one
another, and a key has at most 80 words.

The readers of parts of a document give what they read and the rest of the document. Those that call
themselves by way of each other have a budget of steps; the length of the document is always enough.
-/

namespace SurfaceRegistry.Toml

/-- How many arrays and inline tables may lie inside one another, and how many words a key may have. -/
def maxNesting : Nat := 80

/-! ### Keys -/

/-- One word of a key. -/
def readWord (s : List Char) : Option (String × List Char) :=
  match s with
  | '"' :: r => (basicText .plain r).map fun (t, r) => (String.ofList t, r)
  | '\'' :: r => (literalText r).map fun (t, r) => (String.ofList t, r)
  | s =>
    let word := s.takeWhile isBareKeyChar
    if word.isEmpty then none else some (String.ofList word, s.dropWhile isBareKeyChar)

/-- The words of a key, with points between them, and the rest without spaces in front. -/
def readWords : Nat → List Char → Option (Key × List Char)
  | 0, _ => none
  | fuel + 1, s => do
    let (word, s) ← readWord s
    match skipSpaces s with
    | '.' :: s =>
      let (key, s) ← readWords fuel (skipSpaces s)
      some (⟨word :: key.path, key.name⟩, s)
    | s => some (⟨[], word⟩, s)

/-- A key and the rest without spaces in front. -/
def readKey (s : List Char) : Option (Key × List Char) :=
  match readWords s.length s with
  | some (key, s) => if key.path.length < maxNesting then some (key, s) else none
  | none => none

/-! ### Values -/

mutual

/-- A value at a depth of nesting. -/
def readValue : Nat → Nat → List Char → Option (Value × List Char)
  | 0, _, _ => none
  | fuel + 1, depth, s =>
    match readText? s with
    | some t => t.map fun (t, r) => (.string (String.ofList t), r)
    | none =>
      match s with
      | '[' :: r =>
        if depth < maxNesting then
          (readItems fuel (depth + 1) r).map fun (vs, r) => (.array vs, r)
        else none
      | '\x7b' :: r =>
        if depth < maxNesting then do
          let (content, r) ← readMembers fuel (depth + 1) r
          let v ← inlineTable content
          some (v, r)
        else none
      | s =>
        let (text, r) := splitScalar s
        (scalar? text).map fun v => (v, r)

/-- The items of an array from the place of an item on, and the rest after the closing bracket. -/
def readItems : Nat → Nat → List Char → Option (List Value × List Char)
  | 0, _, _ => none
  | fuel + 1, depth, s => do
    match ← skipLines s with
    | ']' :: r => some ([], r)
    | s =>
      let (v, s) ← readValue fuel depth s
      match ← skipLines s with
      | ']' :: r => some ([v], r)
      | ',' :: r =>
        let (vs, r) ← readItems fuel depth r
        some (v :: vs, r)
      | _ => none

/-- The keys and values of an inline table from the place of a key on, and the rest after the closing
brace. -/
def readMembers : Nat → Nat → List Char → Option (List (Key × Value) × List Char)
  | 0, _, _ => none
  | fuel + 1, depth, s => do
    match ← skipLines s with
    | '\x7d' :: r => some ([], r)
    | s =>
      let (key, s) ← readKey s
      match ← skipLines s with
      | '=' :: s =>
        let (v, s) ← readValue fuel depth (← skipLines s)
        match ← skipLines s with
        | '\x7d' :: r => some ([(key, v)], r)
        | ',' :: r =>
          let (ms, r) ← readMembers fuel depth r
          some ((key, v) :: ms, r)
        | _ => none
      | _ => none

end

/-! ### Lines -/

/-- A line that is not empty. -/
inductive Line where
  /-- A key with its value. -/
  | entry (key : Key) (v : Value)
  /-- The header of a table. -/
  | tableHeader (key : Key)
  /-- The header of an element of an array of tables. -/
  | elementHeader (key : Key)

/-- The key of a header, after the opening brackets, and the rest from the closing ones on. -/
def readHeader (s : List Char) : Option (Key × List Char) :=
  readKey (skipSpaces s)

/-- A line that is not empty, and the rest of the document from the end of the line on. -/
def readLine : List Char → Option (Line × List Char)
  | '[' :: '[' :: r => do
    match ← readHeader r with
    | (key, ']' :: ']' :: r) => some (.elementHeader key, r)
    | _ => none
  | '[' :: r => do
    match ← readHeader r with
    | (key, ']' :: r) => some (.tableHeader key, r)
    | _ => none
  | s => do
    match ← readKey s with
    | (key, '=' :: r) =>
      let (v, r) ← readValue (2 * r.length + 2) 0 (skipSpaces r)
      some (.entry key v, r)
    | _ => none

/-- The lines of a document that are not empty. -/
def readLines : Nat → List Char → Option (List Line)
  | 0, _ => none
  | fuel + 1, s => do
    match ← skipLines s with
    | [] => some []
    | s =>
      let (line, s) ← readLine s
      let s ← endLine s
      let lines ← readLines fuel s
      some (line :: lines)

/-! ### Documents -/

/-- A header with the entries that follow it. -/
structure Section where
  /-- The change that the header makes with the entries. -/
  change : List (Key × Value) → Change
  /-- The entries. -/
  content : List (Key × Value)

/-- The entries up to the first header, and the sections from there on. -/
def sections : List Line → List (Key × Value) × List Section
  | [] => ([], [])
  | line :: r =>
    let (content, more) := sections r
    match line with
    | .entry k v => ((k, v) :: content, more)
    | .tableHeader k => ([], ⟨addTable k, content⟩ :: more)
    | .elementHeader k => ([], ⟨addElement k, content⟩ :: more)

/-- The sections added to a table one after another. -/
def addSections : List Section → Change
  | [], es => some es
  | s :: r, es => (s.change s.content es).bind (addSections r)

/-- The table that the lines of a document make up. -/
def tableOfLines (lines : List Line) : Option Table := do
  let (content, more) := sections lines
  let es ← addAll content []
  let es ← addSections more es
  some (toTable es)

/-- A document without the mark of its byte order. -/
def dropByteOrderMark : List Char → List Char
  | '\ufeff' :: r => r
  | s => s

/-- The table that a document stands for, if it is well-formed. -/
def parse? (document : String) : Option Table := do
  let s := dropByteOrderMark document.toList
  let lines ← readLines (s.length + 1) s
  tableOfLines lines

end SurfaceRegistry.Toml
