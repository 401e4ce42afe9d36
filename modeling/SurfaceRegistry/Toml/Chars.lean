/-!
# Characters of a TOML document

Which characters stand where, and the steps over white space, comments and ends of lines that separate
the parts of a document. A line ends with a line feed, possibly after a carriage return; a carriage
return stands nowhere else, and no other control character but the tab stands anywhere.
-/

namespace SurfaceRegistry.Toml

/-- Whether `c` separates parts within a line. -/
def isSpace (c : Char) : Bool :=
  c == ' ' || c == '\t'

/-- Whether `c` may stand in a comment or inside a text: no control character but the tab. -/
def isPlain (c : Char) : Bool :=
  c == '\t' || (0x20 ≤ c.toNat && c.toNat != 0x7f)

/-- Whether `c` may stand in a key without quotation marks. -/
def isBareKeyChar (c : Char) : Bool :=
  c.isAlphanum || c == '_' || c == '-'

/-- The characters that end a value without quotation marks. -/
def scalarEnds : List Char :=
  ['=', ',', '[', ']', '\x7b', '\x7d', '#', ' ', '\t', '\r', '\n']

/-- Whether a value without quotation marks goes on with `c`. -/
def isScalarChar (c : Char) : Bool :=
  !scalarEnds.contains c

/-- The rest of a line after spaces and tabs. -/
def skipSpaces (s : List Char) : List Char :=
  s.dropWhile isSpace

/-- The rest of a document after the end of a line, with a comment before it if `inComment`. -/
def endLineIn : Bool → List Char → Option (List Char)
  | _, [] => some []
  | _, '\n' :: r => some r
  | _, '\r' :: '\n' :: r => some r
  | inComment, c :: r =>
    if inComment then if isPlain c then endLineIn true r else none
    else if isSpace c then endLineIn false r
    else if c = '#' then endLineIn true r
    else none

/-- The rest of a document after what may stand at the end of a line: spaces, a comment, and the end of
the line or of the document. -/
def endLine (s : List Char) : Option (List Char) :=
  endLineIn false s

/-- The rest of a document after blank lines, comments and spaces; `inComment` tells where it starts. -/
def skipLinesIn : Bool → List Char → Option (List Char)
  | _, [] => some []
  | _, '\n' :: r => skipLinesIn false r
  | _, '\r' :: '\n' :: r => skipLinesIn false r
  | inComment, c :: r =>
    if inComment then if isPlain c then skipLinesIn true r else none
    else if isSpace c then skipLinesIn false r
    else if c = '#' then skipLinesIn true r
    else some (c :: r)

/-- The rest of a document after blank lines, comments and spaces. -/
def skipLines (s : List Char) : Option (List Char) :=
  skipLinesIn false s

end SurfaceRegistry.Toml
