import SurfaceRegistry.Toml.Value

/-!
# Building TOML tables

A document fills its tables from several places: keys with points in them, headers of tables, headers of
arrays of tables. Each place may only add to what it has not closed: a value is closed at once, a table
from a key with points may be filled further by such keys only, and a table with a header of its own
gets no second one.
-/

namespace SurfaceRegistry.Toml

/-- What called a table into being. -/
inductive Origin where
  /-- A header of its own. -/
  | header
  /-- The header of a table inside it. -/
  | implied
  /-- A key with points. -/
  | dotted
  deriving DecidableEq

/-- What a key leads to while a document is read. -/
inductive Node where
  /-- A value. It takes no further keys. -/
  | value (v : Value)
  /-- A table. -/
  | table (origin : Origin) (entries : List (String × Node))
  /-- An array of tables, by the entries of each. -/
  | tables (elements : List (List (String × Node)))
  deriving Inhabited

/-- The entries of a table while a document is read. -/
abbrev Entries := List (String × Node)

/-- Words between the points of a key, without the last one, and the last one. -/
structure Key where
  /-- The words that lead to a table. -/
  path : List String
  /-- The name of the entry in that table. -/
  name : String

/-- Something that is done to a table, unless it is refused. -/
abbrev Change := Entries → Option Entries

/-- A change of what one key leads to. -/
def changeEntry (name : String) (f : Option Node → Option Node) : Change
  | [] => (f none).map fun n => [(name, n)]
  | (k, n) :: r =>
    if k = name then (f (some n)).map fun m => (k, m) :: r
    else (changeEntry name f r).map ((k, n) :: ·)

/-- A change of the last table of an array. -/
def changeLast (f : Change) : List Entries → Option (List Entries)
  | [] => none
  | [e] => (f e).map fun e' => [e']
  | e :: r => (changeLast f r).map (e :: ·)

/-- A new entry. -/
def addValue (name : String) (v : Value) : Change :=
  changeEntry name fun
    | none => some (.value v)
    | some _ => none

/-- A new entry under a key with points. Tables on the way come into being as they are needed. One that
is only implied by the header of a table inside it becomes a table of such keys; one with a header of its
own is closed to them. The last table of an array may be passed through, but takes no entry itself. -/
def addDotted : List String → String → Value → Change
  | [], name, v => addValue name v
  | word :: path, name, v =>
    changeEntry word fun
      | none => (addDotted path name v []).map (.table .dotted ·)
      | some (.table .dotted es) | some (.table .implied es) =>
        (addDotted path name v es).map (.table .dotted ·)
      | some (.table .header _) => none
      | some (.tables es) =>
        if path.isEmpty then none else (changeLast (addDotted path name v) es).map .tables
      | some (.value _) => none

/-- A change of the table that the words of a header lead to. -/
def changeAt (f : Change) : List String → Change
  | [] => f
  | word :: path =>
    changeEntry word fun
      | none => (changeAt f path []).map (.table .implied ·)
      | some (.table origin es) => (changeAt f path es).map (.table origin ·)
      | some (.tables es) => (changeLast (changeAt f path) es).map .tables
      | some (.value _) => none

/-- The entries that follow a header, added one after another. -/
def addAll : List (Key × Value) → Change
  | [], es => some es
  | (k, v) :: r, es => (addDotted k.path k.name v es).bind (addAll r)

/-- The table of a header, filled with the entries that follow it. -/
def addTable (key : Key) (content : List (Key × Value)) : Change :=
  changeAt
    (changeEntry key.name fun
      | none => (addAll content []).map (.table .header ·)
      | some (.table .implied es) => (addAll content es).map (.table .header ·)
      | some _ => none)
    key.path

/-- One more table in the array of a header, filled with the entries that follow it. -/
def addElement (key : Key) (content : List (Key × Value)) : Change :=
  changeAt
    (changeEntry key.name fun
      | none => (addAll content []).map fun es => .tables [es]
      | some (.tables ts) => (addAll content []).map fun es => .tables (ts ++ [es])
      | some _ => none)
    key.path

mutual

/-- What a key leads to, as a value. -/
def Node.toValue : Node → Value
  | .value v => v
  | .table _ es => .table (toTable es)
  | .tables ts => .array (toTables ts)

/-- Entries as a table. -/
def toTable : List (String × Node) → List (String × Value)
  | [] => []
  | (k, n) :: r => (k, n.toValue) :: toTable r

/-- An array of tables as values. -/
def toTables : List (List (String × Node)) → List Value
  | [] => []
  | es :: r => .table (toTable es) :: toTables r

end

/-- The table of an inline table, from its keys and values. -/
def inlineTable (content : List (Key × Value)) : Option Value :=
  (addAll content []).map fun es => .table (toTable es)

end SurfaceRegistry.Toml
