import SurfaceRegistry.Json.Printer
import SurfaceRegistry.Json.Tree
import SurfaceRegistry.Mismatch
import SurfaceRegistry.Text.Encoding

/-!
# Reading JSON into a model

A decoder takes the tree of a value to a value of a model. It meets the parts of the tree in the order
of the document, and the first that is broken or does not fit is the error. A structure is an object
with its fields as members, in any order and among any others, or an array with its fields as items. At
most 127 arrays and objects that are kept lie inside one another.
-/

namespace SurfaceRegistry.Json

/-- Why a document gives no value of the model. -/
inductive DecodeError where
  /-- The document is broken, or something in it cannot be represented. -/
  | malformed
  /-- The document does not fit the model. -/
  | mismatch (m : Mismatch)
  /-- A text is not a timestamp. -/
  | badTimestamp (text : String)
  deriving DecidableEq

/-- A value of the model, or the reason why there is none. -/
abbrev Decoded (α : Type) := Except DecodeError α

/-- A reader of a tree inside a number of arrays and objects. -/
abbrev Decoder (α : Type) := Nat → Tree → Decoded α

/-- How many arrays and objects may lie inside one another. -/
def maxNesting : Nat := 127

/-- The depth inside one more array or object. -/
def enter (depth : Nat) : Decoded Nat :=
  if depth < maxNesting then .ok (depth + 1) else .error .malformed

/-! ### Wrong kinds of values -/

/-- A number as it is found. -/
def foundNumber (n : Numeral) : Decoded Found :=
  match n.value? with
  | some (.integer i) => .ok (.integer i)
  | some (.float x) => .ok (.float (String.ofList (decimalFormat.chars x)))
  | _ => .error .malformed

/-- A value as it is found. -/
def found : Tree → Decoded Found
  | .null => .ok .null
  | .bool b => .ok (.bool b)
  | .number n => foundNumber n
  | .string (some s) => .ok (.string s)
  | .string none => .error .malformed
  | .array _ _ => .ok .sequence
  | .object _ _ | .badKey _ _ => .ok .map
  | .broken => .error .malformed

/-- The error that a value is of another kind than the expected one. -/
def wrongType {α : Type} (t : Tree) (expected : String) : Decoded α := do
  let f ← found t
  .error (.mismatch (.invalidType f expected))

/-! ### Single values -/

/-- A text. -/
def decodeText : Decoder String
  | _, .string (some s) => .ok s
  | _, t => wrongType t "a string"

/-- A truth value. -/
def decodeBool : Decoder Bool
  | _, .bool b => .ok b
  | _, t => wrongType t "a boolean"

/-- A natural number of 32 bits. -/
def decodeCount : Decoder UInt32
  | _, .number n =>
    match n.value? with
    | some (.integer i) =>
      if 0 ≤ i ∧ i < UInt32.size then .ok (UInt32.ofNat i.toNat)
      else .error (.mismatch (.invalidValue (.integer i) "u32"))
    | _ => wrongType (.number n) "u32"
  | _, t => wrongType t "u32"

/-- A value that may be `null`. -/
def decodeOptional {α : Type} (d : Decoder α) : Decoder (Option α)
  | _, .null => .ok none
  | depth, t => (d depth t).map some

/-- The variant of a name. -/
def variantOf {α : Type} (variants : List (String × α)) (name : String) : Decoded α :=
  match variants.find? fun v => v.1 = name with
  | some v => .ok v.2
  | none => .error (.mismatch (.unknownVariant name (variants.map Prod.fst)))

/-- The value that belongs to the name of a variant without content. -/
def decodeUnit : Tree → Decoded Unit
  | .null => .ok ()
  | t => wrongType t "unit"

/-- One of several variants, by its name or as an object with its name for a key. -/
def decodeVariant {α : Type} (variants : List (String × α)) : Decoder α
  | _, .string (some s) => variantOf variants s
  | depth, .object ((some key, t) :: more) closed => do
    let _ ← enter depth
    let v ← variantOf variants key
    decodeUnit t
    if more.isEmpty && closed then .ok v else .error .malformed
  | depth, .badKey [] key => do
    let _ ← enter depth
    wrongType key "variant identifier"
  | depth, .badKey ((some key, t) :: _) _ => do
    let _ ← enter depth
    let _ ← variantOf variants key
    decodeUnit t
    .error .malformed
  | _, _ => .error .malformed

/-! ### Lists -/

/-- The items of an array, one after another. -/
def decodeItems {α : Type} (d : Decoder α) (depth : Nat) (closed : Bool) :
    List Tree → Decoded (List α)
  | [] => if closed then .ok [] else .error .malformed
  | t :: ts => do
    let a ← d depth t
    let as ← decodeItems d depth closed ts
    pure (a :: as)

/-- A list. -/
def decodeList {α : Type} (d : Decoder α) : Decoder (List α)
  | depth, .array items closed => do
    let depth ← enter depth
    decodeItems d depth closed items
  | _, t => wrongType t "a sequence"

/-! ### Structures -/

/-- Whether a field may be left out. -/
inductive Presence where
  /-- It may not. -/
  | required
  /-- It may in an object, but not in an array. -/
  | optional
  /-- It may. -/
  | defaulted
  deriving DecidableEq

/-- A field of a structure. -/
structure Field (α : Type) where
  /-- Its name. -/
  name : String
  /-- Whether it may be left out. -/
  presence : Presence
  /-- The structure with the field as a tree gives it. -/
  set : Nat → Tree → α → Decoded α

/-- A field by the decoder of its values and the change that a value makes. -/
def Field.of {α β : Type} (name : String) (presence : Presence) (d : Decoder β)
    (set : β → α → α) : Field α where
  name := name
  presence := presence
  set depth t a := (d depth t).map fun b => set b a

/-- A structure. -/
structure Model (α : Type) where
  /-- Its name. -/
  name : String
  /-- Its fields in the order of their declaration. -/
  fields : List (Field α)
  /-- The structure before any field is set. -/
  blank : α

namespace Model

variable {α : Type}

/-- The field with a name. -/
def field? (m : Model α) (name : String) : Option (Field α) :=
  m.fields.find? fun f => f.name = name

/-- The first field that may not be left out and is not among those seen. -/
def missing? (m : Model α) (seen : List String) : Option String :=
  (m.fields.find? fun f => f.presence = .required && !seen.contains f.name).map Field.name

/-- The structure at the end of an object. -/
def finish (m : Model α) (seen : List String) (a : α) : Decoded α :=
  match m.missing? seen with
  | none => .ok a
  | some name => .error (.mismatch (.missingField name))

/-- The structure with the members of an object that follow those seen. -/
def decodeMembers (m : Model α) (depth : Nat) (closed : Bool) :
    List String → α → List (Option String × Tree) → Decoded α
  | seen, a, [] => if closed then m.finish seen a else .error .malformed
  | _, _, (none, _) :: _ => .error .malformed
  | seen, a, (some key, t) :: more =>
    match m.field? key with
    | none => if t.isWhole then decodeMembers m depth closed seen a more else .error .malformed
    | some f =>
      if seen.contains key then .error (.mismatch (.duplicateField key))
      else do
        let a ← f.set depth t a
        decodeMembers m depth closed (key :: seen) a more

/-- The structure with the items of an array for the fields from number `i` on. -/
def decodeElements (m : Model α) (depth : Nat) (closed : Bool) :
    List (Field α) → Nat → α → List Tree → Decoded α
  | [], _, a, [] => if closed then .ok a else .error .malformed
  | [], _, _, _ :: _ => .error .malformed
  | f :: fs, i, a, [] =>
    if !closed then .error .malformed
    else if f.presence = .defaulted then decodeElements m depth closed fs (i + 1) a []
    else .error (.mismatch (.invalidLength i m.name m.fields.length))
  | f :: fs, i, a, t :: ts => do
    let a ← f.set depth t a
    decodeElements m depth closed fs (i + 1) a ts

/-- A structure. -/
def decode (m : Model α) : Decoder α
  | depth, .object members closed => do
    let depth ← enter depth
    m.decodeMembers depth closed [] m.blank members
  | depth, .badKey members _ => do
    let depth ← enter depth
    m.decodeMembers depth false [] m.blank members
  | depth, .array items closed => do
    let depth ← enter depth
    m.decodeElements depth closed m.fields 0 m.blank items
  | _, t => wrongType t ("struct " ++ m.name)

end Model

/-! ### Any value -/

/-- Members in the order of their keys with one more, in the place of one with the same key. -/
def insertMember (key : String) (v : Json) : List (String × Json) → List (String × Json)
  | [] => [(key, v)]
  | (k, w) :: ms =>
    match Text.compareBytes key k with
    | .lt => (key, v) :: (k, w) :: ms
    | .eq => (key, v) :: ms
    | .gt => (k, w) :: insertMember key v ms

mutual

/-- Any value. The members of an object come in the order of their keys, the last with a key counts. -/
def decodeAny (depth : Nat) : Tree → Decoded Json
  | .null => .ok .null
  | .bool b => .ok (.bool b)
  | .number n =>
    match n.value? with
    | some v => .ok v
    | none => .error .malformed
  | .string (some s) => .ok (.string s)
  | .string none => .error .malformed
  | .array items closed => do
    let depth ← enter depth
    let vs ← decodeAll depth items
    if closed then .ok (.array vs) else .error .malformed
  | .object members closed => do
    let depth ← enter depth
    let ms ← decodeAllMembers depth [] members
    if closed then .ok (.object ms) else .error .malformed
  | .badKey _ _ => .error .malformed
  | .broken => .error .malformed

/-- Values one after another. -/
def decodeAll (depth : Nat) : List Tree → Decoded (List Json)
  | [] => .ok []
  | t :: ts => do
    let v ← decodeAny depth t
    let vs ← decodeAll depth ts
    pure (v :: vs)

/-- Members one after another, put among those that are there. -/
def decodeAllMembers (depth : Nat) (ms : List (String × Json)) :
    List (Option String × Tree) → Decoded (List (String × Json))
  | [] => .ok ms
  | (none, _) :: _ => .error .malformed
  | (some key, t) :: more => do
    let v ← decodeAny depth t
    decodeAllMembers depth (insertMember key v ms) more

end

/-! ### Documents -/

/-- The value of the model that a document holds. -/
def decodeDocument {α : Type} (d : Decoder α) (text : String) : Decoded α := do
  let doc := Document.read text.toList
  let a ← d 0 doc.root
  if doc.ended then .ok a else .error .malformed

end SurfaceRegistry.Json
