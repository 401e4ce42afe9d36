import SurfaceRegistry.Check.Layout
import SurfaceRegistry.Disk.Lookup

/-!
# A machine as a value

A tree of files, the directory that relative paths start from, and a clock that stands still: all that a
run of the program can see or change. Reading and writing go by the rules of a POSIX file system on
which everything may be read and written.
-/

namespace SurfaceRegistry.Disk

/-- A machine that a program can run on. -/
structure Machine where
  /-- The tree of files. -/
  root : Node
  /-- The directory that relative paths start from. -/
  cwd : Place
  /-- The time. -/
  clock : Timestamp
  /-- No directory has two entries of one name. -/
  tidy : root.Tidy := by simp

namespace Machine

/-! ### Looking -/

/-- Where a path leads when all links are followed. -/
def target (m : Machine) (path : String) : Except OsError Target :=
  follow m.root m.cwd true (endsWithSlash path) path

/-- The node that a path leads to, and its place. A file is none if a directory is asked for. -/
def node? (m : Machine) (path : String) : Except OsError (Place × Node) :=
  match m.target path with
  | .error e => .error e
  | .ok (.absent _ _ _) => .error .notFound
  | .ok (.present place wantsDirectory) =>
    match m.root.at? place with
    | some (.directory entries) => .ok (place, .directory entries)
    | some n => if wantsDirectory then .error .notADirectory else .ok (place, n)
    | none => .error .notFound

/-- What stands at a path. -/
def kind? (m : Machine) (path : String) : Option NodeKind :=
  match m.node? path with
  | .ok (_, .file _) => some .file
  | .ok (_, .directory _) => some .directory
  | .ok (_, .link _) => some .other
  | .error _ => none

/-- The absolute path of a place. -/
def placeText (place : Place) : String :=
  "/" ++ "/".intercalate place

/-- The absolute path without links of what is at a path. -/
def canonical? (m : Machine) (path : String) : Option String :=
  match m.node? path with
  | .ok (place, _) => some (placeText place)
  | .error _ => none

/-- How many Kotlin sources are below a directory. -/
def kotlinSources (m : Machine) (path : String) : Nat :=
  match m.node? path with
  | .ok (_, .directory entries) => Node.kotlinSourcesIn path entries
  | _ => 0

/-- The content of a file. -/
def read (m : Machine) (path : String) : Except OsError ByteArray :=
  match m.node? path with
  | .ok (_, .file content) => .ok content
  | .ok (_, .directory _) => .error .isADirectory
  | .ok (_, .link _) => .error .notFound
  | .error e => .error e

/-- What can be seen from here. -/
def view (m : Machine) : Layout.View where
  kind := m.kind?
  sources := m.kotlinSources

/-! ### Changing -/

/-- The machine with a node put at a place. -/
def put (m : Machine) (place : Place) (n : Node) (hn : n.Tidy := by simp) : Machine :=
  { m with
    root := Node.put n place m.root
    tidy := Node.tidy_put m.tidy hn place }

/-- The machine with a node that is new in its directory. A link at the path counts as something that
is there already. -/
def addNew (m : Machine) (path : String) (n : Node) (hn : n.Tidy := by simp) : Except OsError Machine :=
  match follow m.root m.cwd false false path with
  | .error e => .error e
  | .ok (.present _ _) => .error .alreadyExists
  | .ok (.absent directory name _) => .ok (m.put (directory ++ [name]) n hn)

/-- The machine with a new directory. -/
def makeDirectory (m : Machine) (path : String) : Except OsError Machine :=
  m.addNew path (.directory [])

/-- The machine with a new link. -/
def makeLink (m : Machine) (path target : String) : Except OsError Machine :=
  m.addNew path (.link target)

/-- The machine with a file of a new content, at the end of all links. -/
def write (m : Machine) (path : String) (content : ByteArray) : Except OsError Machine :=
  match m.target path with
  | .error e => .error e
  | .ok (.absent directory name wantsDirectory) =>
    if wantsDirectory then .error .isADirectory else .ok (m.put (directory ++ [name]) (.file content))
  | .ok (.present place wantsDirectory) =>
    match m.root.at? place with
    | some (.file _) =>
      if wantsDirectory then .error .isADirectory else .ok (m.put place (.file content))
    | _ => .error .isADirectory

/-! ### Running -/

/-- A step that may change the machine. -/
def change (f : Machine → Except OsError Machine) : StateM Machine (Except OsError Unit) :=
  fun m =>
    match f m with
    | .ok m' => (.ok (), m')
    | .error e => (.error e, m)

instance : MonadHost (StateM Machine) where
  now := fun m => (m.clock, m)
  canonical? path := fun m => (m.canonical? path, m)
  kind? path := fun m => (m.kind? path, m)
  kotlinSources path := fun m => (m.kotlinSources path, m)
  read path := fun m => (m.read path, m)
  makeDirectory path := change fun m => m.makeDirectory path
  write path content := change fun m => m.write path content

end Machine

end SurfaceRegistry.Disk
