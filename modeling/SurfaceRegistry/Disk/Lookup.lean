import SurfaceRegistry.Disk.Node

/-!
# Following a path

A path leads from a place, or from the root, along its names to a place of a tree. Links on the way are
replaced by their targets, at most 40 of them. The last name may be missing: then there is room for a
new node. A slash at the end asks for a directory.

A look at all that is below a directory goes from one directory to the next by their paths, and follows no
links.
-/

namespace SurfaceRegistry.Disk

/-- Where a path leads. -/
inductive Target where
  /-- To a node. The path may ask for a directory. -/
  | present (place : Place) (wantsDirectory : Bool)
  /-- To no node, in a directory that is there. The path may ask for a directory. -/
  | absent (directory : Place) (name : String) (wantsDirectory : Bool)

/-- How many links may be on the way. -/
def maxLinks : Nat := 40

/-- How many bytes a name may have. -/
def maxNameSize : Nat := 255

/-- How many bytes a path may have. -/
def maxPathSize : Nat := 4095

/-- The names of a path. -/
def pathNames (path : String) : List String :=
  ((Text.splitAt '/' path.toList).filter fun n => !n.isEmpty).map String.ofList

/-- Whether a path starts at the root. -/
def startsAtRoot (path : String) : Bool :=
  path.toList.head? == some '/'

/-- Whether a path ends with a slash. -/
def endsWithSlash (path : String) : Bool :=
  path.toList.getLast? == some '/'

/-- A continuation of a path at a link: from the place of the link, the target of the link, the names
after it, and whether a directory is asked for. -/
abbrev LinkStep := Place → String → List String → Bool → Except OsError Target

/-- Where names lead from a directory. A link at the very end is followed only if `followLast` says so
or a directory is asked for. -/
def walkNames (root : Node) (followLast wantsDirectory : Bool) (followLink : LinkStep) :
    Place → List String → Except OsError Target
  | here, [] => .ok (.present here wantsDirectory)
  | here, name :: rest =>
    if name = "." then walkNames root followLast wantsDirectory followLink here rest
    else if name = ".." then
      walkNames root followLast wantsDirectory followLink here.dropLast rest
    else if maxNameSize < name.utf8ByteSize then .error .nameTooLong
    else
      match root.at? (here ++ [name]) with
      | none => if rest.isEmpty then .ok (.absent here name wantsDirectory) else .error .notFound
      | some (.directory _) =>
        walkNames root followLast wantsDirectory followLink (here ++ [name]) rest
      | some (.file _) =>
        if rest.isEmpty then .ok (.present (here ++ [name]) wantsDirectory)
        else .error .notADirectory
      | some (.link target) =>
        if rest.isEmpty && !followLast && !wantsDirectory then
          .ok (.present (here ++ [name]) false)
        else followLink here target rest wantsDirectory

/-- Where names lead from a directory, with a number of links still allowed. -/
def walk (root : Node) (followLast : Bool) :
    Nat → Place → List String → Bool → Except OsError Target
  | 0, here, names, wantsDirectory =>
    walkNames root followLast wantsDirectory (fun _ _ _ _ => .error .tooManyLinks) here names
  | links + 1, here, names, wantsDirectory =>
    walkNames root followLast wantsDirectory
      (fun here target rest wantsDirectory =>
        if target.isEmpty then .error .notFound
        else
          walk root followLast links (if startsAtRoot target then [] else here)
            (pathNames target ++ rest)
            (wantsDirectory || (rest.isEmpty && endsWithSlash target)))
      here names

/-- Where a path leads from a directory. -/
def follow (root : Node) (here : Place) (followLast wantsDirectory : Bool) (path : String) :
    Except OsError Target :=
  if path.isEmpty then .error .notFound
  else if maxPathSize < path.utf8ByteSize then .error .nameTooLong
  else
    walk root followLast maxLinks (if startsAtRoot path then [] else here) (pathNames path)
      wantsDirectory

/-! ### Below a directory -/

namespace Node

mutual

/-- How many Kotlin sources are found at an entry of the directory with a path, and below it. A directory
cannot be opened if its own path is too long. -/
def kotlinSources (path name : String) : Node → Nat
  | file _ => if isKotlinSource name then 1 else 0
  | directory entries =>
    if maxPathSize < (Text.Path.join path name).utf8ByteSize then 0
    else kotlinSourcesIn (Text.Path.join path name) entries
  | link _ => 0

/-- How many Kotlin sources are found among the entries of the directory with a path, and below them. -/
def kotlinSourcesIn (path : String) : List (String × Node) → Nat
  | [] => 0
  | (name, n) :: r => n.kotlinSources path name + kotlinSourcesIn path r

end

end Node

end SurfaceRegistry.Disk
