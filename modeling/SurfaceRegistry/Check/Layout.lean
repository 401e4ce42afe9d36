import SurfaceRegistry.Check.Rules
import SurfaceRegistry.Host

/-!
# The layout of a repository

Whether a repository holds what a registry names: the listing of the API surface as a file, and the
directories of the nightly tests and of their package. Only places of sound values are looked at, and
the package only in a directory that is there; its Kotlin sources are counted.
-/

namespace SurfaceRegistry.Layout

/-- What can be seen of a repository. -/
structure View where
  /-- What stands at a path, if something does. -/
  kind : String → Option NodeKind
  /-- How many Kotlin sources are below a directory. -/
  sources : String → Nat

/-- The places that are looked at, as paths in the repository. -/
structure Places where
  /-- The listing of the API surface, if its value is sound. -/
  apiSurface : Option RepoPath
  /-- The source root of the nightly tests, if its value is sound. -/
  nightlyDirectory : Option RepoPath
  /-- The directory of their package, if both values are sound. -/
  package : Option RepoPath

/-- A path, unless there is a finding about its value. -/
def soundPath (finding : Option Finding) (path : RepoPath) : Option RepoPath :=
  if finding.isNone then some path else none

/-- The places that the sound values of a registry name. -/
def places (r : EffectiveRegistry) (o : Rules.Outcome) : Places :=
  let directory := soundPath o.nightlyDirectory (.ofText r.nightlyTestsDirectoryPath.value)
  { apiSurface := soundPath o.apiSurface (.ofText r.apiSurfacePath.value)
    nightlyDirectory := directory
    package := directory.bind fun d => soundPath o.package (d.join r.nightlyTestsPackage.value) }

/-- A path of the repository as a path of the machine. -/
def placeAt (root : String) (p : RepoPath) : String :=
  Text.Path.join root p.text

/-! ### Findings -/

/-- A finding about what stands at a place. -/
def finding (severity : Severity) (code : FindingCode) (message : String) (subject : Rules.Subject)
    (path : RepoPath) (data : Json) : Finding where
  severity := severity
  checkId := CheckId.repoLayout.text
  code := code.text
  message := message ++ path.text
  subject := some subject.text
  path := some path
  data := data

/-- What is wrong with the listing of the API surface at its place. -/
def checkApiSurface (path : RepoPath) (kind : Option NodeKind) : Option Finding :=
  match kind with
  | some .file => none
  | some .directory =>
    some (finding .error .apiSurfaceNotFile "API surface path is a directory: " .apiSurfacePath
      path .null)
  | _ =>
    some (finding .warning .apiSurfaceMissing "API surface file not found: " .apiSurfacePath path
      .null)

/-- There is no directory of nightly tests at its place, but possibly something else. -/
def nightlyDirMissing (path : RepoPath) (kind : Option NodeKind) : Finding :=
  finding .warning .nightlyDirMissing "nightly tests directory not found: "
    .nightlyTestsDirectoryPath path (.object [("exists", .bool kind.isSome)])

/-- There is no directory for the package of the nightly tests at its place. -/
def nightlyPackageMissing (path : RepoPath) : Finding :=
  finding .warning .nightlyPackageMissing "nightly tests package directory not found: "
    .nightlyTestsPackage path .null

/-! ### The probe -/

/-- What a look at a repository tells. -/
structure Outcome where
  /-- What is wrong with the listing of the API surface. -/
  apiSurface : Option Finding := none
  /-- What is wrong with the directories of the nightly tests. -/
  nightly : Option Finding := none
  /-- The number of sources in the package, and its path on the machine, if it is a directory. -/
  sources : Option (UInt32 × String) := none

/-- All that is wrong. -/
def Outcome.findings (o : Outcome) : List Finding :=
  o.apiSurface.toList ++ o.nightly.toList

/-- The look at the listing of the API surface. -/
def probeApiSurface (v : View) (root : String) : Option RepoPath → Option Finding
  | none => none
  | some path => checkApiSurface path (v.kind (placeAt root path))

/-- The look at the directory of the package: what is wrong, or the number of sources. -/
def probePackage (v : View) (root : String) :
    Option RepoPath → Option Finding × Option (UInt32 × String)
  | none => (none, none)
  | some path =>
    let place := placeAt root path
    if v.kind place = some .directory then (none, some (UInt32.ofNat (v.sources place), place))
    else (some (nightlyPackageMissing path), none)

/-- The look at the directories of the nightly tests. -/
def probeNightly (v : View) (root : String) (p : Places) :
    Option Finding × Option (UInt32 × String) :=
  match p.nightlyDirectory with
  | none => (none, none)
  | some path =>
    let kind := v.kind (placeAt root path)
    if kind = some .directory then probePackage v root p.package
    else (some (nightlyDirMissing path kind), none)

/-- The look at a repository. -/
def probe (v : View) (root : String) (p : Places) : Outcome :=
  let (nightly, sources) := probeNightly v root p
  { apiSurface := probeApiSurface v root p.apiSurface
    nightly := nightly
    sources := sources }

/-- What a host shows at some places. -/
def survey {m : Type → Type} [Monad m] [MonadHost m] (root : String) (p : Places) : m View := do
  let seen ← [p.apiSurface, p.nightlyDirectory, p.package].reduceOption.mapM fun path => do
    let place := placeAt root path
    pure (place, ← MonadHost.kind? place)
  let counts ← p.package.toList.mapM fun path => do
    let place := placeAt root path
    if seen.lookup place = some (some .directory) then
      pure (place, ← MonadHost.kotlinSources place)
    else pure (place, 0)
  pure
    { kind := fun place => (seen.lookup place).join
      sources := fun place => (counts.lookup place).getD 0 }

end SurfaceRegistry.Layout
