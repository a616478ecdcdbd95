import StoryCatalog.Catalog.Store
import StoryCatalog.Failure
import StoryCatalog.Settings.Basic

/-!
# Loading the catalog

A loader looks for a snapshot at several paths, the preferred one first, and keeps what it finds in
a store. A catalog is served for some seconds without a look at its file; after that it is served
only while its file has not changed, and each such look gives it the same number of seconds again.
-/

namespace StoryCatalog

/-- Where to look for snapshots, and for how many seconds a catalog is served without a look at its
file. -/
structure CatalogLoader where
  paths : List Path
  ttl : Binary64

namespace CatalogLoader

/-- The name of a snapshot in the project's root. -/
def temporaryName : Text := ".storybook-metadata-temp.json"

/-- The name of a snapshot in an output directory. -/
def snapshotName : Text := "stories.json"

/-- The seconds that a loader serves a catalog without a look, if it is not told otherwise. -/
def defaultTtl : Binary64 := .ofInt 5

/-- Where snapshots stand, the preferred place first. -/
def candidatePaths (projectRoot outputDirectory : Path) (outputFile : Text) : List Path :=
  [outputDirectory.child outputFile, projectRoot.child temporaryName,
    (projectRoot.child ".storybook").child snapshotName]

/-- The loader that settings make. -/
def ofSettings (s : Settings) (working : Path) (homes : Homes) : Except Failure CatalogLoader :=
  match s.resolvedProjectRoot working homes, s.resolvedOutputDirectory working homes with
  | .ok root, .ok output => .ok ⟨candidatePaths root output s.outputFile, s.cacheTtl⟩
  | .error fault, _ => .error (.home fault)
  | _, .error fault => .error (.home fault)

/-- The first of some paths that holds a catalog, with the catalog. -/
def firstReadable? (fs : FileSystem) (now : Timestamp) (paths : List Path) :
    Option (Path × Catalog) :=
  paths.findSome? fun p ↦ (Snapshot.read? fs now p).map fun c ↦ (p, c)

/-- Whether the file that the current catalog came from is there and has not changed. -/
def isUnchanged (fs : FileSystem) (s : CatalogStore) : Bool :=
  match s.source? with
  | none => false
  | some source =>
    fs.isFile source &&
      match fs.modified? source, s.sourceModified? with
      | some time, some known => time.sameValue known
      | _, _ => false

/-- Reads the preferred snapshot into the store; without any, the store is emptied. -/
def reload (l : CatalogLoader) (fs : FileSystem) (clock : Binary64) (now : Timestamp)
    (s : CatalogStore) : Option Catalog × CatalogStore :=
  match firstReadable? fs now l.paths with
  | some (p, c) => (some c, s.replace fs clock c (some p))
  | none => (none, s.invalidate)

/-- The current catalog, and the store after asking for it. -/
def load (l : CatalogLoader) (fs : FileSystem) (clock : Binary64) (now : Timestamp)
    (s : CatalogStore) : Option Catalog × CatalogStore :=
  match s.get? with
  | none => l.reload fs clock now s
  | some c =>
    if s.isFresh clock l.ttl then (some c, s)
    else if isUnchanged fs s then (some c, s.replace fs clock c s.source?)
    else l.reload fs clock now s

/-- A fresh catalog is served from the store, which stays as it is. -/
theorem load_of_isFresh (l : CatalogLoader) (fs : FileSystem) {clock : Binary64} (now : Timestamp)
    {s : CatalogStore} (h : s.isFresh clock l.ttl = true) :
    l.load fs clock now s = (s.get?, s) := by
  cases hget : s.get? with
  | none =>
    have : s.holding = none := by simpa [CatalogStore.get?] using hget
    simp [CatalogStore.isFresh, this] at h
  | some c => simp [load, hget, h]

end CatalogLoader

end StoryCatalog
