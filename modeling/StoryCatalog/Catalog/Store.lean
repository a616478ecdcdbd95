import StoryCatalog.Catalog.Snapshot

/-!
# The current catalog

A store holds at most one catalog, with the time at which it was taken in and the file it came from.
Replacing is the only way to change the catalog. Main statements: a store gives back what it was
given (`get?_replace`), and what it holds was taken in at the time it says (`loadedAt?_replace`).
-/

namespace StoryCatalog

/-- A catalog that is held: when it was taken in, and the file it came from with the time of that
file's last change. -/
structure Holding where
  catalog : Catalog
  loadedAt : Binary64
  source : Option Path
  sourceModified : Option Binary64

/-- The holder of the current catalog. -/
structure CatalogStore where
  holding : Option Holding

namespace CatalogStore

/-- A store without a catalog. -/
def empty : CatalogStore := ⟨none⟩

instance : Inhabited CatalogStore := ⟨empty⟩

/-- The current catalog. -/
def get? (s : CatalogStore) : Option Catalog := s.holding.map (·.catalog)

/-- The time at which the current catalog was taken in. -/
def loadedAt? (s : CatalogStore) : Option Binary64 := s.holding.map (·.loadedAt)

/-- The file that the current catalog came from. -/
def source? (s : CatalogStore) : Option Path := s.holding.bind (·.source)

/-- The time of the last change of that file when the catalog was taken in. -/
def sourceModified? (s : CatalogStore) : Option Binary64 := s.holding.bind (·.sourceModified)

/-- The store with a new catalog, taken in at a time from a file. -/
def replace (_ : CatalogStore) (fs : FileSystem) (clock : Binary64) (c : Catalog)
    (source : Option Path) : CatalogStore :=
  ⟨some ⟨c, clock, source, source.bind fs.modified?⟩⟩

/-- The store without its catalog. -/
def invalidate (_ : CatalogStore) : CatalogStore := empty

/-- Whether a catalog was taken in less than a number of seconds ago. -/
def isFresh (s : CatalogStore) (clock ttl : Binary64) : Bool :=
  match s.holding with
  | some held => Binary64.lt (clock.sub held.loadedAt) ttl
  | none => false

@[simp] theorem get?_replace (s : CatalogStore) (fs : FileSystem) (clock : Binary64) (c : Catalog)
    (source : Option Path) : (s.replace fs clock c source).get? = some c := rfl

@[simp] theorem loadedAt?_replace (s : CatalogStore) (fs : FileSystem) (clock : Binary64)
    (c : Catalog) (source : Option Path) :
    (s.replace fs clock c source).loadedAt? = some clock := rfl

@[simp] theorem source?_replace (s : CatalogStore) (fs : FileSystem) (clock : Binary64)
    (c : Catalog) (source : Option Path) : (s.replace fs clock c source).source? = source := rfl

@[simp] theorem sourceModified?_replace (s : CatalogStore) (fs : FileSystem) (clock : Binary64)
    (c : Catalog) (source : Option Path) :
    (s.replace fs clock c source).sourceModified? = source.bind fs.modified? := rfl

@[simp] theorem get?_invalidate (s : CatalogStore) : s.invalidate.get? = none := rfl

/-- An empty store is never fresh. -/
@[simp] theorem isFresh_empty (clock ttl : Binary64) : empty.isFresh clock ttl = false := rfl

end CatalogStore

end StoryCatalog
