import Depends.Analysis.Source

/-!
Semi-expressions kept from earlier readings. What was kept for a path is used again only while the time
of change and the size of what stands there stay the same. How readings are kept is up to a store, which
holds no more than it has room for. The one that a program has forgets the path that was not used for the
longest time.
-/
namespace Depends

/-- What was read at a path, with the time of change and the size found there before. -/
structure CachedFile where
  info : FileInfo
  semis : List Semi
  deriving DecidableEq, Repr

/-- How to keep readings by path: in a new store with some room, which gives what it has for a path, takes
in what was read, and drops what it has for a path. -/
class ReadingStore (store : Type) where
  create : Nat → store
  get : store → String → Option CachedFile × store
  add : store → String → CachedFile → store
  remove : store → String → store

namespace ReadingStore

variable {store : Type} [ReadingStore store]

/-- The room of a store when no size is given. -/
def standardRoom : Nat := 1024

/-- An empty store; a size that is not positive means the standard one. -/
def ofSize (size : Int) : store := create (if 0 < size then size.toNat else standardRoom)

/-- The semi-expressions at a path, from the store if what it has is still of the same time and size. -/
def read {σ : Type} (inner : SemiSource σ) (files : Files) (path : String) (kept : store) (state : σ) :
    Except ReadFault (List Semi) × store × σ :=
  match files.info path with
  | .error refusal =>
    (.error (.failed (((Failure.file "stat" path refusal).wrap .sourceUnavailable "stat source").detail
      "path" path)), kept, state)
  | .ok info =>
    let (found, kept) := get kept path
    match found.filter (·.info == info) with
    | some found => (.ok found.semis, kept, state)
    | none =>
      match inner.semis path state with
      | (.error fault, state) => (.error fault, remove kept path, state)
      | (.ok units, state) => (.ok units, add kept path ⟨info, units⟩, state)

end ReadingStore

/-- A source that reads files through a store. -/
def SemiSource.cached {store σ : Type} [ReadingStore store] (inner : SemiSource σ) (files : σ → Files) :
    SemiSource (store × σ) where
  semis path state :=
    let (outcome, kept, rest) := ReadingStore.read inner (files state.2) path state.1 state.2
    (outcome, kept, rest)
  isCancelled state := inner.isCancelled state.2

/-- Readings by path, the last used first, and how many are kept. -/
structure SemiCache where
  capacity : Nat
  entries : List (String × CachedFile) := []
  deriving DecidableEq, Repr

namespace SemiCache

/-- The number of paths with a reading. -/
def size (cache : SemiCache) : Nat := cache.entries.length

/-- Forgets a path. -/
def erase (cache : SemiCache) (path : String) : SemiCache :=
  { cache with entries := cache.entries.filter (·.1 != path) }

/-- Keeps a reading as the last used one. -/
def insert (cache : SemiCache) (path : String) (kept : CachedFile) : SemiCache :=
  { cache with entries := ((path, kept) :: (cache.erase path).entries).take cache.capacity }

/-- The reading of a path, which is then the last used one. -/
def find (cache : SemiCache) (path : String) : Option CachedFile × SemiCache :=
  match cache.entries.lookup path with
  | none => (none, cache)
  | some kept => (some kept, cache.insert path kept)

instance : ReadingStore SemiCache where
  create capacity := { capacity }
  get := find
  add := insert
  remove := erase

/-- An empty cache; a size that is not positive means the standard one. -/
def ofSize (size : Int) : SemiCache := ReadingStore.ofSize size

/-- The semi-expressions at a path, from the cache if it can give them. -/
def read {σ : Type} (inner : SemiSource σ) (files : Files) (path : String) (cache : SemiCache)
    (state : σ) : Except ReadFault (List Semi) × SemiCache × σ :=
  ReadingStore.read inner files path cache state

end SemiCache

end Depends
