import Amatl.Lib.F64
import Amatl.Lib.OrdMap
import Amatl.Lib.Recency
import Amatl.Externals

/-! The persistent cache of embeddings. Vectors are kept by key, and beside them the keys in the
order of their last use, the least recent first. Both are written to a file and read from it. -/

namespace Amatl

open Recency (LruMap)

/-- The file as its JSON is read. A number that is not finite is written as `null`. -/
inductive CacheFile where
  | absent
  | unreadable
  | layout (version : Nat) (entries : List (String × List (Option ℚ)))
  deriving DecidableEq

def embeddingCacheVersion : Nat := 1

structure EmbeddingCache where
  path : String
  cacheNamespace : String
  capacity : Nat
  entries : List (String × List F64)
  order : List String

def jsonNumber : F64 → Option ℚ
  | .finite value => some value
  | .infinity _ => none
  | .nan => none

/-- A vector is read if none of its elements is `null`. -/
def readVector (vector : List (Option ℚ)) : Option (List F64) :=
  vector.mapM (fun element => element.map F64.finite)

/-- What is taken over from a file: nothing where it cannot be read as a whole. -/
def CacheFile.readEntries : CacheFile → List (String × List F64)
  | .absent => []
  | .unreadable => []
  | .layout version entries =>
    match entries.mapM (fun e => (readVector e.2).map (fun vector => (e.1, vector))) with
    | none => []
    | some entries => if version = embeddingCacheVersion then entries else []

namespace EmbeddingCache

/-- The oldest keys are removed until the others fit. -/
def evict (capacity : Nat) :
    List String → List (String × List F64) → List String × List (String × List F64)
  | [], entries => ([], entries)
  | oldest :: order, entries =>
    if capacity < order.length + 1 then evict capacity order (OrdMap.erase oldest entries)
    else (oldest :: order, entries)

def load (path : String) (file : CacheFile) (cacheNamespace : String) (capacity : Nat) :
    EmbeddingCache :=
  let kept := evict capacity (file.readEntries.map Prod.fst) (OrdMap.ofList file.readEntries)
  { path, cacheNamespace, capacity, entries := kept.2, order := kept.1 }

section

variable [Sha256]

def keyFor (cacheNamespace text : String) : String := cacheNamespace ++ ":" ++ hexDigest text

def get (text : String) (cache : EmbeddingCache) : Option (List F64) × EmbeddingCache :=
  let key := keyFor cache.cacheNamespace text
  match OrdMap.get? key cache.entries with
  | none => (none, cache)
  | some vector => (some vector, { cache with order := cache.order.erase key ++ [key] })

def insert (text : String) (vector : List F64) (cache : EmbeddingCache) : EmbeddingCache :=
  let key := keyFor cache.cacheNamespace text
  let order := if (OrdMap.get? key cache.entries).isSome then cache.order.erase key else cache.order
  let kept := evict cache.capacity (order ++ [key]) (OrdMap.insert key vector cache.entries)
  { cache with entries := kept.2, order := kept.1 }

end

def savedEntries (cache : EmbeddingCache) : List (String × List F64) :=
  cache.order.filterMap (fun key =>
    (OrdMap.get? key cache.entries).map (fun vector => (key, vector)))

def saved (cache : EmbeddingCache) : CacheFile :=
  .layout embeddingCacheVersion (cache.savedEntries.map (fun e => (e.1, e.2.map jsonNumber)))

end EmbeddingCache

/-! A cache with its file, and a map with the one it was saved as last. -/

inductive CacheCall where
  | get (text : String)
  | insert (text : String) (vector : List F64)
  /-- The file stays as it is where it cannot be written. -/
  | save (isWritten : Bool)
  | load (cacheNamespace : String) (capacity : Nat)

structure CacheState where
  cache : EmbeddingCache
  file : CacheFile

structure ReferenceCache where
  cacheNamespace : String
  map : LruMap String (List F64)
  saved : LruMap String (List F64)

section

variable [Sha256]

def CacheState.call (s : CacheState) : CacheCall → Option (List F64) × CacheState
  | .get text => ((s.cache.get text).1, { s with cache := (s.cache.get text).2 })
  | .insert text vector => (none, { s with cache := s.cache.insert text vector })
  | .save isWritten => (none, { s with file := if isWritten then s.cache.saved else s.file })
  | .load cacheNamespace capacity =>
    (none, { s with cache := .load s.cache.path s.file cacheNamespace capacity })

def ReferenceCache.call (r : ReferenceCache) : CacheCall → Option (List F64) × ReferenceCache
  | .get text =>
    let found := r.map.get (EmbeddingCache.keyFor r.cacheNamespace text)
    (found.1, { r with map := found.2 })
  | .insert text vector =>
    (none, { r with map := r.map.put (EmbeddingCache.keyFor r.cacheNamespace text) vector })
  | .save isWritten => (none, { r with saved := if isWritten then r.map else r.saved })
  | .load cacheNamespace capacity =>
    (none, { r with cacheNamespace, map := r.saved.resize capacity })

def callAll {S : Type} (call : S → CacheCall → Option (List F64) × S) :
    S → List CacheCall → List (Option (List F64)) × S
  | s, [] => ([], s)
  | s, next :: calls =>
    let rest := callAll call (call s next).2 calls
    ((call s next).1 :: rest.1, rest.2)

end

/-- The digests of three words. -/
@[reducible] def wordSha256 : Sha256 where
  digest text :=
    if text = "rust" then
      #v[82, 31, 229, 201, 236, 225, 170, 31, 139, 102, 34, 129, 113, 89, 130, 99, 87, 74,
        239, 198, 250, 75, 160, 106, 97, 116, 126, 200, 30, 233, 245, 163]
    else if text = "go" then
      #v[76, 208, 226, 26, 154, 7, 149, 161, 78, 201, 170, 95, 14, 125, 26, 191, 240, 73, 37,
        101, 119, 14, 67, 234, 253, 241, 227, 232, 175, 237, 31, 51]
    else
      #v[46, 125, 44, 3, 169, 80, 122, 226, 101, 236, 245, 181, 53, 104, 133, 165, 51, 147,
        162, 2, 157, 36, 19, 148, 153, 114, 101, 161, 162, 90, 239, 198]

end Amatl
