import Amatl.EmbeddingCache
import Amatl.Lib.Traverse

/-! The cache of embeddings against a map that gives up its least recently used entries. The order
holds each stored key once, through every call and over the file, as long as the vectors can be
written as JSON numbers. -/

namespace Amatl

open Recency Traverse

/-- The cache holds what the map holds, with the keys in the same order. -/
structure Simulates (c : EmbeddingCache) (m : LruMap String (List F64)) : Prop where
  capacity : c.capacity = m.capacity
  order : c.order = keys m.entries
  sorted : OrdMap.Sorted c.entries
  entries : ∀ key, OrdMap.get? key c.entries = lookup key m.entries

theorem evict_spec (capacity : Nat) {l : List (String × List F64)} (distinct : (keys l).Nodup)
    {entries : List (String × List F64)} (sorted : OrdMap.Sorted entries)
    (agree : ∀ key, OrdMap.get? key entries = lookup key l) :
    (EmbeddingCache.evict capacity (keys l) entries).1 = keys (newest capacity l) ∧
      OrdMap.Sorted (EmbeddingCache.evict capacity (keys l) entries).2 ∧
      ∀ key, OrdMap.get? key (EmbeddingCache.evict capacity (keys l) entries).2 =
        lookup key (newest capacity l) := by
  induction l generalizing entries with
  | nil =>
    rw [newest_of_fits (Nat.zero_le capacity)]
    exact ⟨rfl, sorted, agree⟩
  | cons e l ih =>
    have length : (keys l).length = l.length := List.length_map _
    obtain ⟨fresh, rest⟩ := List.nodup_cons.mp distinct
    change _ ∉ keys l at fresh
    show (EmbeddingCache.evict capacity (e.1 :: keys l) entries).1 = _ ∧
      OrdMap.Sorted (EmbeddingCache.evict capacity (e.1 :: keys l) entries).2 ∧
      ∀ key, OrdMap.get? key (EmbeddingCache.evict capacity (e.1 :: keys l) entries).2 = _
    by_cases full : capacity < l.length + 1
    · rw [EmbeddingCache.evict, if_pos (by rw [length]; exact full), newest_cons e full]
      refine ih rest (sorted.erase e.1) (fun key => ?_)
      rw [OrdMap.get?_erase, agree, lookup_cons]
      by_cases here : key = e.1
      · rw [if_pos here, here, lookup_eq_none.mpr fresh]
      · rw [if_neg here, if_neg (fun same => here same.symm)]
    · rw [EmbeddingCache.evict, if_neg (by rw [length]; exact full)]
      have fits : (e :: l).length ≤ capacity := by
        rw [List.length_cons]
        omega
      rw [newest_of_fits fits]
      exact ⟨rfl, sorted, agree⟩

section

variable [Sha256] {c : EmbeddingCache} {m : LruMap String (List F64)}

theorem get_simulates (h : Simulates c m) (text : String) :
    (c.get text).1 = (m.get (EmbeddingCache.keyFor c.cacheNamespace text)).1 ∧
      Simulates (c.get text).2 (m.get (EmbeddingCache.keyFor c.cacheNamespace text)).2 := by
  have same := h.entries (EmbeddingCache.keyFor c.cacheNamespace text)
  unfold EmbeddingCache.get
  cases found : lookup (EmbeddingCache.keyFor c.cacheNamespace text) m.entries with
  | none =>
    rw [found] at same
    simp only [same, LruMap.get_none found]
    exact ⟨trivial, h⟩
  | some vector =>
    rw [found] at same
    simp only [same]
    obtain ⟨value, capacity, entries⟩ := LruMap.get_some found
    refine ⟨value.symm, ⟨h.capacity.trans capacity.symm, ?_, h.sorted, fun key => ?_⟩⟩
    · rw [entries, keys_append, ← erase_keys m.distinct, h.order]
      rfl
    · rw [entries, lookup_touched, h.entries]
      by_cases here : key = EmbeddingCache.keyFor c.cacheNamespace text
      · rw [if_pos here, here, found]
      · rw [if_neg here]

theorem insert_simulates (h : Simulates c m) (text : String) (vector : List F64) :
    Simulates (c.insert text vector)
      (m.put (EmbeddingCache.keyFor c.cacheNamespace text) vector) := by
  have order : (if (OrdMap.get? (EmbeddingCache.keyFor c.cacheNamespace text) c.entries).isSome then
      c.order.erase (EmbeddingCache.keyFor c.cacheNamespace text) else c.order) ++
        [EmbeddingCache.keyFor c.cacheNamespace text] =
      keys (without (EmbeddingCache.keyFor c.cacheNamespace text) m.entries ++
        [(EmbeddingCache.keyFor c.cacheNamespace text, vector)]) := by
    rw [keys_append, ← erase_keys m.distinct, h.order, h.entries]
    cases found : lookup (EmbeddingCache.keyFor c.cacheNamespace text) m.entries with
    | none =>
      rw [List.erase_of_not_mem (lookup_eq_none.mp found)]
      rfl
    | some old => rfl
  obtain ⟨kept, sorted, entries⟩ := evict_spec c.capacity
    (nodup_touched m.distinct (EmbeddingCache.keyFor c.cacheNamespace text) vector)
    (h.sorted.insert (EmbeddingCache.keyFor c.cacheNamespace text) vector) (fun key => by
      rw [OrdMap.get?_insert, lookup_touched, h.entries])
  unfold EmbeddingCache.insert
  simp only [order]
  refine ⟨h.capacity, ?_, sorted, ?_⟩
  · rw [kept, h.capacity]
    rfl
  · intro key
    rw [entries, h.capacity]
    rfl

end

theorem get?_ofList_lookup {l : List (String × List F64)} (distinct : (keys l).Nodup)
    (key : String) : OrdMap.get? key (OrdMap.ofList l) = lookup key l := by
  cases found : lookup key l with
  | some vector =>
    apply OrdMap.get?_ofList (mem_of_lookup found)
    intro e mem same
    have value := lookup_of_mem distinct mem
    rw [same, found] at value
    exact (Option.some.inj value).symm
  | none =>
    cases collected : OrdMap.get? key (OrdMap.ofList l) with
    | none => rfl
    | some vector =>
      have inside := List.mem_map_of_mem (f := Prod.fst) (OrdMap.mem_of_get?_ofList collected)
      exact absurd inside (lookup_eq_none.mp found)

theorem load_simulates (path : String) {file : CacheFile} (cacheNamespace : String) (capacity : Nat)
    {m : LruMap String (List F64)} (read : file.readEntries = m.entries) :
    Simulates (.load path file cacheNamespace capacity) (m.resize capacity) := by
  obtain ⟨kept, sorted, entries⟩ := evict_spec capacity m.distinct (OrdMap.sorted_ofList m.entries)
    (get?_ofList_lookup m.distinct)
  unfold EmbeddingCache.load
  rw [read]
  exact ⟨rfl, kept, sorted, entries⟩

theorem savedEntries_eq {c : EmbeddingCache} {m : LruMap String (List F64)} (h : Simulates c m) :
    c.savedEntries = m.entries := by
  rw [EmbeddingCache.savedEntries, h.order, keys, List.filterMap_map]
  have kept : ∀ e ∈ m.entries, ((fun key => (OrdMap.get? key c.entries).map
      (fun vector => (key, vector))) ∘ Prod.fst) e = some e := by
    intro e mem
    rw [Function.comp_apply, h.entries, lookup_of_mem m.distinct mem]
    rfl
  rw [List.filterMap_congr kept, List.filterMap_some]

theorem readVector_jsonNumber {vector : List F64} (finite : ∀ x ∈ vector, x.isFinite = true) :
    readVector (vector.map jsonNumber) = some vector := by
  rw [readVector]
  apply mapM_written
  intro x mem
  have number := finite x mem
  cases x with
  | finite value => rfl
  | infinity negative => cases number
  | nan => cases number

/-- What is saved is read again, if all of it can be written. -/
theorem readEntries_saved {c : EmbeddingCache} {m : LruMap String (List F64)} (h : Simulates c m)
    (finite : ∀ e ∈ m.entries, ∀ x ∈ e.2, x.isFinite = true) :
    c.saved.readEntries = m.entries := by
  have all : (m.entries.map (fun e => (e.1, e.2.map jsonNumber))).mapM (fun e =>
      (readVector e.2).map (fun vector => (e.1, vector))) = some m.entries := by
    apply mapM_written
    intro e mem
    rw [readVector_jsonNumber (finite e mem)]
    rfl
  rw [EmbeddingCache.saved, savedEntries_eq h]
  simp only [CacheFile.readEntries, all, if_true]

/-! Whole runs. -/

/-- The elements of all vectors can be written. -/
def AllFinite (entries : List (String × List F64)) : Prop :=
  ∀ e ∈ entries, ∀ x ∈ e.2, x.isFinite = true

structure StateSimulates (s : CacheState) (r : ReferenceCache) : Prop where
  cacheNamespace : s.cache.cacheNamespace = r.cacheNamespace
  cache : Simulates s.cache r.map
  file : s.file.readEntries = r.saved.entries
  finite : AllFinite r.map.entries
  finiteSaved : AllFinite r.saved.entries

theorem finite_of_readVector {vector : List (Option ℚ)} {read : List F64}
    (h : readVector vector = some read) : ∀ x ∈ read, x.isFinite = true := by
  intro x mem
  obtain ⟨element, -, here⟩ := of_mem_mapM h mem
  obtain ⟨value, -, rfl⟩ := Option.map_eq_some_iff.mp here
  rfl

theorem allFinite_readEntries (file : CacheFile) : AllFinite file.readEntries := by
  cases file with
  | absent => exact fun e mem => absurd mem List.not_mem_nil
  | unreadable => exact fun e mem => absurd mem List.not_mem_nil
  | layout version entries =>
    cases all : entries.mapM (fun e => (readVector e.2).map (fun vector => (e.1, vector))) with
    | none =>
      simp only [CacheFile.readEntries, all]
      exact fun e mem => absurd mem List.not_mem_nil
    | some es =>
      simp only [CacheFile.readEntries, all]
      by_cases current : version = embeddingCacheVersion
      · rw [if_pos current]
        intro e mem
        obtain ⟨entry, -, here⟩ := of_mem_mapM all mem
        obtain ⟨vector, readable, rfl⟩ := Option.map_eq_some_iff.mp here
        exact finite_of_readVector readable
      · rw [if_neg current]
        exact fun e mem => absurd mem List.not_mem_nil

theorem allFinite_put {m : LruMap String (List F64)} (finite : AllFinite m.entries) (key : String)
    {vector : List F64} (new : ∀ x ∈ vector, x.isFinite = true) :
    AllFinite (m.put key vector).entries := by
  intro e mem
  have inside := (newest_sublist _ _).subset mem
  rcases List.mem_append.mp inside with old | here
  · exact finite e (List.mem_of_mem_filter old)
  · rw [List.mem_singleton.mp here]
    exact new

theorem allFinite_get {m : LruMap String (List F64)} (finite : AllFinite m.entries) (key : String) :
    AllFinite (m.get key).2.entries := by
  cases found : lookup key m.entries with
  | none =>
    rw [LruMap.get_none found]
    exact finite
  | some vector =>
    rw [(LruMap.get_some found).2.2]
    intro e mem
    rcases List.mem_append.mp mem with old | here
    · exact finite e (List.mem_of_mem_filter old)
    · rw [List.mem_singleton.mp here]
      exact finite _ (mem_of_lookup found)

section

variable [Sha256]

theorem get_cacheNamespace (c : EmbeddingCache) (text : String) :
    (c.get text).2.cacheNamespace = c.cacheNamespace := by
  unfold EmbeddingCache.get
  simp only
  split <;> rfl

/-- Every call keeps the states in step and returns the same. -/
theorem call_simulates {s : CacheState} {r : ReferenceCache} (h : StateSimulates s r)
    (next : CacheCall)
    (finite : ∀ text vector, next = .insert text vector → ∀ x ∈ vector, x.isFinite = true) :
    (s.call next).1 = (r.call next).1 ∧ StateSimulates (s.call next).2 (r.call next).2 := by
  cases next with
  | get text =>
    obtain ⟨same, after⟩ := get_simulates h.cache text
    rw [h.cacheNamespace] at same after
    have names := (get_cacheNamespace s.cache text).trans h.cacheNamespace
    exact ⟨same, names, after, h.file, allFinite_get h.finite _, h.finiteSaved⟩
  | insert text vector =>
    have after := insert_simulates h.cache text vector
    rw [h.cacheNamespace] at after
    exact ⟨rfl, h.cacheNamespace, after, h.file,
      allFinite_put h.finite _ (finite text vector rfl), h.finiteSaved⟩
  | save isWritten =>
    cases isWritten with
    | true =>
      exact ⟨rfl, h.cacheNamespace, h.cache, readEntries_saved h.cache h.finite, h.finite,
        h.finite⟩
    | false => exact ⟨rfl, h⟩
  | load cacheNamespace capacity =>
    refine ⟨rfl, rfl, load_simulates _ cacheNamespace capacity h.file, h.file, ?_, h.finiteSaved⟩
    exact fun e mem => h.finiteSaved e ((newest_sublist _ _).subset mem)

theorem callAll_simulates {s : CacheState} {r : ReferenceCache} (h : StateSimulates s r)
    (calls : List CacheCall)
    (finite : ∀ text vector, .insert text vector ∈ calls → ∀ x ∈ vector, x.isFinite = true) :
    (callAll CacheState.call s calls).1 = (callAll ReferenceCache.call r calls).1 ∧
      StateSimulates (callAll CacheState.call s calls).2 (callAll ReferenceCache.call r calls).2 := by
  induction calls generalizing s r with
  | nil => exact ⟨rfl, h⟩
  | cons next calls ih =>
    obtain ⟨same, after⟩ := call_simulates h next (fun text vector here =>
      finite text vector (here ▸ List.mem_cons_self))
    obtain ⟨others, last⟩ := ih after (fun text vector mem =>
      finite text vector (List.mem_cons_of_mem next mem))
    exact ⟨congrArg₂ List.cons same others, last⟩

end

/-- The cache is the map: each stored key stands once in the order, there are no more than fit, and
loading what it saves gives the same cache. -/
structure BehavesAs (c : EmbeddingCache) (m : LruMap String (List F64)) : Prop where
  capacity : c.capacity = m.capacity
  order : c.order = keys m.entries
  contents : ∀ key, OrdMap.get? key c.entries = lookup key m.entries
  distinct : c.order.Nodup
  stored : ∀ key, key ∈ c.order ↔ (OrdMap.get? key c.entries).isSome = true
  size : c.entries.length = c.order.length ∧ c.order.length ≤ c.capacity
  restored : (EmbeddingCache.load c.path c.saved c.cacheNamespace c.capacity).order = c.order ∧
    (EmbeddingCache.load c.path c.saved c.cacheNamespace c.capacity).entries = c.entries

theorem behavesAs_of_simulates {c : EmbeddingCache} {m : LruMap String (List F64)}
    (h : Simulates c m) (finite : AllFinite m.entries) : BehavesAs c m := by
  have distinct : c.order.Nodup := by
    rw [h.order]
    exact m.distinct
  have stored : ∀ key, key ∈ c.order ↔ (OrdMap.get? key c.entries).isSome = true := by
    intro key
    rw [h.order, h.entries, ← not_iff_not, ← lookup_eq_none]
    cases lookup key m.entries <;> simp
  refine ⟨h.capacity, h.order, h.entries, distinct, stored, ⟨?_, ?_⟩, ?_⟩
  · have once : (OrdMap.keys c.entries).Nodup := by
      have sorted : c.entries.Pairwise (fun a b => compare a.1 b.1 = .lt) := h.sorted
      refine List.pairwise_map.mpr (sorted.imp (fun {a b} less same => ?_))
      rw [same] at less
      simp at less
    have perm : (OrdMap.keys c.entries).Perm c.order := by
      rw [List.perm_ext_iff_of_nodup once distinct]
      exact fun key => OrdMap.isSome_get?.symm.trans (stored key).symm
    have length := perm.length_eq
    rwa [OrdMap.keys, List.length_map] at length
  · rw [h.order, h.capacity, keys, List.length_map]
    exact m.fits
  · have again := load_simulates c.path c.cacheNamespace c.capacity (readEntries_saved h finite)
    have whole : (m.resize c.capacity).entries = m.entries :=
      newest_of_fits (h.capacity ▸ m.fits)
    refine ⟨?_, ?_⟩
    · rw [again.order, whole, h.order]
    · refine again.sorted.ext h.sorted (fun key => ?_)
      rw [again.entries, whole, h.entries]

/-- Through every run of calls whose vectors can be written, from a file with its keys once, the
cache returns what the map returns and holds what it holds. -/
theorem embeddingCache_behaves [Sha256] (path cacheNamespace : String) (capacity : Nat)
    (file : CacheFile) (once : (keys file.readEntries).Nodup) (calls : List CacheCall)
    (finite : ∀ text vector, .insert text vector ∈ calls → ∀ x ∈ vector, x.isFinite = true) :
    (callAll CacheState.call ⟨.load path file cacheNamespace capacity, file⟩ calls).1 =
        (callAll ReferenceCache.call ⟨cacheNamespace,
          (LruMap.ofEntries file.readEntries once).resize capacity,
          LruMap.ofEntries file.readEntries once⟩ calls).1 ∧
      BehavesAs
        (callAll CacheState.call ⟨.load path file cacheNamespace capacity, file⟩ calls).2.cache
        (callAll ReferenceCache.call ⟨cacheNamespace,
          (LruMap.ofEntries file.readEntries once).resize capacity,
          LruMap.ofEntries file.readEntries once⟩ calls).2.map := by
  have readable := allFinite_readEntries file
  have start : StateSimulates ⟨.load path file cacheNamespace capacity, file⟩ ⟨cacheNamespace,
      (LruMap.ofEntries file.readEntries once).resize capacity,
      LruMap.ofEntries file.readEntries once⟩ :=
    ⟨rfl, load_simulates path cacheNamespace capacity rfl, rfl,
      fun e mem => readable e ((newest_sublist _ _).subset mem), readable⟩
  obtain ⟨same, last⟩ := callAll_simulates start calls finite
  exact ⟨same, behavesAs_of_simulates last.cache last.finite⟩

def restartCalls : List CacheCall :=
  [.insert "rust" [.finite 1], .insert "go" [.finite 2], .get "rust", .insert "c" [.finite 3],
    .get "go", .save true, .load "local_hashing_v1@64" 2, .insert "go" [.finite 4], .get "rust",
    .get "c"]

/-- The key that was used longest ago goes, before the restart and behind it. -/
theorem embeddingCache_behaves_restart :
    letI := wordSha256
    let start : CacheState := ⟨.load "cache.json" .absent "local_hashing_v1@64" 2, .absent⟩
    let reference : ReferenceCache := ⟨"local_hashing_v1@64",
      (LruMap.ofEntries CacheFile.absent.readEntries List.nodup_nil).resize 2,
      LruMap.ofEntries CacheFile.absent.readEntries List.nodup_nil⟩
    (callAll CacheState.call start restartCalls).1 =
        (callAll ReferenceCache.call reference restartCalls).1 ∧
      BehavesAs (callAll CacheState.call start restartCalls).2.cache
        (callAll ReferenceCache.call reference restartCalls).2.map ∧
      (callAll ReferenceCache.call reference restartCalls).1 =
        [none, none, some [.finite 1], none, none, none, none, none, none, some [.finite 3]] := by
  have finite : ∀ text vector, .insert text vector ∈ restartCalls →
      ∀ x ∈ vector, x.isFinite = true := by
    intro text vector mem x inside
    simp only [restartCalls, List.mem_cons, CacheCall.insert.injEq, reduceCtorEq, List.not_mem_nil,
      or_false, false_or] at mem
    rcases mem with ⟨-, rfl⟩ | ⟨-, rfl⟩ | ⟨-, rfl⟩ | ⟨-, rfl⟩
    all_goals
      rw [List.mem_singleton.mp inside]
      rfl
  obtain ⟨same, behaves⟩ := @embeddingCache_behaves wordSha256 "cache.json"
    "local_hashing_v1@64" 2 .absent List.nodup_nil restartCalls finite
  exact ⟨same, behaves, by decide +kernel⟩

/-- A vector with a number that JSON cannot write loses the whole cache over its file. -/
theorem nan_loses_cache :
    letI := sampleSha256
    (callAll CacheState.call ⟨.load "cache.json" .absent "local_model_v1@64" 64, .absent⟩
        [.insert "a" [.nan], .save true, .load "local_model_v1@64" 64, .get "a"]).1 =
      [none, none, none, none] ∧
    (callAll ReferenceCache.call ⟨"local_model_v1@64",
        (LruMap.ofEntries CacheFile.absent.readEntries List.nodup_nil).resize 64,
        LruMap.ofEntries CacheFile.absent.readEntries List.nodup_nil⟩
        [.insert "a" [.nan], .save true, .load "local_model_v1@64" 64, .get "a"]).1 =
      [none, none, none, some [.nan]] := by
  decide +kernel

end Amatl
