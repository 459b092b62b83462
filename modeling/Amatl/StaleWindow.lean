import Amatl.CacheBounds
import Amatl.Revalidation

/-! Runs of the document cache. An entry is offered as stale for a while, but each put drops every
row that is no longer fresh. -/

namespace Amatl

theorem documentCachePut_withinLimits {R K : Type} [CacheRow R K] [DecidableEq K] {rows : List R}
    {row : R} {now : Int64} {ttlSeconds maxEntries maxBytes : UInt64}
    (entries : (writtenRows rows row now ttlSeconds).length ≤ maxEntries.toInt64.toInt)
    (bytes : Lru.total (writtenRows rows row now ttlSeconds) ≤ maxBytes.toInt64.toInt) :
    documentCachePut rows row now ttlSeconds maxEntries maxBytes =
      .ok (writtenRows rows row now ttlSeconds) := by
  have few : max 0 (excess (writtenRows rows row now ttlSeconds) maxEntries) = 0 := by
    rw [excess]
    omega
  have small : ¬2 ^ 63 ≤ excess (writtenRows rows row now ttlSeconds) maxEntries := by omega
  have stays : Lru.shrink maxBytes.toInt64.toInt (writtenRows rows row now ttlSeconds) =
      some (writtenRows rows row now ttlSeconds) := by
    rw [Lru.shrink, Loop.run, Lru.shrinkPass, if_pos (by simp [bytes])]
  rw [documentCachePut]
  simp only [small, few, if_false, Int.toNat_zero, Lru.deleteFirst_zero]
  show evictBytes maxBytes (writtenRows rows row now ttlSeconds) = _
  rw [evictBytes, stays]

inductive CachedOperation (Url : Type) where
  | put (canonicalUrl contentHash extractorVersion : String) (payload : Document Url)
      (now : Int64) (etag lastModified : Option String)
  | get (canonicalUrl contentHash extractorVersion : String) (now : Int64)
  | latest (canonicalUrl extractorVersion : String) (now : Int64)
  | revalidate (canonicalUrl contentHash extractorVersion : String) (now : Int64)

section

variable {Url : Type} [DocumentJson Url]

/-- The table after an operation. A put that fails is rolled back, and so is a lookup. -/
def CachedOperation.run (overflowChecks : Bool) (policy : DocumentCacheConfig)
    (rows : List (CachedRow Url)) : CachedOperation Url → List (CachedRow Url)
  | .put canonicalUrl contentHash extractorVersion payload now etag lastModified =>
    committed rows (documentCachePut rows
      (cachedRow canonicalUrl contentHash extractorVersion payload now etag lastModified) now
      policy.ttlSeconds policy.maxEntries policy.maxBytes)
  | .get canonicalUrl contentHash extractorVersion now =>
    match (documentCacheGet (rows.map CachedRow.toDocumentRow) canonicalUrl contentHash
        extractorVersion now policy.ttlSeconds).1 with
    | none => rows
    | some _ => touchKey canonicalUrl contentHash extractorVersion now rows
  | .latest canonicalUrl extractorVersion now =>
    match latestRow (rows.map CachedRow.toDocumentRow) canonicalUrl extractorVersion now
        policy.ttlSeconds with
    | none => rows
    | some row => touchKey row.canonicalUrl row.contentHash row.extractorVersion now rows
  | .revalidate canonicalUrl contentHash extractorVersion now =>
    match documentCacheGetWithRevalidation overflowChecks rows canonicalUrl contentHash
        extractorVersion now policy.ttlSeconds policy.staleWhileRevalidateSeconds with
    | .ok answer => answer.2
    | .error _ => rows

/-- The table stays within the limits, so that nothing is evicted. -/
def CachedOperation.Fits (policy : DocumentCacheConfig) (rows : List (CachedRow Url)) :
    CachedOperation Url → Prop
  | .put canonicalUrl contentHash extractorVersion payload now etag lastModified =>
    let written := writtenRows rows
      (cachedRow canonicalUrl contentHash extractorVersion payload now etag lastModified) now
      policy.ttlSeconds
    written.length ≤ policy.maxEntries.toNat ∧ Lru.total written ≤ policy.maxBytes.toNat
  | .get _ _ _ _ => True
  | .latest _ _ _ => True
  | .revalidate _ _ _ _ => True

def RunFits (overflowChecks : Bool) (policy : DocumentCacheConfig) :
    List (CachedRow Url) → List (CachedOperation Url) → Prop
  | _, [] => True
  | rows, operation :: operations => operation.Fits policy rows ∧
      RunFits overflowChecks policy (operation.run overflowChecks policy rows) operations

omit [DocumentJson Url] in
/-- Another entry may be written, but not this one. -/
def CachedOperation.Leaves (canonicalUrl contentHash extractorVersion : String) :
    CachedOperation Url → Prop
  | .put url hash version _ _ _ _ =>
    (url, hash, version) ≠ (canonicalUrl, contentHash, extractorVersion)
  | .get _ _ _ _ => True
  | .latest _ _ _ => True
  | .revalidate _ _ _ _ => True

/-- A put is made no later than the given second. -/
def CachedOperation.NoPutAfter (latest : Int) : CachedOperation Url → Prop
  | .put _ _ _ _ now _ _ => now.toInt ≤ latest
  | .get _ _ _ _ => True
  | .latest _ _ _ => True
  | .revalidate _ _ _ _ => True

end

/-! One entry through a run: its row up to the last access. -/

section

variable {Url : Type} {canonicalUrl contentHash extractorVersion : String}

def entryOf (rows : List (CachedRow Url)) (canonicalUrl contentHash extractorVersion : String) :
    Option (CachedRow Url) :=
  (keyedRow rows canonicalUrl contentHash extractorVersion).map (CachedRow.touch 0)

theorem keyedRow_some {rows : List (CachedRow Url)} {row : CachedRow Url}
    (h : keyedRow rows canonicalUrl contentHash extractorVersion = some row) :
    row.hasKey canonicalUrl contentHash extractorVersion = true := by
  rw [keyedRow, List.find?_eq_some_iff_append] at h
  exact h.1

theorem entryOf_map {rows : List (CachedRow Url)} {f : CachedRow Url → CachedRow Url}
    (key : ∀ row, (f row).hasKey canonicalUrl contentHash extractorVersion =
      row.hasKey canonicalUrl contentHash extractorVersion)
    (same : ∀ row, row.hasKey canonicalUrl contentHash extractorVersion = true →
      (f row).touch 0 = row.touch 0) :
    entryOf (rows.map f) canonicalUrl contentHash extractorVersion =
      entryOf rows canonicalUrl contentHash extractorVersion := by
  have found : keyedRow (rows.map f) canonicalUrl contentHash extractorVersion =
      (keyedRow rows canonicalUrl contentHash extractorVersion).map f := by
    rw [keyedRow, List.find?_map]
    exact congrArg (Option.map f) (congrArg (fun p => rows.find? p) (funext key))
  rw [entryOf, entryOf, found]
  cases here : keyedRow rows canonicalUrl contentHash extractorVersion with
  | none => rfl
  | some row => exact congrArg some (same row (keyedRow_some here))

theorem entryOf_touchKey (url hash version : String) (now : Int64) (rows : List (CachedRow Url)) :
    entryOf (touchKey url hash version now rows) canonicalUrl contentHash extractorVersion =
      entryOf rows canonicalUrl contentHash extractorVersion := by
  refine entryOf_map (fun row => ?_) (fun row _ => ?_)
  · by_cases h : row.hasKey url hash version = true
    · rw [if_pos h]
      rfl
    · rw [if_neg h]
  · by_cases h : row.hasKey url hash version = true
    · rw [if_pos h]
      rfl
    · rw [if_neg h]

theorem keyedRow_filter {rows : List (CachedRow Url)} (distinct : (Lru.keys rows).Nodup)
    (p : CachedRow Url → Bool) :
    keyedRow (rows.filter p) canonicalUrl contentHash extractorVersion =
      (keyedRow rows canonicalUrl contentHash extractorVersion).filter p := by
  have swap : (rows.filter p).filter (fun row =>
      row.hasKey canonicalUrl contentHash extractorVersion) =
      rows.filter (fun row => row.hasKey canonicalUrl contentHash extractorVersion && p row) :=
    List.filter_filter
  rw [keyedRow, ← List.head?_filter, swap, filter_hasKey_and distinct, Option.head?_toList]

theorem entryOf_filter {rows : List (CachedRow Url)} (distinct : (Lru.keys rows).Nodup)
    (p : Int64 → Bool) :
    entryOf (rows.filter (fun row => p row.createdAt)) canonicalUrl contentHash extractorVersion =
      (entryOf rows canonicalUrl contentHash extractorVersion).filter
        (fun row => p row.createdAt) := by
  rw [entryOf, entryOf, keyedRow_filter distinct]
  cases keyedRow rows canonicalUrl contentHash extractorVersion with
  | none => rfl
  | some row => by_cases h : p row.createdAt <;> simp [Option.filter, CachedRow.touch, h]

theorem entryOf_upsert_other {rows : List (CachedRow Url)} {other : CachedRow Url}
    (apart : ¬other.hasKey canonicalUrl contentHash extractorVersion = true) :
    entryOf (Lru.upsert rows other) canonicalUrl contentHash extractorVersion =
      entryOf rows canonicalUrl contentHash extractorVersion := by
  have differs : ∀ row : CachedRow Url, Lru.Row.key row = Lru.Row.key other →
      ¬row.hasKey canonicalUrl contentHash extractorVersion = true := by
    intro row same key
    exact apart (hasKey_iff.mpr (same.symm.trans (hasKey_iff.mp key)))
  unfold Lru.upsert
  split
  · refine entryOf_map (fun row => ?_) (fun row key => ?_)
    · by_cases same : Lru.Row.key row = Lru.Row.key other
      · rw [if_pos same, Bool.eq_false_iff.mpr apart, Bool.eq_false_iff.mpr (differs row same)]
      · rw [if_neg same]
    · rw [if_neg (fun same => differs row same key)]
  · have absent : [other].find? (fun row =>
        row.hasKey canonicalUrl contentHash extractorVersion) = none := by
      simpa using apart
    rw [entryOf, keyedRow, List.find?_append, absent, Option.or_none]
    rfl

theorem keyedRow_upsert_self {rows : List (CachedRow Url)} (distinct : (Lru.keys rows).Nodup)
    {row : CachedRow Url} (key : row.hasKey canonicalUrl contentHash extractorVersion = true) :
    keyedRow (Lru.upsert rows row) canonicalUrl contentHash extractorVersion = some row := by
  obtain ⟨front, back, written, -, apart⟩ := Lru.upsert_split distinct row
  refine keyedRow_of_mem (Lru.nodup_keys_upsert distinct row) ?_ key
  rw [written]
  exact List.mem_append_right front List.mem_cons_self

end

section

variable {Url : Type} [DocumentJson Url]
  {canonicalUrl contentHash extractorVersion : String} {overflowChecks : Bool}
  {policy : DocumentCacheConfig}

omit [DocumentJson Url] in
theorem nodup_touchKey (now : Int64) {rows : List (CachedRow Url)}
    (distinct : (Lru.keys rows).Nodup) :
    (Lru.keys (touchKey canonicalUrl contentHash extractorVersion now rows)).Nodup := by
  have same := keys_touched (fun row : CachedRow Url =>
    row.hasKey canonicalUrl contentHash extractorVersion) now rows
  have keys : Lru.keys (touchKey canonicalUrl contentHash extractorVersion now rows) =
      Lru.keys rows := same
  rw [keys]
  exact distinct

theorem run_revalidate (url hash version : String) (now : Int64) (rows : List (CachedRow Url)) :
    (CachedOperation.revalidate url hash version now).run overflowChecks policy rows = rows ∨
      (CachedOperation.revalidate url hash version now).run overflowChecks policy rows =
        touchKey url hash version now rows := by
  cases answer : documentCacheGetWithRevalidation overflowChecks rows url hash version now
      policy.ttlSeconds policy.staleWhileRevalidateSeconds with
  | error failure =>
    left
    simp only [CachedOperation.run, answer]
  | ok found =>
    simp only [CachedOperation.run, answer]
    unfold documentCacheGetWithRevalidation at answer
    split at answer
    · cases answer
    · simp only at answer
      split at answer
      · cases answer
        exact .inl rfl
      · cases answer
        exact .inr rfl

/-- A put drops an entry that is no longer fresh. -/
def CachedOperation.keeps (ttlSeconds : UInt64) (created : Int64) : CachedOperation Url → Bool
  | .put _ _ _ _ now _ _ => cutoff now ttlSeconds ≤ created
  | .get _ _ _ _ => true
  | .latest _ _ _ => true
  | .revalidate _ _ _ _ => true

theorem run_distinct {rows : List (CachedRow Url)} (distinct : (Lru.keys rows).Nodup)
    (operation : CachedOperation Url) :
    (Lru.keys (operation.run overflowChecks policy rows)).Nodup := by
  cases operation with
  | put url hash version payload now etag lastModified =>
    exact nodup_keys_committed distinct (fun after h => documentCachePut_nodup distinct h)
  | get url hash version now =>
    simp only [CachedOperation.run]
    split
    · exact distinct
    · exact nodup_touchKey now distinct
  | latest url version now =>
    simp only [CachedOperation.run]
    split
    · exact distinct
    · exact nodup_touchKey now distinct
  | revalidate url hash version now =>
    rcases run_revalidate url hash version now rows with same | touched
    · rw [same]
      exact distinct
    · rw [touched]
      exact nodup_touchKey now distinct

theorem foldl_distinct {rows : List (CachedRow Url)} (distinct : (Lru.keys rows).Nodup)
    (operations : List (CachedOperation Url)) :
    (Lru.keys (operations.foldl (CachedOperation.run overflowChecks policy) rows)).Nodup := by
  induction operations generalizing rows with
  | nil => exact distinct
  | cons operation operations ih => exact ih (run_distinct distinct operation)

theorem run_put {rows : List (CachedRow Url)} {url hash version : String}
    {payload : Document Url} {now : Int64} {etag lastModified : Option String}
    (entries : policy.maxEntries.toNat < 2 ^ 63) (bytes : policy.maxBytes.toNat < 2 ^ 63)
    (fits : (CachedOperation.put url hash version payload now etag lastModified).Fits policy rows) :
    (CachedOperation.put url hash version payload now etag lastModified).run overflowChecks policy
        rows =
      writtenRows rows (cachedRow url hash version payload now etag lastModified) now
        policy.ttlSeconds := by
  have few : (writtenRows rows (cachedRow url hash version payload now etag lastModified) now
      policy.ttlSeconds).length ≤ policy.maxEntries.toInt64.toInt := by
    rw [toInt64_of_lt entries]
    exact Int.ofNat_le.mpr fits.1
  have small : Lru.total (writtenRows rows
      (cachedRow url hash version payload now etag lastModified) now policy.ttlSeconds) ≤
        policy.maxBytes.toInt64.toInt := by
    rw [toInt64_of_lt bytes]
    exact fits.2
  rw [CachedOperation.run, documentCachePut_withinLimits few small]
  rfl

/-- An operation that does not write the entry leaves it, unless it is a put that is too late. -/
theorem run_entryOf {rows : List (CachedRow Url)} (distinct : (Lru.keys rows).Nodup)
    (entries : policy.maxEntries.toNat < 2 ^ 63) (bytes : policy.maxBytes.toNat < 2 ^ 63)
    {operation : CachedOperation Url} (fits : operation.Fits policy rows)
    (leaves : operation.Leaves canonicalUrl contentHash extractorVersion) :
    entryOf (operation.run overflowChecks policy rows) canonicalUrl contentHash extractorVersion =
      (entryOf rows canonicalUrl contentHash extractorVersion).filter
        (fun row => operation.keeps policy.ttlSeconds row.createdAt) := by
  have all : (entryOf rows canonicalUrl contentHash extractorVersion).filter (fun _ => true) =
      entryOf rows canonicalUrl contentHash extractorVersion := by
    cases entryOf rows canonicalUrl contentHash extractorVersion <;> rfl
  cases operation with
  | put url hash version payload now etag lastModified =>
    have apart : ¬(cachedRow url hash version payload now etag lastModified).hasKey canonicalUrl
        contentHash extractorVersion = true := fun key => leaves (hasKey_iff.mp key)
    rw [run_put entries bytes fits]
    exact (entryOf_filter (Lru.nodup_keys_upsert distinct _)
      (fun created => cutoff now policy.ttlSeconds ≤ created)).trans
        (congrArg (Option.filter _) (entryOf_upsert_other apart))
  | get url hash version now =>
    simp only [CachedOperation.run, CachedOperation.keeps, all]
    split
    · rfl
    · exact entryOf_touchKey _ _ _ _ rows
  | latest url version now =>
    simp only [CachedOperation.run, CachedOperation.keeps, all]
    split
    · rfl
    · exact entryOf_touchKey _ _ _ _ rows
  | revalidate url hash version now =>
    simp only [CachedOperation.keeps, all]
    rcases run_revalidate url hash version now rows with same | touched
    · rw [same]
    · rw [touched]
      exact entryOf_touchKey _ _ _ _ rows

/-- Through a run an entry stays as long as no put comes too late for it. -/
theorem foldl_entryOf {rows : List (CachedRow Url)} (distinct : (Lru.keys rows).Nodup)
    (entries : policy.maxEntries.toNat < 2 ^ 63) (bytes : policy.maxBytes.toNat < 2 ^ 63)
    {operations : List (CachedOperation Url)} (fits : RunFits overflowChecks policy rows operations)
    (leaves : ∀ operation ∈ operations,
      operation.Leaves canonicalUrl contentHash extractorVersion) :
    entryOf (operations.foldl (CachedOperation.run overflowChecks policy) rows) canonicalUrl
        contentHash extractorVersion =
      (entryOf rows canonicalUrl contentHash extractorVersion).filter (fun row =>
        operations.all (fun operation => operation.keeps policy.ttlSeconds row.createdAt)) := by
  induction operations generalizing rows with
  | nil =>
    rw [List.foldl_nil]
    cases entryOf rows canonicalUrl contentHash extractorVersion <;> rfl
  | cons operation operations ih =>
    have later := ih (run_distinct distinct operation) fits.2
      (fun other mem => leaves other (List.mem_cons_of_mem operation mem))
    rw [List.foldl_cons, later, run_entryOf distinct entries bytes fits.1
      (leaves operation List.mem_cons_self)]
    cases entryOf rows canonicalUrl contentHash extractorVersion with
    | none => rfl
    | some row =>
      by_cases now : operation.keeps policy.ttlSeconds row.createdAt
      · simp [Option.filter, now]
      · simp [Option.filter, now]

omit [DocumentJson Url] in
theorem keeps_iff (small : policy.ttlSeconds.toNat < 2 ^ 63) (created : Int64)
    (operation : CachedOperation Url) :
    operation.keeps policy.ttlSeconds created = true ↔
      operation.NoPutAfter (created.toInt + policy.ttlSeconds.toNat) := by
  cases operation with
  | put url hash version payload now etag lastModified =>
    have high := created.toInt_le
    have high' := now.toInt_le
    have greatest : Int64.maxValue.toInt = 2 ^ 63 - 1 := by decide
    rw [CachedOperation.keeps, decide_eq_true_iff, cutoff_le_iff, toInt64_of_lt small,
      CachedOperation.NoPutAfter]
    omega
  | get url hash version now => simp [CachedOperation.keeps, CachedOperation.NoPutAfter]
  | latest url version now => simp [CachedOperation.keeps, CachedOperation.NoPutAfter]
  | revalidate url hash version now => simp [CachedOperation.keeps, CachedOperation.NoPutAfter]

theorem entryOf_put {rows : List (CachedRow Url)} (distinct : (Lru.keys rows).Nodup)
    (small : policy.ttlSeconds.toNat < 2 ^ 63) (entries : policy.maxEntries.toNat < 2 ^ 63)
    (bytes : policy.maxBytes.toNat < 2 ^ 63) {payload : Document Url} {now : Int64}
    {etag lastModified : Option String}
    (fits : (CachedOperation.put canonicalUrl contentHash extractorVersion payload now etag
      lastModified).Fits policy rows) :
    entryOf ((CachedOperation.put canonicalUrl contentHash extractorVersion payload now etag
        lastModified).run overflowChecks policy rows) canonicalUrl contentHash extractorVersion =
      some ((cachedRow canonicalUrl contentHash extractorVersion payload now etag
        lastModified).touch 0) := by
  have own : (cachedRow canonicalUrl contentHash extractorVersion payload now etag
      lastModified).hasKey canonicalUrl contentHash extractorVersion = true := hasKey_iff.mpr rfl
  have fresh : cutoff now policy.ttlSeconds ≤ now := by
    rw [cutoff_le_iff, toInt64_of_lt small]
    omega
  have written := keyedRow_upsert_self distinct own
  rw [run_put entries bytes fits]
  refine (entryOf_filter (Lru.nodup_keys_upsert distinct _)
    (fun created => cutoff now policy.ttlSeconds ≤ created)).trans ?_
  rw [entryOf, written]
  exact Option.filter_eq_some_iff.mpr ⟨rfl, decide_eq_true fresh⟩

/-- An entry that was put is offered until both times are over, whatever else is put, exactly when
no put comes after the first of them. -/
theorem staleEntry_offered_iff {rows : List (CachedRow Url)} (distinct : (Lru.keys rows).Nodup)
    (times : policy.ttlSeconds.toNat + policy.staleWhileRevalidateSeconds.toNat < 2 ^ 63)
    (entries : policy.maxEntries.toNat < 2 ^ 63) (bytes : policy.maxBytes.toNat < 2 ^ 63)
    (payload : Document Url) (now later : Int64) (etag lastModified : Option String)
    (operations : List (CachedOperation Url))
    (fits : RunFits overflowChecks policy rows (.put canonicalUrl contentHash extractorVersion
      payload now etag lastModified :: operations))
    (leaves : ∀ operation ∈ operations,
      operation.Leaves canonicalUrl contentHash extractorVersion)
    (inTime : later.toInt ≤ now.toInt + policy.ttlSeconds.toNat +
      policy.staleWhileRevalidateSeconds.toNat) :
    (∃ after, documentCacheGetWithRevalidation overflowChecks
        ((CachedOperation.put canonicalUrl contentHash extractorVersion payload now etag
          lastModified :: operations).foldl (CachedOperation.run overflowChecks policy) rows)
        canonicalUrl contentHash extractorVersion later policy.ttlSeconds
        policy.staleWhileRevalidateSeconds =
      .ok (some { payload, etag, lastModified
                  fresh := decide (later.toInt ≤ now.toInt + policy.ttlSeconds.toNat) }, after)) ↔
      ∀ operation ∈ operations, operation.NoPutAfter (now.toInt + policy.ttlSeconds.toNat) := by
  have small : policy.ttlSeconds.toNat < 2 ^ 63 := by omega
  have sum : (policy.ttlSeconds + policy.staleWhileRevalidateSeconds).toNat =
      policy.ttlSeconds.toNat + policy.staleWhileRevalidateSeconds.toNat := by
    rw [UInt64.toNat_add]
    omega
  have checked : (overflowChecks && 2 ^ 64 ≤ policy.ttlSeconds.toNat +
      policy.staleWhileRevalidateSeconds.toNat) = false := by
    rw [decide_eq_false (by omega), Bool.and_false]
  have high := now.toInt_le
  have greatest : Int64.maxValue.toInt = 2 ^ 63 - 1 := by decide
  have first : (Lru.keys ((CachedOperation.put canonicalUrl contentHash extractorVersion payload
      now etag lastModified).run overflowChecks policy rows)).Nodup := run_distinct distinct _
  have entry := foldl_entryOf first entries bytes fits.2 leaves
  rw [entryOf_put distinct small entries bytes fits.1] at entry
  have kept : operations.all (fun operation => operation.keeps policy.ttlSeconds now) = true ↔
      ∀ operation ∈ operations, operation.NoPutAfter (now.toInt + policy.ttlSeconds.toNat) := by
    rw [List.all_eq_true]
    exact forall₂_congr (fun operation _ => keeps_iff small now operation)
  obtain ⟨after, answer⟩ := getWithRevalidation_keyed (foldl_distinct first operations) later checked
  rw [List.foldl_cons, answer, ← kept]
  constructor
  · rintro ⟨other, same⟩
    obtain ⟨found, -⟩ := Prod.mk.inj (Except.ok.inj same)
    obtain ⟨row, here, -⟩ := Option.map_eq_some_iff.mp found
    rw [entryOf, (Option.filter_eq_some_iff.mp here).1] at entry
    obtain ⟨same_row, all⟩ := Option.filter_eq_some_iff.mp entry.symm
    rw [← Option.some.inj same_row] at all
    exact all
  · intro all
    have stays : entryOf (operations.foldl (CachedOperation.run overflowChecks policy)
        ((CachedOperation.put canonicalUrl contentHash extractorVersion payload now etag
          lastModified).run overflowChecks policy rows)) canonicalUrl contentHash
        extractorVersion = some ((cachedRow canonicalUrl contentHash extractorVersion payload now
          etag lastModified).touch 0) := entry.trans (Option.filter_eq_some_iff.mpr ⟨rfl, all⟩)
    obtain ⟨row, keyed, same⟩ := Option.map_eq_some_iff.mp stays
    have created : row.createdAt = now := congrArg (fun r => r.createdAt) same
    have offered : cutoff later (policy.ttlSeconds + policy.staleWhileRevalidateSeconds) ≤
        row.createdAt := by
      rw [created, cutoff_le_iff, toInt64_of_lt (by omega), sum]
      omega
    have fresh : cutoff later policy.ttlSeconds ≤ row.createdAt ↔
        later.toInt ≤ now.toInt + policy.ttlSeconds.toNat := by
      rw [created, cutoff_le_iff, toInt64_of_lt small]
      have high' := later.toInt_le
      omega
    have found : (some row).filter (fun row => cutoff later
        (policy.ttlSeconds + policy.staleWhileRevalidateSeconds) ≤ row.createdAt) = some row :=
      Option.filter_eq_some_iff.mpr ⟨rfl, decide_eq_true offered⟩
    refine ⟨after, ?_⟩
    rw [keyed, found, ← decide_eq_decide.mpr fresh]
    have payload_eq : row.payload = payload := congrArg (fun r => r.payload) same
    have etag_eq : row.etag = etag := congrArg (fun r => r.etag) same
    have modified_eq : row.lastModified = lastModified := congrArg (fun r => r.lastModified) same
    rw [← payload_eq, ← etag_eq, ← modified_eq, Option.map_some]

end

def windowPolicy : DocumentCacheConfig :=
  { DocumentCacheConfig.default with
    enabled := true
    ttlSeconds := 100
    staleWhileRevalidateSeconds := 100 }

def putPage (url : String) (now : Int64) : CachedOperation PlainUrl :=
  .put url "0" "1" (plainDocument url).payload now none none

/-- Another page is put while the first is fresh, and the first is offered when it is stale. -/
theorem staleEntry_offered_untouched :
    letI := plainJson PlainUrl
    ∃ after, documentCacheGetWithRevalidation true
      ([putPage "https://lean.example/a" 0, putPage "https://lean.example/b" 50,
        .get "https://lean.example/a" "0" "1" 60].foldl
          (CachedOperation.run true windowPolicy) [])
      "https://lean.example/a" "0" "1" 150 100 100 =
        .ok (some ⟨(plainDocument "https://lean.example/a").payload, none, none, false⟩, after) := by
  let _ := plainJson PlainUrl
  have distinct : (Lru.keys ([] : List (CachedRow PlainUrl))).Nodup := List.nodup_nil
  have fits : RunFits true windowPolicy [] [putPage "https://lean.example/a" 0,
      putPage "https://lean.example/b" 50, .get "https://lean.example/a" "0" "1" 60] :=
    ⟨⟨by decide +kernel, by decide +kernel⟩, ⟨by decide +kernel, by decide +kernel⟩, trivial,
      trivial⟩
  refine (staleEntry_offered_iff distinct (by decide) (by decide) (by decide) _ 0 150 none none
    [putPage "https://lean.example/b" 50, .get "https://lean.example/a" "0" "1" 60] fits ?_
    (by decide)).mpr ?_
  · intro operation mem
    rcases List.mem_cons.mp mem with rfl | last
    · exact fun same => absurd (congrArg Prod.fst same) (by decide)
    · rw [List.mem_singleton.mp last]
      exact trivial
  · intro operation mem
    rcases List.mem_cons.mp mem with rfl | last
    · show (50 : Int64).toInt ≤ _
      decide
    · rw [List.mem_singleton.mp last]
      exact trivial

/-- A put in the window drops the entry, and a lookup in the same second finds nothing. -/
theorem putInWindow_drops :
    letI := plainJson PlainUrl
    (documentCacheGetWithRevalidation true
      ([putPage "https://lean.example/a" 0, putPage "https://lean.example/b" 150].foldl
        (CachedOperation.run true windowPolicy) [])
      "https://lean.example/a" "0" "1" 150 100 100).toOption.map Prod.fst = some none := by
  decide +kernel

end Amatl
