import Amatl.Deep.Documents

/-! Lookups with revalidation. A cached document is found for the longer of two times, and marked
as fresh for the shorter one. Both are 64-bit numbers that the code adds and casts. -/

namespace Amatl

/-- A row of `document_cache` with the headers of its answer. -/
structure CachedRow (Url : Type) extends DocumentRow Url where
  etag : Option String
  lastModified : Option String
  deriving DecidableEq

structure CachedDocument (Url : Type) where
  payload : Document Url
  etag : Option String
  lastModified : Option String
  fresh : Bool
  deriving DecidableEq

inductive LookupFailure where
  /-- The sum of both times is no `u64`. -/
  | overflow
  deriving DecidableEq, Repr

section

variable {Url : Type}

def CachedRow.touch (now : Int64) (row : CachedRow Url) : CachedRow Url :=
  { row with lastAccessed := now }

instance : CacheRow (CachedRow Url) (String × String × String) where
  key row := (row.canonicalUrl, row.contentHash, row.extractorVersion)
  size row := row.sizeBytes
  accessed row := row.lastAccessed.toInt
  createdAt row := row.createdAt
  touch := CachedRow.touch
  key_touch _ _ := rfl

def cachedRow [DocumentJson Url] (canonicalUrl contentHash extractorVersion : String)
    (payload : Document Url) (now : Int64) (etag lastModified : Option String) : CachedRow Url :=
  { canonicalUrl, contentHash, extractorVersion, payload, etag, lastModified
    sizeBytes := DocumentJson.size payload
    createdAt := now
    lastAccessed := now }

def laterCreated (best : Option (CachedRow Url)) (row : CachedRow Url) : Option (CachedRow Url) :=
  match best with
  | none => some row
  | some other => if other.createdAt < row.createdAt then some row else some other

def touchKey (canonicalUrl contentHash extractorVersion : String) (now : Int64)
    (rows : List (CachedRow Url)) : List (CachedRow Url) :=
  rows.map (fun row =>
    if row.hasKey canonicalUrl contentHash extractorVersion then row.touch now else row)

/-- Without overflow checks the sum of both times wraps. -/
def documentCacheGetWithRevalidation (overflowChecks : Bool) (rows : List (CachedRow Url))
    (canonicalUrl contentHash extractorVersion : String) (now : Int64)
    (ttlSeconds staleWhileRevalidateSeconds : UInt64) :
    Except LookupFailure (Option (CachedDocument Url) × List (CachedRow Url)) :=
  if overflowChecks && 2 ^ 64 ≤ ttlSeconds.toNat + staleWhileRevalidateSeconds.toNat then
    .error .overflow
  else
    let staleCutoff := cutoff now (ttlSeconds + staleWhileRevalidateSeconds)
    let found := (rows.filter (fun row => row.hasKey canonicalUrl contentHash extractorVersion &&
      staleCutoff ≤ row.createdAt)).foldl laterCreated none
    match found with
    | none => .ok (none, rows)
    | some row => .ok
        (some { payload := row.payload, etag := row.etag, lastModified := row.lastModified
                fresh := cutoff now ttlSeconds ≤ row.createdAt },
          touchKey canonicalUrl contentHash extractorVersion now rows)

/-! Both lookups in terms of the one row that has the key. -/

variable {canonicalUrl contentHash extractorVersion : String}

theorem hasKey_iff {row : CachedRow Url} :
    row.hasKey canonicalUrl contentHash extractorVersion = true ↔
      Lru.Row.key row = (canonicalUrl, contentHash, extractorVersion) := by
  have key : Lru.Row.key row = (row.canonicalUrl, row.contentHash, row.extractorVersion) := rfl
  rw [key, DocumentRow.hasKey]
  simp [and_assoc]

def keyedRow (rows : List (CachedRow Url)) (canonicalUrl contentHash extractorVersion : String) :
    Option (CachedRow Url) :=
  rows.find? (fun row => row.hasKey canonicalUrl contentHash extractorVersion)

theorem filter_hasKey {rows : List (CachedRow Url)} (distinct : (Lru.keys rows).Nodup) :
    rows.filter (fun row => row.hasKey canonicalUrl contentHash extractorVersion) =
      (keyedRow rows canonicalUrl contentHash extractorVersion).toList := by
  unfold keyedRow
  induction rows with
  | nil => rfl
  | cons row rows ih =>
    obtain ⟨fresh, rest⟩ := List.nodup_cons.mp distinct
    by_cases here : row.hasKey canonicalUrl contentHash extractorVersion = true
    · have none : rows.filter (fun row => row.hasKey canonicalUrl contentHash extractorVersion) =
          [] := by
        refine List.filter_eq_nil_iff.mpr (fun other mem same => fresh ?_)
        have key := (hasKey_iff.mp here).trans (hasKey_iff.mp same).symm
        exact key ▸ List.mem_map_of_mem mem
      simp only [List.filter_cons, List.find?_cons, here, none, if_true, Option.toList_some]
    · simp only [List.filter_cons, List.find?_cons, here, Bool.false_eq_true, if_false, ih rest]

theorem filter_hasKey_and {rows : List (CachedRow Url)} (distinct : (Lru.keys rows).Nodup)
    (p : CachedRow Url → Bool) :
    rows.filter (fun row => row.hasKey canonicalUrl contentHash extractorVersion && p row) =
      ((keyedRow rows canonicalUrl contentHash extractorVersion).filter p).toList := by
  have swap : rows.filter (fun row =>
      row.hasKey canonicalUrl contentHash extractorVersion && p row) =
      (rows.filter (fun row => row.hasKey canonicalUrl contentHash extractorVersion)).filter p := by
    rw [List.filter_filter]
    exact List.filter_congr (fun row _ => Bool.and_comm _ _)
  rw [swap, filter_hasKey distinct]
  cases keyedRow rows canonicalUrl contentHash extractorVersion with
  | none => rfl
  | some row => by_cases h : p row <;> simp [Option.filter, h]

theorem documentCacheGet_keyed {rows : List (CachedRow Url)}
    (distinct : (Lru.keys rows).Nodup) (now : Int64) (ttlSeconds : UInt64) :
    (documentCacheGet (rows.map CachedRow.toDocumentRow) canonicalUrl contentHash extractorVersion
        now ttlSeconds).1 =
      ((keyedRow rows canonicalUrl contentHash extractorVersion).filter
        (fun row => cutoff now ttlSeconds ≤ row.createdAt)).map (fun row => row.payload) := by
  have found : (rows.map CachedRow.toDocumentRow).find? (fun row =>
      row.hasKey canonicalUrl contentHash extractorVersion &&
        cutoff now ttlSeconds ≤ row.createdAt) =
      ((keyedRow rows canonicalUrl contentHash extractorVersion).filter
        (fun row => cutoff now ttlSeconds ≤ row.createdAt)).map CachedRow.toDocumentRow := by
    rw [List.find?_map]
    refine congrArg (Option.map CachedRow.toDocumentRow) ?_
    rw [← List.head?_filter]
    exact (congrArg List.head? (filter_hasKey_and distinct _)).trans Option.head?_toList
  unfold documentCacheGet
  simp only [found]
  cases (keyedRow rows canonicalUrl contentHash extractorVersion).filter
    (fun row => cutoff now ttlSeconds ≤ row.createdAt) <;> rfl

theorem getWithRevalidation_keyed {overflowChecks : Bool} {rows : List (CachedRow Url)}
    (distinct : (Lru.keys rows).Nodup) (now : Int64) {ttlSeconds stale : UInt64}
    (fits : (overflowChecks && 2 ^ 64 ≤ ttlSeconds.toNat + stale.toNat) = false) :
    ∃ after, documentCacheGetWithRevalidation overflowChecks rows canonicalUrl contentHash
        extractorVersion now ttlSeconds stale =
      .ok (((keyedRow rows canonicalUrl contentHash extractorVersion).filter
        (fun row => cutoff now (ttlSeconds + stale) ≤ row.createdAt)).map (fun row =>
          { payload := row.payload, etag := row.etag, lastModified := row.lastModified
            fresh := cutoff now ttlSeconds ≤ row.createdAt }), after) := by
  unfold documentCacheGetWithRevalidation
  rw [if_neg (Bool.eq_false_iff.mp fits)]
  simp only [filter_hasKey_and distinct]
  cases (keyedRow rows canonicalUrl contentHash extractorVersion).filter
      (fun row => cutoff now (ttlSeconds + stale) ≤ row.createdAt) with
  | none => exact ⟨rows, rfl⟩
  | some row => exact ⟨_, rfl⟩

/-! A time from `2 ^ 63` on is negative when it is cast. -/

theorem toInt64_of_ge {n : UInt64} (h : 2 ^ 63 ≤ n.toNat) :
    n.toInt64.toInt = n.toNat - 2 ^ 64 := by
  have cases := BitVec.toInt_eq_toNat_cond n.toBitVec
  have same : n.toInt64.toInt = n.toBitVec.toInt := rfl
  have size : n.toBitVec.toNat = n.toNat := rfl
  split at cases <;> omega

/-! The law of both lookups. -/

/-- What a plain lookup finds, the other one finds fresh. -/
def FindsFresh (Url : Type) (overflowChecks : Bool) (ttlSeconds stale : UInt64) :
    Prop :=
  ∀ (rows : List (CachedRow Url)) (canonicalUrl contentHash extractorVersion : String)
    (now : Int64) (payload : Document Url), (Lru.keys rows).Nodup →
    (documentCacheGet (rows.map CachedRow.toDocumentRow) canonicalUrl contentHash
      extractorVersion now ttlSeconds).1 = some payload →
    ∃ cached after, documentCacheGetWithRevalidation overflowChecks rows canonicalUrl contentHash
        extractorVersion now ttlSeconds stale = .ok (some cached, after) ∧
      cached.payload = payload ∧ cached.fresh = true

/-- A stale document is between one and both times old. -/
def StaleInWindow (Url : Type) (overflowChecks : Bool) (ttlSeconds stale : UInt64) : Prop :=
  ∀ (rows after : List (CachedRow Url)) (canonicalUrl contentHash extractorVersion : String)
    (now : Int64) (row : CachedRow Url) (cached : CachedDocument Url), (Lru.keys rows).Nodup →
    row ∈ rows → row.hasKey canonicalUrl contentHash extractorVersion = true →
    documentCacheGetWithRevalidation overflowChecks rows canonicalUrl contentHash extractorVersion
      now ttlSeconds stale = .ok (some cached, after) → cached.fresh = false →
    row.createdAt.toInt + ttlSeconds.toNat < now.toInt ∧
      now.toInt ≤ row.createdAt.toInt + ttlSeconds.toNat + stale.toNat

theorem keyedRow_of_mem {rows : List (CachedRow Url)} (distinct : (Lru.keys rows).Nodup)
    {row : CachedRow Url} (mem : row ∈ rows)
    (key : row.hasKey canonicalUrl contentHash extractorVersion = true) :
    keyedRow rows canonicalUrl contentHash extractorVersion = some row := by
  have inside : row ∈ rows.filter (fun row =>
      row.hasKey canonicalUrl contentHash extractorVersion) := List.mem_filter.mpr ⟨mem, key⟩
  rw [filter_hasKey distinct] at inside
  exact Option.mem_toList.mp inside

theorem getWithRevalidation_some {overflowChecks : Bool} {rows after : List (CachedRow Url)}
    (distinct : (Lru.keys rows).Nodup) {now : Int64} {ttlSeconds stale : UInt64}
    {cached : CachedDocument Url}
    (h : documentCacheGetWithRevalidation overflowChecks rows canonicalUrl contentHash
      extractorVersion now ttlSeconds stale = .ok (some cached, after)) :
    ∃ row, keyedRow rows canonicalUrl contentHash extractorVersion = some row ∧
      cutoff now (ttlSeconds + stale) ≤ row.createdAt ∧ cached.payload = row.payload ∧
      (cached.fresh = true ↔ cutoff now ttlSeconds ≤ row.createdAt) ∧
      (overflowChecks && 2 ^ 64 ≤ ttlSeconds.toNat + stale.toNat) = false := by
  by_cases fits : (overflowChecks && 2 ^ 64 ≤ ttlSeconds.toNat + stale.toNat) = false
  · have answers : ∃ other, documentCacheGetWithRevalidation overflowChecks rows canonicalUrl
        contentHash extractorVersion now ttlSeconds stale = .ok (_, other) :=
      getWithRevalidation_keyed distinct now fits
    obtain ⟨other, answer⟩ := answers
    rw [h] at answer
    obtain ⟨same, -⟩ := Prod.mk.inj (Except.ok.inj answer)
    obtain ⟨row, found, rfl⟩ := Option.map_eq_some_iff.mp same.symm
    obtain ⟨keyed, late⟩ := Option.filter_eq_some_iff.mp found
    exact ⟨row, keyed, of_decide_eq_true late, rfl, decide_eq_true_iff, fits⟩
  · unfold documentCacheGetWithRevalidation at h
    rw [if_pos (by simpa using fits)] at h
    cases h

theorem lookups_agree (overflowChecks : Bool) {ttlSeconds stale : UInt64}
    (small : stale = 0 ∨ ttlSeconds.toNat + stale.toNat < 2 ^ 63) :
    FindsFresh Url overflowChecks ttlSeconds stale ∧
      StaleInWindow Url overflowChecks ttlSeconds stale := by
  have sum : (ttlSeconds + stale).toNat = ttlSeconds.toNat + stale.toNat ∧
      (stale = 0 ∨ (ttlSeconds.toInt64.toInt = ttlSeconds.toNat ∧
        (ttlSeconds + stale).toInt64.toInt = ttlSeconds.toNat + stale.toNat)) := by
    rcases small with rfl | small
    · exact ⟨by simp, .inl rfl⟩
    · have whole : (ttlSeconds + stale).toNat = ttlSeconds.toNat + stale.toNat := by
        rw [UInt64.toNat_add]
        omega
      refine ⟨whole, .inr ⟨toInt64_of_lt (by omega), ?_⟩⟩
      rw [toInt64_of_lt (by omega), whole]
      omega
  have fits : (overflowChecks && 2 ^ 64 ≤ ttlSeconds.toNat + stale.toNat) = false := by
    have less := (ttlSeconds + stale).toNat_lt
    have none : ¬2 ^ 64 ≤ ttlSeconds.toNat + stale.toNat := by omega
    rw [decide_eq_false none, Bool.and_false]
  have longer : ttlSeconds.toInt64.toInt ≤ (ttlSeconds + stale).toInt64.toInt := by
    rcases sum.2 with rfl | ⟨first, second⟩
    · simp
    · omega
  constructor
  · intro rows canonicalUrl contentHash extractorVersion now payload distinct found
    rw [documentCacheGet_keyed distinct] at found
    obtain ⟨row, here, rfl⟩ := Option.map_eq_some_iff.mp found
    obtain ⟨keyed, late⟩ := Option.filter_eq_some_iff.mp here
    have fresh : cutoff now ttlSeconds ≤ row.createdAt := of_decide_eq_true late
    have within : cutoff now (ttlSeconds + stale) ≤ row.createdAt := by
      rw [cutoff_le_iff] at fresh ⊢
      omega
    have kept : (some row).filter (fun row => cutoff now (ttlSeconds + stale) ≤ row.createdAt) =
        some row := Option.filter_eq_some_iff.mpr ⟨rfl, decide_eq_true within⟩
    obtain ⟨after, answer⟩ := getWithRevalidation_keyed distinct now fits
    rw [keyed, kept] at answer
    exact ⟨_, after, answer, rfl, decide_eq_true fresh⟩
  · intro rows after canonicalUrl contentHash extractorVersion now row cached distinct mem key
      answer stale_row
    obtain ⟨other, keyed, within, -, fresh, -⟩ := getWithRevalidation_some distinct answer
    rw [keyedRow_of_mem distinct mem key] at keyed
    obtain rfl := Option.some.inj keyed
    have late : ¬cutoff now ttlSeconds ≤ row.createdAt := by
      rw [← fresh, stale_row]
      exact Bool.false_ne_true
    rw [cutoff_le_iff] at within late
    rcases sum.2 with rfl | ⟨first, second⟩
    · rw [UInt64.add_zero] at within
      omega
    · omega

/-! Where the casts go wrong, a table with one row shows it. -/

def rowCreated [Inhabited Url] (created : Int64) : CachedRow Url where
  canonicalUrl := "https://lean.example/a"
  contentHash := "0"
  extractorVersion := "1"
  payload :=
    { searchResultId := "1", originalUrl := default, canonicalUrl := default, finalUrl := default,
      contentHash := "0", fetchMethod := .http, extractorUsed := none, contentType := none,
      size := 0, retrievedAt := "2026-11-19T00:00:00Z", status := .enriched, content := none,
      title := none, author := none, publishedAt := none, metadata := [] }
  sizeBytes := 0
  createdAt := created
  lastAccessed := created
  etag := none
  lastModified := none

theorem keyedRow_created [Inhabited Url] (created : Int64) :
    keyedRow [(rowCreated created : CachedRow Url)] "https://lean.example/a" "0" "1" =
      some (rowCreated created) := rfl

theorem distinct_created [Inhabited Url] (created : Int64) :
    (Lru.keys [(rowCreated created : CachedRow Url)]).Nodup := List.nodup_singleton _

theorem documentCacheGet_created [Inhabited Url] {now created : Int64}
    {ttlSeconds : UInt64} (fresh : cutoff now ttlSeconds ≤ created) :
    (documentCacheGet ([(rowCreated created : CachedRow Url)].map CachedRow.toDocumentRow)
        "https://lean.example/a" "0" "1" now ttlSeconds).1 =
      some (rowCreated created : CachedRow Url).payload := by
  have kept : (some (rowCreated created : CachedRow Url)).filter
      (fun row => cutoff now ttlSeconds ≤ row.createdAt) = some (rowCreated created) :=
    Option.filter_eq_some_iff.mpr ⟨rfl, decide_eq_true fresh⟩
  rw [documentCacheGet_keyed (distinct_created created), keyedRow_created, kept]
  rfl

theorem getWithRevalidation_created (U : Type) [Inhabited U] {overflowChecks : Bool}
    {now created : Int64} {ttlSeconds stale : UInt64}
    (fits : (overflowChecks && 2 ^ 64 ≤ ttlSeconds.toNat + stale.toNat) = false)
    (found : cutoff now (ttlSeconds + stale) ≤ created) :
    ∃ cached after, documentCacheGetWithRevalidation overflowChecks
        [(rowCreated created : CachedRow U)] "https://lean.example/a" "0" "1" now ttlSeconds stale =
      .ok (some cached, after) ∧ cached.fresh = decide (cutoff now ttlSeconds ≤ created) := by
  have kept : (some (rowCreated created : CachedRow U)).filter
      (fun row => cutoff now (ttlSeconds + stale) ≤ row.createdAt) = some (rowCreated created) :=
    Option.filter_eq_some_iff.mpr ⟨rfl, decide_eq_true found⟩
  obtain ⟨after, answer⟩ := getWithRevalidation_keyed (@distinct_created U _ created) now fits
  rw [keyedRow_created, kept] at answer
  exact ⟨_, after, answer, rfl⟩

theorem small_of_agree [Inhabited Url] {overflowChecks : Bool}
    {ttlSeconds stale : UInt64} (finds : FindsFresh Url overflowChecks ttlSeconds stale)
    (window : StaleInWindow Url overflowChecks ttlSeconds stale) :
    stale = 0 ∨ ttlSeconds.toNat + stale.toNat < 2 ^ 63 := by
  by_contra large
  obtain ⟨some_window, large⟩ := not_or.mp large
  have positive : stale.toNat ≠ 0 := fun none => some_window (UInt64.toNat_inj.mp none)
  have short := ttlSeconds.toInt64.minValue_le_toInt
  have long := ttlSeconds.toInt64.toInt_le
  have short' := (ttlSeconds + stale).toInt64.minValue_le_toInt
  have long' := (ttlSeconds + stale).toInt64.toInt_le
  have least : Int64.minValue.toInt = -2 ^ 63 := by decide
  have greatest : Int64.maxValue.toInt = 2 ^ 63 - 1 := by decide
  have clock : (-1 : Int64).toInt = -1 := by decide
  have wraps : (ttlSeconds + stale).toNat = (ttlSeconds.toNat + stale.toNat) % 2 ^ 64 :=
    UInt64.toNat_add ttlSeconds stale
  have size := ttlSeconds.toNat_lt
  have size' := stale.toNat_lt
  -- a second before the epoch neither cut-off saturates
  have created : ∀ n : Int, -2 ^ 63 ≤ n → n < 2 ^ 63 → (Int64.ofInt (-1 - n)).toInt = -1 - n :=
    fun n low high => Int64.toInt_ofInt_of_le (by omega) (by omega)
  have youngest := created ttlSeconds.toInt64.toInt (by omega) (by omega)
  have fresh : cutoff (-1) ttlSeconds ≤ Int64.ofInt (-1 - ttlSeconds.toInt64.toInt) := by
    rw [cutoff_le_iff]
    omega
  obtain ⟨cached, after, answer, -, -⟩ :=
    finds _ _ _ _ _ _ (distinct_created _) (documentCacheGet_created fresh)
  obtain ⟨row, keyed, within, -, -, fits⟩ := getWithRevalidation_some (distinct_created _) answer
  obtain rfl := Option.some.inj ((keyedRow_created _).symm.trans keyed)
  rw [cutoff_le_iff, rowCreated, youngest] at within
  have longer : ttlSeconds.toInt64.toInt ≤ (ttlSeconds + stale).toInt64.toInt := by omega
  have negative : 2 ^ 63 ≤ ttlSeconds.toNat := by
    by_contra small
    have plain := toInt64_of_lt (not_le.mp small)
    by_cases sum : 2 ^ 63 ≤ (ttlSeconds + stale).toNat
    · have cast := toInt64_of_ge sum
      omega
    · have cast := toInt64_of_lt (not_le.mp sum)
      omega
  -- both times are negative then, and a row behind the shorter one is found as stale
  have oldest := created (ttlSeconds + stale).toInt64.toInt (by omega) (by omega)
  have cast := toInt64_of_ge negative
  have apart : ttlSeconds.toInt64.toInt < (ttlSeconds + stale).toInt64.toInt := by
    by_cases sum : 2 ^ 63 ≤ (ttlSeconds + stale).toNat
    · have cast' := toInt64_of_ge sum
      omega
    · have cast' := toInt64_of_lt (not_le.mp sum)
      omega
  have found : cutoff (-1) (ttlSeconds + stale) ≤
      Int64.ofInt (-1 - (ttlSeconds + stale).toInt64.toInt) := by
    rw [cutoff_le_iff, oldest]
    omega
  have expired : ¬cutoff (-1) ttlSeconds ≤
      Int64.ofInt (-1 - (ttlSeconds + stale).toInt64.toInt) := by
    rw [cutoff_le_iff, oldest]
    omega
  obtain ⟨cached', after', answer', marked⟩ := getWithRevalidation_created Url fits found
  obtain ⟨early, -⟩ := window _ _ _ _ _ _ _ _ (distinct_created _) List.mem_cons_self rfl answer'
    (marked.trans (decide_eq_false expired))
  rw [rowCreated, oldest] at early
  omega

/-- The lookups agree exactly where the sum of both times is an `i64`, or the window is empty. -/
theorem lookups_agree_iff [Inhabited Url] (overflowChecks : Bool)
    (ttlSeconds stale : UInt64) :
    (FindsFresh Url overflowChecks ttlSeconds stale ∧
        StaleInWindow Url overflowChecks ttlSeconds stale) ↔
      stale = 0 ∨ ttlSeconds.toNat + stale.toNat < 2 ^ 63 :=
  ⟨fun h => small_of_agree h.1 h.2, lookups_agree overflowChecks⟩

end

instance : Inhabited PlainUrl := ⟨⟨"lean.example", "/a"⟩⟩

/-- A window of one second takes the sum of both times over the largest `i64`. -/
theorem hugeTimes_differ :
    (documentCacheGet ([(rowCreated 100 : CachedRow PlainUrl)].map CachedRow.toDocumentRow)
        "https://lean.example/a" "0" "1" 100 (2 ^ 63 - 1)).1 =
      some (rowCreated 100 : CachedRow PlainUrl).payload ∧
    documentCacheGetWithRevalidation true [(rowCreated 100 : CachedRow PlainUrl)]
        "https://lean.example/a" "0" "1" 100 (2 ^ 63 - 1) 1 = .ok (none, [rowCreated 100]) := by
  decide +kernel

end Amatl
