import Amatl.Circuit
import Amatl.Model

/-! The Deep budget: reservations made before a fetch, a rendering or a subquery,
consumption after a fetch, and the two releases. -/

namespace Amatl

@[ext]
structure DeepBudgetSnapshot where
  remainingFetches : UInt32
  remainingBytes : UInt64
  remainingRedirects : UInt32
  remainingBrowserCalls : UInt32
  remainingCrawlUrls : UInt32
  remainingSubqueries : UInt32
  remainingCost : UInt64
  deadlineMs : UInt64
  deriving DecidableEq, Repr

/-- What is released never lifts a counter over the value it was built with. -/
structure DeepBudget where
  snapshot : DeepBudgetSnapshot
  maxFetches : UInt32
  maxBrowserCalls : UInt32
  maxCrawlUrls : UInt32
  deriving DecidableEq, Repr

namespace DeepBudget

def new (fetches : UInt32) (bytes : UInt64) (redirects browserCalls crawlUrls : UInt32)
    (deadlineMs : UInt64) : DeepBudget where
  snapshot :=
    { remainingFetches := fetches, remainingBytes := bytes, remainingRedirects := redirects,
      remainingBrowserCalls := browserCalls, remainingCrawlUrls := crawlUrls,
      remainingSubqueries := 0, remainingCost := 0, deadlineMs }
  maxFetches := fetches
  maxBrowserCalls := browserCalls
  maxCrawlUrls := crawlUrls

def withGapLimits (b : DeepBudget) (maxSubqueries : UInt32) (maxCost : UInt64) : DeepBudget :=
  { b with snapshot :=
      { b.snapshot with remainingSubqueries := min maxSubqueries 2, remainingCost := maxCost } }

/-- An operation that can fail returns its result with the budget it leaves. -/
def reserveFetch (b : DeepBudget) : Except BudgetExhaustionCause UInt64 × DeepBudget :=
  if b.snapshot.remainingFetches = 0 then (.error .fetchLimit, b)
  else if b.snapshot.remainingCrawlUrls = 0 then (.error .crawlLimit, b)
  else if b.snapshot.remainingBytes = 0 then (.error .byteLimit, b)
  else
    (.ok b.snapshot.remainingBytes,
      { b with snapshot :=
          { b.snapshot with
            remainingFetches := b.snapshot.remainingFetches - 1
            remainingCrawlUrls := b.snapshot.remainingCrawlUrls - 1 } })

def consumeFetch (b : DeepBudget) (bytes : UInt64) (redirects : UInt32) :
    Except BudgetExhaustionCause Unit × DeepBudget :=
  if b.snapshot.remainingBytes < bytes then (.error .byteLimit, b)
  else if b.snapshot.remainingRedirects < redirects then (.error .redirectLimit, b)
  else
    (.ok (),
      { b with snapshot :=
          { b.snapshot with
            remainingBytes := b.snapshot.remainingBytes - bytes
            remainingRedirects := b.snapshot.remainingRedirects - redirects } })

def reserveBrowser (b : DeepBudget) : Except BudgetExhaustionCause Unit × DeepBudget :=
  if b.snapshot.remainingBrowserCalls = 0 then (.error .browserLimit, b)
  else
    (.ok (),
      { b with snapshot :=
          { b.snapshot with remainingBrowserCalls := b.snapshot.remainingBrowserCalls - 1 } })

def releaseFetch (b : DeepBudget) : DeepBudget :=
  { b with snapshot :=
      { b.snapshot with
        remainingFetches := min (saturatingSucc b.snapshot.remainingFetches) b.maxFetches
        remainingCrawlUrls := min (saturatingSucc b.snapshot.remainingCrawlUrls) b.maxCrawlUrls } }

def releaseBrowser (b : DeepBudget) : DeepBudget :=
  { b with snapshot :=
      { b.snapshot with
        remainingBrowserCalls :=
          min (saturatingSucc b.snapshot.remainingBrowserCalls) b.maxBrowserCalls } }

def reserveSubquery (b : DeepBudget) (estimatedCost : UInt64) :
    Except BudgetExhaustionCause Unit × DeepBudget :=
  if b.snapshot.remainingSubqueries = 0 then (.error .subqueryLimit, b)
  else if b.snapshot.remainingCost < estimatedCost then (.error .costLimit, b)
  else
    (.ok (),
      { b with snapshot :=
          { b.snapshot with
            remainingSubqueries := b.snapshot.remainingSubqueries - 1
            remainingCost := b.snapshot.remainingCost - estimatedCost } })

variable {b b' b'' : DeepBudget}

theorem toNat_min_u32 (a c : UInt32) : (min a c).toNat = min a.toNat c.toNat := by
  rw [show min a c = if a ≤ c then a else c from rfl]
  split
  · rename_i h
    exact (Nat.min_eq_left (UInt32.le_iff_toNat_le.mp h)).symm
  · rename_i h
    exact (Nat.min_eq_right (UInt32.le_iff_toNat_le.mp (UInt32.le_of_lt (UInt32.not_le.mp h)))).symm

theorem toNat_min_u64 (a c : UInt64) : (min a c).toNat = min a.toNat c.toNat := by
  rw [show min a c = if a ≤ c then a else c from rfl]
  split
  · rename_i h
    exact (Nat.min_eq_left (UInt64.le_iff_toNat_le.mp h)).symm
  · rename_i h
    exact (Nat.min_eq_right (UInt64.le_iff_toNat_le.mp (UInt64.le_of_lt (UInt64.not_le.mp h)))).symm

theorem toNat_sub_one {n : UInt32} (h : n ≠ 0) : (n - 1).toNat + 1 = n.toNat := by
  have positive : 1 ≤ n.toNat := Nat.one_le_iff_ne_zero.mpr (fun h0 => h (UInt32.toNat_inj.mp h0))
  have order : 1 ≤ n := UInt32.le_iff_toNat_le.mpr positive
  rw [UInt32.toNat_sub_of_le n 1 order]
  exact Nat.sub_add_cancel positive

/-- `b'` is `b` after `bytes` and `redirects` were consumed; renderings may have
been used up, everything else is as it was. -/
structure Spent (b b' : DeepBudget) (bytes redirects : Nat) : Prop where
  fetches : b'.snapshot.remainingFetches = b.snapshot.remainingFetches
  crawlUrls : b'.snapshot.remainingCrawlUrls = b.snapshot.remainingCrawlUrls
  bytes : b'.snapshot.remainingBytes.toNat + bytes = b.snapshot.remainingBytes.toNat
  redirects : b'.snapshot.remainingRedirects.toNat + redirects =
    b.snapshot.remainingRedirects.toNat
  browserCalls : b'.snapshot.remainingBrowserCalls.toNat ≤ b.snapshot.remainingBrowserCalls.toNat
  subqueries : b'.snapshot.remainingSubqueries = b.snapshot.remainingSubqueries
  cost : b'.snapshot.remainingCost = b.snapshot.remainingCost
  deadline : b'.snapshot.deadlineMs = b.snapshot.deadlineMs
  ceilings : b'.maxFetches = b.maxFetches ∧ b'.maxCrawlUrls = b.maxCrawlUrls ∧
    b'.maxBrowserCalls = b.maxBrowserCalls

theorem Spent.refl (b : DeepBudget) : Spent b b 0 0 :=
  ⟨rfl, rfl, rfl, rfl, le_rfl, rfl, rfl, rfl, rfl, rfl, rfl⟩

theorem Spent.trans {bytes bytes' redirects redirects' : Nat} (h : Spent b b' bytes redirects)
    (h' : Spent b' b'' bytes' redirects') :
    Spent b b'' (bytes + bytes') (redirects + redirects') where
  fetches := h'.fetches.trans h.fetches
  crawlUrls := h'.crawlUrls.trans h.crawlUrls
  bytes := by
    have first := h.bytes
    have second := h'.bytes
    omega
  redirects := by
    have first := h.redirects
    have second := h'.redirects
    omega
  browserCalls := h'.browserCalls.trans h.browserCalls
  subqueries := h'.subqueries.trans h.subqueries
  cost := h'.cost.trans h.cost
  deadline := h'.deadline.trans h.deadline
  ceilings := ⟨h'.ceilings.1.trans h.ceilings.1, h'.ceilings.2.1.trans h.ceilings.2.1,
    h'.ceilings.2.2.trans h.ceilings.2.2⟩

theorem reserveFetch_error {cause : BudgetExhaustionCause} (h : b.reserveFetch = (.error cause, b')) :
    b' = b := by
  unfold reserveFetch at h
  split at h
  · exact (Prod.ext_iff.mp h).2.symm
  · split at h
    · exact (Prod.ext_iff.mp h).2.symm
    · split at h
      · exact (Prod.ext_iff.mp h).2.symm
      · exact nomatch (Prod.ext_iff.mp h).1

theorem reserveFetch_ok {remaining : UInt64} (h : b.reserveFetch = (.ok remaining, b')) :
    b.snapshot.remainingFetches ≠ 0 ∧ b.snapshot.remainingCrawlUrls ≠ 0 ∧
      remaining = b.snapshot.remainingBytes ∧
      b' = { b with snapshot :=
        { b.snapshot with
          remainingFetches := b.snapshot.remainingFetches - 1
          remainingCrawlUrls := b.snapshot.remainingCrawlUrls - 1 } } := by
  unfold reserveFetch at h
  split at h
  · exact nomatch (Prod.ext_iff.mp h).1
  · rename_i hfetches
    split at h
    · exact nomatch (Prod.ext_iff.mp h).1
    · rename_i hurls
      split at h
      · exact nomatch (Prod.ext_iff.mp h).1
      · cases h
        exact ⟨hfetches, hurls, rfl, rfl⟩

theorem consumeFetch_error {bytes : UInt64} {redirects : UInt32} {cause : BudgetExhaustionCause}
    (h : b.consumeFetch bytes redirects = (.error cause, b')) : b' = b := by
  unfold consumeFetch at h
  split at h
  · exact (Prod.ext_iff.mp h).2.symm
  · split at h
    · exact (Prod.ext_iff.mp h).2.symm
    · exact nomatch (Prod.ext_iff.mp h).1

theorem consumeFetch_ok {bytes : UInt64} {redirects : UInt32}
    (h : b.consumeFetch bytes redirects = (.ok (), b')) :
    Spent b b' bytes.toNat redirects.toNat := by
  unfold consumeFetch at h
  split at h
  · exact nomatch (Prod.ext_iff.mp h).1
  · rename_i hbytes
    split at h
    · exact nomatch (Prod.ext_iff.mp h).1
    · rename_i hredirects
      cases h
      have fits : bytes ≤ b.snapshot.remainingBytes := UInt64.not_lt.mp hbytes
      have allowed : redirects ≤ b.snapshot.remainingRedirects := UInt32.not_lt.mp hredirects
      refine ⟨rfl, rfl, ?_, ?_, le_rfl, rfl, rfl, rfl, rfl, rfl, rfl⟩
      · rw [UInt64.toNat_sub_of_le _ _ fits]
        exact Nat.sub_add_cancel (UInt64.le_iff_toNat_le.mp fits)
      · rw [UInt32.toNat_sub_of_le _ _ allowed]
        exact Nat.sub_add_cancel (UInt32.le_iff_toNat_le.mp allowed)

theorem consumeFetch_within {bytes : UInt64} {redirects : UInt32}
    (hbytes : bytes ≤ b.snapshot.remainingBytes)
    (hredirects : redirects ≤ b.snapshot.remainingRedirects) :
    ∃ b', b.consumeFetch bytes redirects = (.ok (), b') := by
  unfold consumeFetch
  rw [if_neg (UInt64.not_lt.mpr hbytes), if_neg (UInt32.not_lt.mpr hredirects)]
  exact ⟨_, rfl⟩

theorem reserveBrowser_error {cause : BudgetExhaustionCause}
    (h : b.reserveBrowser = (.error cause, b')) : b' = b := by
  unfold reserveBrowser at h
  split at h
  · exact (Prod.ext_iff.mp h).2.symm
  · exact nomatch (Prod.ext_iff.mp h).1

theorem reserveBrowser_ok (h : b.reserveBrowser = (.ok (), b')) :
    b.snapshot.remainingBrowserCalls ≠ 0 ∧
      b' = { b with snapshot :=
        { b.snapshot with
          remainingBrowserCalls := b.snapshot.remainingBrowserCalls - 1 } } := by
  unfold reserveBrowser at h
  split at h
  · exact nomatch (Prod.ext_iff.mp h).1
  · rename_i hcalls
    cases h
    exact ⟨hcalls, rfl⟩

theorem reserveBrowser_spent (h : b.reserveBrowser = (.ok (), b')) : Spent b b' 0 0 := by
  obtain ⟨hcalls, rfl⟩ := reserveBrowser_ok h
  have left := toNat_sub_one hcalls
  exact ⟨rfl, rfl, rfl, rfl, by simp only; omega, rfl, rfl, rfl, rfl, rfl, rfl⟩

theorem releaseBrowser_spent (h : b.reserveBrowser = (.ok (), b')) :
    Spent b b'.releaseBrowser 0 0 := by
  obtain ⟨hcalls, rfl⟩ := reserveBrowser_ok h
  have left := toNat_sub_one hcalls
  refine ⟨rfl, rfl, rfl, rfl, ?_, rfl, rfl, rfl, rfl, rfl, rfl⟩
  simp only [releaseBrowser, toNat_min_u32, toNat_saturatingSucc]
  omega

theorem releaseFetch_fetches (b : DeepBudget) :
    b.releaseFetch.snapshot.remainingFetches.toNat ≤ b.snapshot.remainingFetches.toNat + 1 := by
  simp only [releaseFetch, toNat_min_u32, toNat_saturatingSucc]
  omega

theorem releaseFetch_crawlUrls (b : DeepBudget) :
    b.releaseFetch.snapshot.remainingCrawlUrls.toNat ≤
      b.snapshot.remainingCrawlUrls.toNat + 1 := by
  simp only [releaseFetch, toNat_min_u32, toNat_saturatingSucc]
  omega

theorem reserveSubquery_error {cost : UInt64} {cause : BudgetExhaustionCause}
    (h : b.reserveSubquery cost = (.error cause, b')) : b' = b := by
  unfold reserveSubquery at h
  split at h
  · exact (Prod.ext_iff.mp h).2.symm
  · split at h
    · exact (Prod.ext_iff.mp h).2.symm
    · exact nomatch (Prod.ext_iff.mp h).1

theorem reserveSubquery_ok {cost : UInt64} (h : b.reserveSubquery cost = (.ok (), b')) :
    b'.snapshot.remainingSubqueries.toNat + 1 = b.snapshot.remainingSubqueries.toNat ∧
      b'.snapshot.remainingCost.toNat + cost.toNat = b.snapshot.remainingCost.toNat ∧
      b' = { b with snapshot :=
        { b.snapshot with
          remainingSubqueries := b'.snapshot.remainingSubqueries
          remainingCost := b'.snapshot.remainingCost } } := by
  unfold reserveSubquery at h
  split at h
  · exact nomatch (Prod.ext_iff.mp h).1
  · rename_i hqueries
    split at h
    · exact nomatch (Prod.ext_iff.mp h).1
    · rename_i hcost
      cases h
      have fits : cost ≤ b.snapshot.remainingCost := UInt64.not_lt.mp hcost
      refine ⟨toNat_sub_one hqueries, ?_, rfl⟩
      rw [UInt64.toNat_sub_of_le _ _ fits]
      exact Nat.sub_add_cancel (UInt64.le_iff_toNat_le.mp fits)

end DeepBudget

end Amatl
