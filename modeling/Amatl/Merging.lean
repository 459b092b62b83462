import Amatl.Dedupe
import Mathlib.Data.String.Basic

/-! What deduplication makes of a list of results: one result for each URL, made of the results
that have it, and marks between the similar ones. -/

namespace Amatl

open UrlCrate StableSort

section

variable {Url : Type} [UrlCrate Url]

def groupKey (r : CanonicalResult Url) : String := asStr r.canonicalUrl

theorem groupByUrl_cons (r : CanonicalResult Url) (rest : List (CanonicalResult Url)) :
    (groupByUrl (r :: rest) = [r] :: groupByUrl rest ∧
        ∀ s group groups, groupByUrl rest = (s :: group) :: groups → groupKey r ≠ groupKey s) ∨
      ∃ s group groups, groupByUrl rest = (s :: group) :: groups ∧ groupKey r = groupKey s ∧
        groupByUrl (r :: rest) = (r :: s :: group) :: groups := by
  rw [groupByUrl]
  split
  · rename_i s group groups first
    by_cases same : asStr r.canonicalUrl = asStr s.canonicalUrl
    · exact Or.inr ⟨s, group, groups, first, same, if_pos same⟩
    · rw [if_neg same]
      refine Or.inl ⟨by rw [first], ?_⟩
      intro s' group' groups' equal
      rw [first] at equal
      cases equal
      exact same
  · rename_i none
    exact Or.inl ⟨rfl, fun s group groups equal => absurd equal (none s group groups)⟩

theorem flatten_groupByUrl (l : List (CanonicalResult Url)) : (groupByUrl l).flatten = l := by
  induction l with
  | nil => rfl
  | cons r rest ih =>
    rcases groupByUrl_cons r rest with ⟨single, -⟩ | ⟨s, group, groups, first, -, joined⟩
    · rw [single, List.flatten_cons, ih]
      rfl
    · rw [first, List.flatten_cons] at ih
      rw [joined, List.flatten_cons, ← ih]
      rfl

/-- The groups of a sorted list: none is empty, each has one key, and the keys rise. -/
theorem groupByUrl_keys {l : List (CanonicalResult Url)}
    (sorted : l.Pairwise (fun a b => groupKey a ≤ groupKey b)) :
    (∀ group ∈ groupByUrl l, group ≠ [] ∧ ∀ a ∈ group, ∀ b ∈ group, groupKey a = groupKey b) ∧
      (groupByUrl l).Pairwise (fun g h => ∀ a ∈ g, ∀ b ∈ h, groupKey a < groupKey b) := by
  induction l with
  | nil => exact ⟨nofun, .nil⟩
  | cons r rest ih =>
    obtain ⟨least, tail⟩ := List.pairwise_cons.mp sorted
    obtain ⟨one, rising⟩ := ih tail
    rcases groupByUrl_cons r rest with ⟨single, other⟩ | ⟨s, group, groups, first, same, joined⟩
    · rw [single]
      constructor
      · intro group mem
        rcases List.mem_cons.mp mem with rfl | later
        · refine ⟨List.cons_ne_nil _ _, fun a ha b hb => ?_⟩
          rw [List.mem_singleton.mp ha, List.mem_singleton.mp hb]
        · exact one group later
      · refine List.pairwise_cons.mpr ⟨fun group mem a ha b hb => ?_, rising⟩
        rw [List.mem_singleton.mp ha]
        have inside : b ∈ rest := by
          rw [← flatten_groupByUrl rest]
          exact List.mem_flatten.mpr ⟨group, mem, hb⟩
        -- The first group behind has another key, and all later ones a greater one.
        obtain ⟨next, groups, hgroups⟩ := List.exists_cons_of_ne_nil (List.ne_nil_of_mem mem)
        rw [hgroups] at mem one rising
        obtain ⟨s, tail, rfl⟩ :=
          List.exists_cons_of_ne_nil (one next List.mem_cons_self).1
        have differs : groupKey r ≠ groupKey s := other s tail groups hgroups
        have first_le : groupKey r ≤ groupKey s := by
          apply least
          rw [← flatten_groupByUrl rest, hgroups]
          simp
        have first_lt : groupKey r < groupKey s := lt_of_le_of_ne first_le differs
        rcases List.mem_cons.mp mem with rfl | later
        · rw [← (one _ List.mem_cons_self).2 s List.mem_cons_self b hb]
          exact first_lt
        · exact first_lt.trans ((List.pairwise_cons.mp rising).1 group later s
            List.mem_cons_self b hb)
    · rw [first] at one rising
      rw [joined]
      have keys : ∀ a ∈ r :: s :: group, groupKey a = groupKey s := by
        intro a mem
        rcases List.mem_cons.mp mem with rfl | later
        · exact same
        · exact (one _ List.mem_cons_self).2 a later s List.mem_cons_self
      constructor
      · intro g mem
        rcases List.mem_cons.mp mem with rfl | later
        · exact ⟨List.cons_ne_nil _ _, fun a ha b hb => (keys a ha).trans (keys b hb).symm⟩
        · exact one g (List.mem_cons_of_mem _ later)
      · obtain ⟨above, rest_rising⟩ := List.pairwise_cons.mp rising
        refine List.pairwise_cons.mpr ⟨fun g mem a ha b hb => ?_, rest_rising⟩
        rw [keys a ha]
        exact above g mem s List.mem_cons_self b hb

theorem group_eq_filter {groups : List (List (CanonicalResult Url))}
    (one : ∀ group ∈ groups, ∀ a ∈ group, ∀ b ∈ group, groupKey a = groupKey b)
    (rising : groups.Pairwise (fun g h => ∀ a ∈ g, ∀ b ∈ h, groupKey a < groupKey b))
    {group : List (CanonicalResult Url)} (mem : group ∈ groups) {r : CanonicalResult Url}
    (inside : r ∈ group) : groups.flatten.filter (fun c => groupKey c = groupKey r) = group := by
  induction groups with
  | nil => cases mem
  | cons first groups ih =>
    obtain ⟨above, later_rising⟩ := List.pairwise_cons.mp rising
    rw [List.flatten_cons, List.filter_append]
    rcases List.mem_cons.mp mem with rfl | later
    · have all : group.filter (fun c => groupKey c = groupKey r) = group := by
        rw [List.filter_eq_self]
        intro c hc
        exact decide_eq_true (one group List.mem_cons_self c hc r inside)
      have none : groups.flatten.filter (fun c => groupKey c = groupKey r) = [] := by
        rw [List.filter_eq_nil_iff]
        intro c hc
        obtain ⟨other, hother, hmem⟩ := List.mem_flatten.mp hc
        have less := above other hother r inside c hmem
        simpa using less.ne'
      rw [all, none, List.append_nil]
    · have none : first.filter (fun c => groupKey c = groupKey r) = [] := by
        rw [List.filter_eq_nil_iff]
        intro c hc
        have less := above group later c hc r inside
        simpa using less.ne
      rw [none, List.nil_append]
      exact ih (fun g hg => one g (List.mem_cons_of_mem _ hg)) later_rising later

/-- The rank is the least that the provider reported in the group, and none if it reported none. -/
def LeastReported (group : List (CanonicalResult Url)) (provider : String) (rank : Option Rank) :
    Prop :=
  (∀ v, rank = some v → ∃ c ∈ group, c.provider = provider ∧ c.providerRank = some v) ∧
    ∀ c ∈ group, c.provider = provider → ∀ w, c.providerRank = some w →
      ∃ v, rank = some v ∧ v.value ≤ w.value

omit [UrlCrate Url] in
theorem LeastReported.first {group : List (CanonicalResult Url)} {r : CanonicalResult Url}
    (absent : ¬∃ c ∈ group, c.provider = r.provider) :
    LeastReported (group ++ [r]) r.provider r.providerRank := by
  refine ⟨fun v reported => ⟨r, by simp, rfl, reported⟩, fun c mem same w reported => ?_⟩
  rcases List.mem_append.mp mem with earlier | new
  · exact absurd ⟨c, earlier, same⟩ absent
  · rw [List.mem_singleton.mp new] at reported
    exact ⟨w, reported, UInt32.le_refl _⟩

omit [UrlCrate Url] in
theorem LeastReported.other {group : List (CanonicalResult Url)} {provider : String}
    {rank : Option Rank} (h : LeastReported group provider rank) {r : CanonicalResult Url}
    (differs : r.provider ≠ provider) : LeastReported (group ++ [r]) provider rank := by
  refine ⟨fun v equal => ?_, fun c mem same w reported => ?_⟩
  · obtain ⟨c, mem, rest⟩ := h.1 v equal
    exact ⟨c, List.mem_append_left _ mem, rest⟩
  · rcases List.mem_append.mp mem with earlier | new
    · exact h.2 c earlier same w reported
    · rw [List.mem_singleton.mp new] at same
      exact absurd same differs

theorem mergeRank_cases (left right : Option Rank) :
    (mergeRank left right = left ∨ mergeRank left right = right) ∧
      ∀ v, left = some v ∨ right = some v →
        ∃ w, mergeRank left right = some w ∧ w.value ≤ v.value := by
  cases left with
  | none =>
    refine ⟨Or.inr rfl, fun v given => ?_⟩
    rcases given with nothing | given
    · cases nothing
    · exact ⟨v, given, UInt32.le_refl _⟩
  | some a =>
    cases right with
    | none =>
      refine ⟨Or.inl rfl, fun v given => ?_⟩
      rcases given with given | nothing
      · exact ⟨v, given, UInt32.le_refl _⟩
      · cases nothing
    | some b =>
      have merged : mergeRank (some a) (some b) = some (a.min b) := rfl
      rw [merged, Rank.min]
      by_cases below : a.value ≤ b.value
      · rw [if_pos below]
        refine ⟨Or.inl rfl, ?_⟩
        rintro v (equal | equal) <;> cases equal
        · exact ⟨_, rfl, UInt32.le_refl _⟩
        · exact ⟨_, rfl, below⟩
      · rw [if_neg below]
        refine ⟨Or.inr rfl, ?_⟩
        rintro v (equal | equal) <;> cases equal
        · exact ⟨_, rfl, (UInt32.le_total a.value b.value).resolve_left below⟩
        · exact ⟨_, rfl, UInt32.le_refl _⟩

omit [UrlCrate Url] in
theorem LeastReported.merge {group : List (CanonicalResult Url)} {r : CanonicalResult Url}
    {rank : Option Rank} (h : LeastReported group r.provider rank) :
    LeastReported (group ++ [r]) r.provider (mergeRank rank r.providerRank) := by
  obtain ⟨either, least⟩ := mergeRank_cases rank r.providerRank
  constructor
  · intro v equal
    rcases either with kept | taken
    · obtain ⟨c, mem, rest⟩ := h.1 v (kept.symm.trans equal)
      exact ⟨c, List.mem_append_left _ mem, rest⟩
    · exact ⟨r, by simp, rfl, taken.symm.trans equal⟩
  · intro c mem same w reported
    rcases List.mem_append.mp mem with earlier | new
    · obtain ⟨v, equal, below⟩ := h.2 c earlier same w reported
      obtain ⟨u, merged, under⟩ := least v (Or.inl equal)
      exact ⟨u, merged, UInt32.le_trans under below⟩
    · rw [List.mem_singleton.mp new] at reported
      exact least w (Or.inr reported)

omit [UrlCrate Url] in
/-- The ranks of a group have an entry for each provider, with the least rank it reported. -/
theorem mergedRanks_least (group : List (CanonicalResult Url)) :
    OrdMap.Sorted (mergedRanks group) ∧
      (∀ provider, provider ∈ OrdMap.keys (mergedRanks group) ↔
        ∃ c ∈ group, c.provider = provider) ∧
      ∀ provider rank, OrdMap.get? provider (mergedRanks group) = some rank →
        LeastReported group provider rank := by
  induction group using List.reverseRecOn with
  | nil =>
    refine ⟨.nil, by simp [mergedRanks, OrdMap.keys], ?_⟩
    intro provider rank found
    cases found
  | append_singleton group r ih =>
    obtain ⟨sorted, keys, least⟩ := ih
    have step : ∃ change : Option (Option Rank) → Option Rank,
        change none = r.providerRank ∧
        (∀ rank, change (some rank) = mergeRank rank r.providerRank) ∧
        mergedRanks (group ++ [r]) = OrdMap.upsert r.provider change (mergedRanks group) := by
      refine ⟨_, ?_, ?_, by rw [mergedRanks, List.foldl_append]; rfl⟩
      · rfl
      · exact fun rank => rfl
    obtain ⟨change, absent, present, step⟩ := step
    rw [step]
    refine ⟨sorted.upsert _ _, fun provider => ?_, fun provider rank found => ?_⟩
    · rw [OrdMap.mem_keys_upsert, keys]
      constructor
      · rintro (rfl | ⟨c, mem, same⟩)
        · exact ⟨r, by simp, rfl⟩
        · exact ⟨c, List.mem_append_left _ mem, same⟩
      · rintro ⟨c, mem, same⟩
        rcases List.mem_append.mp mem with earlier | new
        · exact Or.inr ⟨c, earlier, same⟩
        · rw [List.mem_singleton.mp new] at same
          exact Or.inl same.symm
    · rw [OrdMap.get?_upsert sorted] at found
      by_cases same : provider = r.provider
      · subst same
        rw [if_pos rfl] at found
        cases earlier : OrdMap.get? r.provider (mergedRanks group) with
        | none =>
          rw [earlier, absent] at found
          cases found
          apply LeastReported.first
          rw [← keys, ← OrdMap.isSome_get?, earlier]
          simp
        | some before =>
          rw [earlier, present] at found
          cases found
          exact (least _ _ earlier).merge
      · rw [if_neg same] at found
        exact (least _ _ found).other (fun equal => same equal.symm)

def addUrl (known : List (String × Url)) (url : Url) : List (String × Url) :=
  OrdMap.upsert (asStr url) (fun
    | none => url
    | some kept => kept) known

theorem foldl_addUrl (urls : List Url) {known : List (String × Url)} (sorted : OrdMap.Sorted known)
    (keyed : ∀ e ∈ known, asStr e.2 = e.1) :
    OrdMap.Sorted (urls.foldl addUrl known) ∧
      (∀ e ∈ urls.foldl addUrl known, asStr e.2 = e.1) ∧
      ∀ text, text ∈ OrdMap.keys (urls.foldl addUrl known) ↔
        text ∈ OrdMap.keys known ∨ text ∈ urls.map asStr := by
  induction urls generalizing known with
  | nil => exact ⟨sorted, keyed, by simp⟩
  | cons url urls ih =>
    have still : ∀ e ∈ addUrl known url, asStr e.2 = e.1 := by
      intro e mem
      rcases OrdMap.mem_upsert mem with there | rfl | ⟨j, v, there, -, rfl⟩
      · exact keyed e there
      · rfl
      · exact keyed (j, v) there
    have ordered : OrdMap.Sorted (addUrl known url) := sorted.upsert _ _
    obtain ⟨sorted', keyed', keys⟩ := ih ordered still
    refine ⟨sorted', keyed', fun text => ?_⟩
    rw [List.foldl_cons, keys, addUrl, OrdMap.mem_keys_upsert, List.map_cons, List.mem_cons]
    tauto

theorem mem_urlSet (urls : List Url) :
    ((urlSet urls).map asStr).Pairwise (· < ·) ∧
      ∀ text, text ∈ (urlSet urls).map asStr ↔ text ∈ urls.map asStr := by
  have none : ∀ e ∈ ([] : List (String × Url)), asStr e.2 = e.1 := nofun
  obtain ⟨sorted, keyed, keys⟩ := foldl_addUrl urls .nil none
  have texts : (urlSet urls).map asStr = OrdMap.keys (urls.foldl addUrl []) := by
    have read : urlSet urls = OrdMap.values (urls.foldl addUrl []) := rfl
    rw [read, OrdMap.values, OrdMap.keys, List.map_map]
    exact List.map_congr_left keyed
  rw [texts]
  constructor
  · rw [OrdMap.keys, List.pairwise_map]
    exact sorted.imp (fun below => compare_lt_iff_lt.mp below)
  · intro text
    rw [keys]
    simp [OrdMap.keys]

theorem setOf_texts (texts : List String) :
    (OrdMap.setOf texts).Pairwise (· < ·) :=
  (OrdMap.pairwise_setOf texts).imp (fun below => compare_lt_iff_lt.mp below)

/-- What a result of deduplication is to hold of its group. -/
structure Merged (group : List (CanonicalResult Url)) (r : DeduplicatedResult Url) : Prop where
  representative : ∃ c ∈ group, r.title = c.title ∧ r.originalUrl = c.originalUrl ∧
    r.canonicalUrl = c.canonicalUrl ∧ r.representativeProvider = c.provider ∧
    r.snippet = c.snippet ∧ r.resultType = c.resultType ∧ r.publishedAt = c.publishedAt ∧
    r.author = c.author ∧ r.language = c.language ∧ r.fileType = c.fileType ∧
    r.thumbnail = c.thumbnail ∧ r.metadata = c.metadata
  providers : ∀ provider, provider ∈ r.providers ↔ ∃ c ∈ group, c.provider = provider
  originalUrls : ∀ text, text ∈ r.originalUrls.map asStr ↔ ∃ c ∈ group, asStr c.originalUrl = text
  snippets : ∀ snippet, (r.snippet = some snippet ∨ snippet ∈ r.alternateSnippets) ↔
    ∃ c ∈ group, c.snippet = some snippet
  alternates : ∀ snippet ∈ r.alternateSnippets, r.snippet ≠ some snippet
  dates : ∀ date, date ∈ r.observedDates ↔ ∃ c ∈ group, c.publishedAt = some date
  sorted : r.providers.Pairwise (· < ·) ∧ (r.originalUrls.map asStr).Pairwise (· < ·) ∧
    r.alternateSnippets.Pairwise (· < ·) ∧ r.observedDates.Pairwise (· < ·) ∧
    OrdMap.Sorted r.providerRanks
  ranked : ∀ provider, provider ∈ OrdMap.keys r.providerRanks ↔ ∃ c ∈ group, c.provider = provider
  ranks : ∀ e ∈ r.providerRanks, LeastReported group e.1 e.2
  confirmed : r.duplicateStatus = .confirmedDuplicate ↔ 1 < group.length
  reason : r.mergeReason.isSome = true ↔ 1 < group.length

theorem mergeMembers_merged {representative : CanonicalResult Url}
    {group : List (CanonicalResult Url)} (inside : representative ∈ group) :
    Merged group (mergeMembers representative group) := by
  obtain ⟨sortedRanks, keys, least⟩ := mergedRanks_least group
  obtain ⟨sortedUrls, urls⟩ := mem_urlSet (group.map (fun r => r.originalUrl))
  constructor
  · exact ⟨representative, inside, rfl, rfl, rfl, rfl, rfl, rfl, rfl, rfl, rfl, rfl, rfl, rfl⟩
  · intro provider
    rw [mergeMembers, OrdMap.mem_setOf, List.mem_map]
  · intro text
    rw [mergeMembers, urls, List.map_map, List.mem_map]
    rfl
  · intro snippet
    simp only [mergeMembers, List.mem_filter, OrdMap.mem_setOf, List.mem_filterMap, decide_eq_true_eq]
    constructor
    · rintro (equal | ⟨there, -⟩)
      · exact ⟨representative, inside, equal⟩
      · exact there
    · intro there
      by_cases equal : representative.snippet = some snippet
      · exact Or.inl equal
      · exact Or.inr ⟨there, fun same => equal same.symm⟩
  · intro snippet mem equal
    have differs := List.of_mem_filter mem
    exact (of_decide_eq_true differs) equal.symm
  · intro date
    rw [mergeMembers, OrdMap.mem_setOf, List.mem_filterMap]
  · exact ⟨setOf_texts _, sortedUrls, (setOf_texts _).filter _, setOf_texts _, sortedRanks⟩
  · exact keys
  · intro e mem
    exact least e.1 e.2 (OrdMap.get?_of_mem sortedRanks mem)
  · by_cases many : 1 < group.length
    · simp [mergeMembers, many]
    · simp [mergeMembers, many]
  · by_cases many : 1 < group.length
    · simp [mergeMembers, many]
    · simp [mergeMembers, many]

theorem Merged.perm {group group' : List (CanonicalResult Url)} {r : DeduplicatedResult Url}
    (h : Merged group r) (perm : group.Perm group') : Merged group' r := by
  have same : ∀ p : CanonicalResult Url → Prop, (∃ c ∈ group, p c) ↔ ∃ c ∈ group', p c := by
    intro p
    simp only [perm.mem_iff]
  have length := perm.length_eq
  constructor
  · exact (same _).mp h.representative
  · exact fun provider => (h.providers provider).trans (same _)
  · exact fun text => (h.originalUrls text).trans (same _)
  · exact fun snippet => (h.snippets snippet).trans (same _)
  · exact h.alternates
  · exact fun date => (h.dates date).trans (same _)
  · exact h.sorted
  · exact fun provider => (h.ranked provider).trans (same _)
  · intro e mem
    obtain ⟨reported, least⟩ := h.ranks e mem
    exact ⟨fun v equal => (same _).mp (reported v equal),
      fun c inside => least c (perm.mem_iff.mpr inside)⟩
  · rw [← length]
    exact h.confirmed
  · rw [← length]
    exact h.reason

theorem mergeConfirmedGroup_merged {group : List (CanonicalResult Url)} (some : group ≠ []) :
    ∃ r, mergeConfirmedGroup group = .some r ∧ Merged group r ∧ r.possibleDuplicateWith = [] ∧
      (r.duplicateStatus = .confirmedDuplicate ∨ r.duplicateStatus = .distinct) := by
  have perm := sortBy_perm compareMember group
  rw [mergeConfirmedGroup]
  cases sorted : sortBy compareMember group with
  | nil =>
    rw [sorted] at perm
    exact absurd (List.nil_perm.mp perm) some
  | cons representative rest =>
    rw [sorted] at perm
    refine ⟨_, rfl, (mergeMembers_merged List.mem_cons_self).perm perm, rfl, ?_⟩
    by_cases many : 1 < (representative :: rest).length
    · exact Or.inl (if_pos many)
    · exact Or.inr (if_neg many)

def markAll (r : DeduplicatedResult Url) (urls : List Url) : DeduplicatedResult Url :=
  urls.foldl (fun r url => markWith url r) r

def urlsOf (l : List (DeduplicatedResult Url)) : List Url := l.map (fun r => r.canonicalUrl)

omit [UrlCrate Url] in
theorem markAll_eq (r : DeduplicatedResult Url) (urls : List Url) :
    ∃ status, markAll r urls = { r with
        possibleDuplicateWith := r.possibleDuplicateWith ++ urls, duplicateStatus := status } ∧
      (status = .confirmedDuplicate ↔ r.duplicateStatus = .confirmedDuplicate) := by
  induction urls generalizing r with
  | nil => exact ⟨r.duplicateStatus, by rw [List.append_nil]; rfl, Iff.rfl⟩
  | cons url urls ih =>
    obtain ⟨status, marked, same⟩ := ih (markWith url r)
    have first : (markWith url r).duplicateStatus = .confirmedDuplicate ↔
        r.duplicateStatus = .confirmedDuplicate := by
      cases known : r.duplicateStatus <;> simp [markWith, known]
    refine ⟨status, ?_, same.trans first⟩
    have step : markAll r (url :: urls) = markAll (markWith url r) urls := rfl
    rw [step, marked, markWith]
    simp only [List.append_assoc, List.cons_append, List.nil_append]

omit [UrlCrate Url] in
theorem markAll_append (r : DeduplicatedResult Url) (urls more : List Url) :
    markAll r (urls ++ more) = markAll (markAll r urls) more :=
  List.foldl_append

omit [UrlCrate Url] in
theorem markAll_kept (r : DeduplicatedResult Url) (urls : List Url) :
    (markAll r urls).title = r.title ∧ (markAll r urls).canonicalUrl = r.canonicalUrl ∧
      (markAll r urls).possibleDuplicateWith = r.possibleDuplicateWith ++ urls := by
  obtain ⟨status, marked, -⟩ := markAll_eq r urls
  rw [marked]
  exact ⟨rfl, rfl, rfl⟩

theorem Merged.markAll {group : List (CanonicalResult Url)} {r : DeduplicatedResult Url}
    (h : Merged group r) (urls : List Url) : Merged group (markAll r urls) := by
  obtain ⟨status, marked, same⟩ := markAll_eq r urls
  rw [marked]
  exact ⟨h.representative, h.providers, h.originalUrls, h.snippets, h.alternates, h.dates, h.sorted,
    h.ranked, h.ranks, same.trans h.confirmed, h.reason⟩

variable [UnicodeTables]

theorem similar_congr {left left' right right' : DeduplicatedResult Url}
    (leftTitle : left.title = left'.title) (leftUrl : left.canonicalUrl = left'.canonicalUrl)
    (rightTitle : right.title = right'.title) (rightUrl : right.canonicalUrl = right'.canonicalUrl) :
    similar left right = similar left' right' := by
  simp only [similar, titleSimilarity, leftTitle, leftUrl, rightTitle, rightUrl]

theorem similar_markAll (left right : DeduplicatedResult Url) (urls urls' : List Url) :
    similar (markAll left urls) (markAll right urls') = similar left right := by
  obtain ⟨leftTitle, leftUrl, -⟩ := markAll_kept left urls
  obtain ⟨rightTitle, rightUrl, -⟩ := markAll_kept right urls'
  exact similar_congr leftTitle leftUrl rightTitle rightUrl

theorem similar_hosts {left right : DeduplicatedResult Url} (h : similar left right = true) :
    hostStr left.canonicalUrl ≠ hostStr right.canonicalUrl := by
  intro same
  rw [similar, titleSimilarity, if_pos same] at h
  cases h

theorem markAgainst_eq (left : DeduplicatedResult Url) (rest : List (DeduplicatedResult Url)) :
    markAgainst left rest =
      (markAll left (urlsOf (rest.filter (similar left))),
        rest.map (fun r => markAll r (if similar left r then [left.canonicalUrl] else []))) := by
  induction rest generalizing left with
  | nil => rfl
  | cons right rest ih =>
    rw [markAgainst]
    by_cases marked : similar left right = true
    · have same : similar (markWith right.canonicalUrl left) = similar left := by
        funext other
        exact similar_congr rfl rfl rfl rfl
      rw [if_pos marked, ih, same, List.filter_cons_of_pos marked, List.map_cons, if_pos marked]
      rfl
    · rw [if_neg marked, ih, List.filter_cons_of_neg marked, List.map_cons, if_neg marked]
      rfl

def marksFrom (before : List (DeduplicatedResult Url)) :
    List (DeduplicatedResult Url) → List (DeduplicatedResult Url)
  | [] => []
  | r :: rest =>
    markAll r (urlsOf (before.filter (fun s => similar s r)) ++ urlsOf (rest.filter (similar r))) ::
      marksFrom (before ++ [r]) rest

theorem markPossibleDuplicates_marksFrom (before rest : List (DeduplicatedResult Url)) :
    markPossibleDuplicates (rest.map (fun r =>
        markAll r (urlsOf (before.filter (fun s => similar s r))))) = marksFrom before rest := by
  induction rest generalizing before with
  | nil =>
    rw [List.map_nil, markPossibleDuplicates]
    rfl
  | cons r rest ih =>
    have behind : urlsOf ((rest.map (fun x => markAll x (urlsOf (before.filter
        (fun s => similar s x))))).filter
          (similar (markAll r (urlsOf (before.filter (fun s => similar s r)))))) =
        urlsOf (rest.filter (similar r)) := by
      rw [List.filter_map, urlsOf, List.map_map]
      have test : (similar (markAll r (urlsOf (before.filter (fun s => similar s r)))) ∘
          fun x => markAll x (urlsOf (before.filter (fun s => similar s x)))) = similar r := by
        funext x
        exact similar_markAll r x _ _
      rw [test]
      exact List.map_congr_left (fun x _ => (markAll_kept x _).2.1)
    have later : ∀ x, markAll (markAll x (urlsOf (before.filter (fun s => similar s x))))
        (if similar (markAll r (urlsOf (before.filter (fun s => similar s r))))
            (markAll x (urlsOf (before.filter (fun s => similar s x)))) then
          [(markAll r (urlsOf (before.filter (fun s => similar s r)))).canonicalUrl] else []) =
        markAll x (urlsOf ((before ++ [r]).filter (fun s => similar s x))) := by
      intro x
      rw [similar_markAll, (markAll_kept r _).2.1, ← markAll_append, List.filter_append, urlsOf,
        urlsOf, List.map_append]
      congr 2
      by_cases marked : similar r x = true
      · simp [marked]
      · simp [marked]
    rw [List.map_cons, markPossibleDuplicates, markAgainst_eq, behind, ← markAll_append,
      List.map_map, marksFrom, ← ih (before ++ [r])]
    congr 2
    exact List.map_congr_left (fun x _ => later x)

theorem markPossibleDuplicates_eq (l : List (DeduplicatedResult Url)) :
    markPossibleDuplicates l = marksFrom [] l := by
  rw [← markPossibleDuplicates_marksFrom]
  have same : l.map (fun r => markAll r (urlsOf (([] : List (DeduplicatedResult Url)).filter
      (fun s => similar s r)))) = l := List.map_id l
  rw [same]

theorem mem_marksFrom {before l : List (DeduplicatedResult Url)} {o : DeduplicatedResult Url} :
    o ∈ marksFrom before l ↔ ∃ front r rest, l = front ++ r :: rest ∧
      o = markAll r (urlsOf ((before ++ front).filter (fun s => similar s r)) ++
        urlsOf (rest.filter (similar r))) := by
  induction l generalizing before with
  | nil => simp [marksFrom]
  | cons r l ih =>
    rw [marksFrom, List.mem_cons, ih]
    constructor
    · rintro (rfl | ⟨front, s, rest, rfl, rfl⟩)
      · exact ⟨[], r, l, rfl, by rw [List.append_nil]⟩
      · exact ⟨r :: front, s, rest, rfl, by rw [List.append_assoc]; rfl⟩
    · rintro ⟨front, s, rest, split, rfl⟩
      cases front with
      | nil =>
        cases split
        exact Or.inl (by rw [List.append_nil])
      | cons first front =>
        cases split
        exact Or.inr ⟨front, s, rest, rfl, by rw [List.append_assoc]; rfl⟩

theorem urls_marksFrom (before l : List (DeduplicatedResult Url)) :
    urlsOf (marksFrom before l) = urlsOf l := by
  induction l generalizing before with
  | nil => rfl
  | cons r l ih =>
    rw [marksFrom, urlsOf, List.map_cons, (markAll_kept r _).2.1]
    exact congrArg (r.canonicalUrl :: ·) (ih (before ++ [r]))

def Relates (r s : DeduplicatedResult Url) : Prop :=
  asStr s.canonicalUrl ∈ r.possibleDuplicateWith.map asStr

omit [UnicodeTables] in
theorem mem_urls_filter {p : DeduplicatedResult Url → Bool} {l : List (DeduplicatedResult Url)}
    {x : DeduplicatedResult Url}
    (alone : ∀ y ∈ l, asStr y.canonicalUrl = asStr x.canonicalUrl → y = x) :
    asStr x.canonicalUrl ∈ (urlsOf (l.filter p)).map asStr ↔ x ∈ l ∧ p x = true := by
  rw [urlsOf, List.map_map, List.mem_map]
  constructor
  · rintro ⟨y, mem, same⟩
    have inside := List.mem_of_mem_filter mem
    obtain rfl := alone y inside same
    exact ⟨inside, List.of_mem_filter mem⟩
  · rintro ⟨inside, passes⟩
    exact ⟨x, List.mem_filter.mpr ⟨inside, passes⟩, rfl⟩

/-- Each URL once, and no mark yet. -/
structure Unmarked (l : List (DeduplicatedResult Url)) : Prop where
  keys : (l.map (fun r => asStr r.canonicalUrl)).Nodup
  marks : ∀ r ∈ l, r.possibleDuplicateWith = []

omit [UnicodeTables] in
theorem Unmarked.alone {l : List (DeduplicatedResult Url)} (h : Unmarked l)
    {x y : DeduplicatedResult Url} (hx : x ∈ l) (hy : y ∈ l)
    (same : asStr y.canonicalUrl = asStr x.canonicalUrl) : y = x :=
  List.inj_on_of_nodup_map h.keys hy hx same

/-- Of two results each names the other just where they are similar. -/
theorem relates_marksFrom {before l : List (DeduplicatedResult Url)} (h : Unmarked (before ++ l)) :
    (marksFrom before l).Pairwise (fun o p =>
      (Relates o p ↔ similar o p = true) ∧ (Relates p o ↔ similar o p = true)) := by
  induction l generalizing before with
  | nil => exact .nil
  | cons r l ih =>
    rw [marksFrom]
    refine List.pairwise_cons.mpr ⟨fun p mem => ?_, ih (by rwa [List.append_assoc])⟩
    obtain ⟨front, s, rest, rfl, rfl⟩ := mem_marksFrom.mp mem
    have hr : r ∈ before ++ r :: (front ++ s :: rest) := by simp
    have hs : s ∈ before ++ r :: (front ++ s :: rest) := by simp
    have nodup := List.Nodup.of_map _ h.keys
    obtain ⟨rBefore, sBefore, rFront, rRest⟩ :
        r ∉ before ∧ s ∉ before ∧ r ∉ front ∧ r ∉ rest := by
      simp only [List.nodup_append, List.nodup_cons, List.mem_append, List.mem_cons, not_or] at nodup
      obtain ⟨-, ⟨⟨inFront, -, inRest⟩, -⟩, apart⟩ := nodup
      exact ⟨fun inside => apart r inside r (Or.inl rfl) rfl,
        fun inside => apart s inside s (Or.inr (Or.inr (Or.inl rfl))) rfl, inFront, inRest⟩
    obtain ⟨-, rUrl, rMarks⟩ := markAll_kept r (urlsOf (before.filter (fun x => similar x r)) ++
      urlsOf ((front ++ s :: rest).filter (similar r)))
    obtain ⟨-, sUrl, sMarks⟩ := markAll_kept s
      (urlsOf ((before ++ [r] ++ front).filter (fun x => similar x s)) ++
        urlsOf (rest.filter (similar s)))
    rw [h.marks r hr, List.nil_append] at rMarks
    rw [h.marks s hs, List.nil_append] at sMarks
    rw [Relates, Relates, similar_markAll, rUrl, sUrl, rMarks, sMarks, List.map_append,
      List.map_append, List.mem_append, List.mem_append,
      mem_urls_filter (fun y hy => h.alone hs (by simp [hy])),
      mem_urls_filter (fun y hy => h.alone hs (List.mem_append_right _ (List.mem_cons_of_mem _ hy))),
      mem_urls_filter (fun y hy => h.alone hr (by
        simp only [List.mem_append, List.mem_cons] at hy ⊢
        tauto)),
      mem_urls_filter (fun y hy => h.alone hr (by simp [hy]))]
    simp [rBefore, sBefore, rFront, rRest]

theorem marks_marksFrom {l : List (DeduplicatedResult Url)} (h : Unmarked l)
    {o : DeduplicatedResult Url} (mem : o ∈ marksFrom [] l) :
    (∀ url ∈ o.possibleDuplicateWith, url ∈ urlsOf l) ∧ ¬Relates o o ∧
      (o.possibleDuplicateWith.map asStr).Nodup := by
  obtain ⟨front, r, rest, rfl, rfl⟩ := mem_marksFrom.mp mem
  obtain ⟨-, url, marks⟩ := markAll_kept r (urlsOf (([] ++ front).filter (fun s => similar s r)) ++
    urlsOf (rest.filter (similar r)))
  rw [h.marks r (by simp), List.nil_append, List.nil_append] at marks
  rw [List.nil_append] at url
  have others : List.Sublist (front.filter (fun s => similar s r) ++ rest.filter (similar r))
      (front ++ rest) := List.Sublist.append List.filter_sublist List.filter_sublist
  have marks' : urlsOf (front.filter (fun s => similar s r)) ++ urlsOf (rest.filter (similar r)) =
      urlsOf (front.filter (fun s => similar s r) ++ rest.filter (similar r)) := by
    rw [urlsOf, urlsOf, urlsOf, List.map_append]
  have keys := h.keys
  rw [List.map_append, List.map_cons, List.nodup_middle, ← List.map_append] at keys
  obtain ⟨own, distinct⟩ := List.nodup_cons.mp keys
  rw [List.nil_append, Relates, url, marks, marks', urlsOf, List.map_map]
  refine ⟨fun u inside => ?_, fun same => ?_, distinct.sublist (others.map _)⟩
  · obtain ⟨s, there, rfl⟩ := List.mem_map.mp inside
    have inOthers : s ∈ front ++ rest := others.subset there
    refine List.mem_map.mpr ⟨s, ?_, rfl⟩
    rcases List.mem_append.mp inOthers with left | right
    · exact List.mem_append_left _ left
    · exact List.mem_append_right _ (List.mem_cons_of_mem _ right)
  · exact own ((others.map _).subset same)

/-- What deduplication is to give: the groups merged, one for each URL, in the order of their URLs,
and marks that relate similar results of different hosts. -/
structure Deduplicated (results : List (CanonicalResult Url))
    (output : List (DeduplicatedResult Url)) : Prop where
  sorted : (output.map (fun r => asStr r.canonicalUrl)).Pairwise (· < ·)
  urls : ∀ text, text ∈ output.map (fun r => asStr r.canonicalUrl) ↔ text ∈ results.map groupKey
  merged : ∀ r ∈ output, Merged (results.filter (fun c => groupKey c = asStr r.canonicalUrl)) r
  marks : ∀ r ∈ output, ∀ url ∈ r.possibleDuplicateWith, ∃ s ∈ output, s.canonicalUrl = url
  symmetric : ∀ r ∈ output, ∀ s ∈ output, Relates r s → Relates s r
  irreflexive : ∀ r ∈ output, ¬Relates r r
  once : ∀ r ∈ output, (r.possibleDuplicateWith.map asStr).Nodup
  hosts : ∀ r ∈ output, ∀ s ∈ output, Relates r s →
    hostStr r.canonicalUrl ≠ hostStr s.canonicalUrl
  complete : output.Pairwise (fun r s => Relates r s ↔ similar r s = true)

omit [UnicodeTables] in
theorem merged_groups (results : List (CanonicalResult Url)) :
    let l := (groupByUrl (sortBy compareArrival results)).filterMap mergeConfirmedGroup
    (l.map (fun r => asStr r.canonicalUrl)).Pairwise (· < ·) ∧
      (∀ text, text ∈ l.map (fun r => asStr r.canonicalUrl) ↔ text ∈ results.map groupKey) ∧
      (∀ r ∈ l, r.possibleDuplicateWith = []) ∧
      ∀ r ∈ l, Merged (results.filter (fun c => groupKey c = asStr r.canonicalUrl)) r := by
  intro l
  have perm := sortBy_perm compareArrival results
  have ordered : (sortBy compareArrival results).Pairwise (fun a b => groupKey a ≤ groupKey b) := by
    refine (sortBy_pairwise results).imp (fun {a b} below => ?_)
    have keys : compare (groupKey a) (groupKey b) ≠ .gt := by
      intro greater
      rw [Below, compareArrival, compareLex, compareOn] at below
      change compare (asStr a.canonicalUrl) (asStr b.canonicalUrl) = .gt at greater
      rw [greater] at below
      cases below
    exact compare_le_iff_le.mp keys
  obtain ⟨one, rising⟩ := groupByUrl_keys ordered
  have flat := flatten_groupByUrl (sortBy compareArrival results)
  -- The merged result of a group has the URL of all of its members.
  have key : ∀ {group r}, group ∈ groupByUrl (sortBy compareArrival results) →
      mergeConfirmedGroup group = some r → Merged group r ∧ r.possibleDuplicateWith = [] ∧
        ∀ c ∈ group, groupKey c = asStr r.canonicalUrl := by
    intro group r mem merges
    obtain ⟨r', merges', merged, unmarked, -⟩ := mergeConfirmedGroup_merged (one group mem).1
    rw [merges] at merges'
    cases merges'
    refine ⟨merged, unmarked, fun c hc => ?_⟩
    obtain ⟨representative, inside, -, -, same, -⟩ := merged.representative
    rw [same]
    exact (one group mem).2 c hc representative inside
  have filled : ∀ group ∈ groupByUrl (sortBy compareArrival results), ∃ c, c ∈ group :=
    fun group mem => List.exists_mem_of_ne_nil group (one group mem).1
  refine ⟨?_, fun text => ?_, fun r mem => ?_, fun r mem => ?_⟩
  · rw [List.pairwise_map, List.pairwise_filterMap]
    refine rising.imp_of_mem (fun {g h} hg hh above r merges s merges' => ?_)
    obtain ⟨c, hc⟩ := filled g hg
    obtain ⟨d, hd⟩ := filled h hh
    rw [← (key hg merges).2.2 c hc, ← (key hh merges').2.2 d hd]
    exact above c hc d hd
  · rw [List.mem_map, List.mem_map]
    constructor
    · rintro ⟨r, mem, rfl⟩
      obtain ⟨group, hgroup, merges⟩ := List.mem_filterMap.mp mem
      obtain ⟨c, hc⟩ := filled group hgroup
      refine ⟨c, perm.mem_iff.mp ?_, (key hgroup merges).2.2 c hc⟩
      rw [← flat]
      exact List.mem_flatten.mpr ⟨group, hgroup, hc⟩
    · rintro ⟨c, mem, rfl⟩
      have inside := perm.mem_iff.mpr mem
      rw [← flat] at inside
      obtain ⟨group, hgroup, hc⟩ := List.mem_flatten.mp inside
      obtain ⟨r, merges, -⟩ := mergeConfirmedGroup_merged (one group hgroup).1
      exact ⟨r, List.mem_filterMap.mpr ⟨group, hgroup, merges⟩,
        ((key hgroup merges).2.2 c hc).symm⟩
  · obtain ⟨group, hgroup, merges⟩ := List.mem_filterMap.mp mem
    exact (key hgroup merges).2.1
  · obtain ⟨group, hgroup, merges⟩ := List.mem_filterMap.mp mem
    obtain ⟨merged, -, keys⟩ := key hgroup merges
    obtain ⟨c, hc⟩ := filled group hgroup
    have whole := group_eq_filter (fun g hg => (one g hg).2) rising hgroup hc
    rw [flat, keys c hc] at whole
    refine merged.perm ?_
    rw [← whole]
    exact perm.filter _

/-- Deduplication loses and invents nothing. -/
theorem deduplicate_deduplicated (results : List (CanonicalResult Url)) :
    Deduplicated results (deduplicate results) := by
  obtain ⟨sorted, urls, unmarked, merged⟩ := merged_groups results
  rw [deduplicate, markPossibleDuplicates_eq]
  generalize (groupByUrl (sortBy compareArrival results)).filterMap mergeConfirmedGroup = l at *
  have plain : Unmarked l := ⟨sorted.imp (fun below same => by simp [same] at below), unmarked⟩
  have related := relates_marksFrom (show Unmarked ([] ++ l) from plain)
  have keys : (marksFrom [] l).map (fun r => asStr r.canonicalUrl) =
      l.map (fun r => asStr r.canonicalUrl) := by
    have same := congrArg (List.map asStr) (urls_marksFrom [] l)
    rwa [urlsOf, urlsOf, List.map_map, List.map_map] at same
  have irreflexive : ∀ r ∈ marksFrom [] l, ¬Relates r r :=
    fun r mem => (marks_marksFrom plain mem).2.1
  have both : ∀ r ∈ marksFrom [] l, ∀ s ∈ marksFrom [] l, (Relates r s ↔ Relates s r) ∧
      (Relates r s → hostStr r.canonicalUrl ≠ hostStr s.canonicalUrl) := by
    have later := related.imp (fun {r s} sides =>
      show (Relates r s ↔ Relates s r) ∧
          (Relates r s → hostStr r.canonicalUrl ≠ hostStr s.canonicalUrl) from
        ⟨sides.1.trans sides.2.symm, fun names => similar_hosts (sides.1.mp names)⟩)
    have self : ∀ r ∈ marksFrom [] l, (Relates r r ↔ Relates r r) ∧
        (Relates r r → hostStr r.canonicalUrl ≠ hostStr r.canonicalUrl) :=
      fun r mem => ⟨Iff.rfl, fun names => absurd names (irreflexive r mem)⟩
    refine fun r hr s hs => later.forall_of_forall_of_flip self ?_ hr hs
    exact later.imp (fun sides =>
      ⟨sides.1.symm, fun names => (sides.2 (sides.1.mpr names)).symm⟩)
  constructor
  · rw [keys]
    exact sorted
  · rw [keys]
    exact urls
  · intro r mem
    obtain ⟨front, s, rest, split, rfl⟩ := mem_marksFrom.mp mem
    rw [(markAll_kept s _).2.1]
    exact (merged s (by simp [split])).markAll _
  · intro r mem url inside
    have there := (marks_marksFrom plain mem).1 url inside
    rw [← urls_marksFrom [] l] at there
    exact List.mem_map.mp there
  · exact fun r hr s hs => (both r hr s hs).1.mp
  · exact irreflexive
  · exact fun r mem => (marks_marksFrom plain mem).2.2
  · exact fun r hr s hs => (both r hr s hs).2
  · exact related.imp And.left

end

end Amatl
