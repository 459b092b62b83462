import Amatl.Lib.OrdMap
import Amatl.Lib.Text
import Amatl.Model
import Amatl.Translation

/-! The answers of the provider adapters. Each adapter numbers the entries of its decoded response.
The answers of SearXNG are numbered on their own and put before its results. -/

namespace Amatl

/-- A body as it is decoded, with the reason where that fails. -/
inductive DecodedBody (E : Type) where
  | notUtf8
  | invalid (reason : String)
  | decoded (envelope : E)

structure HttpResponse (E : Type) where
  status : UInt16
  headers : List (String × String)
  body : DecodedBody E

/-- Unix seconds as a date and time, if they are one. -/
class TimestampFormat where
  rfc3339 : Int64 → Option String

def retryAfterMs {E : Type} (response : HttpResponse E) : Option UInt64 :=
  ((OrdMap.get? "retry-after" response.headers).bind
    (fun value => Text.parseUnsigned 10 (2 ^ 64) value.toList)).map
      (fun seconds => UInt64.ofNat (min (seconds * 1000) (2 ^ 64 - 1)))

def plainItem (title : Option String) (url : String) (rank : Option Rank)
    (snippet : Option String) : ProviderItem where
  title
  url
  providerRank := rank
  snippet
  resultType := none
  publishedAt := none
  author := none
  language := none
  fileType := none
  thumbnail := none
  metadata := []

def entryRank (index : Nat) : Option Rank := Rank.new (index.toUInt32 + 1)

def numberedItems {E : Type} (item : Option Rank → E → ProviderItem) (entries : List E) :
    List ProviderItem :=
  entries.zipIdx.map (fun entry => item (entryRank entry.2) entry.1)

def successful (provider : String) (results : List ProviderItem) (filters : FilterUse) :
    ProviderResult where
  provider
  status := .success
  results
  acceptedFilters := filters.accepted
  ignoredFilters := filters.ignored
  approximatedFilters := filters.approximated
  errors := []

namespace Brave

structure Item where
  title : Option String
  url : String
  description : Option String

structure Envelope where
  web : Option (List Item)

def error (kind : ProviderErrorKind) (message : String) (retry : Option UInt64) : ProviderError :=
  { provider := "brave", kind, message, retryAfterMs := retry }

def statusError (response : HttpResponse Envelope) : ProviderError :=
  let (kind, message) : ProviderErrorKind × String :=
    if response.status = 401 ∨ response.status = 403 then
      (.auth, "provider authentication rejected")
    else if response.status = 429 then (.rateLimit, "provider rate limit reached")
    else if response.status = 402 then (.quota, "provider quota exhausted")
    else if 500 ≤ response.status ∧ response.status ≤ 599 then
      (.unavailable, "provider service unavailable")
    else (.invalidResponse, "provider returned an unexpected status")
  error kind ("Brave: " ++ message) (retryAfterMs response)

def parseResponse (response : HttpResponse Envelope) (filters : FilterUse) :
    Except ProviderError ProviderResult :=
  if response.status ≠ 200 then .error (statusError response)
  else
    match response.body with
    | .decoded envelope => .ok (successful "brave" (numberedItems
        (fun rank item => plainItem item.title item.url rank item.description)
        (envelope.web.getD [])) filters)
    | _ => .error (error .invalidResponse "Brave returned invalid JSON" none)

end Brave

namespace Marginalia

structure Result where
  title : Option String
  url : String
  description : Option String
  domain : Option String

structure Response where
  results : List Result

def error (kind : ProviderErrorKind) (message : String) (retry : Option UInt64) : ProviderError :=
  { provider := "marginalia", kind, message, retryAfterMs := retry }

def statusError (response : HttpResponse Response) : ProviderError :=
  let (kind, message) : ProviderErrorKind × String :=
    if response.status = 401 ∨ response.status = 403 then (.auth, "provider rejected credentials")
    else if response.status = 429 then (.rateLimit, "provider rate limit exceeded")
    else if 400 ≤ response.status ∧ response.status ≤ 499 then
      (.invalidResponse, "provider rejected the request")
    else if 500 ≤ response.status ∧ response.status ≤ 599 then
      (.unavailable, "provider service unavailable")
    else (.invalidResponse, "provider returned an unexpected status")
  error kind ("Marginalia: " ++ message) (retryAfterMs response)

def parseResponse (response : HttpResponse Response) (filters : FilterUse) :
    Except ProviderError ProviderResult :=
  if response.status ≠ 200 then .error (statusError response)
  else
    match response.body with
    | .decoded envelope => .ok (successful "marginalia" (numberedItems
        (fun rank item => { plainItem item.title item.url rank item.description with
          metadata := (item.domain.map (fun domain => ("domain", domain))).toList })
        envelope.results) filters)
    | _ => .error (error .invalidResponse "Marginalia returned invalid JSON" none)

end Marginalia

namespace Mojeek

structure Item where
  url : String
  title : Option String
  desc : Option String
  pdate : Option Int64

structure Envelope where
  status : String
  results : List Item

def error (kind : ProviderErrorKind) (message : String) (retry : Option UInt64) : ProviderError :=
  { provider := "mojeek", kind, message, retryAfterMs := retry }

def statusError (response : HttpResponse Envelope) : ProviderError :=
  let kind : ProviderErrorKind :=
    if response.status = 401 ∨ response.status = 403 then .auth
    else if response.status = 429 then .rateLimit
    else if response.status = 402 then .quota
    else if 500 ≤ response.status ∧ response.status ≤ 599 then .unavailable
    else .invalidResponse
  error kind "Mojeek returned an unsuccessful HTTP status" (retryAfterMs response)

def parseResponse [TimestampFormat] (response : HttpResponse Envelope) (filters : FilterUse) :
    Except ProviderError ProviderResult :=
  if response.status ≠ 200 then .error (statusError response)
  else
    match response.body with
    | .decoded envelope =>
      let status := envelope.status.toList.map Text.toAsciiLower
      if status ≠ "ok".toList then
        .error (error (if Text.contains "limit".toList status then .quota else .invalidResponse)
          "Mojeek returned an unsuccessful response" none)
      else .ok (successful "mojeek" (numberedItems
        (fun rank item => { plainItem item.title item.url rank item.desc with
          publishedAt := item.pdate.bind TimestampFormat.rfc3339 })
        envelope.results) filters)
    | _ => .error (error .invalidResponse "Mojeek returned invalid JSON" none)

end Mojeek

namespace SearXng

structure Result where
  title : Option String
  url : Option String
  content : Option String
  publishedDate : Option String

structure Answer where
  answer : Option String
  url : Option String

structure Response where
  results : List Result
  answers : List Answer
  unresponsiveEngines : List (String × String)

def error (kind : ProviderErrorKind) (message : String) (retry : Option UInt64) : ProviderError :=
  { provider := "searxng", kind, message, retryAfterMs := retry }

def statusError (response : HttpResponse Response) : ProviderError :=
  let (kind, message) : ProviderErrorKind × String :=
    if response.status = 400 then (.invalidResponse, "bad request")
    else if response.status = 429 then (.rateLimit, "rate limited")
    else if 500 ≤ response.status ∧ response.status ≤ 599 then
      (.unavailable, "SearXNG service unavailable")
    else (.invalidResponse, "SearXNG returned an unexpected status")
  error kind ("SearXNG: " ++ message) (retryAfterMs response)

/-- The rank is cast after the addition here. -/
def rankOf (index : Nat) : Option Rank := Rank.new (index + 1).toUInt32

def resultItem (index : Nat) (result : Result) : ProviderItem :=
  { plainItem result.title (result.url.getD "") (rankOf index) result.content with
    publishedAt := result.publishedDate }

def answerItem (index : Nat) (answer : Answer) : ProviderItem :=
  plainItem answer.answer (answer.url.getD "") (rankOf index) answer.answer

/-- The answers are inserted one after the other, each at its own index. -/
def promoted (answers : List Answer) (results : List ProviderItem) : List ProviderItem :=
  answers.zipIdx.foldl (fun results entry =>
    results.insertIdx entry.2 (answerItem entry.2 entry.1)) results

def parseResponse (response : HttpResponse Response) (filters : FilterUse) :
    Except ProviderError ProviderResult :=
  if response.status ≠ 200 then .error (statusError response)
  else
    match response.body with
    | .notUtf8 => .error (error .invalidResponse "SearXNG returned non-UTF-8 body" none)
    | .invalid reason =>
      .error (error .invalidResponse ("SearXNG JSON parse error: " ++ reason) none)
    | .decoded searxng => .ok
        { provider := "searxng"
          status := if searxng.unresponsiveEngines.isEmpty then .success else .partialSuccess
          results := promoted searxng.answers
            (searxng.results.zipIdx.map (fun entry => resultItem entry.2 entry.1))
          acceptedFilters := []
          ignoredFilters := filters.ignored
          approximatedFilters := filters.approximated
          errors := [] }

end SearXng

/-- A response of one of the providers. -/
inductive AdapterResponse where
  | brave (response : HttpResponse Brave.Envelope)
  | marginalia (response : HttpResponse Marginalia.Response)
  | mojeek (response : HttpResponse Mojeek.Envelope)
  | searxng (response : HttpResponse SearXng.Response)

namespace AdapterResponse

def parse [TimestampFormat] (response : AdapterResponse) (filters : FilterUse) :
    Except ProviderError ProviderResult :=
  match response with
  | brave response => Brave.parseResponse response filters
  | marginalia response => Marginalia.parseResponse response filters
  | mojeek response => Mojeek.parseResponse response filters
  | searxng response => SearXng.parseResponse response filters

def entries (response : AdapterResponse) : Nat :=
  match response with
  | brave { body := .decoded envelope, .. } => (envelope.web.getD []).length
  | marginalia { body := .decoded envelope, .. } => envelope.results.length
  | mojeek { body := .decoded envelope, .. } => envelope.results.length
  | searxng { body := .decoded envelope, .. } => envelope.results.length
  | _ => 0

/-- The number of answers, which SearXNG alone has. -/
def answers (response : AdapterResponse) : Nat :=
  match response with
  | searxng { body := .decoded envelope, .. } => envelope.answers.length
  | _ => 0

end AdapterResponse

/-- The rank at each place is the place itself, counted from one. -/
def RanksArePositions (ranks : List (Option Rank)) : Prop :=
  ∀ i r, ranks[i]? = some r → ∃ rank, r = some rank ∧ rank.value.toNat = i + 1

theorem entryRank_last : entryRank (2 ^ 32 - 1) = none := by
  have zero : (2 ^ 32 - 1 : Nat).toUInt32 + 1 = 0 := by
    have value := toNat_toUInt32_add_one (2 ^ 32 - 1)
    exact UInt32.toNat_inj.mp value
  rw [entryRank, Rank.new, dif_neg (fun nonzero => nonzero zero)]

theorem rankOf_eq (index : Nat) : SearXng.rankOf index = entryRank index := by
  have same : (index + 1).toUInt32 = index.toUInt32 + 1 := by
    rw [Nat.toUInt32_eq, UInt32.ofNat_add]
    rfl
  rw [SearXng.rankOf, entryRank, same]

theorem ranks_of_zipIdx {E : Type} {item : E × Nat → ProviderItem} (entries : List E)
    (h : ∀ entry, (item entry).providerRank = entryRank entry.2) :
    (entries.zipIdx.map item).map ProviderItem.providerRank =
      (List.range entries.length).map entryRank := by
  have places := List.zipIdx_map_snd 0 entries
  rw [← List.range_eq_range'] at places
  rw [List.map_map, ← places, List.map_map]
  exact List.map_congr_left (fun entry _ => h entry)

theorem insertIdx_length {E : Type} (start rest : List E) (item : E) :
    (start ++ rest).insertIdx start.length item = start ++ item :: rest := by
  induction start with
  | nil => rfl
  | cons e start ih =>
    rw [List.cons_append, List.length_cons, List.insertIdx_succ_cons, ih]
    rfl

theorem foldl_promoted (answers : List SearXng.Answer) (start rest : List ProviderItem) :
    (answers.zipIdx start.length).foldl (fun results entry =>
        results.insertIdx entry.2 (SearXng.answerItem entry.2 entry.1)) (start ++ rest) =
      start ++ (answers.zipIdx start.length).map
        (fun entry => SearXng.answerItem entry.2 entry.1) ++ rest := by
  induction answers generalizing start with
  | nil => simp
  | cons answer answers ih =>
    have grown := ih (start ++ [SearXng.answerItem start.length answer])
    rw [List.length_append, List.length_singleton] at grown
    rw [List.zipIdx_cons, List.foldl_cons, insertIdx_length, List.append_cons, grown]
    simp

theorem promoted_eq (answers : List SearXng.Answer) (results : List ProviderItem) :
    SearXng.promoted answers results =
      answers.zipIdx.map (fun entry => SearXng.answerItem entry.2 entry.1) ++ results :=
  foldl_promoted answers [] results

section

variable [TimestampFormat]

/-- The ranks that are returned: two runs from one, the answers before the results. -/
theorem parse_ranks {response : AdapterResponse} {filters : FilterUse} {parsed : ProviderResult}
    (h : response.parse filters = .ok parsed) :
    parsed.results.map ProviderItem.providerRank =
      (List.range response.answers).map entryRank ++
        (List.range response.entries).map entryRank := by
  rcases response with ⟨status, headers, body⟩ | ⟨status, headers, body⟩ |
    ⟨status, headers, body⟩ | ⟨status, headers, body⟩
  · simp only [AdapterResponse.parse, Brave.parseResponse] at h
    split at h
    · cases h
    · cases body with
      | notUtf8 => cases h
      | invalid reason => cases h
      | decoded envelope =>
        cases h
        exact ranks_of_zipIdx (envelope.web.getD []) (fun _ => rfl)
  · simp only [AdapterResponse.parse, Marginalia.parseResponse] at h
    split at h
    · cases h
    · cases body with
      | notUtf8 => cases h
      | invalid reason => cases h
      | decoded envelope =>
        cases h
        exact ranks_of_zipIdx envelope.results (fun _ => rfl)
  · simp only [AdapterResponse.parse, Mojeek.parseResponse] at h
    split at h
    · cases h
    · cases body with
      | notUtf8 => cases h
      | invalid reason => cases h
      | decoded envelope =>
        simp only at h
        split at h
        · cases h
        · cases h
          exact ranks_of_zipIdx envelope.results (fun _ => rfl)
  · simp only [AdapterResponse.parse, SearXng.parseResponse] at h
    split at h
    · cases h
    · cases body with
      | notUtf8 => cases h
      | invalid reason => cases h
      | decoded envelope =>
        cases h
        show (SearXng.promoted envelope.answers _).map ProviderItem.providerRank = _
        rw [promoted_eq, List.map_append,
          ranks_of_zipIdx envelope.answers (fun entry => rankOf_eq entry.2),
          ranks_of_zipIdx envelope.results (fun entry => rankOf_eq entry.2)]
        rfl

end

theorem positions_range_iff (n : Nat) :
    RanksArePositions ((List.range n).map entryRank) ↔ n < 2 ^ 32 := by
  constructor
  · intro right
    by_contra large
    have inside : 2 ^ 32 - 1 < n := by omega
    have found : ((List.range n).map entryRank)[2 ^ 32 - 1]? = some (entryRank (2 ^ 32 - 1)) := by
      rw [List.getElem?_map, List.getElem?_range inside]
      rfl
    obtain ⟨rank, some, -⟩ := right _ _ found
    rw [entryRank_last] at some
    cases some
  · intro small i r found
    rw [List.getElem?_map] at found
    obtain ⟨j, place, rfl⟩ := Option.map_eq_some_iff.mp found
    obtain ⟨inside, rfl⟩ := List.getElem?_eq_some_iff.mp place
    rw [List.length_range] at inside
    rw [List.getElem_range]
    exact Rank.new_index (by omega)

/-- Behind a run that is not empty the next one starts from one again. -/
theorem positions_ranges_iff (n m : Nat) :
    RanksArePositions ((List.range n).map entryRank ++ (List.range m).map entryRank) ↔
      (n = 0 ∨ m = 0) ∧ n + m < 2 ^ 32 := by
  rcases Nat.eq_zero_or_pos n with rfl | before
  · rw [List.range_zero, List.map_nil, List.nil_append, positions_range_iff]
    omega
  · rcases Nat.eq_zero_or_pos m with rfl | behind
    · rw [List.range_zero, List.map_nil, List.append_nil, positions_range_iff]
      omega
    · constructor
      · intro right
        have found : ((List.range n).map entryRank ++ (List.range m).map entryRank)[n]? =
            some (entryRank 0) := by
          rw [List.getElem?_append_right (by simp)]
          simp [behind]
        obtain ⟨rank, first, place⟩ := right _ _ found
        obtain ⟨one, again, value⟩ := Rank.new_index (show 0 + 1 < 2 ^ 32 by omega)
        rw [entryRank, again] at first
        cases first
        omega
      · intro h
        omega

theorem RanksArePositions.nodup {ranks : List (Option Rank)} (h : RanksArePositions ranks) :
    ranks.Nodup := by
  rw [List.nodup_iff_getElem?_ne_getElem?]
  intro i j before inside same
  obtain ⟨a, left, first⟩ := h i _ (List.getElem?_eq_getElem (before.trans inside))
  obtain ⟨b, right, second⟩ := h j _ (List.getElem?_eq_getElem inside)
  rw [List.getElem?_eq_getElem (before.trans inside), List.getElem?_eq_getElem inside, left,
    right] at same
  cases same
  omega

/-- The ranks are distinct and the places of their items exactly when no results follow answers
and the counter is not passed. -/
theorem parsedRanks_positions_iff [TimestampFormat] (response : AdapterResponse)
    (filters : FilterUse) (parsed : ProviderResult) (h : response.parse filters = .ok parsed) :
    ((parsed.results.map ProviderItem.providerRank).Nodup ∧
        RanksArePositions (parsed.results.map ProviderItem.providerRank)) ↔
      (response.answers = 0 ∨ response.entries = 0) ∧
        response.answers + response.entries < 2 ^ 32 := by
  rw [parse_ranks h, ← positions_ranges_iff]
  exact ⟨fun both => both.2, fun right => ⟨right.nodup, right⟩⟩

@[reducible] def noTimestamps : TimestampFormat where
  rfc3339 _ := none

def answeredResponse (answers : List SearXng.Answer) (results : List SearXng.Result) :
    AdapterResponse :=
  .searxng
    { status := 200
      headers := []
      body := .decoded { results, answers, unresponsiveEngines := [] } }

theorem parsedRanks_positions_answers :
    ∃ parsed, @AdapterResponse.parse noTimestamps
        (answeredResponse [⟨some "four", none⟩, ⟨some "4", none⟩] []) ⟨[], [], []⟩ = .ok parsed ∧
      (parsed.results.map ProviderItem.providerRank).Nodup ∧
      RanksArePositions (parsed.results.map ProviderItem.providerRank) :=
  ⟨_, rfl, (@parsedRanks_positions_iff noTimestamps
    (answeredResponse [⟨some "four", none⟩, ⟨some "4", none⟩] []) ⟨[], [], []⟩ _ rfl).mpr
      ⟨Or.inr rfl, by decide⟩⟩

/-- An answer is put before a result, and both have rank one. -/
theorem promotedAnswer_repeats :
    ∃ parsed, @AdapterResponse.parse noTimestamps
        (answeredResponse [⟨some "four", none⟩] [⟨some "Sums", some "https://sums.example/", none,
          none⟩]) ⟨[], [], []⟩ = .ok parsed ∧
      ¬((parsed.results.map ProviderItem.providerRank).Nodup ∧
        RanksArePositions (parsed.results.map ProviderItem.providerRank)) := by
  refine ⟨_, rfl, ?_⟩
  intro h
  have distinct := h.1
  revert distinct
  decide

end Amatl
