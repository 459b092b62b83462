import Amatl.Deep.Enrich

/-! What each stage of a pass can change, the pass as a whole, and the end of the
crawl loop. The invariants of a run are derived from these. -/

namespace Amatl

open UrlCrate DeepBudget

def bytesOf (consumed : List (UInt64 × UInt32)) : Nat := (consumed.map (fun c => c.1.toNat)).sum

def redirectsOf (consumed : List (UInt64 × UInt32)) : Nat :=
  (consumed.map (fun c => c.2.toNat)).sum

@[simp] theorem bytesOf_nil : bytesOf [] = 0 := rfl

@[simp] theorem bytesOf_append (l m : List (UInt64 × UInt32)) :
    bytesOf (l ++ m) = bytesOf l + bytesOf m := by
  simp [bytesOf]

@[simp] theorem bytesOf_singleton (c : UInt64 × UInt32) : bytesOf [c] = c.1.toNat := by
  simp [bytesOf]

@[simp] theorem redirectsOf_nil : redirectsOf [] = 0 := rfl

@[simp] theorem redirectsOf_append (l m : List (UInt64 × UInt32)) :
    redirectsOf (l ++ m) = redirectsOf l + redirectsOf m := by
  simp [redirectsOf]

@[simp] theorem redirectsOf_singleton (c : UInt64 × UInt32) : redirectsOf [c] = c.2.toNat := by
  simp [redirectsOf]

section

variable {σ Url : Type}

theorem noteExtraction_frame (s : Crawl σ Url) (reading : Reading) :
    ∃ notes, s.noteExtraction reading = { s with degradations := s.degradations ++ notes } := by
  unfold Crawl.noteExtraction
  split
  · exact ⟨[], by simp⟩
  · exact ⟨_, rfl⟩

theorem readPage_frame [Sha256Hex] (o : DeepOrchestrator) (pass : Pass) (fetched : FetchResult Url)
    (s : Crawl σ Url) :
    ∃ budget paid notes out,
      (readPage o pass fetched s).2 =
        { s with
          budget, consumed := s.consumed ++ paid, degradations := s.degradations ++ notes
          exhausted := s.exhausted ++ out } ∧
      Spent s.budget budget (bytesOf paid) (redirectsOf paid) ∧ Exhaustion.answer ∉ out := by
  have same : ∃ budget paid notes out,
      s =
        { s with
          budget, consumed := s.consumed ++ paid, degradations := s.degradations ++ notes
          exhausted := s.exhausted ++ out } ∧
      Spent s.budget budget (bytesOf paid) (redirectsOf paid) ∧ Exhaustion.answer ∉ out :=
    ⟨s.budget, [], [], [], by simp, Spent.refl _, by simp⟩
  unfold readPage
  simp only
  split
  · exact same
  · split
    · exact same
    · split
      · exact ⟨s.budget, [], _, [.browser], by simp [Crawl.exhaust, Crawl.degrade]; rfl,
          Spent.refl _, by simp⟩
      · rename_i reserved hreserve
        split
        · rename_i error herror
          by_cases hgone : error = .unavailable
          · rw [if_pos hgone]
            exact ⟨reserved.releaseBrowser, [], _, [], by simp [Crawl.degrade]; rfl,
              releaseBrowser_spent hreserve, by simp⟩
          · rw [if_neg hgone]
            exact ⟨reserved, [], _, [], by simp [Crawl.degrade]; rfl,
              reserveBrowser_spent hreserve, by simp⟩
        · split
          · exact ⟨reserved, [], _, [.rendering], by simp [Crawl.exhaust, Crawl.degrade]; rfl,
              reserveBrowser_spent hreserve, by simp⟩
          · rename_i consumed hconsume
            refine ⟨consumed, _, [], [], by simp; rfl, ?_, by simp⟩
            have paid := (reserveBrowser_spent hreserve).trans (consumeFetch_ok hconsume)
            simpa using paid

variable [UrlCrate Url]

def robotsAsked (o : DeepOrchestrator) (fetch : Fetcher σ Url) (pass : Pass)
    (candidate : DeepCandidate Url) (depth : UInt8) (entries : List (String × CacheEntry))
    (fetcher : σ) : List (Issued Url) :=
  if depth = 0 then []
  else match o.robots with
    | none => []
    | some robots =>
      (robots.decide fetch pass.robotsNow candidate.result.canonicalUrl entries
        fetcher).asked.toList.map (fun asked => ⟨pass.robotsAt, asked.1, asked.2⟩)

theorem consent_frame (o : DeepOrchestrator) (fetch : Fetcher σ Url) (deadline : Nat) (pass : Pass)
    (candidate : DeepCandidate Url) (depth : UInt8) (s : Crawl σ Url) :
    ∃ entries fetcher notes out,
      (consent o fetch deadline pass candidate depth s).2 =
        { s with
          robotsEntries := entries, fetcher
          robotsFiles := s.robotsFiles ++
            robotsAsked o fetch pass candidate depth s.robotsEntries s.fetcher
          degradations := s.degradations ++ notes, exhausted := s.exhausted ++ out } ∧
      Exhaustion.answer ∉ out := by
  unfold consent robotsAsked
  split
  · exact ⟨s.robotsEntries, s.fetcher, [], [], by simp, by simp⟩
  · cases o.robots with
    | none => exact ⟨s.robotsEntries, s.fetcher, [], [], by simp, by simp⟩
    | some robots =>
      simp only
      split
      · split
        · exact ⟨_, _, [_], [.crawlDelay], rfl, by simp⟩
        · exact ⟨_, _, [], [], by simp only [List.append_nil]; rfl, by simp⟩
      · exact ⟨_, _, [_], [], by simp only [List.append_nil]; rfl, by simp⟩

/-- The links that are new, each once, and the links visited after them. -/
def freshLinks (visited : List String) : List Url → List Url
  | [] => []
  | link :: rest =>
    if OrdMap.setContains (asStr link) visited then freshLinks visited rest
    else link :: freshLinks (OrdMap.setInsert (asStr link) visited) rest

def visitedAfter (visited : List String) (links : List Url) : List String :=
  links.foldl (fun visited link =>
    if OrdMap.setContains (asStr link) visited then visited
    else OrdMap.setInsert (asStr link) visited) visited

def childOf (candidate : DeepCandidate Url) (depth : UInt8) (link : Url) :
    DeepCandidate Url × UInt8 :=
  (⟨childResult candidate.result link, candidate.storageRights⟩, depth + 1)

theorem length_freshLinks_le (visited : List String) (links : List Url) :
    (freshLinks visited links).length ≤ links.length := by
  induction links generalizing visited with
  | nil => simp [freshLinks]
  | cons link links ih =>
    unfold freshLinks
    split
    · have shorter := ih visited
      simp only [List.length_cons]
      omega
    · have shorter := ih (OrdMap.setInsert (asStr link) visited)
      simp only [List.length_cons]
      omega

theorem keep_frame [DocumentJson Url] (o : DeepOrchestrator) (pass : Pass)
    (candidate : DeepCandidate Url)
    (document : Document Url) (s : Crawl σ Url) :
    ∃ rows notes, keep o pass candidate document s =
      { s with rows, degradations := s.degradations ++ notes } := by
  unfold keep
  split
  · exact ⟨s.rows, [], by simp⟩
  · simp only
    split
    · exact ⟨_, _, rfl⟩
    · exact ⟨_, [], by rw [List.append_nil]⟩

theorem passesFor_pos (n : Nat) : 0 < passesFor n := by
  cases n with
  | zero => exact Nat.one_pos
  | succ n =>
    rw [passesFor]
    omega

theorem queueWeight_children {o : DeepOrchestrator} {depth : UInt8} {links : List Url}
    (candidate : DeepCandidate Url) (few : links.length ≤ 32)
    (deeper : links ≠ [] → depth < o.maxDepth) :
    queueWeight o (links.map (childOf candidate depth)) <
      passesFor (o.maxDepth.toNat - depth.toNat) := by
  by_cases none : links = []
  · subst none
    exact passesFor_pos _
  · have hlt : depth.toNat < o.maxDepth.toNat := UInt8.lt_iff_toNat_lt.mp (deeper none)
    have top := o.maxDepth.toNat_lt
    have hdepth : (depth + 1).toNat = depth.toNat + 1 := by
      rw [UInt8.toNat_add]
      simp only [UInt8.toNat_one]
      omega
    obtain ⟨rest, hrest⟩ : ∃ rest, o.maxDepth.toNat - depth.toNat = rest + 1 :=
      ⟨o.maxDepth.toNat - depth.toNat - 1, by omega⟩
    have hchild : o.maxDepth.toNat - (depth.toNat + 1) = rest := by omega
    have hsum : queueWeight o (links.map (childOf candidate depth)) =
        links.length * passesFor rest := by
      have each : (fun entry : DeepCandidate Url × UInt8 =>
          passesFor (o.maxDepth.toNat - entry.2.toNat)) ∘ childOf candidate depth =
          fun _ => passesFor rest := by
        funext link
        simp only [Function.comp_apply, childOf, hdepth, hchild]
      rw [queueWeight, List.map_map, each, List.map_const', List.sum_replicate_nat]
    have bound : links.length * passesFor rest ≤ 32 * passesFor rest :=
      Nat.mul_le_mul_right _ few
    rw [hsum, hrest, passesFor]
    omega

section

variable [ScraperCrate]

def addedLinks (o : DeepOrchestrator) (depth : UInt8) (fetched : FetchResult Url)
    (visited : List String) : List Url :=
  if depth < o.maxDepth then
    freshLinks visited (discoverLinks fetched.body fetched.finalUrl) else []

theorem length_addedLinks_le (o : DeepOrchestrator) (depth : UInt8) (fetched : FetchResult Url)
    (visited : List String) : (addedLinks o depth fetched visited).length ≤ 32 := by
  unfold addedLinks
  split
  · refine (length_freshLinks_le _ _).trans ?_
    unfold discoverLinks
    split
    · simp
    · exact List.length_take_le _ _
  · simp

/-- What the answer to a page request can lead to: a failure that gives the fetch
back or not, or an answer that is paid for and yields a document or none, with or
without the links of the page. -/
inductive Received (o : DeepOrchestrator) (candidate : DeepCandidate Url) (depth : UInt8)
    (result : Except FetchError (FetchResult Url)) (s t : Crawl σ Url) : Prop
  | failed (error : FetchError) (errors : List CompositeError) (notes : List Degradation)
      (failure : result = .error error)
      (after : t =
        { s with
          budget := if error.released then s.budget.releaseFetch else s.budget, errors
          degradations := s.degradations ++ notes })
  | answered (fetched : FetchResult Url) (budget : DeepBudget) (paid : List (UInt64 × UInt32))
      (notes : List Degradation) (out : List Exhaustion) (documents : List (Document Url))
      (rows : List (DocumentRow Url)) (ranks : List (String × Rank)) (visited : List String)
      (links : List Url) (answer : result = .ok fetched)
      (spent : Spent s.budget budget (bytesOf paid) (redirectsOf paid))
      (few : documents.length ≤ 1)
      (unpaid : Exhaustion.answer ∈ out → ∃ cause b, s.budget.consumeFetch fetched.size
        fetched.redirectChain.length.toUInt32 = (.error cause, b))
      (frontier : (links = [] ∧ visited = s.visited) ∨
        (depth < o.maxDepth ∧
          links = freshLinks s.visited (discoverLinks fetched.body fetched.finalUrl) ∧
          visited = visitedAfter s.visited (discoverLinks fetched.body fetched.finalUrl)))
      (after : t =
        { s with
          budget, consumed := s.consumed ++ paid, degradations := s.degradations ++ notes
          exhausted := s.exhausted ++ out, documents := s.documents ++ documents, rows
          originalRanks := ranks, visited
          queue := s.queue ++ links.map (childOf candidate depth) })

theorem unread_received (o : DeepOrchestrator) (candidate : DeepCandidate Url) (depth : UInt8)
    (fetched : FetchResult Url) (s t : Crawl σ Url) (b : DeepBudget)
    (paid : List (UInt64 × UInt32)) (rows : List (DocumentRow Url)) (notes : List Degradation)
    (out : List Exhaustion) (documents : List (Document Url))
    (spent : Spent s.budget b (bytesOf paid) (redirectsOf paid)) (few : documents.length ≤ 1)
    (unpaid : Exhaustion.answer ∈ out → ∃ cause b, s.budget.consumeFetch fetched.size
      fetched.redirectChain.length.toUInt32 = (.error cause, b))
    (after : t =
      { s with
        budget := b, consumed := s.consumed ++ paid, rows
        degradations := s.degradations ++ notes, exhausted := s.exhausted ++ out
        documents := s.documents ++ documents }) :
    Received o candidate depth (.ok fetched) s t := by
  refine .answered fetched b paid notes out documents rows s.originalRanks s.visited [] rfl spent
    few unpaid (.inl ⟨rfl, rfl⟩) ?_
  rw [after]
  simp

theorem Received.requests {o : DeepOrchestrator} {candidate : DeepCandidate Url} {depth : UInt8}
    {result : Except FetchError (FetchResult Url)} {s t : Crawl σ Url}
    (h : Received o candidate depth result s t) :
    t.pages = s.pages ∧ t.robotsFiles = s.robotsFiles := by
  cases h with
  | failed error errors notes failure after =>
    subst after
    exact ⟨rfl, rfl⟩
  | answered fetched budget paid notes out documents rows ranks visited links answer spent few
      unpaid frontier after =>
    subst after
    exact ⟨rfl, rfl⟩

theorem Received.queue_eq {o : DeepOrchestrator} {candidate : DeepCandidate Url} {depth : UInt8}
    {result : Except FetchError (FetchResult Url)} {s t : Crawl σ Url}
    (h : Received o candidate depth result s t) :
    ∃ links : List Url, t.queue = s.queue ++ links.map (childOf candidate depth) ∧
      links.length ≤ 32 ∧ (links ≠ [] → depth < o.maxDepth) := by
  cases h with
  | failed error errors notes failure after =>
    subst after
    exact ⟨[], by simp, by simp, by simp⟩
  | answered fetched budget paid notes out documents rows ranks visited links answer spent few
      unpaid frontier after =>
    subst after
    refine ⟨links, rfl, ?_⟩
    rcases frontier with ⟨rfl, -⟩ | ⟨deeper, hlinks, -⟩
    · simp
    · have few := length_addedLinks_le o depth fetched s.visited
      rw [addedLinks, if_pos deeper, ← hlinks] at few
      exact ⟨few, fun _ => deeper⟩

end

section

variable [Sha256Hex]

theorem foldl_enqueue (candidate : DeepCandidate Url) (depth : UInt8) (links : List Url)
    (s : Crawl σ Url) :
    ∃ ranks, links.foldl (enqueue candidate depth) s =
      { s with
        visited := visitedAfter s.visited links
        originalRanks := ranks
        queue := s.queue ++ (freshLinks s.visited links).map (childOf candidate depth) } := by
  induction links generalizing s with
  | nil => exact ⟨s.originalRanks, by simp [visitedAfter, freshLinks]⟩
  | cons link links ih =>
    obtain ⟨ranks, later⟩ := ih (enqueue candidate depth s link)
    refine ⟨ranks, ?_⟩
    rw [List.foldl_cons, later]
    by_cases seen : OrdMap.setContains (asStr link) s.visited = true
    · simp [enqueue, seen, visitedAfter, freshLinks]
    · simp [enqueue, seen, visitedAfter, freshLinks, childOf]

variable [ScraperCrate]

theorem expand_frame (o : DeepOrchestrator) (candidate : DeepCandidate Url) (depth : UInt8)
    (fetched : FetchResult Url) (s : Crawl σ Url) :
    ∃ ranks, expand o candidate depth fetched s =
      { s with
        visited := if depth < o.maxDepth then
          visitedAfter s.visited (discoverLinks fetched.body fetched.finalUrl) else s.visited
        originalRanks := ranks
        queue := s.queue ++
          (addedLinks o depth fetched s.visited).map (childOf candidate depth) } := by
  unfold expand addedLinks
  by_cases deeper : depth < o.maxDepth
  · simp only [if_pos deeper]
    exact foldl_enqueue candidate depth _ s
  · simp only [if_neg deeper]
    exact ⟨s.originalRanks, by simp⟩

variable [DocumentJson Url]

theorem produce_frame (o : DeepOrchestrator) (pass : Pass) (candidate : DeepCandidate Url)
    (depth : UInt8) (fetched : FetchResult Url) (s : Crawl σ Url) :
    ∃ budget paid notes out rows ranks document,
      produce o pass candidate depth fetched s =
        { s with
          budget, consumed := s.consumed ++ paid, degradations := s.degradations ++ notes, rows
          exhausted := s.exhausted ++ out
          visited := if depth < o.maxDepth then
            visitedAfter s.visited (discoverLinks fetched.body fetched.finalUrl) else s.visited
          originalRanks := ranks
          queue := s.queue ++ (addedLinks o depth fetched s.visited).map (childOf candidate depth)
          documents := s.documents ++ [document] } ∧
      Spent s.budget budget (bytesOf paid) (redirectsOf paid) ∧ Exhaustion.answer ∉ out := by
  unfold produce
  obtain ⟨budget, paid, notes, out, hread, hspent⟩ := readPage_frame o pass fetched s
  obtain ⟨notes', hnote⟩ := noteExtraction_frame (readPage o pass fetched s).2
    (readPage o pass fetched s).1
  obtain ⟨ranks, hexpand⟩ := expand_frame o candidate depth fetched
    ((readPage o pass fetched s).2.noteExtraction (readPage o pass fetched s).1)
  obtain ⟨rows, notes'', hkeep⟩ := keep_frame o pass candidate
    (documentOf candidate fetched (readPage o pass fetched s).1) (expand o candidate depth fetched
      ((readPage o pass fetched s).2.noteExtraction (readPage o pass fetched s).1))
  refine ⟨budget, paid, notes ++ notes' ++ notes'', out, rows, ranks,
    documentOf candidate fetched (readPage o pass fetched s).1, ?_, hspent⟩
  simp only
  rw [hkeep, hexpand, hnote, hread]
  simp [Crawl.addDocument]

theorem produce_received (o : DeepOrchestrator) (pass : Pass) (candidate : DeepCandidate Url)
    (depth : UInt8) (fetched : FetchResult Url) (s : Crawl σ Url) {b : DeepBudget}
    {paid : List (UInt64 × UInt32)} {rows : List (DocumentRow Url)}
    (spent : Spent s.budget b (bytesOf paid) (redirectsOf paid)) :
    Received o candidate depth (.ok fetched) s
      (produce o pass candidate depth fetched
        { s with budget := b, consumed := s.consumed ++ paid, rows }) := by
  obtain ⟨budget, more, notes, out, rows', ranks, document, hproduce, hspent, hpaid⟩ :=
    produce_frame o pass candidate depth fetched
      { s with budget := b, consumed := s.consumed ++ paid, rows }
  have total : Spent s.budget budget (bytesOf (paid ++ more)) (redirectsOf (paid ++ more)) := by
    simpa using spent.trans hspent
  by_cases deeper : depth < o.maxDepth
  · refine .answered fetched budget _ notes out [document] rows' ranks _ _ rfl total (by simp)
      (fun h => absurd h hpaid) (.inr ⟨deeper, rfl, rfl⟩) ?_
    rw [hproduce]
    simp [addedLinks, deeper]
  · refine .answered fetched budget _ notes out [document] rows' ranks _ _ rfl total (by simp)
      (fun h => absurd h hpaid) (.inl ⟨rfl, rfl⟩) ?_
    rw [hproduce]
    simp [addedLinks, deeper]

theorem accept_received (o : DeepOrchestrator) (pass : Pass) (candidate : DeepCandidate Url)
    (depth : UInt8) (known : Option (Document Url)) (fetched : FetchResult Url) (s : Crawl σ Url)
    {b : DeepBudget} {paid : List (UInt64 × UInt32)}
    (spent : Spent s.budget b (bytesOf paid) (redirectsOf paid)) :
    Received o candidate depth (.ok fetched) s
      (accept o pass candidate depth known fetched
        { s with budget := b, consumed := s.consumed ++ paid }) := by
  unfold accept
  split
  · cases known with
    | some document =>
      exact unread_received o candidate depth fetched s _ b paid s.rows [] [] [_] spent (Nat.le_refl 1)
        (by simp)
        (by simp only [Crawl.addDocument, List.append_nil]; rfl)
    | none =>
      exact unread_received o candidate depth fetched s _ b paid s.rows [_] [] [] spent (Nat.zero_le 1)
        (by simp)
        (by simp only [Crawl.degrade, List.append_nil]; rfl)
  · simp only
    split
    · exact unread_received o candidate depth fetched s _ b paid _ [] [] [_] spent (Nat.le_refl 1)
        (by simp)
        (by simp only [Crawl.addDocument, List.append_nil]; rfl)
    · exact produce_received o pass candidate depth fetched s spent

theorem receive_received (o : DeepOrchestrator) (pass : Pass) (candidate : DeepCandidate Url)
    (depth : UInt8) (known : Option (Document Url))
    (result : Except FetchError (FetchResult Url)) (s : Crawl σ Url) :
    Received o candidate depth result s (receive o pass candidate depth known result s) := by
  unfold receive
  split
  · rename_i error
    refine .failed error (s.errors ++ [fetchError candidate.result error])
      [deepDegradation (fetchCode error) "Fetch failed; the SearchResult remains valid"] rfl ?_
    by_cases released : error.released = true
    · simp only [if_pos released]
      rfl
    · simp only [if_neg released]
      rfl
  · rename_i fetched
    split
    · rename_i failed
      exact unread_received o candidate depth fetched s _ s.budget [] s.rows [_]
        [.answer] [] (Spent.refl _) (Nat.zero_le 1) (fun _ => ⟨_, _, failed⟩)
        (by simp only [Crawl.exhaust, Crawl.degrade, List.append_nil]; rfl)
    · rename_i budget hconsume
      refine accept_received o pass candidate depth known fetched s ?_
      simpa using consumeFetch_ok hconsume

/-- The request that a pass makes for a page, if it makes one, and what the fetcher
remembers then. -/
def pageAsked (o : DeepOrchestrator) (fetch : Fetcher σ Url) (deadline : Nat) (pass : Pass)
    (s : Crawl σ Url) : Option (TimedRequest Url × σ) :=
  match s.queue with
  | [] => none
  | (candidate, depth) :: queue =>
    let consented := consent o fetch deadline pass candidate depth { s with queue }
    if deadline ≤ pass.now || !consented.1 then none
    else match s.budget.reserveFetch with
      | (.error _, _) => none
      | (.ok remaining, _) =>
        some (fetchRequest o deadline pass candidate remaining s.budget.snapshot.remainingRedirects
          (revalidation o pass candidate s.rows).1, consented.2.fetcher)

/-- What one pass can do. `asked` is the request for a page: the fetch is
reserved, the request goes out with what the budget and the clock allow, and its
answer is received. -/
inductive Passed (o : DeepOrchestrator) (fetch : Fetcher σ Url) (deadline : Nat) (pass : Pass)
    (s : Crawl σ Url) (turn : Loop.Turn (Crawl σ Url)) : Prop
  | idle (empty : s.queue = []) (unasked : pageAsked o fetch deadline pass s = none)
      (after : turn = .done s)
  | late (candidate : DeepCandidate Url) (depth : UInt8)
      (queue : List (DeepCandidate Url × UInt8)) (notes : List Degradation)
      (head : s.queue = (candidate, depth) :: queue) (expired : deadline ≤ pass.now)
      (unasked : pageAsked o fetch deadline pass s = none)
      (after : turn = .done
        { s with
          queue, degradations := s.degradations ++ notes
          exhausted := s.exhausted ++ [.time] })
  | refused (candidate : DeepCandidate Url) (depth : UInt8)
      (queue : List (DeepCandidate Url × UInt8)) (entries : List (String × CacheEntry))
      (fetcher : σ) (notes : List Degradation) (out : List Exhaustion)
      (paid : Exhaustion.answer ∉ out) (head : s.queue = (candidate, depth) :: queue)
      (early : pass.now < deadline) (unasked : pageAsked o fetch deadline pass s = none)
      (turned : turn = .again
        { s with
          queue, robotsEntries := entries, fetcher
          robotsFiles := s.robotsFiles ++
            robotsAsked o fetch pass candidate depth s.robotsEntries s.fetcher
          degradations := s.degradations ++ notes, exhausted := s.exhausted ++ out } ∨
        turn = .done
        { s with
          queue, robotsEntries := entries, fetcher
          robotsFiles := s.robotsFiles ++
            robotsAsked o fetch pass candidate depth s.robotsEntries s.fetcher
          degradations := s.degradations ++ notes, exhausted := s.exhausted ++ out })
  | asked (candidate : DeepCandidate Url) (depth : UInt8)
      (queue : List (DeepCandidate Url × UInt8)) (entries : List (String × CacheEntry))
      (fetcher : σ) (notes : List Degradation) (out : List Exhaustion)
      (paid : Exhaustion.answer ∉ out) (reserved : DeepBudget)
      (rows : List (DocumentRow Url)) (request : TimedRequest Url) (t : Crawl σ Url)
      (head : s.queue = (candidate, depth) :: queue) (early : pass.now < deadline)
      (reservation : s.budget.reserveFetch = (.ok s.budget.snapshot.remainingBytes, reserved))
      (prepared : ∃ known, request = fetchRequest o deadline pass candidate
        s.budget.snapshot.remainingBytes s.budget.snapshot.remainingRedirects known)
      (issued : pageAsked o fetch deadline pass s = some (request, fetcher))
      (received : Received o candidate depth (fetch request fetcher).result
        { s with
          queue, robotsEntries := entries
          robotsFiles := s.robotsFiles ++
            robotsAsked o fetch pass candidate depth s.robotsEntries s.fetcher
          degradations := s.degradations ++ notes, exhausted := s.exhausted ++ out
          budget := reserved, rows
          fetcher := (fetch request fetcher).fetcher
          pages := s.pages ++ [⟨pass.fetchAt, request, (fetch request fetcher).connections⟩] } t)
      (after : turn = .again t)

theorem crawlPass_passed (o : DeepOrchestrator) (fetch : Fetcher σ Url) (deadline : Nat)
    (pass : Pass) (s : Crawl σ Url) :
    Passed o fetch deadline pass s (crawlPass o fetch deadline pass s) := by
  unfold crawlPass
  split
  · rename_i empty
    exact .idle empty (by simp [pageAsked, empty]) rfl
  · rename_i candidate depth queue head
    simp only
    split
    · rename_i expired
      exact .late candidate depth queue _ head expired (by simp [pageAsked, head, expired]) rfl
    · rename_i before
      have early : pass.now < deadline := Nat.lt_of_not_le before
      obtain ⟨entries, fetcher, notes, out, hconsent, hpaid⟩ :=
        consent_frame o fetch deadline pass candidate depth { s with queue }
      split
      · rename_i refusal
        refine .refused candidate depth queue entries fetcher notes out hpaid head early ?_ (.inl ?_)
        · have declined : (consent o fetch deadline pass candidate depth
              { s with queue }).1 = false := by simpa using refusal
          simp [pageAsked, head, declined]
        · rw [hconsent]
      · split
        · rename_i cause unchanged hreserve
          rw [hconsent] at hreserve
          refine .refused candidate depth queue entries fetcher
            (notes ++ [deepDegradation cause.text "Deep resource budget exhausted"]) (out ++ [.fetch])
            (by simpa using hpaid) head early (by simp [pageAsked, head, hreserve]) (.inr ?_)
          rw [hconsent, Crawl.exhaust, Crawl.degrade, List.append_assoc, List.append_assoc]
        · rename_i consented _ remaining reserved hreserve
          rw [hconsent] at hreserve ⊢
          obtain ⟨-, -, hremaining, hreserved⟩ := reserveFetch_ok hreserve
          simp only at hremaining hreserved hreserve
          refine .asked candidate depth queue entries fetcher notes out hpaid reserved
            (revalidation o pass candidate s.rows).2
            (fetchRequest o deadline pass candidate remaining s.budget.snapshot.remainingRedirects
              (revalidation o pass candidate s.rows).1) _ head early (hremaining ▸ hreserve)
            ⟨(revalidation o pass candidate s.rows).1, by rw [hremaining]⟩ ?_ ?_ rfl
          · have agreed : (consent o fetch deadline pass candidate depth
                { s with queue }).1 = true := by simpa using consented
            simp [pageAsked, head, before, agreed, hreserve, hconsent]
          · simp only [acquire, hreserved]
            exact receive_received o pass candidate depth _ _ _

theorem crawlPass_lowers (o : DeepOrchestrator) (fetch : Fetcher σ Url) (deadline : Nat)
    (pass : Pass) (s t : Crawl σ Url) (h : crawlPass o fetch deadline pass s = .again t) :
    queueWeight o t.queue < queueWeight o s.queue := by
  have weight_cons : ∀ (candidate : DeepCandidate Url) (depth : UInt8)
      (queue : List (DeepCandidate Url × UInt8)), queueWeight o ((candidate, depth) :: queue) =
        passesFor (o.maxDepth.toNat - depth.toNat) + queueWeight o queue := by
    intro candidate depth queue
    simp [queueWeight]
  cases crawlPass_passed o fetch deadline pass s with
  | idle empty unasked after => cases h.symm.trans after
  | late candidate depth queue notes head expired unasked after => cases h.symm.trans after
  | refused candidate depth queue entries fetcher notes out paid head early unasked turned =>
    rcases turned with again | done
    · cases h.symm.trans again
      have positive := passesFor_pos (o.maxDepth.toNat - depth.toNat)
      rw [head, weight_cons]
      simp only
      omega
    · cases h.symm.trans done
  | asked candidate depth queue entries fetcher notes out paid reserved rows request u head
      early reservation prepared issued received after =>
    cases h.symm.trans after
    obtain ⟨links, hqueue, few, deeper⟩ := received.queue_eq
    have children := queueWeight_children (o := o) candidate few deeper
    have sum : queueWeight o (queue ++ links.map (childOf candidate depth)) =
        queueWeight o queue + queueWeight o (links.map (childOf candidate depth)) := by
      simp [queueWeight]
    rw [head, weight_cons, hqueue]
    simp only
    omega

/-- The loop ends by itself, whatever the fetcher, the extractor and the renderer
do. -/
theorem run_eq_crawl (o : DeepOrchestrator) (fetch : Fetcher σ Url) (deadline : Nat)
    (passes : Nat → Pass) (s : Crawl σ Url) :
    Loop.run (fun index => crawlPass o fetch deadline (passes index)) (queueWeight o s.queue + 1) 0
      s = some (crawl o fetch deadline passes s) := by
  obtain ⟨s', h⟩ := Loop.run_ends (fun index => crawlPass o fetch deadline (passes index))
    (fun s => queueWeight o s.queue)
    (fun index s t => crawlPass_lowers o fetch deadline (passes index) s t) 0
    (Nat.lt_succ_self (queueWeight o s.queue))
  rw [crawl, h]
  rfl

/-- What every pass from a reached state keeps, the crawl keeps. -/
theorem crawl_reached {o : DeepOrchestrator} {fetch : Fetcher σ Url} {deadline : Nat}
    {passes : Nat → Pass} {s : Crawl σ Url} {P : Crawl σ Url → Prop}
    (keeps : ∀ index t,
      Loop.Reaches (fun index => crawlPass o fetch deadline (passes index)) s index t → P t →
      (crawlPass o fetch deadline (passes index) t).All P)
    (start : P s) : P (crawl o fetch deadline passes s) :=
  Loop.run_reached keeps .start start (run_eq_crawl o fetch deadline passes s)

theorem crawl_invariant {o : DeepOrchestrator} {fetch : Fetcher σ Url} {deadline : Nat}
    {passes : Nat → Pass} {s : Crawl σ Url} {P : Crawl σ Url → Prop}
    (keeps : ∀ pass t, P t → (crawlPass o fetch deadline pass t).All P) (start : P s) :
    P (crawl o fetch deadline passes s) :=
  crawl_reached (fun index t _ => keeps (passes index) t) start

theorem enrich_crawl {o : DeepOrchestrator} {fetch : Fetcher σ Url} {env : Surroundings Url}
    {request : DeepRequest Url} {budget : DeepBudget} {rows : List (DocumentRow Url)}
    {entries : List (String × CacheEntry)} {fetcher : σ} {P : Crawl σ Url → Prop}
    (idle : ∀ errors notes, P
      { Crawl.start o request budget rows entries fetcher with
        queue := [], errors, degradations := notes })
    (crawled : P (crawl o fetch (deepDeadline env budget) env.passes
      (Crawl.start o request budget rows entries fetcher))) :
    P (enrich o fetch env request budget rows entries fetcher).crawl := by
  unfold enrich
  simp only
  split
  · exact idle _ _
  · split
    · exact idle _ _
    · exact crawled

theorem crawl_of_empty (o : DeepOrchestrator) (fetch : Fetcher σ Url) (deadline : Nat)
    (passes : Nat → Pass) {s : Crawl σ Url} (empty : s.queue = []) :
    crawl o fetch deadline passes s = s := by
  simp [crawl, Loop.run, crawlPass, empty]

theorem enrich_crawl_of_matched (o : DeepOrchestrator) (fetch : Fetcher σ Url)
    (env : Surroundings Url) {request : DeepRequest Url} (budget : DeepBudget)
    (rows : List (DocumentRow Url)) (entries : List (String × CacheEntry)) (fetcher : σ)
    (matched : request.planNormalizedQuery = request.query.normalizedQuery) :
    let start := Crawl.start o request budget rows entries fetcher
    (enrich o fetch env request budget rows entries fetcher).crawl =
        crawl o fetch (deepDeadline env budget) env.passes start ∨
      (request.candidates = [] ∧ (enrich o fetch env request budget rows entries fetcher).crawl =
        { start with
          degradations := [deepDegradation "deep_no_candidates"
            "No SearchResult candidates were available"] }) := by
  intro start
  cases hcandidates : request.candidates with
  | nil =>
    refine .inr ⟨rfl, ?_⟩
    simp [enrich, matched, hcandidates, refuse, Crawl.degrade, start, Crawl.start]
  | cons candidate candidates =>
    refine .inl ?_
    simp [enrich, matched, hcandidates, start]

end

end

end Amatl
