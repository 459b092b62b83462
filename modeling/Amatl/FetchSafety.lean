import Amatl.Fetch

/-! Safety of a whole redirect chain: what every connection was checked for,
and the bounds on requests, redirects and bytes. -/

namespace Amatl

open Net UrlCrate

section

variable {Url : Type} [UrlCrate Url]

/-- The connection goes to an accepted URL, every address of the answer its hop
received is public, and its client is pinned to that answer. -/
structure Connection.Safe (connection : Connection Url) (hop : Hop) : Prop where
  accepted : validateDeepUrl connection.url = .ok ()
  answered : hop.answer = some (.ok connection.answer)
  nonempty : connection.answer ≠ []
  isPublic : ∀ address ∈ connection.answer, isPublicIp address.ip = true
  host : hostStr connection.url = some connection.client.host
  pinned : ∀ address, address ∈ connection.client.addresses ↔ address ∈ connection.answer

theorem checkedAnswer_ok {current : Url} {hop : Hop} {host : String} {answer : List SocketAddr}
    (h : checkedAnswer current hop = .ok (host, answer)) :
    validateDeepUrl current = .ok () ∧ hostStr current = some host ∧
      hop.answer = some (.ok answer) ∧ answer ≠ [] ∧
      ∀ address ∈ answer, isPublicIp address.ip = true := by
  unfold checkedAnswer at h
  split at h
  · cases h
  · rename_i haccepted
    split at h
    · cases h
    · cases h
    · rename_i hhost _
      split at h
      · cases h
      · cases h
      · rename_i hanswer
        split at h
        · cases h
        · rename_i hresolved
          cases h
          obtain ⟨hne, hpublic⟩ := validateResolvedAddresses_ok hresolved
          exact ⟨haccepted, hhost, hanswer, by simpa using hne,
            fun address hm => hpublic _ (List.mem_map_of_mem hm)⟩

theorem clientFor_pinned {cache cache' : ClientCache} {hop : Hop} {host : String}
    {answer : List SocketAddr} {client : Client}
    (h : clientFor cache hop host answer = (.ok client, cache')) :
    client = ⟨host, sortedAddresses answer⟩ := by
  unfold clientFor at h
  simp only at h
  split at h
  · rename_i found hfound
    cases h
    exact ClientCache.get?_cacheKey hfound
  · split at h
    · cases h
      rfl
    · cases h

theorem readBody_length {maxBytes : UInt64} {chunks : List (Option (List UInt8))}
    {body result : List UInt8} (hbody : body.length ≤ maxBytes.toNat)
    (h : readBody maxBytes body chunks = .ok result) : result.length ≤ maxBytes.toNat := by
  induction chunks generalizing body with
  | nil =>
    cases h
    exact hbody
  | cons chunk chunks ih =>
    cases chunk with
    | none => cases h
    | some chunk =>
      by_cases hlimit : maxBytes.toNat < body.length + chunk.length
      · simp [readBody, hlimit] at h
      · simp only [readBody, if_neg hlimit] at h
        exact ih (by simpa using hlimit) h

theorem executePinned_body {maxBytes : UInt64} {reply : Option Response} {response : RawResponse}
    (h : executePinned maxBytes reply = .ok response) :
    response.body.length ≤ maxBytes.toNat := by
  unfold executePinned at h
  split at h
  · cases h
  · simp only at h
    split at h
    · cases h
      simp
    · split at h
      · cases h
      · rename_i hread
        cases h
        exact readBody_length (by simp) hread

theorem followReply_redirected {request : FetchRequest Url} {now : String} {current next : Url}
    {redirects : List Url} {response : RawResponse}
    (h : followReply request now current redirects response = .redirected next) :
    redirects.length.toUInt32 < request.maxRedirects := by
  unfold followReply at h
  split at h
  · split at h
    · cases h
    · rename_i hlimit
      exact UInt32.not_le.mp hlimit
  · cases h

theorem followReply_finished {request : FetchRequest Url} {now : String} {current : Url}
    {redirects : List Url} {response : RawResponse} {result : FetchResult Url}
    (h : followReply request now current redirects response = .finished (.ok result)) :
    result.redirectChain = redirects ∧ result.body = response.body := by
  unfold followReply at h
  split at h
  · split at h
    · cases h
    · split at h
      · cases h
      · split at h
        · cases h
        · cases h
  · cases h
    exact ⟨rfl, rfl⟩

variable [HttpCrate]

theorem fetchHop_cases (request : FetchRequest Url) (now : String) (hop : Hop) (current : Url)
    (redirects : List Url) (cache : ClientCache) :
    let run := fetchHop request now hop current redirects cache
    (∃ error, run.connection = none ∧ run.outcome = .finished (.error error)) ∨
      ∃ connection : Connection Url, connection.Safe hop ∧ run.connection = some connection ∧
        ((∃ error, run.outcome = .finished (.error error)) ∨
          ∃ response : RawResponse, response.body.length ≤ request.maxBytes.toNat ∧
            run.outcome = followReply request now current redirects response) := by
  intro run
  cases hanswer : checkedAnswer current hop with
  | error error => exact Or.inl ⟨error, by simp [run, fetchHop, hanswer]⟩
  | ok checked =>
    obtain ⟨host, answer⟩ := checked
    obtain ⟨haccepted, hhost, hanswered, hne, hpublic⟩ := checkedAnswer_ok hanswer
    rcases hclient : clientFor cache hop host answer with ⟨error | client, cache'⟩
    · exact Or.inl ⟨error, by simp [run, fetchHop, hanswer, hclient]⟩
    · by_cases hheaders : headersSendable request.headers = true
      · have hpinned := clientFor_pinned hclient
        refine Or.inr ⟨⟨current, answer, client⟩, ?_, ?_⟩
        · exact ⟨haccepted, hanswered, hne, hpublic, by simpa [hpinned] using hhost,
            fun address => by simp [hpinned, mem_sortedAddresses]⟩
        · cases hreply : hop.reply with
          | none => simp [run, fetchHop, hanswer, hclient, hheaders, hreply]
          | some reply =>
            cases hexecute : executePinned request.maxBytes reply with
            | error error =>
              simp [run, fetchHop, hanswer, hclient, hheaders, hreply, hexecute]
            | ok response =>
              have hbody := executePinned_body hexecute
              simp only [run, fetchHop, hanswer, hclient, hheaders, hreply, hexecute]
              exact ⟨rfl, Or.inr ⟨response, hbody, rfl⟩⟩
      · exact Or.inl ⟨.headerBlocked, by simp [run, fetchHop, hanswer, hclient, hheaders]⟩

theorem fetchLoop_safe (request : FetchRequest Url) (now : String) (network : Nat → Hop)
    (fuel index : Nat) (current : Url) (redirects : List Url) (cache : ClientCache)
    (hlen : redirects.length ≤ request.maxRedirects.toNat) :
    let run := fetchLoop request now network fuel index current redirects cache
    (∀ (i : Nat) (connection : Connection Url), run.connections[i]? = some connection →
        connection.Safe (network (index + i))) ∧
      run.connections.length + redirects.length ≤ request.maxRedirects.toNat + 1 ∧
      (∀ result, run.result = some (.ok result) →
        result.redirectChain.length ≤ request.maxRedirects.toNat ∧
          result.body.length ≤ request.maxBytes.toNat) ∧
      (request.maxRedirects.toNat < fuel + redirects.length → run.result ≠ none) := by
  induction fuel generalizing index current redirects cache with
  | zero =>
    simp only [fetchLoop]
    exact ⟨by simp, by simp; omega, by simp, fun h => absurd h (by omega)⟩
  | succ fuel ih =>
    simp only [fetchLoop]
    rcases fetchHop_cases request now (network index) current redirects cache with
      ⟨error, hconnection, houtcome⟩ | ⟨connection, hsafe, hconnection, houtcome⟩
    · simp only [houtcome, hconnection]
      exact ⟨by simp, by simp; omega, by simp, by simp⟩
    · have hone : ∀ (i : Nat) (c : Connection Url), [connection][i]? = some c →
          c.Safe (network (index + i)) := by
        intro i c hc
        cases i with
        | zero =>
          cases hc
          exact hsafe
        | succ i => simp at hc
      rcases houtcome with ⟨error, houtcome⟩ | ⟨response, hbody, houtcome⟩
      · simp only [houtcome, hconnection]
        exact ⟨hone, by simp; omega, by simp, by simp⟩
      · cases hreply : followReply request now current redirects response with
        | finished result =>
          simp only [houtcome, hreply, hconnection]
          refine ⟨hone, by simp; omega, ?_, by simp⟩
          intro value hvalue
          have hresult : result = .ok value := by simpa using hvalue
          obtain ⟨hchain, hsame⟩ := followReply_finished (hresult ▸ hreply)
          rw [hchain, hsame]
          exact ⟨hlen, hbody⟩
        | redirected next =>
          simp only [houtcome, hreply, hconnection]
          have hmore : redirects.length < request.maxRedirects.toNat := by
            have hlt := UInt32.lt_iff_toNat_lt.mp (followReply_redirected hreply)
            have hmax := request.maxRedirects.toNat_lt
            simp at hlt
            omega
          obtain ⟨hconnections, hcount, hresult, hends⟩ := ih (index + 1) next
            (redirects ++ [current]) (fetchHop request now (network index) current redirects
              cache).cache (by simp; omega)
          refine ⟨?_, ?_, hresult, fun h => hends (by simp; omega)⟩
          · intro i c hc
            cases i with
            | zero => exact hone 0 c (by simpa using hc)
            | succ i =>
              have hnext := hconnections i c (by simpa using hc)
              rwa [Nat.add_assoc, Nat.add_comm 1 i] at hnext
          · simp only [List.length_append, List.length_singleton, Option.toList_some] at hcount ⊢
            omega

/-- Whatever DNS and the servers answer, and whatever other fetches put into the
shared cache, a fetch ends within its bounds and opens safe connections only. -/
theorem fetchInner_safe (request : FetchRequest Url) (now : String) (network : Nat → Hop)
    (cache : ClientCache) :
    let run := fetchInner request now network cache (request.maxRedirects.toNat + 1)
    run.result ≠ none ∧
      (∀ (i : Nat) (connection : Connection Url), run.connections[i]? = some connection →
        connection.Safe (network i)) ∧
      run.connections.length ≤ request.maxRedirects.toNat + 1 ∧
      ∀ result, run.result = some (.ok result) →
        result.redirectChain.length ≤ request.maxRedirects.toNat ∧
          result.body.length ≤ request.maxBytes.toNat := by
  unfold fetchInner
  cases validateHeaders request.headers with
  | error error => simp
  | ok checked =>
    obtain ⟨hconnections, hcount, hresult, hends⟩ := fetchLoop_safe request now network
      (request.maxRedirects.toNat + 1) 0 request.url [] cache (by simp)
    exact ⟨hends (by simp), fun i c hc => by simpa using hconnections i c hc,
      by simpa using hcount, hresult⟩

end

def oneRedirect : FetchRequest PlainUrl where
  url := ⟨"start.example.com", "/"⟩
  maxBytes := 4
  maxRedirects := 1
  headers := [("Accept", "text/html")]

def twoServers : Nat → Hop
  | 0 =>
    { answer := some (.ok [⟨.v4 ⟨93, 184, 216, 34⟩, 443⟩]), before := [], between := [],
      buildable := true,
      reply := some (some ⟨302, [("location", some "https://end.example.com/page")], []⟩) }
  | _ =>
    { answer := some (.ok [⟨.v4 ⟨93, 184, 216, 35⟩, 443⟩]), before := [], between := [],
      buildable := true, reply := some (some ⟨200, [], [some [1, 2], some [3, 4]]⟩) }

theorem fetchInner_safe_twoServers :
    letI := plainHeaders
    let run := fetchInner oneRedirect "" twoServers .empty 2
    ∃ result, run.result = some (.ok result) ∧ result.body = [1, 2, 3, 4] ∧
      result.body.length ≤ oneRedirect.maxBytes.toNat ∧
      result.redirectChain.length ≤ oneRedirect.maxRedirects.toNat ∧
      ∃ connection, run.connections[1]? = some connection ∧ connection.Safe (twoServers 1) := by
  let _ := plainHeaders
  obtain ⟨-, hsafe, -, hresult⟩ := fetchInner_safe oneRedirect "" twoServers .empty
  exact ⟨_, rfl, rfl, (hresult _ rfl).2, (hresult _ rfl).1, _, rfl, hsafe 1 _ rfl⟩

end Amatl
