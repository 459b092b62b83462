import Amatl.FetchSafety

/-! The `Fetcher` trait as Deep uses it, and the safe fetcher as one of its
implementations. -/

namespace Amatl

structure TimedRequest (Url : Type) extends FetchRequest Url where
  timeoutMs : UInt64

/-- The answer to one fetch, how many connections were opened for it, and what
the fetcher remembers afterwards. -/
structure FetchAnswer (σ Url : Type) where
  result : Except FetchError (FetchResult Url)
  connections : Nat
  fetcher : σ

/-- A fetcher with a memory of its own, through which its answers may depend on
everything that happened before. -/
abbrev Fetcher (σ Url : Type) := TimedRequest Url → σ → FetchAnswer σ Url

/-- The pinned clients and the number of fetches made. -/
structure SafeFetcher where
  clients : ClientCache
  served : Nat

section

variable {Url : Type} [UrlCrate Url] [HttpCrate]

/-- `network i` is what happens during the `i`-th fetch, hop by hop. A fetch ends
within the redirects it is allowed, so it always has a result. -/
def SafeFetcher.fetch (network : Nat → Nat → Hop) (now : Nat → String) :
    Fetcher SafeFetcher Url := fun request f =>
  let run := fetchInner request.toFetchRequest (now f.served) (network f.served) f.clients
    (request.maxRedirects.toNat + 1)
  { result := run.result.getD (.error .timeout)
    connections := run.connections.length
    fetcher := { clients := run.cache, served := f.served + 1 } }

end

/-- What Deep relies on: no answer exceeds the limits of its request. -/
def KeepsLimits {σ Url : Type} (fetch : Fetcher σ Url) : Prop :=
  ∀ request f result, (fetch request f).result = .ok result →
    result.size ≤ request.maxBytes ∧ result.redirectChain.length ≤ request.maxRedirects.toNat

section

variable {Url : Type} [UrlCrate Url]

theorem followReply_size {request : FetchRequest Url} {now : String} {current : Url}
    {redirects : List Url} {response : RawResponse} {result : FetchResult Url}
    (h : followReply request now current redirects response = .finished (.ok result)) :
    result.size = result.body.length.toUInt64 := by
  unfold followReply at h
  split at h
  · split at h
    · cases h
    · split at h
      · cases h
      · split at h
        · cases h
        · cases h
  · cases h
    rfl

variable [HttpCrate]

theorem fetchLoop_size {request : FetchRequest Url} {now : String} {network : Nat → Hop}
    {fuel index : Nat} {current : Url} {redirects : List Url} {cache : ClientCache}
    {result : FetchResult Url}
    (h : (fetchLoop request now network fuel index current redirects cache).result =
      some (.ok result)) : result.size = result.body.length.toUInt64 := by
  induction fuel generalizing index current redirects cache with
  | zero => cases h
  | succ fuel ih =>
    simp only [fetchLoop] at h
    cases houtcome : (fetchHop request now (network index) current redirects cache).outcome with
    | redirected next =>
      rw [houtcome] at h
      exact ih h
    | finished value =>
      rw [houtcome] at h
      have hvalue : value = .ok result := Option.some.inj h
      subst hvalue
      rcases fetchHop_cases request now (network index) current redirects cache with
        ⟨error, -, failed⟩ | ⟨connection, -, -, ⟨error, failed⟩ | ⟨response, -, replied⟩⟩
      · cases houtcome.symm.trans failed
      · cases houtcome.symm.trans failed
      · exact followReply_size (replied.symm.trans houtcome)

/-- The safe fetcher keeps the limits of every request, whatever the servers
send. -/
theorem SafeFetcher.keepsLimits (network : Nat → Nat → Hop) (now : Nat → String) :
    KeepsLimits (SafeFetcher.fetch network now : Fetcher SafeFetcher Url) := by
  intro request f result h
  simp only [SafeFetcher.fetch, fetchInner] at h
  cases hvalid : validateHeaders request.headers with
  | error error =>
    rw [hvalid] at h
    cases h
  | ok checked =>
    simp only [hvalid] at h
    obtain ⟨-, -, hresult, hends⟩ := fetchLoop_safe request.toFetchRequest (now f.served)
      (network f.served) (request.maxRedirects.toNat + 1) 0 request.url [] f.clients (by simp)
    obtain ⟨outcome, houtcome⟩ := Option.ne_none_iff_exists'.mp (hends (by simp))
    rw [houtcome, Option.getD_some] at h
    subst h
    obtain ⟨hredirects, hbody⟩ := hresult result houtcome
    refine ⟨?_, hredirects⟩
    have small := request.maxBytes.toNat_lt
    rw [fetchLoop_size houtcome, UInt64.le_iff_toNat_le]
    simp only [Nat.toUInt64_eq, UInt64.toNat_ofNat']
    omega

end

end Amatl
