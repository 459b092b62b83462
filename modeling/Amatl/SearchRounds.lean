import Amatl.Search

/-! What holds along a whole progressive search: rounds are few, no provider is
selected twice, the coverage exception is used once, and the budget accounts for
every reservation. -/

namespace Amatl

def grantedCount (reservations : List Reservation) : Nat :=
  reservations.countP (fun r => r.granted)

def Budget.Accounts (budget : Budget) (spent : Nat) : Prop :=
  budget.remainingProviderCalls.toNat + spent = budget.maxProviderCalls.toNat

def LogAccounts (maxCalls : UInt32) (spent : Nat) (log : List Reservation) : Prop :=
  ∀ (k : Nat) (entry : Reservation), log[k]? = some entry →
    entry.remaining.toNat + (spent + grantedCount (log.take (k + 1))) = maxCalls.toNat

theorem Budget.reserveProvider_ok {budget budget' : Budget} (h : budget.reserveProvider = .ok budget')
    {spent : Nat} (hspent : budget.Accounts spent) :
    budget'.maxProviderCalls = budget.maxProviderCalls ∧ budget'.Accounts (spent + 1) := by
  unfold reserveProvider at h
  split at h
  · cases h
  · rename_i hne
    cases h
    refine ⟨rfl, ?_⟩
    unfold Accounts at hspent ⊢
    have hpos : budget.remainingProviderCalls.toNat ≠ 0 := fun hz =>
      hne (UInt32.toNat_inj.mp hz)
    have hle : (1 : UInt32) ≤ budget.remainingProviderCalls := by
      rw [UInt32.le_iff_toNat_le]
      simpa using Nat.one_le_iff_ne_zero.mpr hpos
    simp only [UInt32.toNat_sub_of_le _ _ hle, UInt32.toNat_one]
    omega

theorem LogAccounts.cons {maxCalls : UInt32} {spent : Nat} {entry : Reservation}
    {log : List Reservation}
    (hentry : entry.remaining.toNat + (spent + grantedCount [entry]) = maxCalls.toNat)
    (hlog : LogAccounts maxCalls (spent + grantedCount [entry]) log) :
    LogAccounts maxCalls spent (entry :: log) := by
  intro k e hk
  cases k with
  | zero =>
    cases hk
    simpa using hentry
  | succ k =>
    have hnext := hlog k e (by simpa using hk)
    simp only [grantedCount, List.take_succ_cons, List.countP_cons, List.countP_nil] at hnext ⊢
    omega

theorem LogAccounts.append {maxCalls : UInt32} {spent : Nat} {log more : List Reservation}
    (hlog : LogAccounts maxCalls spent log)
    (hmore : LogAccounts maxCalls (spent + grantedCount log) more) :
    LogAccounts maxCalls spent (log ++ more) := by
  intro k e hk
  by_cases hlt : k < log.length
  · rw [List.getElem?_append_left hlt] at hk
    rw [List.take_append_of_le_length (by omega)]
    exact hlog k e hk
  · rw [List.getElem?_append_right (by omega)] at hk
    have hnext := hmore (k - log.length) e hk
    rw [List.take_append, List.take_of_length_le (by omega : log.length ≤ k + 1),
      show k + 1 - log.length = k - log.length + 1 by omega]
    simp only [grantedCount, List.countP_append] at hnext ⊢
    omega

theorem reserveEach_accounts (providers : List String) {budget : Budget} {spent : Nat}
    (h : budget.Accounts spent) :
    let planned := reserveEach budget providers
    planned.2.maxProviderCalls = budget.maxProviderCalls ∧
      planned.2.Accounts (spent + grantedCount planned.1) ∧
      LogAccounts budget.maxProviderCalls spent planned.1 := by
  induction providers generalizing budget spent with
  | nil => exact ⟨rfl, h, fun k e hk => by simp [reserveEach] at hk⟩
  | cons provider rest ih =>
    cases hreserve : budget.reserveProvider with
    | error cause =>
      obtain ⟨hmax, haccounts, hlog⟩ := ih h
      simp only [reserveEach, hreserve]
      refine ⟨hmax, by simpa [grantedCount] using haccounts, ?_⟩
      exact LogAccounts.cons (by simpa [grantedCount, Budget.Accounts] using h)
        (by simpa [grantedCount] using hlog)
    | ok budget' =>
      obtain ⟨hmax', haccounts'⟩ := Budget.reserveProvider_ok hreserve h
      obtain ⟨hmax, haccounts, hlog⟩ := ih haccounts'
      simp only [reserveEach, hreserve]
      rw [hmax'] at hmax hlog
      refine ⟨hmax, ?_, LogAccounts.cons ?_ (by simpa [grantedCount] using hlog)⟩
      · simpa [grantedCount, Nat.add_assoc, Nat.add_comm 1] using haccounts
      · rw [← hmax']
        simpa [grantedCount, Budget.Accounts] using haccounts'

theorem decideProgressiveRound_ok {input : RoutingDecisionInput} {next : NextProviderDecision}
    (h : decideProgressiveRound input = .ok next) :
    next.provider ∈ input.candidates ∧ input.remainingProviderCalls ≠ 0 ∧
      (next.usesCoverageException = true → input.coverageExceptionUsed = false) := by
  unfold decideProgressiveRound at h
  simp only at h
  split at h
  · cases h
  split at h
  · cases h
  split at h
  · cases h
  rename_i hlimit
  split at h
  · cases h
  split at h
  · cases h
  split at h
  · cases h
  · rename_i first rest hcandidates
    have hcalls : input.remainingProviderCalls ≠ 0 := by
      intro hz
      exact hlimit (by simp [hcandidates, hz])
    split at h
    · cases h
    split at h
    · cases h
      exact ⟨by simp [hcandidates], hcalls, by simp⟩
    split at h
    · rename_i provider hfind
      cases h
      exact ⟨List.mem_of_find?_eq_some hfind, hcalls, by simp⟩
    split at h
    · rename_i hexception
      cases h
      refine ⟨by simp [hcandidates], hcalls, fun _ => ?_⟩
      simpa using (Bool.and_eq_true_iff.mp hexception).2
    · cases h

theorem unattempted_append_single {setup : SearchSetup} {attempted : List String} {provider : String}
    (h : provider ∈ setup.unattempted attempted) :
    (setup.unattempted (attempted ++ [provider])).length < (setup.unattempted attempted).length := by
  have hsplit : setup.unattempted (attempted ++ [provider]) =
      (setup.unattempted attempted).filter (fun p => p != provider) := by
    simp only [SearchSetup.unattempted, List.filter_filter]
    apply List.filter_congr
    intro p _
    by_cases hp : p = provider <;> simp [hp]
  rw [hsplit]
  exact List.length_filter_lt_length_iff_exists.mpr ⟨provider, h, by simp⟩

section

variable {Url : Type}

theorem SearchSetup.planRound_selected (setup : SearchSetup) (environment : RoundEnvironment)
    (state : SearchState Url) :
    (setup.planRound environment state).plan.selectedProviders ⊆ state.nextSelected := by
  intro provider h
  simp only [SearchSetup.planRound, buildSearchPlan] at h
  exact (List.mem_filter.mp h).1

theorem SearchSetup.planRound_single {setup : SearchSetup} {environment : RoundEnvironment}
    {state : SearchState Url} {provider : String} (hnext : state.nextSelected = [provider])
    (hcalls : state.budget.remainingProviderCalls ≠ 0) :
    (setup.planRound environment state).plan.selectedProviders = [provider] := by
  simp [SearchSetup.planRound, buildSearchPlan, hnext, reserveEach, Budget.reserveProvider, hcalls]

/-- What holds after every round. `spent` calls were reserved before the search. -/
structure SearchInvariant (setup : SearchSetup) (maxCalls : UInt32) (spent : Nat)
    (state : SearchState Url) : Prop where
  limit : state.budget.maxProviderCalls = maxCalls
  accounts : state.budget.Accounts (spent + grantedCount state.reservations)
  log : LogAccounts maxCalls spent state.reservations
  rounds : state.trace.length = state.round
  attempted : state.attempted = state.trace.flatMap (fun r => r.providersSelected)
  disjoint : state.trace.Pairwise (fun r s =>
    ∀ provider ∈ r.providersSelected, provider ∉ s.providersSelected)
  later : ∀ (k : Nat) (r : ProgressiveRoundTrace), 0 < k → state.trace[k]? = some r →
    ∀ provider ∈ r.providersSelected, provider ∈ setup.adaptive.orderedProviders ∧
      provider ∉ (state.trace.take k).flatMap (fun r => r.providersSelected)
  exceptions : state.decisions.countP (fun d => d.usesCoverageException) =
    state.exceptionUsed.toNat
  bound : state.round + (setup.unattempted state.attempted).length ≤
    1 + setup.adaptive.orderedProviders.length

/-- A further round is for one provider not attempted yet, and a call is left. -/
def SearchState.Ready (setup : SearchSetup) (state : SearchState Url) : Prop :=
  0 < state.round → ∃ provider, state.nextSelected = [provider] ∧
    provider ∈ setup.unattempted state.attempted ∧ state.budget.remainingProviderCalls ≠ 0

theorem SearchSetup.start_invariant (setup : SearchSetup) {budget : Budget} {spent : Nat}
    (h : budget.Accounts spent) :
    SearchInvariant setup budget.maxProviderCalls spent
      (setup.start budget : SearchState Url) where
  limit := rfl
  accounts := by simpa [grantedCount, SearchSetup.start] using h
  log := fun k e hk => by simp [SearchSetup.start] at hk
  rounds := rfl
  attempted := rfl
  disjoint := List.Pairwise.nil
  later := fun k r _ hk => by simp [SearchSetup.start] at hk
  exceptions := rfl
  bound := by
    have hle := List.length_filter_le (fun provider => !([] : List String).contains provider)
      setup.adaptive.orderedProviders
    simp only [SearchSetup.start, SearchSetup.unattempted]
    omega

variable [UrlCrate Url] [UnicodeTables] [TimeCrate] [Powf]

/-- What one round does to the parts of the state the results below are about. -/
theorem SearchSetup.searchRound_cases (setup : SearchSetup) (environment : RoundEnvironment)
    (state : SearchState Url) :
    let planned := setup.planRound environment state
    let after := setup.searchRound environment state
    (∃ trace, after.1.trace = state.trace ++ [trace] ∧
        trace.providersSelected = planned.plan.selectedProviders) ∧
      after.1.budget = planned.budget ∧
      after.1.reservations = state.reservations ++ planned.reservations ∧
      after.1.attempted = state.attempted ++ planned.plan.selectedProviders ∧
      after.1.round = state.round + 1 ∧
      ((∃ reason, after.2 = some reason ∧ after.1.exceptionUsed = state.exceptionUsed ∧
          after.1.decisions = state.decisions) ∨
        ∃ next : NextProviderDecision, after.2 = none ∧ after.1.nextSelected = [next.provider] ∧
          next.provider ∈ setup.unattempted after.1.attempted ∧
          after.1.budget.remainingProviderCalls ≠ 0 ∧
          (next.usesCoverageException = true → state.exceptionUsed = false) ∧
          after.1.exceptionUsed = (state.exceptionUsed || next.usesCoverageException) ∧
          after.1.decisions = state.decisions ++ [next]) := by
  intro planned after
  simp only [after, SearchSetup.searchRound]
  split
  · rename_i next hdecision
    obtain ⟨hmem, hcalls, hexception⟩ := decideProgressiveRound_ok hdecision
    exact ⟨⟨_, rfl, rfl⟩, rfl, rfl, rfl, rfl,
      Or.inr ⟨next, rfl, rfl, hmem, hcalls, hexception, rfl, rfl⟩⟩
  · exact ⟨⟨_, rfl, rfl⟩, rfl, rfl, rfl, rfl, Or.inl ⟨_, rfl, rfl, rfl⟩⟩

/-- One round keeps the invariant, and a round that goes on leaves a provider for
the next. -/
theorem SearchSetup.searchRound_invariant {setup : SearchSetup} {maxCalls : UInt32} {spent : Nat}
    {state : SearchState Url} (environment : RoundEnvironment)
    (h : SearchInvariant setup maxCalls spent state) (hready : state.Ready setup) :
    let after := setup.searchRound environment state
    SearchInvariant setup maxCalls spent after.1 ∧ (after.2 = none → after.1.Ready setup) := by
  intro after
  obtain ⟨⟨trace, htrace, hselected⟩, hbudget, hreservations, hattempted, hround, hdecision⟩ :=
    setup.searchRound_cases environment state
  obtain ⟨hlimit, haccounts, hlog⟩ := reserveEach_accounts state.nextSelected h.accounts
  have hempty : state.round = 0 → state.trace = [] := by
    intro hzero
    exact List.eq_nil_of_length_eq_zero (h.rounds.trans hzero)
  have hfresh : 0 < state.round → ∀ provider ∈ trace.providersSelected,
      provider ∈ setup.unattempted state.attempted := by
    intro hpos provider hm
    obtain ⟨only, hnext, hmem, -⟩ := hready hpos
    rw [hselected] at hm
    have honly := setup.planRound_selected environment state hm
    rw [hnext, List.mem_singleton] at honly
    rwa [honly]
  have hunattempted : ∀ provider ∈ setup.unattempted state.attempted,
      provider ∈ setup.adaptive.orderedProviders ∧
        provider ∉ state.trace.flatMap (fun r => r.providersSelected) := by
    intro provider hm
    obtain ⟨hordered, hnot⟩ := List.mem_filter.mp hm
    rw [h.attempted] at hnot
    exact ⟨hordered, by simpa using hnot⟩
  constructor
  · constructor
    · rw [hbudget]
      exact hlimit.trans h.limit
    · have hcount : grantedCount (state.reservations ++ (setup.planRound environment
          state).reservations) = grantedCount state.reservations +
            grantedCount (reserveEach state.budget state.nextSelected).1 :=
        List.countP_append
      rw [hbudget, hreservations, hcount, ← Nat.add_assoc]
      exact haccounts
    · rw [hreservations]
      exact h.log.append (h.limit ▸ hlog)
    · rw [htrace, hround, List.length_append, h.rounds]
      rfl
    · rw [htrace, hattempted, List.flatMap_append, ← h.attempted, ← hselected]
      simp
    · rw [htrace, List.pairwise_append]
      refine ⟨h.disjoint, List.pairwise_singleton _ _, ?_⟩
      intro r hr s hs provider hm hagain
      rw [List.mem_singleton] at hs
      subst hs
      have hpos : 0 < state.round := by
        rw [← h.rounds]
        exact List.length_pos_of_mem hr
      exact (hunattempted provider (hfresh hpos provider hagain)).2
        (List.mem_flatMap.mpr ⟨r, hr, hm⟩)
    · intro k r hk hget provider hm
      rw [htrace] at hget ⊢
      by_cases hlt : k < state.trace.length
      · rw [List.getElem?_append_left hlt] at hget
        rw [List.take_append_of_le_length (by omega)]
        exact h.later k r hk hget provider hm
      · have hlast : k = state.trace.length := by
          have := (List.getElem?_eq_some_iff.mp hget).1
          simp at this
          omega
        subst hlast
        have hr : r = trace := by simpa using hget.symm
        subst hr
        rw [List.take_left]
        exact hunattempted provider (hfresh (h.rounds ▸ hk) provider hm)
    · rcases hdecision with ⟨reason, -, hexception, hdecisions⟩ |
        ⟨next, -, -, -, -, honce, hexception, hdecisions⟩
      · rw [hdecisions, hexception, h.exceptions]
      · rw [hdecisions, hexception, List.countP_append, h.exceptions]
        cases huses : next.usesCoverageException with
        | false => simp [huses]
        | true => simp [huses, honce huses]
    · rw [hround, hattempted]
      by_cases hpos : 0 < state.round
      · obtain ⟨provider, hnext, hmem, hcalls⟩ := hready hpos
        rw [SearchSetup.planRound_single hnext hcalls]
        have hlt := unattempted_append_single hmem
        have hbound := h.bound
        omega
      · have hle := List.length_filter_le (fun provider =>
          !(state.attempted ++ (setup.planRound environment state).plan.selectedProviders).contains
            provider) setup.adaptive.orderedProviders
        simp only [SearchSetup.unattempted]
        omega
  · intro hnone hpos
    rcases hdecision with ⟨reason, hstop, -⟩ | ⟨next, -, hnext, hmem, hcalls, -⟩
    · rw [hstop] at hnone
      cases hnone
    · exact ⟨next.provider, hnext, hmem, hcalls⟩

/-- The loop keeps the invariant and ends within the rounds that are left. -/
theorem SearchSetup.searchLoop_invariant {setup : SearchSetup} {maxCalls : UInt32} {spent : Nat}
    (environment : Nat → RoundEnvironment) (fuel : Nat) {state : SearchState Url}
    (h : SearchInvariant setup maxCalls spent state) (hready : state.Ready setup)
    (hfuel : fuel + state.round = 1 + setup.adaptive.orderedProviders.length) :
    let run := setup.searchLoop environment fuel state
    SearchInvariant setup maxCalls spent run.1 ∧ run.2 ≠ none := by
  induction fuel generalizing state with
  | zero =>
    -- No round is left, so no provider is, and the last decision found none.
    exfalso
    obtain ⟨provider, -, hmem, -⟩ := hready (by omega)
    have hpos := List.length_pos_of_mem hmem
    have hbound := h.bound
    omega
  | succ fuel ih =>
    obtain ⟨hafter, hnext⟩ := setup.searchRound_invariant (environment state.round) h hready
    have hround := (setup.searchRound_cases (environment state.round) state).2.2.2.2.1
    simp only [SearchSetup.searchLoop]
    split
    · rename_i after reason hrun
      rw [hrun] at hafter
      exact ⟨hafter, by simp⟩
    · rename_i after hrun
      rw [hrun] at hafter hnext hround
      replace hround : after.round = state.round + 1 := hround
      exact ih hafter (hnext rfl) (by omega)

/-- A progressive search ends after at most one round more than there are ordered
providers; no provider is selected in two rounds and later rounds select only
what was not attempted; the coverage exception is used at most once; and after
every reservation the calls that remain are the maximum less those reserved. -/
theorem search_rounds (query : Query) (category : Category) (providers : List ProviderDescriptor)
    (telemetry : String → Category → ProviderValueSnapshot) (searchPolicy : SearchPolicyV1)
    (roles : RoleAssignment) (rankingPolicy : RankingPolicyV1)
    (diversityPolicy : DiversityPolicyV1) (optics : Option OpticsDocument)
    (trackerDomains : String → Bool) (environment : Nat → RoundEnvironment) (budget : Budget)
    (spent : Nat) (hspent : budget.Accounts spent) :
    let setup := searchSetup query category providers telemetry searchPolicy roles rankingPolicy
      diversityPolicy optics trackerDomains
    let ordered := setup.adaptive.orderedProviders
    let run := setup.searchLoop environment (1 + ordered.length)
      (setup.start budget : SearchState Url)
    run.2 ≠ none ∧ run.1.trace.length = run.1.round ∧ run.1.round ≤ 1 + ordered.length ∧
      run.1.trace.Pairwise (fun r s =>
        ∀ provider ∈ r.providersSelected, provider ∉ s.providersSelected) ∧
      (∀ (k : Nat) (r : ProgressiveRoundTrace), 0 < k → run.1.trace[k]? = some r →
        ∀ provider ∈ r.providersSelected, provider ∈ ordered ∧
          provider ∉ (run.1.trace.take k).flatMap (fun r => r.providersSelected)) ∧
      run.1.decisions.countP (fun d => d.usesCoverageException) ≤ 1 ∧
      (∀ (k : Nat) (entry : Reservation), run.1.reservations[k]? = some entry →
        entry.remaining.toNat + (spent + grantedCount (run.1.reservations.take (k + 1))) =
          budget.maxProviderCalls.toNat) ∧
      run.1.budget.remainingProviderCalls.toNat + (spent + grantedCount run.1.reservations) =
        budget.maxProviderCalls.toNat := by
  intro setup ordered run
  obtain ⟨h, hstop⟩ := setup.searchLoop_invariant environment (1 + ordered.length)
    (setup.start_invariant hspent : SearchInvariant setup _ spent (setup.start _ : SearchState Url))
    (fun hpos => absurd hpos (by simp [SearchSetup.start])) rfl
  have hround : run.1.round ≤ 1 + ordered.length := le_trans (Nat.le_add_right _ _) h.bound
  have hexception : run.1.exceptionUsed.toNat ≤ 1 := Bool.toNat_le _
  exact ⟨hstop, h.rounds, hround, h.disjoint, h.later, h.exceptions.trans_le hexception, h.log,
    h.accounts.trans (congrArg UInt32.toNat h.limit)⟩

end

def webProvider (name : String) : ProviderDescriptor where
  name
  capabilities :=
    { pagination := true, language := true, region := true, timeRange := true, siteFilter := true,
      fileFilter := true, news := false, code := false, docs := false, academic := false,
      authentication := true, estimatedCost := none }
  available := true

def untriedProvider : ProviderValueSnapshot where
  state := .bootstrap
  health := .healthy
  sample := 0
  successRate := 0
  timeoutRate := 0
  averageLatencyMs := 0
  averageCostUnits := 0
  averageUniqueResults := 0
  duplicateRatio := 0
  topKContribution := 0
  diversity := 0

/-- Three providers of which none answers and three calls: the third provider is
the coverage exception. -/
theorem search_rounds_three_silent :
    letI := asciiTables
    letI := noDates
    letI := integerPowers
    let setup := searchSetup (plainQuery "lean") .general
      [webProvider "brave", webProvider "mojeek", webProvider "marginalia"]
      (fun _ _ => untriedProvider) .default .legacy .default .default none (fun _ => false)
    let run := setup.searchLoop (fun _ => ⟨0, 0, "", []⟩)
      (1 + setup.adaptive.orderedProviders.length)
      (setup.start (.new 3 10000) : SearchState PlainUrl)
    setup.adaptive.orderedProviders = ["brave", "mojeek", "marginalia"] ∧
      run.1.decisions.countP (fun d => d.usesCoverageException) ≤ 1 ∧
      run.1.budget.remainingProviderCalls.toNat + (0 + grantedCount run.1.reservations) = 3 := by
  let _ := asciiTables
  let _ := noDates
  let _ := integerPowers
  obtain ⟨-, -, -, -, -, hexception, -, hbudget⟩ := @search_rounds PlainUrl _ _ _ _
    (plainQuery "lean") .general
    [webProvider "brave", webProvider "mojeek", webProvider "marginalia"]
    (fun _ _ => untriedProvider) .default .legacy .default .default none (fun _ => false)
    (fun _ => ⟨0, 0, "", []⟩) (.new 3 10000) 0 rfl
  exact ⟨by decide +kernel, hexception, hbudget⟩

end Amatl
