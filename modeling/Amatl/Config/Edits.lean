import Amatl.Config.Patch

/-! The writers beside the field patches: single values, list membership, named
clients, governance records and whole policies. -/

namespace Amatl

open Toml

/-- `document[section][key] = value`. Indexing anything but a table panics before
the file is written. -/
def setScalarField (name key : String) (value : Node) (doc : Table) : Except ConfigError Table :=
  match get? name doc with
  | none => .ok (insert name (.table [(key, value)]) doc)
  | some (.table t) => .ok (insert name (.table (insert key value t)) doc)
  | some (.inlineTable t) => .ok (insert name (.inlineTable (insert key value t)) doc)
  | some _ => .error (.policy "index not found")

def setAnswerEnabled (enabled : Bool) : Table → Except ConfigError Table :=
  setScalarField "answer" "enabled" (.boolean enabled)

def withMembership (item : String) (present : Bool) (items : List Node) : List Node :=
  let isItem := fun node => text node == some item
  let alreadyPresent := items.any isItem
  if present && !alreadyPresent then items ++ [.string item]
  else if !present && alreadyPresent then items.eraseP isItem
  else items

def setListMembership (name key item : String) (present : Bool) :
    Table → Except ConfigError Table :=
  tableAt notTable (fun t =>
    match get? key t with
    | none => .ok (insert key (.array (withMembership item present [])) t)
    | some (.array items) => .ok (insert key (.array (withMembership item present items)) t)
    | some _ => .error (.policy (name ++ "." ++ key ++ " is not an array"))) [name]

def setProviderEnabled (name : String) (enabled : Bool) (doc : Table) :
    Except ConfigError Table :=
  if isProviderKey name then setListMembership "providers" "enabled" name enabled doc
  else .error (.policy ("invalid provider name: " ++ name))

def optionalEntry (key : String) (value : Option String) : Table :=
  match value with
  | none => []
  | some value => [(key, .string value)]

def listEntry (key : String) (values : List String) : Table :=
  if values.isEmpty then [] else [(key, strings values)]

def serverClientToTable (client : ServerClient) : Table :=
  [("id", .string client.id)] ++ optionalEntry "token_env" client.tokenEnv ++
    optionalEntry "token_sha256" client.tokenSha256 ++
    optionalEntry "expires_at" client.expiresAt ++
    [("scopes", strings (client.scopes.map Scope.asStr)), ("tools", strings client.tools)]

def declaredId (t : Table) : Option String := (get? "id" t).bind text

def replaceOrPush {α : Type} (p : α → Bool) (item : α) : List α → List α
  | [] => [item]
  | a :: items => if p a then item :: items else a :: replaceOrPush p item items

def upsertServerClient (client : ServerClient) : Table → Except ConfigError Table :=
  let place := replaceOrPush (fun t => declaredId t == some client.id) (serverClientToTable client)
  tableAt notTable (fun server =>
    match get? "clients" server with
    | none => .ok (insert "clients" (.arrayOfTables (place [])) server)
    | some (.arrayOfTables clients) =>
      .ok (insert "clients" (.arrayOfTables (place clients)) server)
    | some _ => .error (.policy "server.clients is not an array of tables")) ["server"]

/-- Only `[[server.clients]]` is looked at: an inline array is left as it is, and
an inline `server` table holds no array of tables. -/
def removeServerClient (id : String) (doc : Table) : Table :=
  match get? "server" doc with
  | some (.table server) =>
    match get? "clients" server with
    | some (.arrayOfTables clients) =>
      let clients := clients.filter (fun t => declaredId t != some id)
      insert "server" (.table (insert "clients" (.arrayOfTables clients) server)) doc
    | _ => doc
  | _ => doc

def providerRecordToTable (record : ProviderRuntimeConfig) : Table :=
  optionalEntry "adapter_version" record.adapterVersion ++
    [("approval_status", .string record.approvalStatus.asStr)] ++
    optionalEntry "reviewed_at" record.reviewedAt ++ optionalEntry "reviewer" record.reviewer ++
    optionalEntry "terms_url" record.termsUrl ++
    optionalEntry "terms_version_or_date" record.termsVersionOrDate ++
    optionalEntry "allowed_access_method" record.allowedAccessMethod ++
    optionalEntry "plan_or_contract" record.planOrContract ++
    optionalEntry "rate_limit" record.rateLimit ++ optionalEntry "cost_model" record.costModel ++
    optionalEntry "credential_env" record.credentialEnv ++
    [("storage_rights", .boolean record.storageRights)] ++
    listEntry "supported_regions" record.supportedRegions ++
    listEntry "supported_filters" record.supportedFilters ++
    optionalEntry "data_handling_notes" record.dataHandlingNotes ++
    optionalEntry "operational_risk" record.operationalRisk

def upsertProviderRecord (name : String) (record : ProviderRuntimeConfig) (doc : Table) :
    Except ConfigError Table :=
  if isProviderKey name then
    tableAt notTable (fun t => .ok (insert name (.table (providerRecordToTable record)) t))
      ["providers"] doc
  else .error (.policy ("invalid provider name: " ++ name))

/-! Whole policies, serialized key by key. -/

def serialized {α : Type} (toNat : α → Nat) (value : α) : Except ConfigError Edit :=
  Edit.setInteger (.policy "failed to serialize policy") ((some value).map toNat)

def written {α : Type} (encode : α → Node) (value : α) : Except ConfigError Edit :=
  .ok (.set encode (some value))

def RankingPolicyV1.edits (p : RankingPolicyV1) : ConfigEdits :=
  [("version", written .string p.version), ("rrf_k", serialized UInt32.toNat p.rrfK),
   ("weight_rrf", written .float p.weightRrf),
   ("weight_title_match", written .float p.weightTitleMatch),
   ("weight_snippet_match", written .float p.weightSnippetMatch),
   ("weight_freshness", written .float p.weightFreshness),
   ("weight_provider_agreement", written .float p.weightProviderAgreement),
   ("freshness_half_life_days", serialized UInt32.toNat p.freshnessHalfLifeDays),
   ("freshness_unknown", written .float p.freshnessUnknown)]

def DiversityPolicyV1.edits (p : DiversityPolicyV1) : ConfigEdits :=
  [("version", written .string p.version),
   ("max_visible_per_domain", serialized id p.maxVisiblePerDomain),
   ("max_visible_per_provider", serialized id p.maxVisiblePerProvider),
   ("max_visible_per_result_type", serialized id p.maxVisiblePerResultType),
   ("relevance_override_ratio", written .float p.relevanceOverrideRatio)]

def SearchPolicyV1.edits (p : SearchPolicyV1) : ConfigEdits :=
  [("version", written .string p.version),
   ("first_round_min_providers", serialized id p.firstRoundMinProviders),
   ("first_round_max_providers", serialized id p.firstRoundMaxProviders),
   ("minimum_useful_results", serialized id p.minimumUsefulResults),
   ("target_useful_results", serialized id p.targetUsefulResults),
   ("minimum_unique_domains", serialized id p.minimumUniqueDomains),
   ("target_unique_domains", serialized id p.targetUniqueDomains),
   ("low_diversity_domain_ratio", written .float p.lowDiversityDomainRatio),
   ("low_diversity_provider_ratio", written .float p.lowDiversityProviderRatio),
   ("low_diversity_result_type_ratio", written .float p.lowDiversityResultTypeRatio),
   ("minimum_marginal_gain", written .float p.minimumMarginalGain),
   ("minimum_expected_marginal_gain", written .float p.minimumExpectedMarginalGain),
   ("minimum_remaining_deadline_ms", serialized UInt64.toNat p.minimumRemainingDeadlineMs),
   ("maximum_results_per_domain", serialized id p.maximumResultsPerDomain),
   ("maximum_results_per_provider", serialized id p.maximumResultsPerProvider),
   ("maximum_results_per_result_type", serialized id p.maximumResultsPerResultType),
   ("minimum_exploration_ratio", written .float p.minimumExplorationRatio)]

def RankingV2Policy.edits (p : RankingV2Policy) : ConfigEdits :=
  [("version", written .string p.version), ("bm25_k1", written .float p.bm25K1),
   ("bm25_b", written .float p.bm25B), ("weight_bm25", written .float p.weightBm25),
   ("weight_semantic", written .float p.weightSemantic),
   ("weight_reranker", written .float p.weightReranker),
   ("weight_relevance", written .float p.weightRelevance),
   ("weight_evidence", written .float p.weightEvidence),
   ("benchmark_minimum_ndcg_delta", written .float p.benchmarkMinimumNdcgDelta),
   ("benchmark_minimum_ndcg", written .float p.benchmarkMinimumNdcg)]

def GapPolicyV1.edits (p : GapPolicyV1) : ConfigEdits :=
  [("version", written .string p.version),
   ("minimum_documents", serialized UInt32.toNat p.minimumDocuments),
   ("minimum_unique_domains", serialized UInt32.toNat p.minimumUniqueDomains),
   ("minimum_enriched_ratio", written .float p.minimumEnrichedRatio),
   ("minimum_average_evidence", written .float p.minimumAverageEvidence),
   ("difficult_confidence_max", written .float p.difficultConfidenceMax),
   ("difficult_minimum_terms", serialized UInt32.toNat p.difficultMinimumTerms),
   ("max_subqueries", serialized UInt32.toNat p.maxSubqueries)]

def replaceTable (edits : ConfigEdits) (path : List String) (leaf : String) (doc : Table) :
    Except ConfigError Table := do
  let table ← write edits []
  tableAt notTable (fun t => .ok (insert leaf (.table table) t)) path doc

inductive ResultPolicy where
  | ranking (policy : RankingPolicyV1)
  | diversity (policy : DiversityPolicyV1)
  | search (policy : SearchPolicyV1)
  | rankingV2 (policy : RankingV2Policy)
  | gaps (policy : GapPolicyV1)

namespace ResultPolicy

def apply (policy : ResultPolicy) (c : Config) : Config :=
  match policy with
  | .ranking policy => { c with rankingPolicy := policy }
  | .diversity policy => { c with diversityPolicy := policy }
  | .search policy => { c with searchPolicy := policy }
  | .rankingV2 policy =>
    { c with deep := { c.deep with rankingV2 := { c.deep.rankingV2 with policy := policy } } }
  | .gaps policy => { c with deep := { c.deep with gaps := { c.deep.gaps with policy := policy } } }

def write (policy : ResultPolicy) : Table → Except ConfigError Table :=
  match policy with
  | .ranking policy => replaceTable policy.edits [] "ranking_policy"
  | .diversity policy => replaceTable policy.edits [] "diversity_policy"
  | .search policy => replaceTable policy.edits [] "search_policy"
  | .rankingV2 policy => replaceTable policy.edits ["deep", "ranking_v2"] "policy"
  | .gaps policy => replaceTable policy.edits ["deep", "gaps"] "policy"

end ResultPolicy

end Amatl
