import Amatl.Lib.OrdMap
import Amatl.Lib.TomlEdit

/-! The section `[providers]`: the enabled names and one governance record for
each declared source. -/

namespace Amatl

open Toml

inductive ApprovalStatus where
  | draft | approved | expired | rejected
  deriving DecidableEq, Repr

def ApprovalStatus.asStr : ApprovalStatus → String
  | .draft => "draft"
  | .approved => "approved"
  | .expired => "expired"
  | .rejected => "rejected"

def ApprovalStatus.names : List (String × ApprovalStatus) :=
  [("draft", .draft), ("approved", .approved), ("expired", .expired), ("rejected", .rejected)]

structure ProviderRuntimeConfig where
  adapterVersion : Option String
  approvalStatus : ApprovalStatus
  reviewedAt : Option String
  reviewer : Option String
  termsUrl : Option String
  termsVersionOrDate : Option String
  allowedAccessMethod : Option String
  planOrContract : Option String
  rateLimit : Option String
  costModel : Option String
  credentialEnv : Option String
  storageRights : Bool
  supportedRegions : List String
  supportedFilters : List String
  dataHandlingNotes : Option String
  operationalRisk : Option String
  deriving DecidableEq

def ProviderRuntimeConfig.default : ProviderRuntimeConfig where
  adapterVersion := none
  approvalStatus := .draft
  reviewedAt := none
  reviewer := none
  termsUrl := none
  termsVersionOrDate := none
  allowedAccessMethod := none
  planOrContract := none
  rateLimit := none
  costModel := none
  credentialEnv := none
  storageRights := false
  supportedRegions := []
  supportedFilters := []
  dataHandlingNotes := none
  operationalRisk := none

def ProviderRuntimeConfig.fields : List (RecordField ProviderRuntimeConfig) :=
  [field "adapter_version" (optional text) (·.adapterVersion)
     (fun v c => { c with adapterVersion := v }),
   field "approval_status" (variant Node.isEmptyTable ApprovalStatus.names) (·.approvalStatus)
     (fun v c => { c with approvalStatus := v }),
   field "reviewed_at" (optional text) (·.reviewedAt) (fun v c => { c with reviewedAt := v }),
   field "reviewer" (optional text) (·.reviewer) (fun v c => { c with reviewer := v }),
   field "terms_url" (optional text) (·.termsUrl) (fun v c => { c with termsUrl := v }),
   field "terms_version_or_date" (optional text) (·.termsVersionOrDate)
     (fun v c => { c with termsVersionOrDate := v }),
   field "allowed_access_method" (optional text) (·.allowedAccessMethod)
     (fun v c => { c with allowedAccessMethod := v }),
   field "plan_or_contract" (optional text) (·.planOrContract)
     (fun v c => { c with planOrContract := v }),
   field "rate_limit" (optional text) (·.rateLimit) (fun v c => { c with rateLimit := v }),
   field "cost_model" (optional text) (·.costModel) (fun v c => { c with costModel := v }),
   field "credential_env" (optional text) (·.credentialEnv)
     (fun v c => { c with credentialEnv := v }),
   field "storage_rights" flag (·.storageRights) (fun v c => { c with storageRights := v }),
   field "supported_regions" (list text) (·.supportedRegions)
     (fun v c => { c with supportedRegions := v }),
   field "supported_filters" (list text) (·.supportedFilters)
     (fun v c => { c with supportedFilters := v }),
   field "data_handling_notes" (optional text) (·.dataHandlingNotes)
     (fun v c => { c with dataHandlingNotes := v }),
   field "operational_risk" (optional text) (·.operationalRisk)
     (fun v c => { c with operationalRisk := v })]

theorem ProviderRuntimeConfig.lawful : Lawful ProviderRuntimeConfig.fields := by
  constructor
  · simp [ProviderRuntimeConfig.fields, field]
  · simp only [ProviderRuntimeConfig.fields, RecordField.apart_field, List.pairwise_cons,
      List.forall_mem_cons]
    simp
  · rintro ⟨⟩ ⟨⟩
    simp [ProviderRuntimeConfig.fields, field]

structure ProviderConfig where
  enabled : List String
  declared : List (String × ProviderRuntimeConfig)
  deriving DecidableEq

def rejectedRisk : String :=
  "Rejected by operator policy: no paid search providers. Do not " ++
   "enable without an explicit policy change; see «Viabilidad y " ++
   "coste» in docs/gobernanza-providers.md."

def brave : ProviderRuntimeConfig :=
  { ProviderRuntimeConfig.default with
    adapterVersion := some "brave-v1"
    approvalStatus := .rejected
    credentialEnv := some "BRAVE_API_KEY"
    termsUrl := some
      "https://api-dashboard.search.brave.com/documentation/resources/terms-of-service"
    termsVersionOrDate := some "2026-02-11"
    allowedAccessMethod := some "official_api"
    costModel := some ("Paid since 2026-02 (card required at signup; ~5 USD/mo credit, " ++
      "usage billed beyond it).")
    operationalRisk := some rejectedRisk
    supportedFilters := ["site", "filetype", "language", "region", "time_range"] }

def mojeek : ProviderRuntimeConfig :=
  { ProviderRuntimeConfig.default with
    adapterVersion := some "mojeek-v1"
    approvalStatus := .rejected
    credentialEnv := some "MOJEEK_API_KEY"
    termsUrl := some "https://www.mojeek.com/support/api/"
    allowedAccessMethod := some "official_api"
    costModel := some "Paid; no free tier."
    operationalRisk := some rejectedRisk }

def searxng : ProviderRuntimeConfig :=
  { ProviderRuntimeConfig.default with
    adapterVersion := some "searxng-v1"
    credentialEnv := some "SEARXNG_INSTANCE_URL"
    termsUrl := some "https://docs.searxng.org/"
    termsVersionOrDate := some "self-certified"
    allowedAccessMethod := some "self_hosted"
    planOrContract := some "self-hosted"
    rateLimit := some "unlimited (self-hosted)"
    costModel := some "0"
    storageRights := false
    dataHandlingNotes := some ("Self-hosted SearXNG instance; no external terms. " ++
      "Upstream engines have their own terms — operator must verify " ++
      "compliance. No data stored by AMATL.")
    operationalRisk := some ("Depends on upstream search engines that may block automated " ++
      "access. IP reputation risk at volume. Operator should configure " ++
      "only permissive engines.") }

def marginalia : ProviderRuntimeConfig :=
  { ProviderRuntimeConfig.default with
    adapterVersion := some "marginalia-v1"
    credentialEnv := some "MARGINALIA_API_KEY"
    termsUrl := some "https://www.marginalia.nu/"
    allowedAccessMethod := some "official_api" }

def builtinProviderRecords : List (String × ProviderRuntimeConfig) :=
  OrdMap.ofList [("brave", brave), ("mojeek", mojeek), ("searxng", searxng),
    ("marginalia", marginalia)]

def ProviderConfig.default : ProviderConfig where
  enabled := []
  declared := builtinProviderRecords

def ProviderConfig.isDeclared (config : ProviderConfig) (name : String) : Bool :=
  (OrdMap.get? name config.declared).isSome

/-- Every key but `enabled` is the name of a governance record. -/
def providerRecords (entries : Table) : Option (List (String × ProviderRuntimeConfig)) :=
  (remove "enabled" entries).mapM (fun entry =>
    (bufferedRecord ProviderRuntimeConfig.fields .default entry.2).map (fun r => (entry.1, r)))

/-- The records of the file are declared over the built-in ones. -/
def ProviderConfig.ofEntries (entries : Table) : Option ProviderConfig := do
  let enabled ← (get? "enabled" entries).elim (some []) (list text)
  let records ← providerRecords entries
  let declared := records.foldr (fun e m => OrdMap.insert e.1 e.2 m) builtinProviderRecords
  return { enabled, declared }

def ProviderConfig.read : Node → Option ProviderConfig
  | .table entries => ProviderConfig.ofEntries entries
  | .inlineTable entries => ProviderConfig.ofEntries entries
  | _ => none

theorem ProviderConfig.ofEntries_eq_some {entries : Table} {config : ProviderConfig} :
    ProviderConfig.ofEntries entries = some config ↔
      (get? "enabled" entries).elim (some []) (list text) = some config.enabled ∧
      ∃ records, providerRecords entries = some records ∧ config.declared
        = records.foldr (fun e m => OrdMap.insert e.1 e.2 m) builtinProviderRecords := by
  constructor
  · intro h
    obtain ⟨enabled, he, h⟩ := Option.bind_eq_some_iff.1 h
    obtain ⟨records, hr, h⟩ := Option.bind_eq_some_iff.1 h
    cases h
    exact ⟨he, records, hr, rfl⟩
  · rintro ⟨he, records, hr, hd⟩
    rw [ProviderConfig.ofEntries, he, hr]
    exact congrArg some (ProviderConfig.mk.injEq .. ▸ ⟨rfl, hd.symm⟩)

theorem ProviderConfig.ofEntries_nil : ProviderConfig.ofEntries [] = some .default := rfl

end Amatl
