import Amatl.Config.Deep
import Amatl.Config.Inference
import Amatl.Config.Limits
import Amatl.Config.Providers
import Amatl.Config.Server

/-! The configuration as a whole, and how a document is read as one. -/

namespace Amatl

open Toml

structure Config where
  schemaVersion : String
  dataPolicy : DataPolicyConfig
  inference : InferenceConfig
  answer : AnswerConfig
  providers : ProviderConfig
  timeouts : TimeoutConfig
  budget : BudgetConfig
  execution : ExecutionConfig
  rankingPolicy : RankingPolicyV1
  ranking : RankingConfig
  diversityPolicy : DiversityPolicyV1
  searchPolicy : SearchPolicyV1
  expansion : ExpansionConfig
  persistence : PersistenceConfig
  circuitBreaker : CircuitPolicy
  cache : CacheConfig
  telemetry : TelemetryConfig
  deep : DeepConfig
  server : ServerConfig
  deriving DecidableEq

def Config.default : Config where
  schemaVersion := Amatl.schemaVersion
  dataPolicy := .default
  inference := .default
  answer := .default
  providers := .default
  timeouts := .default
  budget := .default
  execution := .default
  rankingPolicy := .default
  ranking := .default
  diversityPolicy := .default
  searchPolicy := .default
  expansion := .default
  persistence := .default
  circuitBreaker := .default
  cache := .default
  telemetry := .default
  deep := .default
  server := .default

def Config.fields : List (RecordField Config) :=
  [field "schema_version" text (·.schemaVersion) (fun v c => { c with schemaVersion := v }),
   field "data_policy" (record DataPolicyConfig.fields .default) (·.dataPolicy)
     (fun v c => { c with dataPolicy := v }),
   field "inference" (record InferenceConfig.fields .default) (·.inference)
     (fun v c => { c with inference := v }),
   field "answer" (record AnswerConfig.fields .default) (·.answer)
     (fun v c => { c with answer := v }),
   field "providers" ProviderConfig.read (·.providers) (fun v c => { c with providers := v }),
   field "timeouts" (record TimeoutConfig.fields .default) (·.timeouts)
     (fun v c => { c with timeouts := v }),
   field "budget" (record BudgetConfig.fields .default) (·.budget)
     (fun v c => { c with budget := v }),
   field "execution" (record ExecutionConfig.fields .default) (·.execution)
     (fun v c => { c with execution := v }),
   field "ranking_policy" (record RankingPolicyV1.fields .default) (·.rankingPolicy)
     (fun v c => { c with rankingPolicy := v }),
   field "ranking" (record RankingConfig.fields .default) (·.ranking)
     (fun v c => { c with ranking := v }),
   field "diversity_policy" (record DiversityPolicyV1.fields .default) (·.diversityPolicy)
     (fun v c => { c with diversityPolicy := v }),
   field "search_policy" (record SearchPolicyV1.fields .default) (·.searchPolicy)
     (fun v c => { c with searchPolicy := v }),
   field "expansion" (record ExpansionConfig.fields .default) (·.expansion)
     (fun v c => { c with expansion := v }),
   field "persistence" (record PersistenceConfig.fields .default) (·.persistence)
     (fun v c => { c with persistence := v }),
   field "circuit_breaker" (record CircuitPolicy.fields .default) (·.circuitBreaker)
     (fun v c => { c with circuitBreaker := v }),
   field "cache" (record CacheConfig.fields .default) (·.cache) (fun v c => { c with cache := v }),
   field "telemetry" (record TelemetryConfig.fields .default) (·.telemetry)
     (fun v c => { c with telemetry := v }),
   field "deep" (record DeepConfig.fields .default) (·.deep) (fun v c => { c with deep := v }),
   field "server" (record ServerConfig.fields .default) (·.server)
     (fun v c => { c with server := v })]

theorem Config.lawful : Lawful Config.fields := by
  constructor
  · simp [Config.fields, field]
  · simp only [Config.fields, RecordField.apart_field, List.pairwise_cons,
      List.forall_mem_cons]
    simp
  · rintro ⟨⟩ ⟨⟩
    simp [Config.fields, field]

/-- `Config::from_toml` on a document that parses. -/
def Config.fromToml (doc : Table) : Option Config := readFields (.map doc) Config.fields 0 .default

inductive ConfigError where
  | read | parse
  | policy (message : String)
  deriving DecidableEq, Repr

end Amatl
