import Amatl.Lib.StableSort
import Amatl.Lib.OrdMap
import Amatl.Lib.Text
import Amatl.Lib.Traverse
import Amatl.Lib.Glob
import Amatl.Lib.Net
import Amatl.Lib.F64
import Amatl.Lib.F64Rounding
import Amatl.Externals
import Amatl.Model
import Amatl.Security
import Amatl.Normalize
import Amatl.Canonical
import Amatl.FoldText
import Amatl.Dedupe
import Amatl.Ranking
import Amatl.Adjustments
import Amatl.Diversity
import Amatl.Pipeline
import Amatl.Progressive
import Amatl.Router
import Amatl.Search
import Amatl.SearchRounds
import Amatl.Lib.NetText
import Amatl.Fetch
import Amatl.FetchSafety
import Amatl.Lib.Toml
import Amatl.Lib.TomlEdit
import Amatl.Config.Inference
import Amatl.Config.Limits
import Amatl.Config.Deep
import Amatl.Config.Server
import Amatl.Config.Providers
import Amatl.Config.Load
import Amatl.Config.Validate
import Amatl.Config.Patch
import Amatl.Config.Edits
import Amatl.Config.PatchAgreement
import Amatl.Config.ListAgreement
import Amatl.Config.EditAgreement
import Amatl.Server.Access
import Amatl.Server.Admin
import Amatl.Server.ErrorAtomicity
import Amatl.Server.ListenerAuth
import Amatl.Server.FileValidity
import Amatl.Server.ReloadRace
import Amatl.Server.HotReload
import Amatl.Server.Routes
import Amatl.Circuit
import Amatl.CircuitRace
import Amatl.ProviderCalls
import Amatl.Lib.Loop
import Amatl.Lib.Walk
import Amatl.Lib.Utf8
import Amatl.Lib.Utf8Lossy
import Amatl.Deep.Budget
import Amatl.Deep.Fetcher
import Amatl.Deep.Robots
import Amatl.Deep.Documents
import Amatl.Deep.Crawl
import Amatl.Deep.Enrich
import Amatl.Deep.Stages
import Amatl.Deep.Accounting
import Amatl.Deep.Visits
import Amatl.Deep.Traffic
import Amatl.Deep.Deadline
import Amatl.Deep.Transparency
import Amatl.Deep.Consent
import Amatl.Deep.FetchedOnce
import Amatl.Deep.Reading
import Amatl.Deep.Ranks
import Amatl.Partition
import Amatl.Query
import Amatl.Response
import Amatl.CacheTables
import Amatl.Lib.Lru
import Amatl.Lib.Json
import Amatl.SearchCache
import Amatl.CacheBounds
import Amatl.SavedDocuments
import Amatl.Backups
import Amatl.Rotation
import Amatl.Restore
import Amatl.Telemetry
import Amatl.Addresses
import Amatl.Server.RateLimit
import Amatl.Deep.RobotsMatch
import Amatl.Deep.RobotsGroups
import Amatl.Answer
import Amatl.Server.ReloadStorage
import Amatl.Deep.Rights
import Amatl.QueryTokens
import Amatl.QueryParts
import Amatl.Translation
import Amatl.Lib.Sql
import Amatl.Migrations
import Amatl.Rollback
import Amatl.Deep.RobotsDecision
import Amatl.QueryPartition
import Amatl.OpticsMatch
import Amatl.AdjustmentOrder
import Amatl.Merging
import Amatl.Entities
import Amatl.CleanTexts
import Amatl.EntityEscapes
import Amatl.Lib.Nom
import Amatl.OpticsParse
import Amatl.OpticsLayout
import Amatl.OpticsRoundTrip
import Amatl.CanonicalForm
import Amatl.WebUrl
import Amatl.QueryInvariants
import Amatl.DiversityCounts
import Amatl.RoutingOrder
import Amatl.Lib.Words
import Amatl.Semantics
import Amatl.Relevance
import Amatl.RelevanceRules
import Amatl.Complementarity
import Amatl.CapitalEntity
import Amatl.Classify
import Amatl.PatternWords
import Amatl.Evidence
import Amatl.EvidenceRanges
import Amatl.Lib.Recency
import Amatl.EmbeddingCache
import Amatl.EmbeddingLru
import Amatl.CachedEmbedding
import Amatl.EmbeddingSpaces
import Amatl.Revalidation
import Amatl.StaleWindow
import Amatl.CachePresence
import Amatl.ProviderResponses
import Amatl.RankingV2
import Amatl.RankingV2Relevance
import Amatl.RankingV2Order
import Amatl.Server.Origins
import Amatl.PdfText
import Amatl.PdfLiteral
import Amatl.PdfString
import Amatl.PdfStream
import Amatl.PdfScan
import Amatl.PdfCollect
import Amatl.Gaps
import Amatl.GapQueries
import Amatl.ReadableText
import Amatl.Lib.Calendar
import Amatl.Server.Today
import Amatl.Deep.Gain
import Amatl.Lib.Interleaving
import Amatl.RoundSchedule
import Amatl.RoundSafety
import Amatl.RoundProgress
import Amatl.AuditTrail
import Amatl.Server.EdgeAudit
import Amatl.Lib.Journal
import Amatl.SearchHistory
import Amatl.Maintenance
import Amatl.Deep.Selected
import Amatl.Egress
import Amatl.Server.Tools
import Amatl.Lib.Batches
import Amatl.RemoteInference
import Amatl.InferenceCalls
import Amatl.InferenceBoundary
import Amatl.EmbeddingAnswers
import Amatl.Lib.JsonTree
import Amatl.JsonLog
import Amatl.Rendering
import Amatl.RenderSafety
