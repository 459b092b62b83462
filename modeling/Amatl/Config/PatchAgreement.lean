import Amatl.Config.Patch

/-! A patch applied in memory and the same patch written to disk agree: the
written document reads as the patched configuration, except where the legacy
name of a field stands beside the new one. -/

namespace Amatl

open Toml

theorem SecurityProfile.read_asStr (v : SecurityProfile) :
    variant Node.isUnit SecurityProfile.names (.string v.asStr) = some v := by
  cases v <;> rfl

theorem EgressPolicy.read_asStr (v : EgressPolicy) :
    variant Node.isUnit EgressPolicy.names (.string v.asStr) = some v := by
  cases v <;> rfl

theorem InferenceMode.read_asStr (v : InferenceMode) :
    variant Node.isUnit InferenceMode.names (.string v.asStr) = some v := by
  cases v <;> rfl

section Edits

variable {t t' : Table}

theorem DataPolicyConfigPatch.edits_read {patch : DataPolicyConfigPatch} {c : DataPolicyConfig}
    (h : readFields (.map t) DataPolicyConfig.fields 0 .default = some c)
    (hw : write patch.edits t = .ok t') :
    readFields (.map t') DataPolicyConfig.fields 0 .default = some (patch.apply c) := by
  have w := write_written (by simp [DataPolicyConfigPatch.edits]) hw
  rw [DataPolicyConfig.lawful.readFields_eq_some] at h ⊢
  simp only [DataPolicyConfig.fields, List.forall_mem_cons] at h ⊢
  obtain ⟨profile, egress, inference, -⟩ := h
  exact ⟨w.set 0 SecurityProfile.read_asStr rfl profile,
    w.set 1 EgressPolicy.read_asStr rfl egress, w.set 2 InferenceMode.read_asStr rfl inference,
    List.forall_mem_nil _⟩

theorem AnswerConfigPatch.edits_read {patch : AnswerConfigPatch} {c : AnswerConfig}
    (h : readFields (.map t) AnswerConfig.fields 0 .default = some c)
    (hw : write patch.edits t = .ok t') :
    readFields (.map t') AnswerConfig.fields 0 .default = some (patch.apply c) := by
  have w := write_written (by simp [AnswerConfigPatch.edits]) hw
  rw [AnswerConfig.lawful.readFields_eq_some] at h ⊢
  simp only [AnswerConfig.fields, List.forall_mem_cons] at h ⊢
  obtain ⟨enabled, endpoint, model, credentialEnv, timeoutMs, maxSources, maxSourceChars,
    maxAnswerTokens, -⟩ := h
  exact ⟨w.kept (by simp [AnswerConfigPatch.edits]) enabled, w.setOrClear 0 rfl rfl endpoint,
    w.setOrClear 1 rfl rfl model, w.setOrClear 2 rfl rfl credentialEnv,
    w.setInteger 3 uint64_integer rfl timeoutMs, w.setInteger 4 uint64_integer rfl maxSources,
    w.setInteger 5 uint64_integer rfl maxSourceChars,
    w.setInteger 6 uint32_integer rfl maxAnswerTokens, List.forall_mem_nil _⟩

theorem PersistenceConfigPatch.edits_read {patch : PersistenceConfigPatch} {c : PersistenceConfig}
    (h : readFields (.map t) PersistenceConfig.fields 0 .default = some c)
    (hw : write patch.edits t = .ok t') :
    readFields (.map t') PersistenceConfig.fields 0 .default = some (patch.apply c) := by
  have w := write_written (by simp [PersistenceConfigPatch.edits]) hw
  rw [PersistenceConfig.lawful.readFields_eq_some] at h ⊢
  simp only [PersistenceConfig.fields, List.forall_mem_cons] at h ⊢
  obtain ⟨enabled, path, historyEnabled, savedDocumentMaxBytes, auditRetentionDays,
    historyRetentionDays, cacheRetentionDays, documentCacheRetentionDays, purgeIntervalSeconds,
    autoBackupEnabled, autoBackupIntervalSeconds, autoBackupMaxCount, backupDirectory,
    lockingMode, -⟩ := h
  exact ⟨w.kept (by simp [PersistenceConfigPatch.edits]) enabled,
    w.kept (by simp [PersistenceConfigPatch.edits]) path,
    w.set 0 (fun _ => rfl) rfl historyEnabled,
    w.setInteger 1 uint64_integer rfl savedDocumentMaxBytes,
    w.setInteger 2 uint32_integer rfl auditRetentionDays,
    w.setInteger 3 uint32_integer rfl historyRetentionDays,
    w.setInteger 4 uint32_integer rfl cacheRetentionDays,
    w.setInteger 5 uint32_integer rfl documentCacheRetentionDays,
    w.setInteger 6 uint64_integer rfl purgeIntervalSeconds,
    w.set 7 (fun _ => rfl) rfl autoBackupEnabled,
    w.setInteger 8 uint64_integer rfl autoBackupIntervalSeconds,
    w.setInteger 9 uint32_integer rfl autoBackupMaxCount, w.setOrClear 10 rfl rfl backupDirectory,
    w.kept (by simp [PersistenceConfigPatch.edits]) lockingMode, List.forall_mem_nil _⟩

theorem TelemetryConfigPatch.edits_read {patch : TelemetryConfigPatch} {c : TelemetryConfig}
    (h : readFields (.map t) TelemetryConfig.fields 0 .default = some c)
    (hw : write patch.edits t = .ok t') :
    readFields (.map t') TelemetryConfig.fields 0 .default = some (patch.apply c) := by
  have w := write_written (by simp [TelemetryConfigPatch.edits]) hw
  rw [TelemetryConfig.lawful.readFields_eq_some] at h ⊢
  simp only [TelemetryConfig.fields, List.forall_mem_cons] at h ⊢
  obtain ⟨persistenceEnabled, retentionDays, -⟩ := h
  exact ⟨w.set 0 (fun _ => rfl) rfl persistenceEnabled,
    w.setInteger 1 uint32_integer rfl retentionDays, List.forall_mem_nil _⟩

theorem DeepConfigPatch.edits_read {patch : DeepConfigPatch} {c : DeepConfig}
    (h : readFields (.map t) DeepConfig.fields 0 .default = some c)
    (hw : write patch.edits t = .ok t') :
    readFields (.map t') DeepConfig.fields 0 .default = some (patch.apply c) := by
  have w := write_written (by simp [DeepConfigPatch.edits]) hw
  rw [DeepConfig.lawful.readFields_eq_some] at h ⊢
  simp only [DeepConfig.fields, List.forall_mem_cons] at h ⊢
  obtain ⟨topK, maxFetches, maxBytes, maxRedirects, maxCrawlUrls, maxDepth, respectRobots,
    robotsTimeoutMs, robotsMaxBytes, timeoutMs, extractor, renderer, rankingV2, gaps, -⟩ := h
  exact ⟨w.setInteger 0 uint32_integer rfl topK, w.setInteger 1 uint32_integer rfl maxFetches,
    w.setInteger 2 uint64_integer rfl maxBytes, w.setInteger 3 uint32_integer rfl maxRedirects,
    w.setInteger 4 uint32_integer rfl maxCrawlUrls, w.setInteger 5 uint8_integer rfl maxDepth,
    w.set 6 (fun _ => rfl) rfl respectRobots, w.setInteger 7 uint64_integer rfl robotsTimeoutMs,
    w.setInteger 8 uint64_integer rfl robotsMaxBytes, w.setInteger 9 uint64_integer rfl timeoutMs,
    w.kept (by simp [DeepConfigPatch.edits]) extractor,
    w.kept (by simp [DeepConfigPatch.edits]) renderer,
    w.kept (by simp [DeepConfigPatch.edits]) rankingV2,
    w.kept (by simp [DeepConfigPatch.edits]) gaps, List.forall_mem_nil _⟩

theorem ExtractorConfigPatch.edits_read {patch : ExtractorConfigPatch} {c : ExtractorConfig}
    (h : readFields (.map t) ExtractorConfig.fields 0 .default = some c)
    (hw : write patch.edits t = .ok t') :
    readFields (.map t') ExtractorConfig.fields 0 .default = some (patch.apply c) := by
  have w := write_written (by simp [ExtractorConfigPatch.edits]) hw
  rw [ExtractorConfig.lawful.readFields_eq_some] at h ⊢
  simp only [ExtractorConfig.fields, List.forall_mem_cons] at h ⊢
  obtain ⟨executable, version, timeoutMs, maxOutputBytes, -⟩ := h
  exact ⟨w.set 0 (fun _ => rfl) rfl executable, w.set 1 (fun _ => rfl) rfl version,
    w.setInteger 2 uint64_integer rfl timeoutMs, w.setInteger 3 uint64_integer rfl maxOutputBytes,
    List.forall_mem_nil _⟩

theorem RendererConfigPatch.edits_read {patch : RendererConfigPatch} {c : RendererConfig}
    (h : readFields (.map t) RendererConfig.fields 0 .default = some c)
    (hw : write patch.edits t = .ok t') :
    readFields (.map t') RendererConfig.fields 0 .default = some (patch.apply c) := by
  have w := write_written (by simp [RendererConfigPatch.edits]) hw
  rw [RendererConfig.lawful.readFields_eq_some] at h ⊢
  simp only [RendererConfig.fields, List.forall_mem_cons] at h ⊢
  obtain ⟨enabled, maxBrowserCalls, timeoutMs, shutdownGraceMs, maxMemoryMb, maxRedirects,
    sandboxPath, maxDomBytes, -⟩ := h
  exact ⟨w.set 0 (fun _ => rfl) rfl enabled, w.setInteger 1 uint32_integer rfl maxBrowserCalls,
    w.setInteger 2 uint64_integer rfl timeoutMs,
    w.setInteger 3 uint64_integer rfl shutdownGraceMs,
    w.setInteger 4 uint64_integer rfl maxMemoryMb, w.setInteger 5 uint32_integer rfl maxRedirects,
    w.set 6 (fun _ => rfl) rfl sandboxPath, w.setInteger 7 uint64_integer rfl maxDomBytes,
    List.forall_mem_nil _⟩

theorem OpticsConfigPatch.edits_read {patch : OpticsConfigPatch} {c : OpticsConfig}
    (h : readFields (.map t) OpticsConfig.fields 0 .default = some c)
    (hw : write patch.edits t = .ok t') :
    readFields (.map t') OpticsConfig.fields 0 .default = some (patch.apply c) := by
  have w := write_written (by simp [OpticsConfigPatch.edits]) hw
  rw [OpticsConfig.lawful.readFields_eq_some] at h ⊢
  simp only [OpticsConfig.fields, List.forall_mem_cons] at h ⊢
  obtain ⟨enabled, path, -⟩ := h
  exact ⟨w.set 0 (fun _ => rfl) rfl enabled, w.setSome 1 (fun _ => rfl) rfl path,
    List.forall_mem_nil _⟩

theorem InferenceConfigPatch.edits_read {patch : InferenceConfigPatch} {c : InferenceConfig}
    (h : readFields (.map t) InferenceConfig.fields 0 .default = some c)
    (hw : write patch.edits t = .ok t') :
    readFields (.map t') InferenceConfig.fields 0 .default = some (patch.apply c) ↔
      ¬ (patch.localCacheCapacity.isSome ∧ (get? "local_model_batch" t).isSome) := by
  have w := write_written (by simp [InferenceConfigPatch.edits]) hw
  rw [InferenceConfig.lawful.readFields_eq_some] at h ⊢
  simp only [InferenceConfig.fields, List.forall_mem_cons] at h ⊢
  obtain ⟨backend, embeddingDimensions, maxDocuments, maxInputChars, rerankerPriorWeight,
    localModelPath, localCacheCapacity, localCachePath, remoteEndpoint, remoteModel,
    remoteCredentialEnv, remoteTimeoutMs, remoteMaxBatch, -⟩ := h
  have capacity := w.setInteger_aliased 6 rfl (by simp [InferenceConfigPatch.edits])
    uint64_integer rfl localCacheCapacity
  constructor
  · intro read
    exact capacity.1 read.2.2.2.2.2.2.1
  · intro clear
    exact ⟨w.set 0 (fun _ => rfl) rfl backend,
      w.setInteger 1 uint64_integer rfl embeddingDimensions,
      w.setInteger 2 uint64_integer rfl maxDocuments,
      w.setInteger 3 uint64_integer rfl maxInputChars,
      w.set 4 (fun _ => rfl) rfl rerankerPriorWeight, w.setOrClear 5 rfl rfl localModelPath,
      capacity.2 clear, w.setOrClear 7 rfl rfl localCachePath,
      w.setOrClear 8 rfl rfl remoteEndpoint, w.setOrClear 9 rfl rfl remoteModel,
      w.setOrClear 10 rfl rfl remoteCredentialEnv,
      w.setInteger 11 uint64_integer rfl remoteTimeoutMs,
      w.setInteger 12 uint64_integer rfl remoteMaxBatch, List.forall_mem_nil _⟩

theorem ServerConfigPatch.edits_read {patch : ServerConfigPatch} {c : ServerConfig}
    (h : readFields (.map t) ServerConfig.fields 0 .default = some c)
    (hw : write patch.edits t = .ok t') :
    readFields (.map t') ServerConfig.fields 0 .default
      = some { patch.apply c with tls := c.tls } := by
  have w := write_written (by simp [ServerConfigPatch.edits]) hw
  have port_law : ∀ v : UInt16, uint16 (.integer (Int64.ofNat v.toNat)) = some v := by
    intro v
    have small := v.toNat_lt
    exact uint16_integer (if_pos (by omega))
  rw [ServerConfig.lawful.readFields_eq_some] at h ⊢
  simp only [ServerConfig.fields, List.forall_mem_cons] at h ⊢
  obtain ⟨bind, port, tokenEnv, noAuth, clients, allowedHosts, allowedOrigins, maxBodyBytes,
    maxHeaderBytes, requestTimeoutMs, idleTimeoutMs, rateLimitPerMinute, maxConnections, tls,
    -⟩ := h
  exact ⟨w.set 0 (fun _ => rfl) rfl bind, w.set 1 port_law rfl port,
    w.set 2 (fun _ => rfl) rfl tokenEnv, w.set 3 (fun _ => rfl) rfl noAuth,
    w.kept (by simp [ServerConfigPatch.edits]) clients,
    w.set 4 list_text_strings rfl allowedHosts, w.set 5 list_text_strings rfl allowedOrigins,
    w.setInteger 6 uint64_integer rfl maxBodyBytes,
    w.setInteger 7 uint64_integer rfl maxHeaderBytes,
    w.setInteger 8 uint64_integer rfl requestTimeoutMs,
    w.setInteger 9 uint64_integer rfl idleTimeoutMs,
    w.setInteger 10 uint32_integer rfl rateLimitPerMinute,
    w.setInteger 11 uint64_integer rfl maxConnections,
    w.kept (by simp [ServerConfigPatch.edits]) tls, List.forall_mem_nil _⟩

theorem ServerConfigPatch.tlsEdits_read {patch : ServerConfigPatch} {c : TlsConfig}
    (h : readFields (.map t) TlsConfig.fields 0 .default = some c)
    (hw : write patch.tlsEdits t = .ok t') :
    readFields (.map t') TlsConfig.fields 0 .default = some (patch.applyTls c) := by
  have w := write_written (by simp [ServerConfigPatch.tlsEdits]) hw
  rw [TlsConfig.lawful.readFields_eq_some] at h ⊢
  simp only [TlsConfig.fields, List.forall_mem_cons] at h ⊢
  obtain ⟨certPath, keyPath, -⟩ := h
  exact ⟨w.setOrClear 0 rfl rfl certPath, w.setOrClear 1 rfl rfl keyPath, List.forall_mem_nil _⟩

end Edits

section Sections

variable {doc doc' : Table} {c : Config}

theorem setInferenceFields_agrees {patch : InferenceConfigPatch}
    (loads : Config.fromToml doc = some c) (written : setInferenceFields patch doc = .ok doc') :
    ∃ t, SectionAt doc "inference" t ∧
      (Config.fromToml doc' = some { c with inference := patch.apply c.inference } ↔
        ¬ (patch.localCacheCapacity.isSome ∧ (get? "local_model_batch" t).isSome)) := by
  obtain ⟨t, t', sec, ht, hr, lift⟩ :=
    tableAt_record 2 Config.lawful InferenceConfig.lawful rfl rfl loads written
  exact ⟨t, sec, (lift _).trans (InferenceConfigPatch.edits_read hr ht)⟩

theorem setServerFields_agrees {patch : ServerConfigPatch}
    (loads : Config.fromToml doc = some c) (written : setServerFields patch doc = .ok doc') :
    Config.fromToml doc' = some { c with server := patch.apply c.server } := by
  obtain ⟨middle, hm, written⟩ := bind_eq_ok.1 written
  obtain ⟨t, t', -, ht, hr, lift⟩ :=
    tableAt_record 18 Config.lawful ServerConfig.lawful rfl rfl loads hm
  have plain : Config.fromToml middle
      = some { c with server := { patch.apply c.server with tls := c.server.tls } } :=
    (lift _).2 (ServerConfigPatch.edits_read hr ht)
  split at written
  · obtain ⟨s, s', -, hs, hr, lift⟩ :=
      tableAt_record 18 Config.lawful ServerConfig.lawful rfl rfl plain written
    obtain ⟨u, u', -, hu, hr, liftTls⟩ :=
      tableAt_record 13 ServerConfig.lawful TlsConfig.lawful rfl rfl hr hs
    exact (lift _).2 ((liftTls _).2 (ServerConfigPatch.tlsEdits_read hr hu))
  · rename_i unset
    cases written
    simp only [Bool.or_eq_true, not_or, Option.not_isSome_iff_eq_none] at unset
    have same : patch.applyTls c.server.tls = c.server.tls := by
      simp [ServerConfigPatch.applyTls, unset.1, unset.2]
    simp only [plain, ServerConfigPatch.apply, same]

/-- The written key would stand beside the legacy name of the same field. -/
def SectionPatch.aliasClash (patch : SectionPatch) (doc : Table) : Bool :=
  match patch, get? "inference" doc with
  | .inference patch, some (.table t) =>
    patch.localCacheCapacity.isSome && (get? "local_model_batch" t).isSome
  | _, _ => false

/-- On every document that loads, a written patch reads back as the patch applied
in memory, but for the one field whose legacy name is already in the document. -/
theorem SectionPatch.write_agrees_iff (patch : SectionPatch)
    (loads : Config.fromToml doc = some c) (written : patch.write doc = .ok doc') :
    Config.fromToml doc' = some (patch.apply c) ↔ patch.aliasClash doc = false := by
  cases patch with
  | inference patch =>
    obtain ⟨t, sec, agrees⟩ := setInferenceFields_agrees loads written
    refine agrees.trans ?_
    rcases sec with ⟨hg, rfl⟩ | hg <;> simp [aliasClash, hg, get?]
  | server patch => exact iff_of_true (setServerFields_agrees loads written) rfl
  | dataPolicy patch =>
    obtain ⟨t, t', -, ht, hr, lift⟩ :=
      tableAt_record 1 Config.lawful DataPolicyConfig.lawful rfl rfl loads written
    exact iff_of_true ((lift _).2 (DataPolicyConfigPatch.edits_read hr ht)) rfl
  | answer patch =>
    obtain ⟨t, t', -, ht, hr, lift⟩ :=
      tableAt_record 3 Config.lawful AnswerConfig.lawful rfl rfl loads written
    exact iff_of_true ((lift _).2 (AnswerConfigPatch.edits_read hr ht)) rfl
  | persistence patch =>
    obtain ⟨t, t', -, ht, hr, lift⟩ :=
      tableAt_record 13 Config.lawful PersistenceConfig.lawful rfl rfl loads written
    exact iff_of_true ((lift _).2 (PersistenceConfigPatch.edits_read hr ht)) rfl
  | telemetry patch =>
    obtain ⟨t, t', -, ht, hr, lift⟩ :=
      tableAt_record 16 Config.lawful TelemetryConfig.lawful rfl rfl loads written
    exact iff_of_true ((lift _).2 (TelemetryConfigPatch.edits_read hr ht)) rfl
  | deep patch =>
    obtain ⟨t, t', -, ht, hr, lift⟩ :=
      tableAt_record 17 Config.lawful DeepConfig.lawful rfl rfl loads written
    exact iff_of_true ((lift _).2 (DeepConfigPatch.edits_read hr ht)) rfl
  | extractor patch =>
    obtain ⟨t, t', -, ht, hr, lift⟩ :=
      tableAt_record 17 Config.lawful DeepConfig.lawful rfl rfl loads written
    obtain ⟨u, u', -, hu, hr, inner⟩ :=
      tableAt_record 10 DeepConfig.lawful ExtractorConfig.lawful rfl rfl hr ht
    exact iff_of_true ((lift _).2 ((inner _).2 (ExtractorConfigPatch.edits_read hr hu))) rfl
  | renderer patch =>
    obtain ⟨t, t', -, ht, hr, lift⟩ :=
      tableAt_record 17 Config.lawful DeepConfig.lawful rfl rfl loads written
    obtain ⟨u, u', -, hu, hr, inner⟩ :=
      tableAt_record 11 DeepConfig.lawful RendererConfig.lawful rfl rfl hr ht
    exact iff_of_true ((lift _).2 ((inner _).2 (RendererConfigPatch.edits_read hr hu))) rfl
  | optics patch =>
    obtain ⟨t, t', -, ht, hr, lift⟩ :=
      tableAt_record 9 Config.lawful RankingConfig.lawful rfl rfl loads written
    obtain ⟨u, u', -, hu, hr, inner⟩ :=
      tableAt_record 0 RankingConfig.lawful OpticsConfig.lawful rfl rfl hr ht
    exact iff_of_true ((lift _).2 ((inner _).2 (OpticsConfigPatch.edits_read hr hu))) rfl

/-- The writer of a patch that validates leaves the file reading as the patch
applied in memory exactly when it does not write beside the legacy name. -/
theorem sectionPatch_written_iff_applied {Url : Type} [UrlCrate Url] [TimeCrate] [HttpCrate]
    (patch : SectionPatch) (loads : Config.fromToml doc = some c) :
    (patch.apply c).validate Url = .ok () → ∀ doc', patch.write doc = .ok doc' →
      (Config.fromToml doc' = some (patch.apply c) ↔ patch.aliasClash doc = false) :=
  fun _ _ written => patch.write_agrees_iff loads written

end Sections

/-- A file from before the capacity was renamed. -/
def legacyDoc : Table := [("inference", .table [("local_model_batch", .integer 8)])]

def legacyConfig : Config :=
  { Config.default with inference := { InferenceConfig.default with localCacheCapacity := 8 } }

def capacityPatch : SectionPatch := .inference { localCacheCapacity := some 16 }

theorem sectionPatch_plain_file_agrees :
    Config.fromToml [("inference", .table [("local_cache_capacity", .integer 16)])]
      = some (capacityPatch.apply .default) :=
  letI := noDates
  letI := plainHeaders
  (@sectionPatch_written_iff_applied [] _ PlainUrl _ _ _ capacityPatch rfl
    (by decide +kernel) _ rfl).2 rfl

theorem sectionPatch_legacy_file_unreadable :
    ¬ ∀ (patch : SectionPatch) (doc doc' : Table) (c : Config), Config.fromToml doc = some c →
      @Config.validate PlainUrl _ noDates plainHeaders (patch.apply c) = .ok () →
      patch.write doc = .ok doc' → Config.fromToml doc' = some (patch.apply c) := by
  intro agrees
  have read := agrees capacityPatch legacyDoc _ legacyConfig rfl (by decide +kernel) rfl
  exact absurd read (by decide +kernel)

end Amatl
