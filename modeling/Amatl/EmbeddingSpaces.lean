import Amatl.CachedEmbedding

/-! When a cache of embeddings cannot be told from its backend. The keys name the backend and its
width, but neither the model file nor the bound on the input, so the vectors stay right as long as
these do not change behind a name. -/

namespace Amatl

/-! A key tells the name and, but for collisions of the digest, the text. -/

theorem digitChar_inj {a b : Nat} (ha : a < 16) (hb : b < 16)
    (h : Nat.digitChar a = Nat.digitChar b) : a = b := by
  have all : ∀ a < 16, ∀ b < 16, Nat.digitChar a = Nat.digitChar b → a = b := by decide
  exact all a ha b hb h

theorem byte_inj {a b : UInt8} (high : Nat.digitChar (a.toNat / 16) = Nat.digitChar (b.toNat / 16))
    (low : Nat.digitChar (a.toNat % 16) = Nat.digitChar (b.toNat % 16)) : a = b := by
  have small := a.toNat_lt
  have small' := b.toNat_lt
  have first := digitChar_inj (by omega) (by omega) high
  have second := digitChar_inj (by omega) (by omega) low
  exact UInt8.toNat_inj.mp (by omega)

section

variable [Sha256]

theorem hexDigest_length (value : String) : (hexDigest value).toList.length = 64 := by
  have bytes : ∀ l : List UInt8, (l.flatMap (fun byte =>
      [Nat.digitChar (byte.toNat / 16), Nat.digitChar (byte.toNat % 16)])).length =
        2 * l.length := by
    intro l
    induction l with
    | nil => rfl
    | cons byte l ih =>
      rw [List.flatMap_cons, List.length_append, ih, List.length_cons]
      simp only [List.length_cons, List.length_nil]
      omega
  rw [hexDigest, String.toList_ofList, bytes, Vector.length_toList]

theorem digest_of_hexDigest {a b : String} (h : hexDigest a = hexDigest b) :
    Sha256.digest a = Sha256.digest b := by
  have bytes : ∀ l l' : List UInt8, l.flatMap (fun byte =>
      [Nat.digitChar (byte.toNat / 16), Nat.digitChar (byte.toNat % 16)]) =
        l'.flatMap (fun byte =>
          [Nat.digitChar (byte.toNat / 16), Nat.digitChar (byte.toNat % 16)]) → l = l' := by
    intro l
    induction l with
    | nil =>
      intro l' same
      cases l' with
      | nil => rfl
      | cons byte l' => cases same
    | cons byte l ih =>
      intro l' same
      cases l' with
      | nil => cases same
      | cons byte' l' =>
        simp only [List.flatMap_cons, List.cons_append, List.nil_append, List.cons.injEq] at same
        rw [byte_inj same.1 same.2.1, ih l' same.2.2]
  have digits := congrArg String.toList h
  rw [hexDigest, hexDigest, String.toList_ofList, String.toList_ofList] at digits
  exact Vector.toList_inj.mp (bytes _ _ digits)

theorem keyFor_inj {name name' text text' : String}
    (h : EmbeddingCache.keyFor name text = EmbeddingCache.keyFor name' text') :
    name = name' ∧ Sha256.digest text = Sha256.digest text' := by
  have chars := congrArg String.toList h
  unfold EmbeddingCache.keyFor at chars
  simp only [String.toList_append] at chars
  have length : (hexDigest text).toList.length = (hexDigest text').toList.length := by
    rw [hexDigest_length, hexDigest_length]
  obtain ⟨front, digits⟩ := List.append_inj' chars length
  obtain ⟨names, -⟩ := List.append_inj' front rfl
  exact ⟨String.toList_inj.mp names, digest_of_hexDigest (String.toList_inj.mp digits)⟩

/-! Entries that are right: for every text of a run that has their key, they hold the vector that
the name of the key stands for. -/

variable {texts : String → Prop} {space : String → String → List F64}

def RightFor (texts : String → Prop) (space : String → String → List F64) (key : String)
    (vector : List F64) : Prop :=
  ∀ name text, texts text → EmbeddingCache.keyFor name text = key → vector = space name text

def FileRight (texts : String → Prop) (space : String → String → List F64) (file : CacheFile) :
    Prop :=
  ∀ e ∈ file.readEntries, RightFor texts space e.1 e.2

def CacheRight (texts : String → Prop) (space : String → String → List F64)
    (cache : EmbeddingCache) : Prop :=
  ∀ key vector, OrdMap.get? key cache.entries = some vector → RightFor texts space key vector

omit [Sha256] in
theorem get?_of_evict {capacity : Nat} {order : List String} {entries : List (String × List F64)}
    {key : String} {vector : List F64}
    (h : OrdMap.get? key (EmbeddingCache.evict capacity order entries).2 = some vector) :
    OrdMap.get? key entries = some vector := by
  induction order generalizing entries with
  | nil => exact h
  | cons oldest order ih =>
    rw [EmbeddingCache.evict] at h
    by_cases full : capacity < order.length + 1
    · rw [if_pos full] at h
      have before := ih h
      rw [OrdMap.get?_erase] at before
      by_cases gone : key = oldest
      · rw [if_pos gone] at before
        cases before
      · rwa [if_neg gone] at before
    · rwa [if_neg full] at h

theorem cacheRight_load (path : String) {file : CacheFile} (name : String) (capacity : Nat)
    (right : FileRight texts space file) :
    CacheRight texts space (.load path file name capacity) := by
  intro key vector found
  exact right _ (OrdMap.mem_of_get?_ofList (get?_of_evict found))

theorem get_entries (cache : EmbeddingCache) (text : String) :
    (cache.get text).2.entries = cache.entries ∧ (cache.get text).2.path = cache.path ∧
      (cache.get text).2.cacheNamespace = cache.cacheNamespace := by
  unfold EmbeddingCache.get
  simp only
  split <;> exact ⟨rfl, rfl, rfl⟩

theorem get_right {cache : EmbeddingCache} (right : CacheRight texts space cache) {text : String}
    (inside : texts text) :
    (cache.get text).1 = none ∨ (cache.get text).1 = some (space cache.cacheNamespace text) := by
  unfold EmbeddingCache.get
  cases found : OrdMap.get? (EmbeddingCache.keyFor cache.cacheNamespace text) cache.entries with
  | none =>
    simp only [found]
    exact .inl trivial
  | some vector =>
    simp only [found]
    exact .inr (congrArg some (right _ _ found cache.cacheNamespace text inside rfl))

theorem insert_right {cache : EmbeddingCache} (right : CacheRight texts space cache)
    (apart : ∀ a b, texts a → texts b → Sha256.digest a = Sha256.digest b → a = b) {text : String}
    (inside : texts text) :
    CacheRight texts space (cache.insert text (space cache.cacheNamespace text)) := by
  intro key vector found
  have before := get?_of_evict found
  rw [OrdMap.get?_insert] at before
  by_cases here : key = EmbeddingCache.keyFor cache.cacheNamespace text
  · rw [if_pos here] at before
    obtain rfl := Option.some.inj before
    intro name other mem same
    obtain ⟨rfl, digest⟩ := keyFor_inj (same.trans here)
    rw [apart other text mem inside digest]
  · rw [if_neg here] at before
    exact right key vector before

omit [Sha256] in
theorem readVector_map {vector read : List F64}
    (h : readVector (vector.map jsonNumber) = some read) : read = vector := by
  apply Traverse.eq_of_mapM_written h
  intro x first here
  cases x with
  | finite value => exact (Option.some.inj here).symm
  | infinity negative => cases here
  | nan => cases here

omit [Sha256] in
theorem mem_of_readEntries_saved {cache : EmbeddingCache} {e : String × List F64}
    (mem : e ∈ cache.saved.readEntries) : OrdMap.get? e.1 cache.entries = some e.2 := by
  have saved : e ∈ cache.savedEntries := by
    unfold EmbeddingCache.saved at mem
    cases all : (cache.savedEntries.map (fun e => (e.1, e.2.map jsonNumber))).mapM (fun e =>
        (readVector e.2).map (fun vector => (e.1, vector))) with
    | none =>
      simp only [CacheFile.readEntries, all] at mem
      cases mem
    | some es =>
      have same : es = cache.savedEntries := by
        apply Traverse.eq_of_mapM_written all
        intro a b here
        obtain ⟨vector, readable, rfl⟩ := Option.map_eq_some_iff.mp here
        rw [readVector_map readable]
      simp only [CacheFile.readEntries, all, if_true] at mem
      rwa [same] at mem
  obtain ⟨key, -, found⟩ := List.mem_filterMap.mp saved
  obtain ⟨vector, there, rfl⟩ := Option.map_eq_some_iff.mp found
  exact there

theorem fileRight_saved {cache : EmbeddingCache} (right : CacheRight texts space cache) :
    FileRight texts space cache.saved :=
  fun _ mem => right _ _ (mem_of_readEntries_saved mem)

/-! One call of the backend with its cache. -/

def FoundAs (vectorOf : String → List F64) (input : String) (found : Option (List F64)) : Prop :=
  found = none ∨ found = some (vectorOf input)

theorem lookUpAll_spec {cache : EmbeddingCache} (right : CacheRight texts space cache)
    {inputs : List String} (inside : ∀ input ∈ inputs, texts input) :
    List.Forall₂ (FoundAs (space cache.cacheNamespace)) inputs (lookUpAll inputs cache).1 ∧
      (lookUpAll inputs cache).2.entries = cache.entries ∧
      (lookUpAll inputs cache).2.path = cache.path ∧
      (lookUpAll inputs cache).2.cacheNamespace = cache.cacheNamespace := by
  induction inputs generalizing cache with
  | nil => exact ⟨.nil, rfl, rfl, rfl⟩
  | cons input inputs ih =>
    obtain ⟨entries, path, name⟩ := get_entries cache input
    have first := get_right right (inside input List.mem_cons_self)
    have after : CacheRight texts space (cache.get input).2 := by
      intro key vector found
      rw [entries] at found
      exact right key vector found
    obtain ⟨others, entries', path', name'⟩ := ih after (fun other mem =>
      inside other (List.mem_cons_of_mem input mem))
    rw [name] at others
    exact ⟨.cons first others, entries'.trans entries, path'.trans path, name'.trans name⟩

omit [Sha256] in
theorem fillIn_nil (found : List (Option (List F64))) : fillIn found [] = found := by
  induction found with
  | nil => rfl
  | cons first found ih =>
    cases first with
    | none => rw [fillIn, ih]
    | some vector => rw [fillIn, ih]

omit [Sha256] in
theorem fillIn_missing {vectorOf : String → List F64} {inputs : List String}
    {found : List (Option (List F64))} (h : List.Forall₂ (FoundAs vectorOf) inputs found) :
    fillIn found ((missingInputs inputs found).map vectorOf) =
      (inputs.map vectorOf).map some := by
  induction h with
  | nil => rfl
  | @cons input first inputs found here others ih =>
    unfold missingInputs at ih ⊢
    rcases here with rfl | rfl
    · simp only [List.zip_cons_cons, List.filter_cons, Option.isNone_none, if_true, List.map_cons,
        fillIn, ih]
    · simp only [List.zip_cons_cons, List.filter_cons, Option.isNone_some, Bool.false_eq_true,
        if_false, List.map_cons, fillIn, ih]

omit [Sha256] in
theorem collectVectors_some (vectors : List (List F64)) :
    collectVectors (vectors.map some) = .ok vectors := by
  have all : (vectors.map some).mapM id = some vectors := Traverse.mapM_written (fun _ _ => rfl)
  rw [collectVectors, all]

omit [Sha256] in
theorem mem_missingInputs {inputs : List String} {found : List (Option (List F64))}
    {input : String} (mem : input ∈ missingInputs inputs found) : input ∈ inputs := by
  obtain ⟨e, here, rfl⟩ := List.mem_map.mp mem
  exact (List.of_mem_zip (List.mem_filter.mp here).1).1

theorem insertAll_right {cache : EmbeddingCache} (right : CacheRight texts space cache)
    (apart : ∀ a b, texts a → texts b → Sha256.digest a = Sha256.digest b → a = b)
    {inputs : List String} (inside : ∀ input ∈ inputs, texts input) :
    CacheRight texts space ((inputs.zip (inputs.map (space cache.cacheNamespace))).foldl
        (fun cache e => cache.insert e.1 e.2) cache) ∧
      ((inputs.zip (inputs.map (space cache.cacheNamespace))).foldl
        (fun cache e => cache.insert e.1 e.2) cache).path = cache.path ∧
      ((inputs.zip (inputs.map (space cache.cacheNamespace))).foldl
        (fun cache e => cache.insert e.1 e.2) cache).cacheNamespace = cache.cacheNamespace := by
  induction inputs generalizing cache with
  | nil => exact ⟨right, rfl, rfl⟩
  | cons input inputs ih =>
    have after := insert_right right apart (inside input List.mem_cons_self)
    exact ih after (fun other mem => inside other (List.mem_cons_of_mem input mem))

/-- A backend with a right cache returns what it returns without one, and the cache stays right. -/
theorem embedCached_spec {cache : EmbeddingCache} (right : CacheRight texts space cache)
    (apart : ∀ a b, texts a → texts b → Sha256.digest a = Sha256.digest b → a = b)
    {vectorOf : String → List F64}
    (agree : ∀ text, texts text → vectorOf text = space cache.cacheNamespace text)
    {inputs : List String} (inside : ∀ input ∈ inputs, texts input) :
    (embedCached (fun inputs => .ok (inputs.map vectorOf)) cache inputs).1 =
        .ok (inputs.map vectorOf) ∧
      CacheRight texts space
        (embedCached (fun inputs => .ok (inputs.map vectorOf)) cache inputs).2 ∧
      (embedCached (fun inputs => .ok (inputs.map vectorOf)) cache inputs).2.path = cache.path ∧
      (embedCached (fun inputs => .ok (inputs.map vectorOf)) cache inputs).2.cacheNamespace =
        cache.cacheNamespace := by
  obtain ⟨looked, entries, path, name⟩ := lookUpAll_spec right inside
  have after : CacheRight texts space (lookUpAll inputs cache).2 := by
    intro key vector found
    rw [entries] at found
    exact right key vector found
  have same : ∀ l : List String, (∀ text ∈ l, texts text) →
      l.map vectorOf = l.map (space cache.cacheNamespace) :=
    fun l all => List.map_congr_left (fun text mem => agree text (all text mem))
  have missing : ∀ text ∈ missingInputs inputs (lookUpAll inputs cache).1, texts text :=
    fun text mem => inside text (mem_missingInputs mem)
  have filled := fillIn_missing looked
  unfold embedCached
  simp only
  by_cases empty : (missingInputs inputs (lookUpAll inputs cache).1).isEmpty
  · rw [if_pos empty]
    rw [List.isEmpty_iff.mp empty, List.map_nil, fillIn_nil] at filled
    refine ⟨?_, after, path, name⟩
    rw [filled, collectVectors_some, same inputs inside]
  · rw [if_neg empty, if_neg (by simp)]
    have stored := insertAll_right after apart missing
    rw [name, ← same _ missing] at stored
    refine ⟨?_, stored.1, stored.2.1.trans path, stored.2.2⟩
    rw [same _ missing, filled, collectVectors_some, same inputs inside]

/-! The host over a run. Each cache file and each name in it stand for one embedding. -/

section

variable [UnicodeTables] [EmbeddingArithmetic] {R : Type} [RemoteEmbeddings R]
  {texts : String → Prop} {spaces : String → String → String → List F64}

/-- The backend embeds as its name does, and so does its cache. -/
def BackendRight (texts : String → Prop) (spaces : String → String → String → List F64) :
    EmbeddingBackend R → Prop
  | .plain _ => True
  | .cached inner cache => cache.cacheNamespace = inner.spaceName ∧
      (∀ text, texts text → inner.vectorOf text = spaces cache.path inner.spaceName text) ∧
      CacheRight texts (spaces cache.path) cache
  | .remote _ => True

structure HostRight (texts : String → Prop) (spaces : String → String → String → List F64)
    (h : EmbeddingHost R) : Prop where
  files : ∀ path, FileRight texts (spaces path) (h.caches path)
  live : ∀ backend ∈ h.live, BackendRight texts spaces backend

/-- A new backend embeds as the earlier ones of its name and cache file did, and only the texts of
the run are embedded. -/
def KeepsSpaces (texts : String → Prop) (spaces : String → String → String → List F64)
    (h : EmbeddingHost R) : HostEvent → Prop
  | .configure policy config => ∀ inner cache,
      backendFromPolicy (R := R) h.models h.caches policy config =
          .ok (some (.cached inner cache)) →
        ∀ text, texts text → inner.vectorOf text = spaces cache.path inner.spaceName text
  | .embed _ inputs => ∀ input ∈ inputs, texts input
  | .release _ _ => True
  | .kill => True
  | .replaceModel _ _ => True

def RunKeepsSpaces (texts : String → Prop) (spaces : String → String → String → List F64) :
    EmbeddingHost R → List HostEvent → Prop
  | _, [] => True
  | h, event :: events => KeepsSpaces texts spaces h event ∧
      RunKeepsSpaces texts spaces (h.step event).1 events

omit [Sha256] [UnicodeTables] in
theorem cached_of_backendFromPolicy {models : String → Option String} {caches : String → CacheFile}
    {policy : DataPolicyConfig} {config : InferenceConfig} {inner : LocalEmbedder}
    {cache : EmbeddingCache} (h : backendFromPolicy (R := R) models caches policy config =
      .ok (some (.cached inner cache))) : ∃ path capacity,
        cache = .load path (caches path) inner.spaceName capacity := by
  have ofLocal : localBackend (R := R) models caches config = .ok (.cached inner cache) →
      ∃ path capacity, cache = .load path (caches path) inner.spaceName capacity := by
    intro built
    unfold localBackend at built
    split_ifs at built
    cases embedder : localEmbedder models config with
    | error error =>
      rw [embedder] at built
      cases built
    | ok found =>
      rw [embedder] at built
      cases file : config.localCachePath with
      | none =>
        rw [file] at built
        cases built
      | some path =>
        rw [file] at built
        cases built
        exact ⟨path, _, rfl⟩
  unfold backendFromPolicy at h
  cases mode : policy.inference with
  | disabled =>
    rw [mode] at h
    cases h
  | localOnly =>
    rw [mode] at h
    cases built : localBackend (R := R) models caches config with
    | error error =>
      simp only [built] at h
      cases h
    | ok backend =>
      simp only [built] at h
      cases h
      exact ofLocal built
  | remoteExplicit =>
    rw [mode] at h
    simp only at h
    split_ifs at h
    cases built : RemoteEmbeddings.build (R := R) config with
    | error error =>
      rw [built] at h
      cases h
    | ok backend =>
      rw [built] at h
      cases h

theorem embed_spec (apart : ∀ a b, texts a → texts b → Sha256.digest a = Sha256.digest b → a = b)
    {backend : EmbeddingBackend R} (right : BackendRight texts spaces backend)
    {inputs : List String} (inside : ∀ input ∈ inputs, texts input) :
    (backend.embed inputs).1 = backend.innerEmbed inputs ∧
      BackendRight texts spaces (backend.embed inputs).2 := by
  cases backend with
  | plain inner => exact ⟨rfl, trivial⟩
  | remote backend => exact ⟨rfl, trivial⟩
  | cached inner cache =>
    obtain ⟨name, agree, cacheRight⟩ := right
    have same : ∀ text, texts text →
        inner.vectorOf text = spaces cache.path cache.cacheNamespace text := by
      rw [name]
      exact agree
    obtain ⟨result, after, path, name'⟩ := embedCached_spec cacheRight apart same inside
    refine ⟨result, name'.trans name, ?_, ?_⟩
    · intro text mem
      rw [agree text mem]
      exact congrArg (fun p => spaces p inner.spaceName text) path.symm
    · have place : (embedCached inner.embed cache inputs).2.path = cache.path := path
      show CacheRight texts (spaces (embedCached inner.embed cache inputs).2.path) _
      rw [place]
      exact after

/-- Each event keeps the files and the backends right. -/
theorem step_right (apart : ∀ a b, texts a → texts b → Sha256.digest a = Sha256.digest b → a = b)
    {h : EmbeddingHost R} (right : HostRight texts spaces h) {event : HostEvent}
    (keeps : KeepsSpaces texts spaces h event) : HostRight texts spaces (h.step event).1 := by
  cases event with
  | configure policy config =>
    unfold EmbeddingHost.step
    cases built : backendFromPolicy (R := R) h.models h.caches policy config with
    | error error => simpa only [built] using right
    | ok found =>
      cases found with
      | none => simpa only [built] using right
      | some backend =>
        simp only [built]
        refine ⟨right.files, fun other mem => ?_⟩
        rcases List.mem_append.mp mem with old | new
        · exact right.live other old
        · rw [List.mem_singleton.mp new]
          cases backend with
          | plain inner => trivial
          | remote backend => trivial
          | cached inner cache =>
            obtain ⟨path, capacity, rfl⟩ := cached_of_backendFromPolicy built
            exact ⟨rfl, keeps inner _ built, cacheRight_load path _ capacity (right.files path)⟩
  | embed index inputs =>
    unfold EmbeddingHost.step
    cases here : h.live[index]? with
    | none => simpa only [here] using right
    | some backend =>
      simp only [here]
      refine ⟨right.files, fun other mem => ?_⟩
      rcases List.mem_or_eq_of_mem_set mem with old | rfl
      · exact right.live other old
      · exact (embed_spec apart (right.live backend (List.mem_of_getElem? here)) keeps).2
  | release index isWritten =>
    unfold EmbeddingHost.step
    cases here : h.live[index]? with
    | none => simpa only [here] using right
    | some backend =>
      simp only [here]
      refine ⟨fun path => ?_, fun other mem => right.live other (List.mem_of_mem_eraseIdx mem)⟩
      have rightBackend := right.live backend (List.mem_of_getElem? here)
      cases backend with
      | plain inner => exact right.files path
      | remote backend => exact right.files path
      | cached inner cache =>
        cases isWritten with
        | false => exact right.files path
        | true =>
          by_cases same : path = cache.path
          · rw [same]
            simpa only [EmbeddingBackend.saveTo, if_true, Function.update_self] using
              fileRight_saved rightBackend.2.2
          · simpa only [EmbeddingBackend.saveTo, if_true, Function.update_of_ne same] using
              right.files path
  | kill => exact ⟨right.files, fun backend mem => absurd mem List.not_mem_nil⟩
  | replaceModel path file => exact ⟨right.files, right.live⟩

theorem run_right (apart : ∀ a b, texts a → texts b → Sha256.digest a = Sha256.digest b → a = b)
    {h : EmbeddingHost R} (right : HostRight texts spaces h) {events : List HostEvent}
    (keeps : RunKeepsSpaces texts spaces h events) : HostRight texts spaces (h.run events) := by
  induction events generalizing h with
  | nil => exact right
  | cons event events ih => exact ih (step_right apart right keeps.1) keeps.2

/-- In a run that keeps the spaces, from files that are right, every backend in use returns what it
would return without a cache. -/
theorem embed_transparent
    (apart : ∀ a b, texts a → texts b → Sha256.digest a = Sha256.digest b → a = b)
    {models : String → Option String} {caches : String → CacheFile}
    (files : ∀ path, FileRight texts (spaces path) (caches path)) {events : List HostEvent}
    (keeps : RunKeepsSpaces (R := R) texts spaces ⟨models, caches, []⟩ events)
    (index : Nat) (backend : EmbeddingBackend R)
    (live : (EmbeddingHost.run ⟨models, caches, []⟩ events).live[index]? = some backend)
    (inputs : List String) (inside : ∀ input ∈ inputs, texts input) :
    ((EmbeddingHost.run (R := R) ⟨models, caches, []⟩ events).step (.embed index inputs)).2 =
      some (backend.innerEmbed inputs) := by
  have start : HostRight (R := R) texts spaces ⟨models, caches, []⟩ :=
    ⟨files, fun backend mem => absurd mem List.not_mem_nil⟩
  have right := run_right apart start keeps
  have result := (embed_spec apart (right.live backend (List.mem_of_getElem? live)) inside).1
  unfold EmbeddingHost.step
  simp only [live, result]

/-- The spaces are kept whatever the cache files hold, and the model files stay. -/
def KeepsSpacesAlways (texts : String → Prop) (spaces : String → String → String → List F64)
    (models : String → Option String) : HostEvent → Prop
  | .configure policy config => ∀ caches inner cache,
      backendFromPolicy (R := R) models caches policy config = .ok (some (.cached inner cache)) →
        ∀ text, texts text → inner.vectorOf text = spaces cache.path inner.spaceName text
  | .embed _ inputs => ∀ input ∈ inputs, texts input
  | .release _ _ => True
  | .kill => True
  | .replaceModel _ _ => False

theorem runKeepsSpaces_of_always {h : EmbeddingHost R} {events : List HostEvent}
    (always : ∀ event ∈ events, KeepsSpacesAlways (R := R) texts spaces h.models event) :
    RunKeepsSpaces texts spaces h events := by
  induction events generalizing h with
  | nil => trivial
  | cons event events ih =>
    obtain ⟨first, others⟩ := List.forall_mem_cons.mp always
    have kept : KeepsSpaces texts spaces h event ∧ (h.step event).1.models = h.models := by
      cases event with
      | configure policy config =>
        refine ⟨fun inner cache found => first h.caches inner cache found, ?_⟩
        rw [EmbeddingHost.step]
        split
        · rfl
        · rfl
        · rfl
      | embed index inputs =>
        refine ⟨first, ?_⟩
        rw [EmbeddingHost.step]
        split
        · rfl
        · rfl
      | release index isWritten =>
        refine ⟨trivial, ?_⟩
        rw [EmbeddingHost.step]
        split
        · rfl
        · rfl
      | kill => exact ⟨trivial, rfl⟩
      | replaceModel path file => exact first.elim
    refine ⟨kept.1, ih (fun event mem => ?_)⟩
    rw [kept.2]
    exact others event mem

end

end

/-- Numbers in a model file that are zero or one, and a model where one word is known. -/
@[reducible] def unitArithmetic : EmbeddingArithmetic where
  parseFloat text := if text = ['0'] then some (.finite 0) else
    if text = ['1'] then some (.finite 1) else none
  hashed dimensions _ := List.replicate dimensions (.finite 0)
  summed dimensions known :=
    match known with
    | [(vector, 1)] => vector
    | _ => List.replicate dimensions (.finite 0)

@[reducible] def noRemote : RemoteEmbeddings Unit where
  build _ := .error .remoteBackendUnavailable
  embed _ _ := .error .remoteRequestFailed

def localPolicy : DataPolicyConfig := { DataPolicyConfig.default with inference := .localOnly }

def modelText (n : Nat) : String :=
  "rust" ++ String.join ((List.range 32).map (fun i => if i = n then " 1" else " 0"))

def unitVector (n : Nat) : List F64 :=
  (List.range 32).map (fun i => if i = n then .finite 1 else .finite 0)

def modelConfig : InferenceConfig :=
  { InferenceConfig.default with
    backend := localModelBackendId
    embeddingDimensions := 32
    localModelPath := some "/model.txt"
    localCachePath := some "/cache.json" }

def secondConfig : InferenceConfig :=
  { modelConfig with
    localModelPath := some "/second.txt"
    localCachePath := some "/second.json" }

def wordModel (n : Nat) : LocalEmbedder := .model 32 20000 [("rust", unitVector n)]

def twoModels (path : String) : Option String :=
  if path = "/model.txt" then some (modelText 0)
  else if path = "/second.txt" then some (modelText 1)
  else none

theorem cached_local [UnicodeTables] [EmbeddingArithmetic] [RemoteEmbeddings Unit]
    {policy : DataPolicyConfig} {models : String → Option String} {config : InferenceConfig}
    {known inner : LocalEmbedder} {path : String} (on : policy.inference = .localOnly)
    (embedder : localEmbedder models config = .ok known) (some : config.maxDocuments ≠ 0)
    (cachePath : config.localCachePath = Option.some path) {caches : String → CacheFile}
    {cache : EmbeddingCache} (found : backendFromPolicy (R := Unit) models caches policy config =
      .ok (Option.some (.cached inner cache))) : inner = known ∧ cache.path = path := by
  rw [backendFromPolicy, on] at found
  simp only [localBackend, if_neg some, embedder, cachePath] at found
  cases found
  exact ⟨rfl, rfl⟩

/-- A restart with the other model and its own cache, a crash, and the first model again. -/
def switchedModel : List HostEvent :=
  [.configure localPolicy modelConfig, .embed 0 ["rust", "go"], .release 0 true,
    .configure localPolicy secondConfig, .embed 0 ["rust"], .kill,
    .configure localPolicy modelConfig]

theorem embed_transparent_switchedModel :
    letI := asciiTables
    letI := wordSha256
    letI := unitArithmetic
    letI := noRemote
    ((EmbeddingHost.run (R := Unit) ⟨twoModels, fun _ => .absent, []⟩ switchedModel).step
        (.embed 0 ["go", "rust"])).2 =
      some (.ok [List.replicate 32 (.finite 0), unitVector 0]) := by
  let _ := asciiTables
  let _ := wordSha256
  let _ := unitArithmetic
  let _ := noRemote
  have apart : ∀ a b : String, a = "rust" ∨ a = "go" → b = "rust" ∨ b = "go" →
      Sha256.digest a = Sha256.digest b → a = b := by
    rintro a b (rfl | rfl) (rfl | rfl) same
    · rfl
    · exact absurd same (by decide)
    · exact absurd same (by decide)
    · rfl
  have first : localEmbedder twoModels modelConfig = .ok (wordModel 0) := by decide +kernel
  have second : localEmbedder twoModels secondConfig = .ok (wordModel 1) := by decide +kernel
  have keeps : RunKeepsSpaces (R := Unit) (fun text => text = "rust" ∨ text = "go")
      (fun path _ => (wordModel (if path = "/cache.json" then 0 else 1)).vectorOf)
      ⟨twoModels, fun _ => .absent, []⟩ switchedModel := by
    refine runKeepsSpaces_of_always (fun event mem => ?_)
    simp only [switchedModel, List.mem_cons, List.not_mem_nil, or_false] at mem
    rcases mem with rfl | rfl | rfl | rfl | rfl | rfl | rfl
    · intro caches inner cache found text _
      obtain ⟨rfl, path⟩ := cached_local rfl first (by decide) rfl found
      rw [path]
      rfl
    · intro input mem
      simpa using mem
    · trivial
    · intro caches inner cache found text _
      obtain ⟨rfl, path⟩ := cached_local rfl second (by decide) rfl found
      rw [path]
      rfl
    · intro input mem
      exact Or.inl (List.mem_singleton.mp mem)
    · trivial
    · intro caches inner cache found text _
      obtain ⟨rfl, path⟩ := cached_local rfl first (by decide) rfl found
      rw [path]
      rfl
  have answer : ((EmbeddingHost.run (R := Unit) ⟨twoModels, fun _ => .absent, []⟩
      switchedModel).live[0]?).map (EmbeddingBackend.innerEmbed ["go", "rust"]) =
        some (.ok [List.replicate 32 (.finite 0), unitVector 0]) := by decide +kernel
  obtain ⟨backend, live, embeds⟩ := Option.map_eq_some_iff.mp answer
  rw [← embeds]
  refine embed_transparent apart (fun path e mem => absurd mem List.not_mem_nil) keeps 0 backend live
    ["go", "rust"] (fun input mem => ?_)
  simp only [List.mem_cons, List.not_mem_nil, or_false] at mem
  exact mem.symm

def modelHost : EmbeddingHost Unit where
  models := Function.update (fun _ => none) "/model.txt" (some (modelText 0))
  caches _ := .absent
  live := []

def replacedModel : List HostEvent :=
  [.configure localPolicy modelConfig, .embed 0 ["rust"], .release 0 true,
    .replaceModel "/model.txt" (some (modelText 1)), .configure localPolicy modelConfig]

theorem replacedModel_stale :
    letI := asciiTables
    letI := sampleSha256
    letI := unitArithmetic
    letI := noRemote
    ((modelHost.run replacedModel).step (.embed 0 ["rust"])).2 = some (.ok [unitVector 0]) ∧
      (modelHost.run replacedModel).live.map (EmbeddingBackend.innerEmbed ["rust"]) =
        [.ok [unitVector 1]] := by
  decide +kernel

end Amatl
