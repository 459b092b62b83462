import Amatl.Adjustments
import Amatl.Lib.Traverse

/-! The adjustments after ranking. What each makes of a score, whether they may change places, and
what the list is when they are done. -/

namespace Amatl

open UrlCrate StableSort

section

variable {Url : Type}

instance : Std.TransCmp (@compareRanked Url) := by
  have reversed : @compareRanked Url =
      compareLex (fun left right => compare right.score.value left.score.value)
        (compareLex (fun left right => compare right.titleMatch.value left.titleMatch.value)
          (compareOn (fun r => r.stableOrder))) := by
    unfold compareRanked
    simp only [LinearOrder.compare_eq_compareOfLessAndEq]
  have byScore : Std.TransCmp (fun left right : RankedResult Url =>
      compare right.score.value left.score.value) :=
    inferInstanceAs (Std.TransCmp (fun left right : RankedResult Url =>
      compareOn (fun r => r.score.value) right left))
  have byTitle : Std.TransCmp (fun left right : RankedResult Url =>
      compare right.titleMatch.value left.titleMatch.value) :=
    inferInstanceAs (Std.TransCmp (fun left right : RankedResult Url =>
      compareOn (fun r => r.titleMatch.value) right left))
  rw [reversed]
  infer_instance

def explainAfter : RankedResult Url → List (RankedResult Url) → List (RankedResult Url)
  | _, [] => []
  | previous, current :: rest =>
    { current with explanation :=
      { current.explanation with tieBreak := tieBreakAfter previous current } } ::
      explainAfter current rest

theorem explainTies_cons (first : RankedResult Url) (rest : List (RankedResult Url)) :
    explainTies (first :: rest) = first :: explainAfter first rest := by
  rw [explainTies]
  congr 1
  induction rest generalizing first with
  | nil => rfl
  | cons second rest ih =>
    rw [List.zip_cons_cons, List.map_cons, ih]
    rfl

/-- The parts of a result that no explanation changes. -/
def untied (r : RankedResult Url) : RankedResult Url :=
  { r with explanation := { r.explanation with tieBreak := .combinedScore } }

theorem untied_explainTies (l : List (RankedResult Url)) :
    (explainTies l).map untied = l.map untied := by
  cases l with
  | nil => rfl
  | cons first rest =>
    rw [explainTies_cons, List.map_cons, List.map_cons]
    congr 1
    induction rest generalizing first with
    | nil => rfl
    | cons second rest ih =>
      rw [explainAfter, List.map_cons, List.map_cons, ih]
      rfl

theorem tieBreakAfter_untied (a b : RankedResult Url) :
    tieBreakAfter (untied a) (untied b) = tieBreakAfter a b := rfl

/-- Each result but the first is explained against the one before it. -/
def TiesExplained (l : List (RankedResult Url)) : Prop :=
  l.IsChain (fun previous current =>
    current.explanation.tieBreak = tieBreakAfter previous current)

theorem explainTies_explained (l : List (RankedResult Url)) : TiesExplained (explainTies l) := by
  have chain : ∀ (rest : List (RankedResult Url)) (first shown : RankedResult Url),
      untied shown = untied first → TiesExplained (shown :: explainAfter first rest) := by
    intro rest
    induction rest with
    | nil => exact fun _ _ _ => .singleton _
    | cons second rest ih =>
      intro first shown same
      refine .cons_cons ?_ (ih second _ rfl)
      rw [← tieBreakAfter_untied shown, same]
      rfl
  cases l with
  | nil => exact .nil
  | cons first rest =>
    rw [explainTies_cons]
    exact chain rest first first rfl

theorem explainTies_of_explained {l : List (RankedResult Url)} (h : TiesExplained l) :
    explainTies l = l := by
  cases l with
  | nil => rfl
  | cons first rest =>
    rw [explainTies_cons]
    congr 1
    induction rest generalizing first with
    | nil => rfl
    | cons second rest ih =>
      obtain ⟨tie, later⟩ := List.isChain_cons_cons.mp h
      rw [explainAfter, ih second later, ← tie]

theorem pairwise_untied {l : List (RankedResult Url)} :
    l.Pairwise (Below compareRanked) ↔ (l.map untied).Pairwise (Below compareRanked) := by
  rw [List.pairwise_map]
  rfl

theorem explainTies_sorted (l : List (RankedResult Url)) :
    (explainTies (sortBy compareRanked l)).Pairwise (Below compareRanked) := by
  rw [pairwise_untied, untied_explainTies, ← pairwise_untied]
  exact sortBy_pairwise l

theorem explainTies_sortBy {l : List (RankedResult Url)} (sorted : l.Pairwise (Below compareRanked))
    (explained : TiesExplained l) : explainTies (sortBy compareRanked l) = l := by
  have same : sortBy compareRanked l = l := List.Pairwise.insertionSort_eq sorted
  rw [same, explainTies_of_explained explained]

/-- What stands for a score: not below zero, not above one, and no NaN. -/
theorem RankingScore.new_clamp {value : F64} (some_value : value ≠ .nan) :
    ∃ score : RankingScore, F64.clamp (.finite 0) (.finite 1) value = .finite score.value ∧
      RankingScore.new (F64.clamp (.finite 0) (.finite 1) value) = some score := by
  have made : ∀ {q : ℚ}, 0 ≤ q → q ≤ 1 →
      F64.clamp (.finite 0) (.finite 1) value = .finite q →
      ∃ score : RankingScore, F64.clamp (.finite 0) (.finite 1) value = .finite score.value ∧
        RankingScore.new (F64.clamp (.finite 0) (.finite 1) value) = some score := by
    intro q nonneg le_one same
    refine ⟨⟨q, nonneg, le_one⟩, same, ?_⟩
    rw [same, RankingScore.new, dif_pos ⟨nonneg, le_one⟩]
  cases value with
  | finite q =>
    obtain ⟨kept, same, nonneg, le_one⟩ := F64.clamp_finite zero_le_one q
    exact made nonneg le_one same
  | infinity negative =>
    cases negative with
    | true => exact made le_rfl zero_le_one rfl
    | false => exact made zero_le_one le_rfl rfl
  | nan => exact absurd rfl some_value

theorem RankingScore.eq_iff {a b : RankingScore} : a = b ↔ a.value = b.value := by
  constructor
  · exact congrArg RankingScore.value
  · intro same
    cases a
    cases b
    cases same
    rfl

theorem RankingScore.scaled_eq_some {factor : F64} {score scaled : RankingScore} :
    score.scaled factor = some scaled ↔
      F64.clamp (.finite 0) (.finite 1) (.times (.finite score.value) factor) =
        .finite scaled.value := by
  unfold RankingScore.scaled
  generalize F64.times (.finite score.value) factor = product
  by_cases nan : product = .nan
  · subst nan
    exact ⟨nofun, nofun⟩
  · obtain ⟨made, same, new⟩ := RankingScore.new_clamp nan
    rw [new, same, Option.some.injEq, F64.finite.injEq]
    exact RankingScore.eq_iff

theorem RankingScore.scaled_isSome {factor : F64} {score : RankingScore} :
    (∃ scaled, score.scaled factor = some scaled) ↔
      F64.times (.finite score.value) factor ≠ .nan := by
  constructor
  · rintro ⟨scaled, h⟩ nan
    rw [RankingScore.scaled_eq_some, nan] at h
    cases h
  · intro some_product
    obtain ⟨made, -, new⟩ := RankingScore.new_clamp some_product
    exact ⟨made, new⟩

/-- A factor that is not below zero keeps the order of scores. -/
theorem RankingScore.scaled_mono {factor : F64} (not_neg : F64.lt factor (.finite 0) = false)
    {low high low' high' : RankingScore} (h : low.value ≤ high.value)
    (lowScaled : low.scaled factor = some low') (highScaled : high.scaled factor = some high') :
    low'.value ≤ high'.value := by
  have lowProduct := RankingScore.scaled_isSome.mp ⟨_, lowScaled⟩
  have highProduct := RankingScore.scaled_isSome.mp ⟨_, highScaled⟩
  rw [RankingScore.scaled_eq_some] at lowScaled highScaled
  refine F64.clamp_mono zero_le_one ?_
    (F64.times_not_neg (x := .finite low.value) (decide_eq_false low.nonneg.not_gt) not_neg)
    lowScaled highScaled
  cases factor with
  | finite f =>
    have nonneg := F64.finite_nonneg not_neg
    exact F64.ofRat_mono (mul_nonneg low.nonneg nonneg) (mul_le_mul_of_nonneg_right h nonneg)
  | infinity negative =>
    cases negative with
    | true => cases not_neg
    | false =>
      -- A score of zero has no product, and any other has the same.
      have grown : ∀ score : RankingScore,
          F64.times (.finite score.value) (.infinity false) ≠ .nan →
          F64.times (.finite score.value) (.infinity false) = .infinity false := by
        intro score some_product
        simp only [F64.times, F64.mul] at some_product ⊢
        split_ifs at some_product ⊢
        · exact absurd rfl some_product
        · rw [decide_eq_false score.nonneg.not_gt]
          rfl
      rw [grown low lowProduct, grown high highProduct]
      rfl
  | nan => exact absurd rfl lowProduct

theorem penalized (score : RankingScore) : ∃ lowered : RankingScore,
    F64.times (.finite score.value) trackerPenaltyMultiplier = .finite lowered.value ∧
      score.scaled trackerPenaltyMultiplier = some lowered ∧ lowered.value < 1 := by
  have multiplier : trackerPenaltyMultiplier = .finite (3602879701896397 / 72057594037927936) := by
    decide +kernel
  have most : F64.ofRat (3602879701896397 / 72057594037927936) =
      .finite (3602879701896397 / 72057594037927936) := by
    decide +kernel
  have product : F64.times (.finite score.value) trackerPenaltyMultiplier =
      F64.ofRat (score.value * (3602879701896397 / 72057594037927936)) := by
    rw [multiplier]
    rfl
  have nonneg : 0 ≤ score.value * (3602879701896397 / 72057594037927936) :=
    mul_nonneg score.nonneg (by norm_num)
  have bound := F64.ofRat_mono nonneg (mul_le_of_le_one_left (by norm_num) score.le_one)
  have not_neg := F64.ofRat_not_neg nonneg
  rw [most] at bound
  rw [← product] at bound not_neg
  cases value : F64.times (.finite score.value) trackerPenaltyMultiplier with
  | finite q =>
    rw [value] at bound not_neg
    have low := F64.finite_nonneg not_neg
    have high : q ≤ 3602879701896397 / 72057594037927936 := of_decide_eq_true bound
    have below : q < 1 := high.trans_lt (by norm_num)
    refine ⟨⟨q, low, below.le⟩, rfl, ?_, below⟩
    rw [RankingScore.scaled_eq_some, value, F64.clamp_of_mem low below.le]
  | infinity negative =>
    rw [value] at bound not_neg
    cases negative with
    | true => cases not_neg
    | false => cases bound
  | nan =>
    rw [value] at bound
    cases bound

/-- The penalty and another factor give a score the same in either order just where their products
come out the same. -/
theorem penalty_swap {factor : F64} (not_neg : F64.lt factor (.finite 0) = false)
    (score : RankingScore) :
    (∃ both, (score.scaled trackerPenaltyMultiplier).bind (RankingScore.scaled factor) = some both ∧
        (score.scaled factor).bind (RankingScore.scaled trackerPenaltyMultiplier) = some both) ↔
      .times (.finite score.value) factor ≠ F64.nan ∧
        F64.times (.times (.finite score.value) trackerPenaltyMultiplier) factor =
          .times (.clamp (.finite 0) (.finite 1) (.times (.finite score.value) factor))
            trackerPenaltyMultiplier := by
  obtain ⟨lowered, lowers, loweredScore, -⟩ := penalized score
  rw [lowers, loweredScore, Option.bind_some]
  constructor
  · rintro ⟨both, last, first⟩
    obtain ⟨lifted, liftedScore, again⟩ := Option.bind_eq_some_iff.mp first
    have product := RankingScore.scaled_isSome.mp ⟨_, liftedScore⟩
    rw [RankingScore.scaled_eq_some] at liftedScore
    obtain ⟨cut, cuts, cutScore, below⟩ := penalized lifted
    obtain rfl := Option.some.inj (cutScore.symm.trans again)
    refine ⟨product, ?_⟩
    rw [liftedScore, cuts]
    rw [RankingScore.scaled_eq_some] at last
    -- What was not cut off below one was not changed.
    have grown := F64.times_not_neg (x := .finite lowered.value) (y := factor)
      (decide_eq_false lowered.nonneg.not_gt) not_neg
    cases value : F64.times (.finite lowered.value) factor with
    | finite q =>
      rw [value] at last grown
      have nonneg := F64.finite_nonneg grown
      rw [F64.clamp_finite_eq zero_le_one, F64.finite.injEq] at last
      rcases le_or_gt q 1 with small | large
      · rw [min_eq_right small, max_eq_right nonneg] at last
        rw [last]
      · rw [min_eq_left large.le, max_eq_right zero_le_one] at last
        exact absurd last.symm below.ne
    | infinity negative =>
      rw [value] at last grown
      cases negative with
      | true => cases grown
      | false =>
        rw [F64.clamp_infinity, F64.finite.injEq] at last
        exact absurd last.symm below.ne
    | nan =>
      rw [value] at last
      cases last
  · rintro ⟨product, same⟩
    obtain ⟨lifted, liftedScore⟩ := RankingScore.scaled_isSome.mpr product
    have lifts := RankingScore.scaled_eq_some.mp liftedScore
    obtain ⟨cut, cuts, cutScore, -⟩ := penalized lifted
    rw [lifts, cuts] at same
    refine ⟨cut, ?_, by rw [liftedScore, Option.bind_some, cutScore]⟩
    rw [RankingScore.scaled_eq_some, same, F64.clamp_of_mem cut.nonneg cut.le_one]

def scored (l : List (RankedResult Url)) : List (DeduplicatedResult Url × RankingScore) :=
  l.map (fun r => (r.result, r.score))

theorem scored_perm (l : List (RankedResult Url)) :
    (scored (explainTies (sortBy compareRanked l))).Perm (scored l) := by
  have parts : ∀ l : List (RankedResult Url),
      scored l = (l.map untied).map (fun r => (r.result, r.score)) := by
    intro l
    rw [List.map_map]
    rfl
  rw [parts, untied_explainTies, ← parts]
  exact (sortBy_perm compareRanked l).map _

/-- Two ways to score results that keep a result as it is, and among equal results the order of the
scores before, give the same scores one by one where they give the same scores in some order. -/
theorem scores_eq_of_perm {f g : RankedResult Url → RankedResult Url} {l : List (RankedResult Url)}
    (keepsF : ∀ r ∈ l, (f r).result = r.result) (keepsG : ∀ r ∈ l, (g r).result = r.result)
    (monoF : ∀ r ∈ l, ∀ s ∈ l, r.result = s.result → r.score.value ≤ s.score.value →
      (f r).score.value ≤ (f s).score.value)
    (monoG : ∀ r ∈ l, ∀ s ∈ l, r.result = s.result → r.score.value ≤ s.score.value →
      (g r).score.value ≤ (g s).score.value)
    (same : (scored (l.map f)).Perm (scored (l.map g))) :
    ∀ r ∈ l, (f r).score.value = (g r).score.value := by
  classical
  intro r mem
  have group : ∀ h : RankedResult Url → RankedResult Url,
      (∀ s ∈ l, (h s).result = s.result) →
      ((scored (l.map h)).filter (fun pair => pair.1 = r.result)).map (fun pair => pair.2.value) =
        (l.filter (fun s => s.result = r.result)).map (fun s => (h s).score.value) := by
    intro h keeps
    unfold scored
    rw [List.map_map, List.filter_map, List.map_map]
    refine congrArg _ (List.filter_congr ?_)
    intro s mem
    simp [keeps s mem]
  have perm := (same.filter (fun pair => pair.1 = r.result)).map (fun pair => pair.2.value)
  rw [group f keepsF, group g keepsG] at perm
  have equal : ∀ s ∈ l.filter (fun s => s.result = r.result), s.result = r.result := by
    intro s inside
    simpa using (List.mem_filter.mp inside).2
  let byScore : RankedResult Url → RankedResult Url → Ordering :=
    compareOn (fun s => s.score.value)
  have lower : ∀ {a b : RankedResult Url}, Below byScore a b → a.score.value ≤ b.score.value := by
    intro a b below
    by_contra above
    have greater : byScore a b = .gt := compare_gt_iff_gt.mpr (not_le.mp above)
    simp [Below, greater] at below
  refine @eq_of_map_perm _ byScore inferInstance _ _ _ _ _ ?_ ?_ perm r
    (List.mem_filter.mpr ⟨mem, by simp⟩)
  · intro a ina b inb below
    exact monoF a (List.mem_filter.mp ina).1 b (List.mem_filter.mp inb).1
      ((equal a ina).trans (equal b inb).symm) (lower below)
  · intro a ina b inb below
    exact monoG a (List.mem_filter.mp ina).1 b (List.mem_filter.mp inb).1
      ((equal a ina).trans (equal b inb).symm) (lower below)

section

variable [UrlCrate Url]

/-- What the penalty makes of the score of a result. -/
def tracked (trackerDomains : String → Bool) (r : RankedResult Url) (score : RankingScore) :
    Option RankingScore :=
  if isTrackerDomain trackerDomains r.result.canonicalUrl then
    score.scaled trackerPenaltyMultiplier
  else some score

theorem penalizeTracker_eq (trackerDomains : String → Bool) (r : RankedResult Url) :
    penalizeTracker trackerDomains r =
      (tracked trackerDomains r r.score).map (fun score => { r with score }) := by
  rw [penalizeTracker, tracked]
  split_ifs <;> rfl

theorem tracked_isSome (trackerDomains : String → Bool) (r : RankedResult Url)
    (score : RankingScore) : ∃ lowered, tracked trackerDomains r score = some lowered := by
  unfold tracked
  split_ifs
  · obtain ⟨lowered, -, same, -⟩ := penalized score
    exact ⟨lowered, same⟩
  · exact ⟨score, rfl⟩

theorem tracked_mono {trackerDomains : String → Bool} {r s : RankedResult Url}
    {low high low' high' : RankingScore} (same : r.result = s.result) (h : low.value ≤ high.value)
    (lows : tracked trackerDomains r low = some low')
    (highs : tracked trackerDomains s high = some high') : low'.value ≤ high'.value := by
  have penalty : F64.lt trackerPenaltyMultiplier (.finite 0) = false :=
    F64.ofRat_not_neg (by norm_num)
  unfold tracked at lows highs
  rw [same] at lows
  split_ifs at lows highs
  · exact RankingScore.scaled_mono penalty h lows highs
  · cases lows
    cases highs
    exact h

variable [UnicodeTables]

/-- What the optics rules multiply a score by. -/
def opticsFactor (optics : Option OpticsDocument) (r : RankedResult Url) : F64 :=
  (optics.map (fun document => (document.multiplierFor r).multiplier)).getD (.finite 1)

/-- What the optics rules make of the score of a result. -/
def lifted (optics : Option OpticsDocument) (r : RankedResult Url) (score : RankingScore) :
    Option RankingScore :=
  if opticsFactor optics r = .finite 1 then some score else score.scaled (opticsFactor optics r)

theorem multiplierFor_outcome (document : OpticsDocument) (r : RankedResult Url) :
    F64.lt (document.multiplierFor r).multiplier (.finite 0) = false ∧
      ((document.multiplierFor r).matched = false →
        (document.multiplierFor r).multiplier = .finite 1) := by
  refine List.foldlRecOn (motive := fun outcome : OpticsOutcome =>
    F64.lt outcome.multiplier (.finite 0) = false ∧
      (outcome.matched = false → outcome.multiplier = .finite 1)) document.rules _
    ⟨rfl, fun _ => rfl⟩ ?_
  intro outcome h rule _
  by_cases fires : rule.patterns.any (fieldMatches r) = true
  · rw [if_pos fires]
    have not_neg : F64.lt rule.action.multiplier (.finite 0) = false := by
      cases rule.action with
      | boost n =>
        exact F64.plus_not_neg rfl (F64.times_not_neg
          (decide_eq_false (Nat.cast_nonneg _).not_gt) (F64.ofRat_not_neg (by norm_num)))
      | downrank n =>
        have floor : downrankFloor = .finite (5764607523034235 / 576460752303423488) := by
          decide +kernel
        rw [Action.multiplier, floor]
        exact F64.max_not_neg (by norm_num)
    exact ⟨F64.times_not_neg h.1 not_neg, nofun⟩
  · rw [if_neg fires]
    exact h

theorem opticsFactor_not_neg (optics : Option OpticsDocument) (r : RankedResult Url) :
    F64.lt (opticsFactor optics r) (.finite 0) = false := by
  cases optics with
  | none => rfl
  | some document => exact (multiplierFor_outcome document r).1

theorem adjust_eq (document : OpticsDocument) (r : RankedResult Url) :
    document.adjust r =
      (lifted (some document) r r.score).map (fun score => { r with score }) := by
  have factor : opticsFactor (some document) r = (document.multiplierFor r).multiplier := rfl
  rw [OpticsDocument.adjust, lifted, factor]
  by_cases one : (document.multiplierFor r).multiplier = .finite 1
  · simp [one]
  · have matched : (document.multiplierFor r).matched = true := by
      rw [← Bool.not_eq_false]
      exact fun unmatched => one ((multiplierFor_outcome document r).2 unmatched)
    simp only [matched, Bool.true_and, bne_iff_ne, ne_eq, one, not_false_eq_true, if_true, if_false]
    rfl

theorem fieldMatches_score (r : RankedResult Url) (score : RankingScore) :
    fieldMatches { r with score } = fieldMatches r := by
  funext field
  cases field <;> rfl

theorem multiplierFor_score (document : OpticsDocument) (r : RankedResult Url)
    (score : RankingScore) :
    document.multiplierFor { r with score } = document.multiplierFor r := by
  rw [OpticsDocument.multiplierFor, fieldMatches_score]
  rfl

theorem opticsFactor_result (optics : Option OpticsDocument) {r s : RankedResult Url}
    (same : r.result = s.result) : opticsFactor optics r = opticsFactor optics s := by
  have fields : fieldMatches r = fieldMatches s := by
    funext field
    cases field <;> simp only [fieldMatches, same]
  cases optics with
  | none => rfl
  | some document => simp only [opticsFactor, OpticsDocument.multiplierFor, fields]

def remaining (optics : Option OpticsDocument) (ranked : List (RankedResult Url)) :
    List (RankedResult Url) :=
  ranked.filter (fun r => optics.all (fun document =>
    !document.discardNonMatching || (document.multiplierFor r).matched))

/-- The results the optics rules keep, each with its new score. -/
def opticsAdjusted (optics : Option OpticsDocument) (ranked : List (RankedResult Url)) :
    Option (List (RankedResult Url)) :=
  match optics with
  | none => some ranked
  | some document => document.adjustAll ranked

theorem opticsAdjusted_eq (optics : Option OpticsDocument) (ranked : List (RankedResult Url)) :
    opticsAdjusted optics ranked = (remaining optics ranked).mapM (fun r =>
      (lifted optics r r.score).map (fun score => { r with score })) := by
  cases optics with
  | none =>
    have all : remaining none ranked = ranked := List.filter_eq_self.mpr (fun _ _ => rfl)
    have each : ∀ r ∈ ranked, (lifted none r r.score).map (fun score => { r with score }) =
        some (id r) := fun _ _ => rfl
    rw [all, Traverse.mapM_some each, List.map_id]
    rfl
  | some document =>
    have kept : remaining (some document) ranked =
        if document.discardNonMatching then
          ranked.filter (fun result => (document.multiplierFor result).matched)
        else ranked := by
      by_cases discards : document.discardNonMatching = true
      · simp [remaining, discards]
      · simp [remaining, discards]
    rw [kept]
    exact congrArg (fun f => List.mapM f _) (funext (adjust_eq document))

/-- A kept result with its new score: the penalty first, and then the optics rules. -/
def adjusted (trackerDomains : String → Bool) (optics : Option OpticsDocument)
    (r : RankedResult Url) : Option (RankedResult Url) :=
  ((tracked trackerDomains r r.score).bind (lifted optics r)).map (fun score => { r with score })

theorem applyAdjustments_eq (trackerDomains : String → Bool) (optics : Option OpticsDocument)
    (ranked : List (RankedResult Url)) :
    applyAdjustments trackerDomains optics ranked =
      ((remaining optics ranked).mapM (adjusted trackerDomains optics)).map
        (fun kept => explainTies (sortBy compareRanked kept)) := by
  -- No penalty panics, so that all are there before the rules are read.
  have lowered : ∃ lower : RankedResult Url → RankingScore,
      ∀ r, tracked trackerDomains r r.score = some (lower r) :=
    ⟨_, fun r => (tracked_isSome trackerDomains r r.score).choose_spec⟩
  obtain ⟨lower, lowers⟩ := lowered
  have penalties : ranked.mapM (penalizeTracker trackerDomains) =
      some (ranked.map (fun r => { r with score := lower r })) :=
    Traverse.mapM_some (fun r _ => by rw [penalizeTracker_eq, lowers]; rfl)
  have kept : remaining optics (ranked.map (fun r => { r with score := lower r })) =
      (remaining optics ranked).map (fun r => { r with score := lower r }) := by
    simp only [remaining, List.filter_map, Function.comp_def, multiplierFor_score]
  have read : applyAdjustments trackerDomains optics ranked =
      (ranked.mapM (penalizeTracker trackerDomains)).bind (fun ranked =>
        (opticsAdjusted optics ranked).map (fun kept =>
          explainTies (sortBy compareRanked kept))) := by
    cases optics with
    | none => rfl
    | some document => simp only [applyAdjustments, opticsAdjusted, Option.map_eq_bind]; rfl
  rw [read, penalties, Option.bind_some, opticsAdjusted_eq, kept, List.mapM_map]
  congr 2
  funext r
  rw [adjusted, lowers, Option.bind_some]
  have same : lifted optics { r with score := lower r } = lifted optics r := by
    unfold lifted
    rw [opticsFactor_result optics (r := { r with score := lower r }) (s := r) rfl]
  simp only [Function.comp_apply, same]

/-- The adjustments in the other order: the penalty after the optics rules. -/
def applyOpticsFirst (trackerDomains : String → Bool) (optics : Option OpticsDocument)
    (ranked : List (RankedResult Url)) : Option (List (RankedResult Url)) := do
  let ranked ← match optics with
    | none => some ranked
    | some document => document.adjustAll ranked
  let ranked ← ranked.mapM (penalizeTracker trackerDomains)
  return explainTies (sortBy compareRanked ranked)

/-- A kept result with its new score, the optics rules first. -/
def opticsFirst (trackerDomains : String → Bool) (optics : Option OpticsDocument)
    (r : RankedResult Url) : Option (RankedResult Url) :=
  ((lifted optics r r.score).bind (tracked trackerDomains r)).map (fun score => { r with score })

theorem applyOpticsFirst_eq (trackerDomains : String → Bool) (optics : Option OpticsDocument)
    (ranked : List (RankedResult Url)) :
    applyOpticsFirst trackerDomains optics ranked =
      ((remaining optics ranked).mapM (opticsFirst trackerDomains optics)).map
        (fun kept => explainTies (sortBy compareRanked kept)) := by
  have read : applyOpticsFirst trackerDomains optics ranked =
      ((opticsAdjusted optics ranked).bind (List.mapM (penalizeTracker trackerDomains))).map
        (fun kept => explainTies (sortBy compareRanked kept)) := by
    cases optics with
    | none => simp only [applyOpticsFirst, opticsAdjusted, Option.map_eq_bind]; rfl
    | some document =>
      simp only [applyOpticsFirst, opticsAdjusted, Option.map_eq_bind, Option.bind_assoc]
      rfl
  have fused : ∀ l : List (RankedResult Url),
      (l.mapM (fun r => (lifted optics r r.score).map (fun score => { r with score }))).bind
        (List.mapM (penalizeTracker trackerDomains)) =
      l.mapM (opticsFirst trackerDomains optics) := by
    intro l
    refine Traverse.mapM_bind l ?_
    intro r
    unfold opticsFirst
    cases lifted optics r r.score with
    | none => rfl
    | some score => exact penalizeTracker_eq trackerDomains { r with score }
  rw [read, opticsAdjusted_eq, fused]

/-- At a result the adjustments may change places. A multiplier of one changes nothing. Another has
a product with the score, and on a tracker's host the products with the penalty come out the same,
the multiplier last or first and then cut off at one. -/
def ProductsAgree (trackerDomains : String → Bool) (optics : Option OpticsDocument)
    (r : RankedResult Url) : Prop :=
  let score : F64 := .finite r.score.value
  let multiplier := opticsFactor optics r
  multiplier ≠ .finite 1 →
    .times score multiplier ≠ F64.nan ∧
    (isTrackerDomain trackerDomains r.result.canonicalUrl = true →
      F64.times (.times score trackerPenaltyMultiplier) multiplier =
        .times (.clamp (.finite 0) (.finite 1) (.times score multiplier)) trackerPenaltyMultiplier)

theorem adjusted_swap (trackerDomains : String → Bool) (optics : Option OpticsDocument)
    (r : RankedResult Url) :
    (∃ both, adjusted trackerDomains optics r = some both ∧
        opticsFirst trackerDomains optics r = some both) ↔
      ProductsAgree trackerDomains optics r := by
  have scores : (∃ both, adjusted trackerDomains optics r = some both ∧
        opticsFirst trackerDomains optics r = some both) ↔
      ∃ both, (tracked trackerDomains r r.score).bind (lifted optics r) = some both ∧
        (lifted optics r r.score).bind (tracked trackerDomains r) = some both := by
    unfold adjusted opticsFirst
    constructor
    · rintro ⟨both, last, first⟩
      obtain ⟨score, lastScore, rfl⟩ := Option.map_eq_some_iff.mp last
      obtain ⟨score', firstScore, same⟩ := Option.map_eq_some_iff.mp first
      obtain rfl : score' = score := congrArg RankedResult.score same
      exact ⟨score', lastScore, firstScore⟩
    · rintro ⟨score, last, first⟩
      exact ⟨{ r with score }, by rw [last]; rfl, by rw [first]; rfl⟩
  rw [scores]
  unfold ProductsAgree lifted tracked
  by_cases one : opticsFactor optics r = .finite 1
  · simp only [one, if_true, ne_eq, not_true_eq_false, false_implies, iff_true, Option.bind_some,
      Option.bind_fun_some, and_self]
    exact tracked_isSome trackerDomains r r.score
  · by_cases tracker : isTrackerDomain trackerDomains r.result.canonicalUrl = true
    · simp only [one, tracker, if_true, if_false, ne_eq, not_false_eq_true, true_implies]
      exact penalty_swap (opticsFactor_not_neg optics r) r.score
    · simp only [one, tracker, if_false, ne_eq, not_false_eq_true, true_implies, Option.bind_some,
        Option.bind_fun_some, and_self, Bool.false_eq_true, false_implies, and_true]
      exact RankingScore.scaled_isSome

section

variable {trackerDomains : String → Bool} {optics : Option OpticsDocument} {r s : RankedResult Url}
  {low high low' high' : RankingScore}

theorem lifted_mono (same : r.result = s.result) (h : low.value ≤ high.value)
    (lows : lifted optics r low = some low') (highs : lifted optics s high = some high') :
    low'.value ≤ high'.value := by
  unfold lifted at lows highs
  rw [opticsFactor_result optics same] at lows
  split_ifs at lows highs
  · cases lows
    cases highs
    exact h
  · exact RankingScore.scaled_mono (opticsFactor_not_neg optics s) h lows highs

theorem adjusted_mono (same : r.result = s.result) (h : r.score.value ≤ s.score.value)
    {r' s' : RankedResult Url} (lows : adjusted trackerDomains optics r = some r')
    (highs : adjusted trackerDomains optics s = some s') : r'.score.value ≤ s'.score.value := by
  obtain ⟨low, lowScore, rfl⟩ := Option.map_eq_some_iff.mp lows
  obtain ⟨high, highScore, rfl⟩ := Option.map_eq_some_iff.mp highs
  obtain ⟨lower, firstLow, lastLow⟩ := Option.bind_eq_some_iff.mp lowScore
  obtain ⟨higher, firstHigh, lastHigh⟩ := Option.bind_eq_some_iff.mp highScore
  exact lifted_mono same (tracked_mono same h firstLow firstHigh) lastLow lastHigh

theorem opticsFirst_mono (same : r.result = s.result) (h : r.score.value ≤ s.score.value)
    {r' s' : RankedResult Url} (lows : opticsFirst trackerDomains optics r = some r')
    (highs : opticsFirst trackerDomains optics s = some s') :
    r'.score.value ≤ s'.score.value := by
  obtain ⟨low, lowScore, rfl⟩ := Option.map_eq_some_iff.mp lows
  obtain ⟨high, highScore, rfl⟩ := Option.map_eq_some_iff.mp highs
  obtain ⟨lower, firstLow, lastLow⟩ := Option.bind_eq_some_iff.mp lowScore
  obtain ⟨higher, firstHigh, lastHigh⟩ := Option.bind_eq_some_iff.mp highScore
  exact tracked_mono same (lifted_mono same h firstLow firstHigh) lastLow lastHigh

theorem adjusted_rest {r' : RankedResult Url} (made : adjusted trackerDomains optics r = some r') :
    r' = { r with score := r'.score } := by
  obtain ⟨score, -, rfl⟩ := Option.map_eq_some_iff.mp made
  rfl

theorem opticsFirst_rest {r' : RankedResult Url}
    (made : opticsFirst trackerDomains optics r = some r') : r' = { r with score := r'.score } := by
  obtain ⟨score, -, rfl⟩ := Option.map_eq_some_iff.mp made
  rfl

/-- Where the products agree at every kept result, the two orders give the same list. -/
theorem adjustments_eq_of_agree {ranked : List (RankedResult Url)}
    (agree : ∀ r ∈ remaining optics ranked, ProductsAgree trackerDomains optics r) :
    ∃ both, applyAdjustments trackerDomains optics ranked = some both ∧
      applyOpticsFirst trackerDomains optics ranked = some both := by
  let both : RankedResult Url → RankedResult Url :=
    fun r => (adjusted trackerDomains optics r).getD r
  have each : ∀ r ∈ remaining optics ranked, adjusted trackerDomains optics r = some (both r) ∧
      opticsFirst trackerDomains optics r = some (both r) := by
    intro r mem
    obtain ⟨one, last, first⟩ := (adjusted_swap trackerDomains optics r).mpr (agree r mem)
    have same : both r = one := by simp only [both, last, Option.getD_some]
    rw [last, first, same]
    exact ⟨rfl, rfl⟩
  refine ⟨explainTies (sortBy compareRanked ((remaining optics ranked).map both)), ?_, ?_⟩
  · rw [applyAdjustments_eq, Traverse.mapM_some (fun r mem => (each r mem).1)]
    rfl
  · rw [applyOpticsFirst_eq, Traverse.mapM_some (fun r mem => (each r mem).2)]
    rfl

/-- Where the two orders give the same scores, in whatever order they list them, the products agree
at every kept result: the adjustments do not change the order of scores of equal results. -/
theorem agree_of_scored {ranked penaltyFirst rulesFirst : List (RankedResult Url)}
    (last : applyAdjustments trackerDomains optics ranked = some penaltyFirst)
    (first : applyOpticsFirst trackerDomains optics ranked = some rulesFirst)
    (same : scored penaltyFirst = scored rulesFirst) :
    ∀ r ∈ remaining optics ranked, ProductsAgree trackerDomains optics r := by
  rw [applyAdjustments_eq] at last
  rw [applyOpticsFirst_eq] at first
  obtain ⟨kept, all, rfl⟩ := Option.map_eq_some_iff.mp last
  obtain ⟨kept', all', rfl⟩ := Option.map_eq_some_iff.mp first
  obtain ⟨f, onF, rfl⟩ := Traverse.exists_map_of_mapM id all
  obtain ⟨g, onG, rfl⟩ := Traverse.exists_map_of_mapM id all'
  have perm : (scored ((remaining optics ranked).map f)).Perm
      (scored ((remaining optics ranked).map g)) :=
    (scored_perm _).symm.trans (same ▸ scored_perm _)
  have keepsF : ∀ r ∈ remaining optics ranked, (f r).result = r.result :=
    fun r mem => by rw [adjusted_rest (onF r mem)]
  have keepsG : ∀ r ∈ remaining optics ranked, (g r).result = r.result :=
    fun r mem => by rw [opticsFirst_rest (onG r mem)]
  have values := scores_eq_of_perm keepsF keepsG
    (fun r mr s ms equal h => adjusted_mono equal h (onF r mr) (onF s ms))
    (fun r mr s ms equal h => opticsFirst_mono equal h (onG r mr) (onG s ms)) perm
  intro r mem
  have both : f r = g r := by
    rw [adjusted_rest (onF r mem), opticsFirst_rest (onG r mem),
      RankingScore.eq_iff.mpr (values r mem)]
  exact (adjusted_swap trackerDomains optics r).mp ⟨f r, onF r mem, both ▸ onG r mem⟩

end

/-- The adjustments give the same scores in either order just where at every kept result they may
change places. -/
theorem adjustments_commute_iff (trackerDomains : String → Bool) (optics : Option OpticsDocument)
    (ranked : List (RankedResult Url)) :
    ((∃ penaltyFirst rulesFirst,
        applyAdjustments trackerDomains optics ranked = some penaltyFirst ∧
        applyOpticsFirst trackerDomains optics ranked = some rulesFirst ∧
        scored penaltyFirst = scored rulesFirst) ↔
      ∀ r ∈ remaining optics ranked, ProductsAgree trackerDomains optics r) ∧
    ((∀ r ∈ remaining optics ranked, ProductsAgree trackerDomains optics r) →
      ∃ both, applyAdjustments trackerDomains optics ranked = some both ∧
        applyOpticsFirst trackerDomains optics ranked = some both) := by
  refine ⟨⟨?_, fun agree => ?_⟩, adjustments_eq_of_agree⟩
  · rintro ⟨penaltyFirst, rulesFirst, last, first, same⟩
    exact agree_of_scored last first same
  · obtain ⟨both, last, first⟩ := adjustments_eq_of_agree agree
    exact ⟨both, both, last, first, rfl⟩

/-- The result that leads the list was explained by its score: the one that goes before all the
earlier results and that no later one goes before. -/
def LeaderCombined (l : List (RankedResult Url)) : Prop :=
  ∀ front leader back, l = front ++ leader :: back →
    (∀ r ∈ front, compareRanked leader r = .lt) → (∀ r ∈ back, Below compareRanked leader r) →
    leader.explanation.tieBreak = .combinedScore

theorem applyAdjustments_unchanged {trackerDomains : String → Bool}
    {ranked : List (RankedResult Url)}
    (clean : ∀ r ∈ ranked, ¬isTrackerDomain trackerDomains r.result.canonicalUrl)
    (sorted : ranked.Pairwise (Below compareRanked)) (explained : TiesExplained ranked) :
    applyAdjustments trackerDomains none ranked = some ranked := by
  have same : ranked.mapM (penalizeTracker trackerDomains) = some (ranked.map id) :=
    Traverse.mapM_some (fun r mem => if_neg (clean r mem))
  have read : applyAdjustments trackerDomains none ranked =
      (ranked.mapM (penalizeTracker trackerDomains)).bind
        (fun ranked => some (explainTies (sortBy compareRanked ranked))) := rfl
  rw [read, same, List.map_id, Option.bind_some, explainTies_sortBy sorted explained]

variable [TimeCrate] [Powf]

/-- What the adjusted list is to be: the kept results with their new scores once each, sorted, and
explained as `rank` explains them. -/
structure AdjustedList (trackerDomains : String → Bool) (optics : Option OpticsDocument)
    (ranked output : List (RankedResult Url)) : Prop where
  once : ∃ kept, (remaining optics ranked).mapM (adjusted trackerDomains optics) = some kept ∧
    (output.map untied).Perm (kept.map untied)
  sorted : output.Pairwise (Below compareRanked)
  first : ∀ r, output.head? = some r → r.explanation.tieBreak = .combinedScore
  explained : TiesExplained output
  unchanged : optics = none → (∀ r ∈ ranked, ¬isTrackerDomain trackerDomains r.result.canonicalUrl) →
    ∀ query time activeProviderCount results policy,
      ranked = rank query time activeProviderCount results policy → output = ranked

/-- There is a list and it is as it is to be just where every kept result has a new score, and the
one that comes first by it had been explained by its score before. -/
theorem applyAdjustments_list_iff (trackerDomains : String → Bool) (optics : Option OpticsDocument)
    (ranked : List (RankedResult Url)) :
    (∃ output, applyAdjustments trackerDomains optics ranked = some output ∧
        AdjustedList trackerDomains optics ranked output) ↔
      ∃ kept, (remaining optics ranked).mapM (adjusted trackerDomains optics) = some kept ∧
        LeaderCombined kept := by
  have list := applyAdjustments_eq trackerDomains optics ranked
  have head : ∀ kept : List (RankedResult Url),
      (explainTies (sortBy compareRanked kept)).head? = (sortBy compareRanked kept).head? := by
    intro kept
    generalize sortBy compareRanked kept = l
    cases l with
    | nil => rfl
    | cons first rest => rw [explainTies_cons]; rfl
  constructor
  · rintro ⟨output, made, asked⟩
    rw [list] at made
    obtain ⟨kept, all, rfl⟩ := Option.map_eq_some_iff.mp made
    refine ⟨kept, all, ?_⟩
    intro front leader back split earlier later
    exact asked.first leader (by rw [head, split, sortBy_leader earlier later])
  · rintro ⟨kept, all, combined⟩
    have made : applyAdjustments trackerDomains optics ranked =
        some (explainTies (sortBy compareRanked kept)) := by
      rw [list, all]
      rfl
    refine ⟨_, made, ⟨kept, all, ?_⟩, explainTies_sorted kept, ?_, explainTies_explained _, ?_⟩
    · rw [untied_explainTies]
      exact (sortBy_perm compareRanked kept).map untied
    · intro r leads
      rw [head] at leads
      obtain ⟨front, back, split, earlier, later⟩ := leader_of_sortBy leads
      exact combined front r back split earlier later
    · rintro rfl clean query time activeProviderCount results policy rfl
      have kept := applyAdjustments_unchanged clean (explainTies_sorted _)
        (explainTies_explained _)
      exact Option.some.inj (made.symm.trans kept)

end

end

def listedResult (host : String) : DeduplicatedResult PlainUrl where
  title := none
  originalUrl := ⟨host, "/"⟩
  canonicalUrl := ⟨host, "/"⟩
  originalUrls := [⟨host, "/"⟩]
  providers := ["p"]
  representativeProvider := "p"
  providerRanks := [("p", some ⟨1, Rank.one_ne_zero⟩)]
  snippet := none
  alternateSnippets := []
  resultType := .organic
  publishedAt := none
  author := none
  language := none
  fileType := none
  thumbnail := none
  metadata := []
  observedDates := []
  duplicateStatus := .distinct
  mergeReason := none
  possibleDuplicateWith := []

def listedRanking (hosts : List String) : List (RankedResult PlainUrl) :=
  letI := asciiTables
  letI := noDates
  letI := integerPowers
  rank ⟨"rust", "rust", [], [], [], [], [], none, none, none, none⟩ "" 1
    (hosts.map listedResult) .default

def listedAt (score : ℚ) (hosts : List String) : List (RankedResult PlainUrl) :=
  (listedRanking hosts).filterMap (fun r =>
    (RankingScore.new (.ofRat score)).map (fun score => { r with score }))

/-- A lifted result of a tracker is cut off at one before the penalty, or not at all. -/
theorem liftedTracker_differs :
    letI := asciiTables
    let lift : Option OpticsDocument := some ⟨[⟨[.site "ads"], .boost 20⟩], false⟩
    let ranked := listedAt (35 / 100) ["ads.example"]
    (applyAdjustments (· == "ads.example") lift ranked).map (List.map (fun r => r.score.value)) =
        some [236438980436951 / 4503599627370496] ∧
      (applyOpticsFirst (· == "ads.example") lift ranked).map
          (List.map (fun r => r.score.value)) =
        some [3602879701896397 / 72057594037927936] := by
  decide +kernel

/-- Factors that cancel out round to less than one. -/
example : (OpticsDocument.mk [⟨[.url "a"], .boost 15⟩, ⟨[.url "a"], .downrank 6⟩] false).rules.foldl
    (fun product rule => F64.times product rule.action.multiplier) (.finite 1) =
      .finite (4503599627370495 / 4503599627370496) := by decide +kernel

/-- Behind a penalized result stands one whose tie with it is still told when it leads. -/
theorem formerSecond_keeps :
    letI := asciiTables
    (applyAdjustments (· == "ads.example") none
        (listedRanking ["ads.example", "docs.example"])).map
        (List.map (fun r => (r.result.canonicalUrl.host, r.explanation.tieBreak))) =
      some [("docs.example", .stableOrder), ("ads.example", .combinedScore)] := by
  decide +kernel

end Amatl
