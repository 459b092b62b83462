import Amatl.Deep.Robots

/-! What the rules of an origin decide: the longest matching pattern, and of equally long ones an
allowing one. -/

namespace Amatl

/-- The length that a pattern counts with; the anchor at the end is no part of it. -/
def patternLength (pattern : List Char) : Nat :=
  Text.utf8Length (if pattern.getLast? == some '$' then pattern.dropLast else pattern)

def ruleMatches (path : List Char) (rule : List Char × Bool) : Bool :=
  (matchLength rule.1 path).isSome

theorem matchLength_eq {path : List Char} {rule : List Char × Bool} :
    matchLength rule.1 path =
      if ruleMatches path rule then some (patternLength rule.1) else none := by
  unfold ruleMatches
  cases found : matchLength rule.1 path with
  | none => rfl
  | some length =>
    rw [Option.isSome_some, if_pos rfl, Option.some.injEq]
    unfold matchLength at found
    dsimp only at found
    split at found
    · cases found
    · split at found
      · cases found
      · split at found
        · cases found
        · split at found
          · cases found
          · rw [Option.some.injEq] at found
            exact found.symm

/-- The rule does not beat a match of that length and kind. -/
def NotBeating (length : Nat) (allowed : Bool) (rule : List Char × Bool) : Prop :=
  patternLength rule.1 < length ∨
    patternLength rule.1 = length ∧ (rule.2 = true → allowed = true)

/-- The best match among the rules seen: one of them, and no other beats it. -/
def BestOf (path : List Char) (seen : List (List Char × Bool)) : Option (Nat × Bool) → Prop
  | none => ∀ rule ∈ seen, ruleMatches path rule = false
  | some (length, allowed) =>
    (∃ rule ∈ seen, ruleMatches path rule = true ∧ patternLength rule.1 = length ∧
      rule.2 = allowed) ∧
    ∀ rule ∈ seen, ruleMatches path rule = true → NotBeating length allowed rule

theorem BestOf.step {path : List Char} {seen : List (List Char × Bool)}
    {best : Option (Nat × Bool)} (h : BestOf path seen best) (rule : List Char × Bool) :
    BestOf path (seen ++ [rule]) (betterMatch path best rule) := by
  unfold betterMatch
  rw [matchLength_eq]
  by_cases matching : ruleMatches path rule = true
  · rw [if_pos matching]
    have new : ∃ other ∈ seen ++ [rule], ruleMatches path other = true ∧
        patternLength other.1 = patternLength rule.1 ∧ other.2 = rule.2 :=
      ⟨rule, by simp, matching, rfl, rfl⟩
    cases best with
    | none =>
      refine ⟨new, fun other mem hit => ?_⟩
      rcases List.mem_append.mp mem with old | added
      · rw [h other old] at hit
        cases hit
      · rw [List.mem_singleton.mp added]
        exact Or.inr ⟨rfl, id⟩
    | some pair =>
      obtain ⟨length, allowed⟩ := pair
      obtain ⟨⟨kept, there, hit, hlength, hallowed⟩, others⟩ := h
      dsimp only
      by_cases better : (length < patternLength rule.1 ||
          (patternLength rule.1 == length && rule.2 && !allowed)) = true
      · rw [if_pos better]
        have longer : length < patternLength rule.1 ∨
            patternLength rule.1 = length ∧ rule.2 = true ∧ allowed = false := by
          simpa [and_assoc] using better
        refine ⟨new, fun other mem hit' => ?_⟩
        rcases List.mem_append.mp mem with old | added
        · have beaten := others other old hit'
          unfold NotBeating at beaten ⊢
          rcases longer with more | ⟨same, allows, -⟩
          · left
            omega
          · rcases beaten with less | ⟨equal, -⟩
            · left
              omega
            · exact Or.inr ⟨by omega, fun _ => allows⟩
        · rw [List.mem_singleton.mp added]
          exact Or.inr ⟨rfl, id⟩
      · rw [if_neg better]
        have shorter : patternLength rule.1 ≤ length ∧
            (patternLength rule.1 = length → rule.2 = true → allowed = true) := by
          simpa [and_imp] using better
        refine ⟨⟨kept, List.mem_append_left _ there, hit, hlength, hallowed⟩,
          fun other mem hit' => ?_⟩
        rcases List.mem_append.mp mem with old | added
        · exact others other old hit'
        · rw [List.mem_singleton.mp added]
          unfold NotBeating
          by_cases same : patternLength rule.1 = length
          · exact Or.inr ⟨same, shorter.2 same⟩
          · left
            omega
  · rw [if_neg matching]
    have missed : ruleMatches path rule = false := by simpa using matching
    cases best with
    | none =>
      intro other mem
      rcases List.mem_append.mp mem with old | added
      · exact h other old
      · rw [List.mem_singleton.mp added, missed]
    | some pair =>
      obtain ⟨length, allowed⟩ := pair
      obtain ⟨⟨kept, there, hit⟩, others⟩ := h
      refine ⟨⟨kept, List.mem_append_left _ there, hit⟩, fun other mem hit' => ?_⟩
      rcases List.mem_append.mp mem with old | added
      · exact others other old hit'
      · rw [List.mem_singleton.mp added, missed] at hit'
        cases hit'

theorem bestOf_rules (path : List Char) (rules : List (List Char × Bool)) :
    BestOf path rules (rules.foldl (betterMatch path) none) := by
  induction rules using List.reverseRecOn with
  | nil => nofun
  | append_singleton rules rule ih =>
    rw [List.foldl_append]
    exact ih.step rule

/-- A disallowing rule that is longer than every matching rule that allows. -/
def Forbids (path : List Char) (rules : List (List Char × Bool)) : Prop :=
  ∃ rule ∈ rules, rule.2 = false ∧ ruleMatches path rule = true ∧
    ∀ other ∈ rules, other.2 = true → ruleMatches path other = true →
      patternLength other.1 < patternLength rule.1

theorem forbids_iff (path : List Char) (rules : List (List Char × Bool)) :
    Forbids path rules ↔
      ∃ length, rules.foldl (betterMatch path) none = some (length, false) := by
  have best := bestOf_rules path rules
  cases found : rules.foldl (betterMatch path) none with
  | none =>
    rw [found] at best
    constructor
    · rintro ⟨rule, mem, -, hit, -⟩
      rw [best rule mem] at hit
      cases hit
    · nofun
  | some pair =>
    obtain ⟨length, allowed⟩ := pair
    rw [found] at best
    obtain ⟨⟨kept, there, hit, hlength, hallowed⟩, others⟩ := best
    constructor
    · rintro ⟨rule, mem, -, matching, longest⟩
      cases allowed with
      | false => exact ⟨length, rfl⟩
      | true =>
        have less := longest kept there hallowed hit
        rcases others rule mem matching with below | ⟨same, -⟩
        · omega
        · omega
    · rintro ⟨length', same⟩
      cases same
      refine ⟨kept, there, hallowed, hit, fun other mem allows matching => ?_⟩
      rcases others other mem matching with below | ⟨-, never⟩
      · omega
      · cases never allows

theorem Forbids.perm {path : List Char} {rules permuted : List (List Char × Bool)}
    (same : permuted.Perm rules) (h : Forbids path rules) : Forbids path permuted := by
  obtain ⟨rule, mem, disallows, hit, longest⟩ := h
  exact ⟨rule, same.mem_iff.mpr mem, disallows, hit,
    fun other there => longest other (same.mem_iff.mp there)⟩

/-- A group that no line was for has no rules. -/
def RobotsGroup.Plain (group : RobotsGroup) : Prop := group.touched = false → group.rules = []

theorem applyTo_plain {userAgent field value agent : List Char} {p : RobotsParser}
    (h : p.specific.Plain ∧ p.wildcard.Plain) :
    (p.applyTo userAgent field value agent).specific.Plain ∧
      (p.applyTo userAgent field value agent).wildcard.Plain := by
  unfold RobotsParser.applyTo
  split
  · exact ⟨nofun, h.2⟩
  · split
    · exact ⟨h.1, nofun⟩
    · exact h

theorem line_plain {userAgent line : List Char} {p : RobotsParser}
    (h : p.specific.Plain ∧ p.wildcard.Plain) :
    (p.line userAgent line).specific.Plain ∧ (p.line userAgent line).wildcard.Plain := by
  have each : ∀ (agents : List (List Char)) (field value : List Char) (q : RobotsParser),
      q.specific.Plain ∧ q.wildcard.Plain →
        (agents.foldl (RobotsParser.applyTo userAgent field value) q).specific.Plain ∧
          (agents.foldl (RobotsParser.applyTo userAgent field value) q).wildcard.Plain := by
    intro agents field value
    induction agents with
    | nil => exact fun _ plain => plain
    | cons agent agents ih => exact fun q plain => ih _ (applyTo_plain plain)
  unfold RobotsParser.line
  dsimp only
  split
  · exact h
  · split
    · exact h
    · split
      · exact h
      · split
        · exact each _ _ _ _ h
        · exact h

theorem parse_empty (body userAgent : List Char)
    (h : (RobotsRules.parse body userAgent).empty = true) :
    (RobotsRules.parse body userAgent).rules = [] := by
  have plain : ∀ (lines : List (List Char)) (p : RobotsParser),
      p.specific.Plain ∧ p.wildcard.Plain →
        (lines.foldl (RobotsParser.line userAgent) p).specific.Plain ∧
          (lines.foldl (RobotsParser.line userAgent) p).wildcard.Plain := by
    intro lines
    induction lines with
    | nil => exact fun _ plain => plain
    | cons line lines ih => exact fun p start => ih _ (line_plain start)
  have ended := plain (Text.lines body) .start ⟨fun _ => rfl, fun _ => rfl⟩
  unfold RobotsRules.parse at h ⊢
  dsimp only at h ⊢
  rw [Bool.not_eq_true'] at h
  split
  · rename_i touched
    rw [if_pos touched] at h
    exact ended.1 h
  · rename_i untouched
    rw [if_neg untouched] at h
    exact ended.2 h

/-- What the rules decide, case by case. -/
theorem decide_forbids (rules : RobotsRules) (path : List Char) :
    let delay := rules.crawlDelayMs.getD 0
    (maximumCrawlDelayMs < delay ∧ rules.decide path = .delayTooLong) ∨
      (delay ≤ maximumCrawlDelayMs ∧ ¬(rules.empty = false ∧ Forbids path rules.rules) ∧
        rules.decide path = .allowed delay) ∨
      (delay ≤ maximumCrawlDelayMs ∧ (rules.empty = false ∧ Forbids path rules.rules) ∧
        rules.decide path = .disallowed) := by
  intro delay
  rw [forbids_iff, RobotsRules.decide]
  change _ ∨ (_ ∧ _ ∧ (if maximumCrawlDelayMs < delay then _ else _) = _) ∨ _
  by_cases late : maximumCrawlDelayMs < delay
  · rw [if_pos late]
    exact Or.inl ⟨late, rfl⟩
  · rw [if_neg late]
    have soon : delay ≤ maximumCrawlDelayMs := UInt64.not_lt.mp late
    right
    cases empty : rules.empty with
    | true =>
      rw [if_pos rfl]
      exact Or.inl ⟨soon, by simp, rfl⟩
    | false =>
      rw [if_neg Bool.false_ne_true]
      cases found : rules.rules.foldl (betterMatch path) none with
      | none => exact Or.inl ⟨soon, by simp, rfl⟩
      | some pair =>
        obtain ⟨length, allowed⟩ := pair
        cases allowed with
        | true => exact Or.inl ⟨soon, by simp, rfl⟩
        | false => exact Or.inr ⟨soon, ⟨rfl, length, rfl⟩, rfl⟩

/-- The path is disallowed if a disallowing rule is the longest that matches, where the delay is
not too long and there are rules at all; in which order they stand does not matter. -/
theorem decide_disallowed_iff (rules : RobotsRules) (path : List Char) :
    (rules.decide path = .disallowed ↔
      rules.crawlDelayMs.getD 0 ≤ maximumCrawlDelayMs ∧ rules.empty = false ∧
        Forbids path rules.rules) ∧
    ∀ permuted, permuted.Perm rules.rules →
      RobotsRules.decide { rules with rules := permuted } path = rules.decide path := by
  constructor
  · rcases decide_forbids rules path with ⟨late, decision⟩ | ⟨soon, not, decision⟩ |
      ⟨soon, forbids, decision⟩
    · rw [decision]
      exact ⟨nofun, fun h => absurd late (UInt64.not_lt.mpr h.1)⟩
    · rw [decision]
      exact ⟨nofun, fun h => absurd h.2 not⟩
    · rw [decision]
      exact ⟨fun _ => ⟨soon, forbids⟩, fun _ => rfl⟩
  · intro permuted same
    have either : (rules.empty = false ∧ Forbids path permuted) ↔
        (rules.empty = false ∧ Forbids path rules.rules) :=
      and_congr_right (fun _ => ⟨Forbids.perm same.symm, Forbids.perm same⟩)
    rcases decide_forbids { rules with rules := permuted } path with ⟨late, decision⟩ |
      ⟨soon, not, decision⟩ | ⟨soon, forbids, decision⟩ <;>
    rcases decide_forbids rules path with ⟨late', decision'⟩ | ⟨soon', not', decision'⟩ |
      ⟨soon', forbids', decision'⟩
    · rw [decision, decision']
    · exact absurd late (UInt64.not_lt.mpr soon')
    · exact absurd late (UInt64.not_lt.mpr soon')
    · exact absurd late' (UInt64.not_lt.mpr soon)
    · rw [decision, decision']
    · exact absurd (either.mpr forbids') not
    · exact absurd late' (UInt64.not_lt.mpr soon)
    · exact absurd (either.mp forbids) not'
    · rw [decision, decision']

/-- A delay that is too long decides before the rules do, and the anchor does not count. -/
theorem delayedOrAnchored_differ :
    (RobotsRules.decide ⟨[("/a".toList, false)], some 6000, false⟩ "/a".toList = .delayTooLong ∧
      Forbids "/a".toList [("/a".toList, false)]) ∧
    RobotsRules.decide ⟨[("/a$".toList, false), ("/a".toList, true)], none, false⟩ "/a".toList =
      .allowed 0 := by
  refine ⟨⟨by decide +kernel, ("/a".toList, false), by simp, rfl, by decide +kernel, ?_⟩,
    by decide +kernel⟩
  intro other mem allows
  rw [List.mem_singleton.mp mem] at allows
  cases allows

end Amatl
