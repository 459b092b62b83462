import Amatl.Deep.Robots

/-! The lines of `robots.txt` that the parser has no use for. Consecutive `User-agent` lines
share a group, so a line between them is passed over only if it leaves the group together. -/

namespace Amatl

open Text

abbrev RobotsLine := { text : List Char // '\n' ∉ text }

def robotsBody (lines : List RobotsLine) : List Char := join ['\n'] (lines.map Subtype.val)

theorem robotsBody_surjective (body : List Char) : ∃ lines, robotsBody lines = body := by
  have clean : ∀ w ∈ splitBy (· == '\n') body, '\n' ∉ w := fun w mem => notMem_splitBy mem
  refine ⟨(splitBy (· == '\n') body).attachWith _ clean, ?_⟩
  rw [robotsBody, List.attachWith_map_subtype_val, join_splitBy]

/-- The field and the value of a line, if it has both. -/
def robotsField (line : List Char) : Option (List Char × List Char) :=
  let line := trim (line.takeWhile (· != '#'))
  if line.isEmpty then none
  else (splitOnce [':'] line).map (fun (field, value) =>
    ((trim field).map toAsciiLower, trim value))

def robotsFields : List (List Char) :=
  ["user-agent".toList, "allow".toList, "disallow".toList, "crawl-delay".toList]

/-- A blank line, a comment, a line without a colon, or a field of another name. -/
def unrecognised (line : RobotsLine) : Bool :=
  match robotsField line.1 with
  | none => true
  | some (field, _) => !robotsFields.contains field

def RobotsParser.take (userAgent : List Char) (p : RobotsParser) (field value : List Char) :
    RobotsParser :=
  if field = "user-agent".toList then
    { p with
      current := (if p.collectingAgents then p.current else []) ++ [value.map toAsciiLower],
      collectingAgents := true }
  else if field = "allow".toList ∨ field = "disallow".toList ∨ field = "crawl-delay".toList then
    p.current.foldl (RobotsParser.applyTo userAgent field value) { p with collectingAgents := false }
  else { p with collectingAgents := false }

theorem RobotsParser.line_eq (userAgent : List Char) (p : RobotsParser) (line : List Char) :
    p.line userAgent line =
      match robotsField line with
      | none => p
      | some (field, value) => p.take userAgent field value := by
  unfold RobotsParser.line robotsField
  dsimp only
  by_cases blank : (trim (line.takeWhile (· != '#'))).isEmpty = true
  · rw [if_pos blank, if_pos blank]
  · rw [if_neg blank, if_neg blank]
    cases splitOnce [':'] (trim (line.takeWhile (· != '#'))) <;> rfl

def RobotsParser.rules (p : RobotsParser) : RobotsRules :=
  let group := if p.specific.touched then p.specific else p.wildcard
  { rules := group.rules, crawlDelayMs := group.crawlDelayMs, empty := !group.touched }

def robotsParser (userAgent : List Char) (lines : List RobotsLine) : RobotsParser :=
  lines.foldl (fun p line => p.line userAgent line.1) .start

theorem robotsField_carriage (line : List Char) :
    robotsField (line ++ ['\r']) = robotsField line := by
  have same : trim ((line ++ ['\r']).takeWhile (· != '#')) =
      trim (line.takeWhile (· != '#')) := by
    rw [List.takeWhile_append]
    by_cases comment : (line.takeWhile (· != '#')).length = line.length
    · have whole : line.takeWhile (· != '#') = line :=
        (List.takeWhile_prefix _).eq_of_length comment
      rw [if_pos comment, whole]
      exact trim_append (by decide) line
    · rw [if_neg comment]
  unfold robotsField
  dsimp only
  rw [same]

theorem parse_robotsBody (userAgent : List Char) (lines : List RobotsLine) :
    RobotsRules.parse (robotsBody lines) userAgent = (robotsParser userAgent lines).rules := by
  have blank : ∀ p : RobotsParser, p.line userAgent [] = p := fun p => rfl
  have carriage : ∀ (p : RobotsParser) (line : List Char),
      p.line userAgent (line ++ ['\r']) = p.line userAgent line := by
    intro p line
    rw [RobotsParser.line_eq, RobotsParser.line_eq, robotsField_carriage]
  have clean : ∀ w ∈ lines.map Subtype.val, '\n' ∉ w := by
    intro w mem
    obtain ⟨line, -, rfl⟩ := List.mem_map.mp mem
    exact line.2
  have run := foldl_lines blank carriage clean RobotsParser.start
  unfold RobotsRules.parse robotsBody robotsParser
  rw [run, List.foldl_map]
  rfl

/-- How often a group names an agent that only the rules for everyone reach. -/
def stars (own : List Char) (agents : List (List Char)) : Nat :=
  agents.countP (fun agent => agent != own && agent == "*".toList)

theorem stars_cons (own agent : List Char) (agents : List (List Char)) :
    stars own (agent :: agents) =
      stars own agents + if agent ≠ own ∧ agent = "*".toList then 1 else 0 := by
  simp only [stars, List.countP_cons, Bool.and_eq_true, bne_iff_ne, beq_iff_eq]

theorem stars_append (own : List Char) (agents others : List (List Char)) :
    stars own (agents ++ others) = stars own agents + stars own others :=
  List.countP_append

theorem foldl_applyTo (userAgent field value : List Char) (agents : List (List Char))
    (p : RobotsParser) :
    agents.foldl (RobotsParser.applyTo userAgent field value) p =
      { p with
        specific := (RobotsGroup.apply · field value)^[agents.count (userAgent.map toAsciiLower)]
          p.specific
        wildcard := (RobotsGroup.apply · field value)^[stars (userAgent.map toAsciiLower) agents]
          p.wildcard } := by
  induction agents generalizing p with
  | nil => rfl
  | cons agent agents ih =>
    rw [List.foldl_cons, ih, RobotsParser.applyTo]
    by_cases own : agent = userAgent.map toAsciiLower
    · subst own
      simp [stars]
    · by_cases star : agent = "*".toList
      · rw [if_neg own, if_pos star, stars_cons, if_pos ⟨own, star⟩, List.count_cons_of_ne own]
        rfl
      · rw [if_neg own, if_neg star, stars_cons, if_neg (fun both => star both.2),
          List.count_cons_of_ne own]
        rfl

theorem touched_iterate {field value : List Char} {group : RobotsGroup} (n : Nat)
    (h : group.touched = true) :
    ((RobotsGroup.apply · field value)^[n] group).touched = true := by
  induction n generalizing group with
  | zero => exact h
  | succ n ih =>
    rw [Function.iterate_succ_apply]
    exact ih rfl

/-- Two parsers that end with the same rules whatever they read: they may differ in agents
that no rule for this reader depends on. -/
structure InStep (own : List Char) (p q : RobotsParser) : Prop where
  specific : p.specific = q.specific
  wildcard : p.specific.touched = true ∨
    (p.wildcard = q.wildcard ∧ stars own p.current = stars own q.current)
  agents : p.current.count own = q.current.count own
  collecting : p.collectingAgents = q.collectingAgents ∨
    (q.collectingAgents = false ∧ p.current.count own = 0 ∧
      (p.specific.touched = true ∨ stars own p.current = 0))

theorem InStep.rules {own : List Char} {p q : RobotsParser} (h : InStep own p q) :
    p.rules = q.rules := by
  unfold RobotsParser.rules
  rcases h.wildcard with touched | ⟨wildcard, -⟩
  · have touched' : q.specific.touched = true := by rw [← h.specific, touched]
    simp only [touched', if_true, h.specific]
  · simp only [h.specific, wildcard]

theorem InStep.agent {own : List Char} {p q : RobotsParser} (h : InStep own p q)
    (agent : List Char) :
    InStep own
      { p with
        current := (if p.collectingAgents then p.current else []) ++ [agent]
        collectingAgents := true }
      { q with
        current := (if q.collectingAgents then q.current else []) ++ [agent]
        collectingAgents := true } := by
  have kept : ((if p.collectingAgents then p.current else []).count own =
      (if q.collectingAgents then q.current else []).count own) ∧
      (p.specific.touched = true ∨
        stars own (if p.collectingAgents then p.current else []) =
          stars own (if q.collectingAgents then q.current else [])) := by
    rcases h.collecting with same | ⟨closed, none, silent⟩
    · rw [same]
      by_cases collects : q.collectingAgents = true
      · rw [if_pos collects, if_pos collects]
        exact ⟨h.agents, h.wildcard.imp_right And.right⟩
      · rw [if_neg collects, if_neg collects]
        exact ⟨rfl, Or.inr rfl⟩
    · rw [closed]
      by_cases collects : p.collectingAgents = true
      · rw [if_pos collects]
        exact ⟨by simp [none], silent.imp_right (fun zero => by rw [zero]; rfl)⟩
      · rw [if_neg collects]
        exact ⟨by simp, Or.inr (by simp)⟩
  refine ⟨h.specific, ?_, ?_, Or.inl rfl⟩
  · rcases kept.2 with touched | same
    · exact Or.inl touched
    · refine h.wildcard.imp_right (fun wild => ⟨wild.1, ?_⟩)
      rw [stars_append, stars_append, same]
  · rw [List.count_append, List.count_append, kept.1]

theorem InStep.take {userAgent : List Char} {p q : RobotsParser}
    (h : InStep (userAgent.map toAsciiLower) p q) (field value : List Char) :
    InStep (userAgent.map toAsciiLower) (p.take userAgent field value)
      (q.take userAgent field value) := by
  unfold RobotsParser.take
  by_cases agent : field = "user-agent".toList
  · rw [if_pos agent, if_pos agent]
    exact h.agent _
  · rw [if_neg agent, if_neg agent]
    by_cases rule : field = "allow".toList ∨ field = "disallow".toList ∨
        field = "crawl-delay".toList
    · rw [if_pos rule, if_pos rule, foldl_applyTo, foldl_applyTo]
      refine ⟨by simp only [h.specific, h.agents], ?_, h.agents, Or.inl rfl⟩
      rcases h.wildcard with touched | ⟨wildcard, same⟩
      · exact Or.inl (touched_iterate _ touched)
      · exact Or.inr ⟨by simp only [wildcard, same], same⟩
    · rw [if_neg rule, if_neg rule]
      exact ⟨h.specific, h.wildcard, h.agents, Or.inl rfl⟩

theorem InStep.run {userAgent : List Char} {p q : RobotsParser}
    (h : InStep (userAgent.map toAsciiLower) p q) (lines : List RobotsLine) :
    (lines.foldl (fun p line => p.line userAgent line.1) p).rules =
      (lines.foldl (fun p line => p.line userAgent line.1) q).rules := by
  induction lines generalizing p q with
  | nil => exact h.rules
  | cons line lines ih =>
    rw [List.foldl_cons, List.foldl_cons]
    apply ih
    rw [RobotsParser.line_eq, RobotsParser.line_eq]
    cases robotsField line.1 with
    | none => exact h
    | some pair => exact h.take pair.1 pair.2

/-- The line has a field, it stands between the agents of a group, and one of those before it
is the reader, or everyone while the reader has no rules of its own. -/
def splitsGroup (userAgent : List Char) (before : List RobotsLine) (line : RobotsLine) : Bool :=
  let p := robotsParser userAgent before
  (robotsField line.1).isSome && p.collectingAgents &&
    (0 < p.current.count (userAgent.map toAsciiLower) ||
      (!p.specific.touched && 0 < stars (userAgent.map toAsciiLower) p.current))

theorem unrecognised_line (userAgent : List Char) (p : RobotsParser) {line : RobotsLine}
    (h : unrecognised line = true) :
    p.line userAgent line.1 =
      if (robotsField line.1).isSome then { p with collectingAgents := false } else p := by
  rw [RobotsParser.line_eq]
  unfold unrecognised at h
  cases found : robotsField line.1 with
  | none => rfl
  | some pair =>
    obtain ⟨field, value⟩ := pair
    rw [found] at h
    simp only [robotsFields, Bool.not_eq_true', List.contains_eq_mem, List.mem_cons,
      List.not_mem_nil, or_false, decide_eq_false_iff_not, not_or] at h
    obtain ⟨agent, allow, disallow, delay⟩ := h
    simp only [RobotsParser.take, if_neg agent, allow, disallow, delay, or_false, if_false,
      Option.isSome_some, if_true]

theorem inStep_of_not_splitsGroup {userAgent : List Char} {before : List RobotsLine}
    {line : RobotsLine} (h : unrecognised line = true)
    (together : splitsGroup userAgent before line = false) :
    InStep (userAgent.map toAsciiLower) (robotsParser userAgent before)
      ((robotsParser userAgent before).line userAgent line.1) := by
  rw [unrecognised_line userAgent _ h]
  unfold splitsGroup at together
  dsimp only at together
  generalize robotsParser userAgent before = p at together ⊢
  by_cases field : (robotsField line.1).isSome = true
  · rw [if_pos field]
    by_cases collects : p.collectingAgents = true
    · simp only [field, collects, Bool.true_and, Bool.or_eq_false_iff, Bool.and_eq_false_imp,
        decide_eq_false_iff_not, Bool.not_eq_true'] at together
      obtain ⟨own, everyone⟩ := together
      refine ⟨rfl, Or.inr ⟨rfl, rfl⟩, rfl, Or.inr ⟨rfl, by omega, ?_⟩⟩
      by_cases touched : p.specific.touched = true
      · exact Or.inl touched
      · have silent := everyone (by simpa using touched)
        exact Or.inr (by omega)
    · exact ⟨rfl, Or.inr ⟨rfl, rfl⟩, rfl, Or.inl (by simpa using collects)⟩
  · rw [if_neg field]
    exact ⟨rfl, Or.inr ⟨rfl, rfl⟩, rfl, Or.inl rfl⟩

/-- A further agent of the group, which is neither the reader nor everyone. -/
def otherAgent (userAgent : List Char) : RobotsLine :=
  if userAgent.map toAsciiLower = "a".toList then ⟨"User-agent: b".toList, by decide⟩
  else ⟨"User-agent: a".toList, by decide⟩

theorem otherAgent_line (userAgent : List Char) :
    ∃ agent, agent ≠ userAgent.map toAsciiLower ∧ agent ≠ "*".toList ∧
      ∀ p : RobotsParser, p.line userAgent (otherAgent userAgent).1 =
        { p with
          current := (if p.collectingAgents then p.current else []) ++ [agent]
          collectingAgents := true } := by
  unfold otherAgent
  by_cases taken : userAgent.map toAsciiLower = "a".toList
  · rw [if_pos taken, taken]
    exact ⟨"b".toList, by decide, by decide, fun p => rfl⟩
  · rw [if_neg taken]
    exact ⟨"a".toList, Ne.symm taken, by decide, fun p => rfl⟩

def disallowAll : RobotsLine := ⟨"Disallow: /".toList, by decide⟩

theorem disallow_iterate (n : Nat) (group : RobotsGroup) :
    ((RobotsGroup.apply · "disallow".toList "/".toList)^[n] group).rules.length =
        group.rules.length + n ∧
      (((RobotsGroup.apply · "disallow".toList "/".toList)^[n] group).touched = true ↔
        group.touched = true ∨ 0 < n) := by
  induction n generalizing group with
  | zero => simp
  | succ n ih =>
    obtain ⟨length, touched⟩ := ih (group.apply "disallow".toList "/".toList)
    have one : (group.apply "disallow".toList "/".toList).rules.length =
        group.rules.length + 1 := by simp [RobotsGroup.apply]
    rw [Function.iterate_succ_apply, length, touched, one]
    exact ⟨by omega, by simp [RobotsGroup.apply]⟩

theorem disallowAll_run (userAgent : List Char) (n : Nat) (p : RobotsParser) :
    let q := (List.replicate n disallowAll).foldl (fun p line => p.line userAgent line.1) p
    q.specific.rules.length =
        p.specific.rules.length + n * p.current.count (userAgent.map toAsciiLower) ∧
      q.wildcard.rules.length =
        p.wildcard.rules.length + n * stars (userAgent.map toAsciiLower) p.current ∧
      (q.specific.touched = true ↔
        p.specific.touched = true ∨ 0 < n * p.current.count (userAgent.map toAsciiLower)) := by
  induction n generalizing p with
  | zero => simp
  | succ n ih =>
    have line : p.line userAgent disallowAll.1 =
        p.current.foldl (RobotsParser.applyTo userAgent "disallow".toList "/".toList)
          { p with collectingAgents := false } := rfl
    dsimp only at ih ⊢
    rw [List.replicate_succ, List.foldl_cons, line, foldl_applyTo]
    obtain ⟨specific, wildcard, touched⟩ := ih
      { p with
        specific := (RobotsGroup.apply · "disallow".toList "/".toList)^[p.current.count
          (userAgent.map toAsciiLower)] p.specific
        wildcard := (RobotsGroup.apply · "disallow".toList "/".toList)^[stars
          (userAgent.map toAsciiLower) p.current] p.wildcard
        collectingAgents := false }
    rw [specific, wildcard, touched, (disallow_iterate _ _).1, (disallow_iterate _ _).1,
      (disallow_iterate _ _).2]
    refine ⟨by ring, by ring, ?_⟩
    rw [Nat.succ_mul, or_assoc]
    apply or_congr_right
    dsimp only
    omega

theorem disallowAll_rules (userAgent : List Char) (n : Nat) (p : RobotsParser) :
    ((List.replicate n disallowAll).foldl
        (fun p line => p.line userAgent line.1) p).rules.rules.length =
      if p.specific.touched = true ∨ 0 < n * p.current.count (userAgent.map toAsciiLower) then
        p.specific.rules.length + n * p.current.count (userAgent.map toAsciiLower)
      else p.wildcard.rules.length + n * stars (userAgent.map toAsciiLower) p.current := by
  obtain ⟨specific, wildcard, touched⟩ := disallowAll_run userAgent n p
  rw [← specific, ← wildcard, RobotsParser.rules]
  dsimp only
  simp only [← touched]
  split <;> rfl

theorem robotsParser_append (userAgent : List Char) (before after : List RobotsLine) :
    robotsParser userAgent (before ++ after) =
      after.foldl (fun p line => p.line userAgent line.1) (robotsParser userAgent before) := by
  simp only [robotsParser, List.foldl_append]

/-- Behind a line that splits the group, an agent and enough rules show the difference. -/
theorem splitsGroup_shows {userAgent : List Char} {before : List RobotsLine} {line : RobotsLine}
    (h : unrecognised line = true) (split : splitsGroup userAgent before line = true) :
    ∃ after, (robotsParser userAgent (before ++ line :: after)).rules ≠
      (robotsParser userAgent (before ++ after)).rules := by
  obtain ⟨agent, other, single, hagent⟩ := otherAgent_line userAgent
  unfold splitsGroup at split
  dsimp only at split
  simp only [robotsParser_append, List.foldl_cons, unrecognised_line userAgent _ h]
  generalize robotsParser userAgent before = p at split ⊢
  simp only [Bool.and_eq_true, Bool.or_eq_true, decide_eq_true_eq, Bool.not_eq_true'] at split
  obtain ⟨⟨field, collects⟩, heard⟩ := split
  refine ⟨otherAgent userAgent ::
    List.replicate (p.wildcard.rules.length + 1) disallowAll, fun equal => ?_⟩
  have lengths := congrArg (fun rules => rules.rules.length) equal
  have noCount : List.count (userAgent.map toAsciiLower) [agent] = 0 := by simp [other]
  have noStars : stars (userAgent.map toAsciiLower) [agent] = 0 := by
    rw [stars_cons, if_neg (fun both => single both.2)]
    rfl
  simp only [field, if_true, List.foldl_cons, hagent, collects, disallowAll_rules,
    Bool.false_eq_true, if_false, List.nil_append, noCount, noStars, List.count_append,
    stars_append, Nat.mul_zero, Nat.add_zero, Nat.lt_irrefl, or_false] at lengths
  by_cases own : 0 < p.current.count (userAgent.map toAsciiLower)
  · have most := Nat.le_mul_of_pos_right (p.wildcard.rules.length + 1) own
    rw [if_pos (Or.inr (by omega))] at lengths
    split at lengths <;> omega
  · obtain ⟨untouched, everyone⟩ := heard.resolve_left own
    have most := Nat.le_mul_of_pos_right (p.wildcard.rules.length + 1) everyone
    have none : p.current.count (userAgent.map toAsciiLower) = 0 := by omega
    rw [if_neg (by simp [untouched]), if_neg (by simp [untouched, none])] at lengths
    omega

/-- A line that the parser has no use for changes nothing, whatever follows, exactly where it
does not split a group whose rules the reader would take. -/
theorem unrecognised_ignored_iff (userAgent : List Char) (before : List RobotsLine)
    (line : RobotsLine) (h : unrecognised line = true) :
    (∀ after, RobotsRules.parse (robotsBody (before ++ line :: after)) userAgent =
        RobotsRules.parse (robotsBody (before ++ after)) userAgent) ↔
      splitsGroup userAgent before line = false := by
  simp only [parse_robotsBody]
  constructor
  · intro same
    by_contra split
    obtain ⟨after, differs⟩ := splitsGroup_shows h (by simpa using split)
    exact differs (same after)
  · intro together after
    rw [robotsParser_append, robotsParser_append, List.foldl_cons]
    exact ((inStep_of_not_splitsGroup h together).run after).symm

/-- No agent line comes before the first line that has another field. -/
def goesOn : List RobotsLine → Bool
  | [] => true
  | line :: after =>
    match robotsField line.1 with
    | none => goesOn after
    | some (field, _) => field ≠ "user-agent".toList

theorem goesOn_run {userAgent : List Char} {after : List RobotsLine} (rules : goesOn after = true)
    (p : RobotsParser) :
    (after.foldl (fun (p : RobotsParser) line => p.line userAgent line.1)
        { p with collectingAgents := false }).rules =
      (after.foldl (fun (p : RobotsParser) line => p.line userAgent line.1) p).rules := by
  induction after generalizing p with
  | nil => rfl
  | cons line after ih =>
    rw [goesOn] at rules
    rw [List.foldl_cons, List.foldl_cons, RobotsParser.line_eq, RobotsParser.line_eq]
    cases found : robotsField line.1 with
    | none =>
      rw [found] at rules
      exact ih rules p
    | some pair =>
      obtain ⟨field, value⟩ := pair
      rw [found] at rules
      have other : field ≠ "user-agent".toList := of_decide_eq_true rules
      simp only [RobotsParser.take, if_neg other]

/-- A line between the agents of a group and its rules is passed over, whoever the agents are. -/
theorem unrecognised_before_rules (userAgent : List Char) (before : List RobotsLine)
    {line : RobotsLine} (h : unrecognised line = true) {after : List RobotsLine}
    (rules : goesOn after = true) :
    RobotsRules.parse (robotsBody (before ++ line :: after)) userAgent =
      RobotsRules.parse (robotsBody (before ++ after)) userAgent := by
  simp only [parse_robotsBody]
  rw [robotsParser_append, robotsParser_append, List.foldl_cons, unrecognised_line userAgent _ h]
  split
  · exact goesOn_run rules _
  · rfl

/-- Behind the rules of a group a sitemap is passed over. -/
theorem lateSitemap_ignored :
    unrecognised ⟨"Sitemap: /s.xml".toList, by decide⟩ = true ∧
      ∀ after, RobotsRules.parse
          (robotsBody ([⟨"User-agent: amatl".toList, by decide⟩, disallowAll] ++
            ⟨"Sitemap: /s.xml".toList, by decide⟩ :: after)) robotsUserAgent.toList =
        RobotsRules.parse
          (robotsBody ([⟨"User-agent: amatl".toList, by decide⟩, disallowAll] ++ after))
          robotsUserAgent.toList :=
  ⟨by decide +kernel, (unrecognised_ignored_iff _ _ _ (by decide +kernel)).mpr (by decide +kernel)⟩

/-- A sitemap between two agents leaves the first of them without the rules of the group. -/
theorem sitemap_splits :
    unrecognised ⟨"Sitemap: /s.xml".toList, by decide⟩ = true ∧
      RobotsRules.parse "User-agent: amatl\nUser-agent: other\nDisallow: /p".toList
          robotsUserAgent.toList = ⟨[("/p".toList, false)], none, false⟩ ∧
      RobotsRules.parse
          "User-agent: amatl\nSitemap: /s.xml\nUser-agent: other\nDisallow: /p".toList
          robotsUserAgent.toList = ⟨[], none, true⟩ := by
  decide +kernel

end Amatl
