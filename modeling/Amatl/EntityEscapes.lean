import Amatl.CleanTexts

/-! Texts whose special characters are escaped, and what is decoded from them. A text is a row of
pieces, each a character as it is or a reference for one. -/

namespace Amatl

open Text

/-- A character, and what stands between `&` and `;` where a reference is spelt for it. -/
structure Piece where
  value : Char
  body : Option (List Char)
  deriving DecidableEq

def Piece.text (p : Piece) : List Char :=
  match p.body with
  | none => [p.value]
  | some body => '&' :: (body ++ [';'])

def spelt (ps : List Piece) : List Char := ps.flatMap Piece.text

def meant (ps : List Piece) : List Char := ps.map Piece.value

def rawPieces (text : List Char) : List Piece := text.map (fun c => ⟨c, none⟩)

/-- References can be told apart: none has an ampersand or a semicolon inside. -/
def Piece.Clean (p : Piece) : Prop := ∀ body, p.body = some body → '&' ∉ body ∧ ';' ∉ body

theorem spelt_cons (p : Piece) (ps : List Piece) : spelt (p :: ps) = p.text ++ spelt ps := rfl

theorem spelt_append (ps qs : List Piece) : spelt (ps ++ qs) = spelt ps ++ spelt qs :=
  List.flatMap_append

theorem meant_append (ps qs : List Piece) : meant (ps ++ qs) = meant ps ++ meant qs :=
  List.map_append

theorem spelt_raw (text : List Char) : spelt (rawPieces text) = text := by
  induction text with
  | nil => rfl
  | cons c text ih => exact congrArg (c :: ·) ih

theorem meant_raw (text : List Char) : meant (rawPieces text) = text := by
  rw [meant, rawPieces, List.map_map]
  exact List.map_id text

theorem spelt_bare {ps : List Piece} (h : ∀ p ∈ ps, p.body = none) : spelt ps = meant ps := by
  induction ps with
  | nil => rfl
  | cons p ps ih =>
    have text : p.text = [p.value] := by rw [Piece.text, h p List.mem_cons_self]
    rw [spelt_cons, text, ih (fun q mem => h q (List.mem_cons_of_mem p mem))]
    rfl

theorem raw_of_start {text rest : List Char} {ps : List Piece} (plain : '&' ∉ text)
    (h : spelt ps = text ++ rest) : ∃ qs, ps = rawPieces text ++ qs ∧ spelt qs = rest := by
  induction text generalizing ps with
  | nil => exact ⟨ps, rfl, h⟩
  | cons c text ih =>
    cases ps with
    | nil => cases h
    | cons p ps =>
      rw [spelt_cons, Piece.text] at h
      cases body : p.body with
      | none =>
        rw [body] at h
        obtain ⟨same, later⟩ := List.cons.inj h
        obtain ⟨qs, rfl, hqs⟩ := ih (fun mem => plain (List.mem_cons_of_mem c mem)) later
        refine ⟨qs, ?_, hqs⟩
        have piece : p = ⟨c, none⟩ := by
          obtain ⟨value, body'⟩ := p
          rw [show body' = none from body, show value = c from same]
        rw [piece]
        rfl
      | some inner =>
        rw [body] at h
        have ampersand : '&' = c := (List.cons.inj h).1
        exact absurd (List.mem_cons.mpr (Or.inl ampersand)) plain

/-! The replacement of one name. -/

theorem replaceFrom_skip (pat rep : List Char) (skip : Nat) (s : List Char) :
    replaceFrom pat rep skip s = replaceFrom pat rep 0 (s.drop skip) := by
  induction s generalizing skip with
  | nil => cases skip <;> simp [replaceFrom]
  | cons c s ih =>
    cases skip with
    | zero => rfl
    | succ skip => rw [replaceFrom, ih, List.drop_succ_cons]

theorem replace_found {c : Char} {pat rep : List Char} (rest : List Char) :
    replace (c :: pat) rep (c :: (pat ++ rest)) = rep ++ replace (c :: pat) rep rest := by
  have starts : (c :: pat).isPrefixOf (c :: (pat ++ rest)) = true :=
    List.isPrefixOf_iff_prefix.mpr ⟨rest, rfl⟩
  rw [replace, replaceFrom, if_pos starts, replaceFrom_skip]
  simp [replace]

theorem replace_other {pat rep : List Char} {c : Char} {s : List Char}
    (absent : ¬pat <+: c :: s) : replace pat rep (c :: s) = c :: replace pat rep s := by
  rw [replace, replaceFrom, if_neg (fun h => absent (List.isPrefixOf_iff_prefix.mp h))]
  rfl

theorem replace_through {pat rep text : List Char} (plain : '&' ∉ text) (rest : List Char) :
    replace ('&' :: pat) rep (text ++ rest) = text ++ replace ('&' :: pat) rep rest := by
  induction text with
  | nil => rfl
  | cons c text ih =>
    have other : ¬('&' :: pat) <+: c :: (text ++ rest) := by
      rintro ⟨tail, equal⟩
      exact plain (by rw [(List.cons.inj equal).1]; simp)
    rw [List.cons_append, replace_other other, ih (fun mem => plain (List.mem_cons_of_mem c mem))]
    rfl

/-- The name is spelt out by characters as they are. -/
def RawRun (name : List Char) (ps : List Piece) : Prop :=
  ∃ front back, ps = front ++ rawPieces ('&' :: (name ++ [';'])) ++ back

theorem RawRun.tail {name : List Char} {p : Piece} {ps : List Piece} (h : RawRun name (p :: ps)) :
    (∃ back, p :: ps = rawPieces ('&' :: (name ++ [';'])) ++ back) ∨ RawRun name ps := by
  obtain ⟨front, back, split⟩ := h
  cases front with
  | nil => exact Or.inl ⟨back, split⟩
  | cons q front =>
    rw [List.cons_append, List.cons_append] at split
    exact Or.inr ⟨front, back, (List.cons.inj split).2⟩

theorem RawRun.cons {name : List Char} {ps : List Piece} (h : RawRun name ps) (p : Piece) :
    RawRun name (p :: ps) := by
  obtain ⟨front, back, rfl⟩ := h
  exact ⟨p :: front, back, rfl⟩

theorem RawRun.spelled_meant {name : List Char} {ps : List Piece} (h : RawRun name ps) :
    ('&' :: (name ++ [';'])) <:+: meant ps := by
  obtain ⟨front, back, rfl⟩ := h
  exact ⟨meant front, meant back, by rw [meant_append, meant_append, meant_raw]⟩

/-- What the replacement of a name makes of the pieces. -/
structure Replaced (name : List Char) (c : Char) (ps qs : List Piece) : Prop where
  text : replace ('&' :: (name ++ [';'])) [c] (spelt ps) = spelt qs
  pieces : ∀ q ∈ qs, (q ∈ ps ∧ q.body ≠ some name) ∨ q = ⟨c, none⟩
  shorter : qs.length ≤ ps.length
  same : qs.length = ps.length → meant qs = meant ps
  strict : RawRun name ps → qs.length < ps.length
  kept : ¬RawRun name ps → qs.length = ps.length
  idle : ¬RawRun name ps → (∀ p ∈ ps, p.body ≠ some name) → qs = ps

theorem Replaced.keep {name : List Char} {c : Char} {ps qs : List Piece}
    (h : Replaced name c ps qs) {p : Piece} (other : p.body ≠ some name)
    (text : replace ('&' :: (name ++ [';'])) [c] (spelt (p :: ps)) =
      p.text ++ replace ('&' :: (name ++ [';'])) [c] (spelt ps))
    (inside : RawRun name (p :: ps) → RawRun name ps) : Replaced name c (p :: ps) (p :: qs) where
  text := by rw [text, h.text]; rfl
  pieces q mem := by
    rcases List.mem_cons.mp mem with rfl | later
    · exact Or.inl ⟨List.mem_cons_self, other⟩
    · rcases h.pieces q later with ⟨there, differs⟩ | new
      · exact Or.inl ⟨List.mem_cons_of_mem p there, differs⟩
      · exact Or.inr new
  shorter := Nat.succ_le_succ h.shorter
  same equal := congrArg (p.value :: ·) (h.same (Nat.succ.inj equal))
  strict run := Nat.succ_lt_succ (h.strict (inside run))
  kept none := congrArg Nat.succ (h.kept (fun run => none (run.cons p)))
  idle none differ := congrArg (p :: ·) (h.idle (fun run => none (run.cons p))
    (fun q mem => differ q (List.mem_cons_of_mem p mem)))

theorem replace_pieces {name : List Char} {c : Char} (clean : '&' ∉ name ∧ ';' ∉ name)
    {ps : List Piece} (pieces : ∀ p ∈ ps, p.Clean ∧ (p.body = some name → p.value = c)) :
    ∃ qs, Replaced name c ps qs := by
  have plain : '&' ∉ name ++ [';'] := by simpa using clean.1
  induction size : ps.length using Nat.strong_induction_on generalizing ps with
  | _ size ih =>
    cases ps with
    | nil =>
      have nothing : ¬RawRun name [] := by
        rintro ⟨front, back, split⟩
        simp [rawPieces] at split
      exact ⟨[], rfl, nofun, le_rfl, fun _ => rfl, fun run => absurd run nothing, fun _ => rfl,
        fun _ _ => rfl⟩
    | cons p ps =>
      have others := fun q (mem : q ∈ ps) => pieces q (List.mem_cons_of_mem p mem)
      obtain ⟨qs, rest⟩ := ih ps.length (by rw [← size]; simp) others rfl
      cases body : p.body with
      | some inner =>
        have text : p.text = '&' :: (inner ++ [';']) := by rw [Piece.text, body]
        have inside : RawRun name (p :: ps) → RawRun name ps := by
          intro run
          rcases run.tail with ⟨back, split⟩ | later
          · have raw := congrArg Piece.body (List.cons.inj split).1
            rw [body] at raw
            cases raw
          · exact later
        by_cases named : inner = name
        · subst named
          have value := (pieces p List.mem_cons_self).2 body
          refine ⟨⟨c, none⟩ :: qs, ?_, ?_, Nat.succ_le_succ rest.shorter, ?_, ?_, ?_, ?_⟩
          · rw [spelt_cons, text, List.cons_append, replace_found, rest.text]
            rfl
          · intro q mem
            rcases List.mem_cons.mp mem with rfl | later
            · exact Or.inr rfl
            · rcases rest.pieces q later with ⟨there, differs⟩ | new
              · exact Or.inl ⟨List.mem_cons_of_mem p there, differs⟩
              · exact Or.inr new
          · intro equal
            rw [meant, meant, List.map_cons, List.map_cons, value]
            exact congrArg (c :: ·) (rest.same (Nat.succ.inj equal))
          · exact fun run => Nat.succ_lt_succ (rest.strict (inside run))
          · exact fun none => congrArg Nat.succ (rest.kept (fun run => none (run.cons p)))
          · exact fun _ differ => absurd body (differ p List.mem_cons_self)
        · have cleanInner := (pieces p List.mem_cons_self).1 inner body
          refine ⟨p :: qs, rest.keep (by rw [body]; simpa using named) ?_ inside⟩
          have away : ¬('&' :: (name ++ [';'])) <+: '&' :: (inner ++ [';'] ++ spelt ps) := by
            rintro ⟨tail, equal⟩
            have behind : name ++ [';'] ++ tail = inner ++ [';'] ++ spelt ps :=
              (List.cons.inj equal).2
            rw [List.append_assoc, List.append_assoc] at behind
            have first := splitOnce_append clean.2 tail
            have second := splitOnce_append cleanInner.2 (spelt ps)
            have split := congrArg (splitOnce [';']) behind
            change splitOnce [';'] (name ++ ';' :: tail) =
              splitOnce [';'] (inner ++ ';' :: spelt ps) at split
            rw [first, second] at split
            exact named (congrArg Prod.fst (Option.some.inj split)).symm
          have plainInner : '&' ∉ inner ++ [';'] := by simpa using cleanInner.1
          rw [spelt_cons, text, List.cons_append, replace_other away,
            replace_through plainInner]
          rfl
      | none =>
        have text : p.text = [p.value] := by rw [Piece.text, body]
        by_cases here : ('&' :: (name ++ [';'])) <+: p.value :: spelt ps
        · obtain ⟨tail, equal⟩ := here
          obtain ⟨ampersand, behind⟩ := List.cons.inj equal
          obtain ⟨later, rfl, htail⟩ := raw_of_start plain behind.symm
          have run : RawRun name (p :: (rawPieces (name ++ [';']) ++ later)) := by
            refine ⟨[], later, ?_⟩
            obtain ⟨value, body'⟩ := p
            rw [show body' = none from body, show value = '&' from ampersand.symm]
            rfl
          obtain ⟨rs, left⟩ := ih later.length (by
            rw [← size]
            simp only [List.length_cons, List.length_append]
            omega) (fun q mem => others q (List.mem_append_right _ mem)) rfl
          have less : (⟨c, none⟩ :: rs).length <
              (p :: (rawPieces (name ++ [';']) ++ later)).length := by
            have shorter := left.shorter
            simp only [List.length_cons, List.length_append, rawPieces, List.length_map,
              List.length_nil]
            omega
          refine ⟨⟨c, none⟩ :: rs, ?_, ?_, less.le, fun equal => absurd equal less.ne,
            fun _ => less, fun none => absurd run none, fun none => absurd run none⟩
          · rw [spelt_cons, text, ← ampersand, spelt_append, spelt_raw,
              List.singleton_append, replace_found, left.text]
            rfl
          · intro q mem
            rcases List.mem_cons.mp mem with rfl | later'
            · exact Or.inr rfl
            · rcases left.pieces q later' with ⟨there, differs⟩ | new
              · exact Or.inl ⟨List.mem_cons_of_mem p (List.mem_append_right _ there), differs⟩
              · exact Or.inr new
        · refine ⟨p :: qs, rest.keep (by rw [body]; simp) ?_ (fun run => ?_)⟩
          · rw [spelt_cons, text, List.singleton_append, replace_other here]
            rfl
          · rcases run.tail with ⟨back, split⟩ | later
            · refine absurd ?_ here
              have whole := congrArg spelt split
              rw [spelt_cons, text, spelt_append, spelt_raw] at whole
              exact ⟨spelt back, whole.symm⟩
            · exact later

/-! The replacements of all names, one after the other. -/

def namedBodies : List (List Char × Char) :=
  [("amp".toList, '&'), ("lt".toList, '<'), ("gt".toList, '>'), ("quot".toList, '"'),
    ("#39".toList, '\''), ("apos".toList, '\''), ("nbsp".toList, ' ')]

def replaceNames (names : List (List Char × Char)) (text : List Char) : List Char :=
  names.foldl (fun text e => replace ('&' :: (e.1 ++ [';'])) [e.2] text) text

theorem namedText_eq (value : List Char) : namedText value = replaceNames namedBodies value := rfl

def spellingOf (name : List Char) : List Char := '&' :: (name ++ [';'])

def laterSpecials : List Char := ['<', '>', '"', '\'']

theorem rawRun_of_spelled {name : List Char} {ps : List Piece}
    (raw : ∀ p ∈ ps, p.body = none ∨ p.value ∈ laterSpecials)
    (spelled : ∀ c ∈ spellingOf name, c ∉ laterSpecials) (h : spellingOf name <:+: meant ps) :
    RawRun name ps := by
  obtain ⟨front, back, whole⟩ := h
  obtain ⟨run, last, rfl, hrun, -⟩ := List.map_eq_append_iff.mp whole.symm
  obtain ⟨first, middle, rfl, -, hmiddle⟩ := List.map_eq_append_iff.mp hrun
  refine ⟨first, last, ?_⟩
  have pieces : middle = rawPieces (meant middle) := by
    rw [rawPieces, meant, List.map_map]
    have each : ∀ p ∈ middle, ((fun c => (⟨c, none⟩ : Piece)) ∘ Piece.value) p = p := by
      intro p mem
      have bare : p.body = none := by
        refine (raw p (by simp [mem])).resolve_right (spelled p.value ?_)
        rw [← hmiddle]
        exact List.mem_map_of_mem mem
      obtain ⟨value, body⟩ := p
      rw [show body = none from bare]
      rfl
    rw [List.map_congr_left each, List.map_id']
  rw [pieces, show meant middle = spellingOf name from hmiddle]
  rfl

/-- What the replacements make of the pieces. -/
structure Settled (names : List (List Char × Char)) (ps qs : List Piece) : Prop where
  text : replaceNames names (spelt ps) = spelt qs
  pieces : ∀ q ∈ qs, (q ∈ ps ∧ ∀ e ∈ names, q.body ≠ some e.1) ∨ q.body = none
  shorter : qs.length ≤ ps.length
  same : qs.length = ps.length → meant qs = meant ps
  kept : (∀ e ∈ names, ¬spellingOf e.1 <:+: meant ps) → qs.length = ps.length
  strict : (∀ p ∈ ps, p.body = none ∨ p.value ∈ laterSpecials) →
    (∃ e ∈ names, spellingOf e.1 <:+: meant ps) → qs.length < ps.length
  idle : (∀ p ∈ ps, p ≠ ⟨'&', none⟩) → (∀ p ∈ ps, ∀ e ∈ names, p.body ≠ some e.1) → qs = ps

/-- Names that can be told apart, and pieces that agree with them. -/
structure Agrees (names : List (List Char × Char)) (ps : List Piece) : Prop where
  spelled : ∀ e ∈ names, ('&' ∉ e.1 ∧ ';' ∉ e.1) ∧ ∀ c ∈ spellingOf e.1, c ∉ laterSpecials
  clean : ∀ p ∈ ps, p.Clean
  values : ∀ p ∈ ps, ∀ e ∈ names, p.body = some e.1 → p.value = e.2

theorem Agrees.step {e : List Char × Char} {names : List (List Char × Char)} {ps qs : List Piece}
    (h : Agrees (e :: names) ps) (replaced : Replaced e.1 e.2 ps qs) : Agrees names qs where
  spelled e' mem := h.spelled e' (List.mem_cons_of_mem e mem)
  clean q mem := by
    rcases replaced.pieces q mem with ⟨there, -⟩ | rfl
    · exact h.clean q there
    · exact fun body given => by cases given
  values q mem e' mem' given := by
    rcases replaced.pieces q mem with ⟨there, -⟩ | rfl
    · exact h.values q there e' (List.mem_cons_of_mem e mem') given
    · cases given

theorem RawRun.ampersand {name : List Char} {ps : List Piece} (h : RawRun name ps) :
    (⟨'&', none⟩ : Piece) ∈ ps := by
  obtain ⟨front, back, rfl⟩ := h
  simp [rawPieces]

theorem settled_names {names : List (List Char × Char)} {ps : List Piece} (h : Agrees names ps) :
    ∃ qs, Settled names ps qs := by
  induction names generalizing ps with
  | nil =>
    exact ⟨ps, rfl, fun q mem => Or.inl ⟨mem, nofun⟩, le_rfl, fun _ => rfl, fun _ => rfl,
      fun _ some => absurd some (by simp), fun _ _ => rfl⟩
  | cons e names ih =>
    have nameClean := h.spelled e List.mem_cons_self
    obtain ⟨rs, first⟩ := replace_pieces (c := e.2) nameClean.1
      (fun p mem => ⟨h.clean p mem, h.values p mem e List.mem_cons_self⟩)
    obtain ⟨qs, rest⟩ := ih (h.step first)
    have fewer := first.shorter
    have fewer' := rest.shorter
    refine ⟨qs, ?_, ?_, by omega, ?_, ?_, ?_, ?_⟩
    · rw [replaceNames, List.foldl_cons, first.text]
      exact rest.text
    · intro q mem
      rcases rest.pieces q mem with ⟨there, differs⟩ | raw
      · rcases first.pieces q there with ⟨before, differs'⟩ | rfl
        · refine Or.inl ⟨before, fun e' mem' => ?_⟩
          rcases List.mem_cons.mp mem' with rfl | later
          · exact differs'
          · exact differs e' later
        · exact Or.inr rfl
      · exact Or.inr raw
    · intro equal
      rw [rest.same (by omega), first.same (by omega)]
    · intro absent
      have here : ¬RawRun e.1 ps := fun run => absent e List.mem_cons_self run.spelled_meant
      have length := first.kept here
      rw [rest.kept (fun e' mem => ?_), length]
      rw [first.same length]
      exact absent e' (List.mem_cons_of_mem e mem)
    · rintro raw ⟨e', mem, spelled⟩
      by_cases here : RawRun e.1 ps
      · have less := first.strict here
        omega
      · have length := first.kept here
        rcases List.mem_cons.mp mem with rfl | later
        · exact absurd (rawRun_of_spelled raw nameClean.2 spelled) here
        · have raw' : ∀ q ∈ rs, q.body = none ∨ q.value ∈ laterSpecials := by
            intro q inside
            rcases first.pieces q inside with ⟨there, -⟩ | rfl
            · exact raw q there
            · exact Or.inl rfl
          have less := rest.strict raw' ⟨e', later, by rw [first.same length]; exact spelled⟩
          omega
    · intro escaped differ
      have here : ¬RawRun e.1 ps := fun run => escaped _ run.ampersand rfl
      obtain rfl := first.idle here (fun p mem => differ p mem e List.mem_cons_self)
      exact rest.idle escaped (fun p mem e' later => differ p mem e' (List.mem_cons_of_mem e later))

/-! The numeric references, decoded from the left. -/

theorem splitOnce_reference {front : List Char} (absent : ∀ a b, front ≠ a ++ '&' :: '#' :: b)
    (rest : List Char) :
    splitOnce ['&', '#'] (front ++ '&' :: '#' :: rest) = some (front, rest) := by
  induction front with
  | nil => simp [splitOnce]
  | cons c front ih =>
    have absent' : ∀ a b, front ≠ a ++ '&' :: '#' :: b := by
      rintro a b rfl
      exact absent (c :: a) b rfl
    have away : ¬['&', '#'].isPrefixOf (c :: (front ++ '&' :: '#' :: rest)) = true := by
      rw [List.isPrefixOf_iff_prefix]
      rintro ⟨tail, equal⟩
      obtain ⟨rfl, behind⟩ := List.cons.inj equal
      cases front with
      | nil => exact absurd (List.cons.inj behind).1 (by decide)
      | cons d front =>
        obtain ⟨rfl, -⟩ := List.cons.inj behind
        exact absent [] front rfl
    rw [List.cons_append, splitOnce, if_neg away, ih absent']
    rfl

theorem decodeStep_reference {front entity : List Char} {c : Char}
    (absent : ∀ a b, front ≠ a ++ '&' :: '#' :: b) (known : referenceChar entity = some c)
    (rest : List Char) :
    decodeStep (front ++ '&' :: '#' :: (entity ++ ';' :: rest)) = some (front ++ c :: rest) := by
  have plain : ';' ∉ entity := by
    intro mem
    rcases referenceChar_alphanumeric known ';' mem with h | h | h | h
    · exact absurd h (by decide)
    · exact absurd h (by decide)
    · exact absurd h (by decide)
    · exact absurd h (by decide)
  rw [decodeStep, reference, splitOnce_reference absent, Option.bind_some,
    splitOnce_append plain, Option.map_some, Option.bind_some, known, Option.map_some]

/-- A character as it is, or a numeric reference for it. -/
def Numeral (p : Piece) : Prop :=
  p.body = none ∨ ∃ entity, p.body = some ('#' :: entity) ∧ referenceChar entity = some p.value

/-- Where no reference has been formed before a piece, the pieces are decoded in their order. -/
theorem decodes_pieces (ps : List Piece) (numerals : ∀ p ∈ ps, Numeral p) (front rest : List Char)
    (absent : ∀ before p behind, ps = before ++ p :: behind → p.body ≠ none →
      ∀ a b, front ++ meant before ≠ a ++ '&' :: '#' :: b) :
    DecodesTo (front ++ spelt ps ++ rest) (front ++ meant ps ++ rest) := by
  induction ps generalizing front with
  | nil => exact .refl
  | cons p ps ih =>
    have later := ih (fun q mem => numerals q (List.mem_cons_of_mem p mem)) (front ++ [p.value]) (by
      rintro before q behind rfl given a b
      have here := absent (p :: before) q behind rfl given a b
      rwa [List.append_assoc])
    have decoded : front ++ [p.value] ++ meant ps ++ rest = front ++ meant (p :: ps) ++ rest := by
      rw [meant, meant, List.map_cons, List.append_assoc front]
      rfl
    rw [decoded] at later
    rcases numerals p List.mem_cons_self with raw | ⟨entity, body, known⟩
    · have text : p.text = [p.value] := by rw [Piece.text, raw]
      rw [spelt_cons, text, ← List.append_assoc]
      exact later
    · have text : p.text = '&' :: '#' :: (entity ++ [';']) := by rw [Piece.text, body]; rfl
      have here := absent [] p ps rfl (by simp [body])
      have nothing : meant [] = [] := rfl
      rw [nothing, List.append_nil] at here
      have step := decodeStep_reference here known (spelt ps ++ rest)
      refine .head ?_ later
      rw [spelt_cons, text]
      simpa using step

/-! Escaped texts. -/

def specials : List Char := ['&', '<', '>', '"', '\'']

def escapeNames : List (List Char × Char) :=
  [("amp".toList, '&'), ("lt".toList, '<'), ("gt".toList, '>'), ("quot".toList, '"'),
    ("apos".toList, '\'')]

/-- A special character is spelt by its name or by its number, any other one as it is. -/
inductive EscapedAs : Piece → Prop
  | plain {c : Char} (ordinary : c ∉ specials) : EscapedAs ⟨c, none⟩
  | named {name : List Char} {c : Char} (known : (name, c) ∈ escapeNames) : EscapedAs ⟨c, some name⟩
  | numeric {entity : List Char} {c : Char} (special : c ∈ specials)
      (known : referenceChar entity = some c) (unsigned : '+' ∉ entity) :
      EscapedAs ⟨c, some ('#' :: entity)⟩

/-- The second text is the first one with its special characters escaped. -/
def Escapes (text escaped : List Char) : Prop :=
  ∃ ps : List Piece, (∀ p ∈ ps, EscapedAs p) ∧ meant ps = text ∧ spelt ps = escaped

/-- The text spells no name that is replaced after the ampersands. -/
def SpellsNoName (text : List Char) : Prop :=
  ∀ name ∈ ["lt", "gt", "quot", "apos", "nbsp"], ¬spellingOf name.toList <:+: text

/-- Behind the first `&#` of the text there is no special character and no reference is read. -/
def StopsAtReference (text : List Char) : Prop :=
  ∀ front behind, splitOnce ['&', '#'] text = some (front, behind) →
    (∀ c ∈ behind, c ∉ specials) ∧
      ∀ entity after, behind = entity ++ ';' :: after → ';' ∉ entity → referenceChar entity = none

theorem StopsAtReference.first {text a b : List Char} (h : StopsAtReference text)
    (split : text = a ++ '&' :: '#' :: b) : splitOnce ['&', '#'] text = some (a, b) := by
  cases first : splitOnce ['&', '#'] text with
  | none => exact absurd (by simpa using split) (splitOnce_none first a b)
  | some pair =>
    obtain ⟨front, behind⟩ := pair
    obtain ⟨whole, longest⟩ := splitOnce_first first
    obtain ⟨gap, rfl⟩ := longest a b (by simpa using split)
    have same : (front ++ ['&', '#'] ++ gap) ++ b = (a ++ ['&', '#']) ++ b := by
      rw [List.append_assoc (front ++ ['&', '#']), ← whole, split]
      simp
    have ends := List.append_cancel_right same
    rcases List.eq_nil_or_concat gap with rfl | ⟨gap, last, rfl⟩
    · rw [List.append_nil] at ends
      rw [List.append_cancel_right ends]
      rfl
    · -- A later `&#` would have its ampersand behind the first one.
      have inner : front ++ ['&', '#'] ++ gap = a ++ ['&'] := by
        have cut := congrArg List.dropLast ends
        rw [List.concat_eq_append, ← List.append_assoc, List.dropLast_concat] at cut
        simpa using cut
      rcases List.eq_nil_or_concat gap with rfl | ⟨gap, last', rfl⟩
      · have final := congrArg List.getLast? inner
        simp at final
      · have final := congrArg List.getLast? inner
        rw [List.concat_eq_append, ← List.append_assoc, List.getLast?_concat,
          List.getLast?_concat] at final
        have ampersand : last' = '&' := Option.some.inj final
        have none := (h _ _ first).1 last' (by simp)
        rw [ampersand] at none
        exact absurd (by decide) none

theorem StopsAtReference.ends {text : List Char} (h : StopsAtReference text) :
    decodeStep text = none := by
  cases step : decodeStep text with
  | none => rfl
  | some next =>
    obtain ⟨before, entity, after, c, parts, whole, known, -⟩ := decodeStep_some step
    have undecoded := (h _ _ (h.first whole)).2 entity after rfl (by
      intro mem
      rcases referenceChar_alphanumeric known ';' mem with bad | bad | bad | bad <;>
        exact absurd bad (by decide))
    rw [known] at undecoded
    cases undecoded

theorem escapeNames_known : ∀ e ∈ escapeNames, e ∈ namedBodies ∧ e.2 ∈ specials ∧
    ∀ e' ∈ namedBodies, e.1 = e'.1 → e.2 = e'.2 := by decide

theorem namedBodies_spelled : ∀ e ∈ namedBodies, ('&' ∉ e.1 ∧ ';' ∉ e.1) ∧
    ∀ c ∈ spellingOf e.1, c ∉ laterSpecials := by
  have each : ∀ e ∈ namedBodies, ('&' ∉ e.1 ∧ ';' ∉ e.1) ∧
      (spellingOf e.1).all (fun c => decide (c ∉ laterSpecials)) = true := by decide
  exact fun e mem => ⟨(each e mem).1, forall_mem_of_all (each e mem).2⟩

theorem EscapedAs.agrees {ps : List Piece} (h : ∀ p ∈ ps, EscapedAs p) : Agrees namedBodies ps where
  spelled := namedBodies_spelled
  clean p mem body given := by
    cases h p mem with
    | plain => cases given
    | named known =>
      cases given
      exact (namedBodies_spelled _ (escapeNames_known _ known).1).1
    | numeric _ known =>
      cases given
      have letters := referenceChar_alphanumeric known
      constructor <;> intro inside <;> rcases List.mem_cons.mp inside with bad | bad
      · exact absurd bad (by decide)
      · rcases letters _ bad with bad | bad | bad | bad <;> exact absurd bad (by decide)
      · exact absurd bad (by decide)
      · rcases letters _ bad with bad | bad | bad | bad <;> exact absurd bad (by decide)
  values p mem e known given := by
    cases h p mem with
    | plain => cases given
    | named named =>
      cases given
      exact (escapeNames_known _ named).2.2 e known rfl
    | @numeric entity c _ numbered =>
      have only : ∀ e ∈ namedBodies, e.1.head? = some '#' → e = ("#39".toList, '\'') := by decide
      have body : '#' :: entity = e.1 := Option.some.inj given
      have apostrophe := only e known (by rw [← body]; rfl)
      rw [apostrophe] at body ⊢
      have digits : entity = "39".toList := (List.cons.inj body).2
      rw [digits] at numbered
      have value : referenceChar "39".toList = some '\'' := by decide
      rw [value] at numbered
      exact (Option.some.inj numbered).symm

theorem EscapedAs.not_raw_ampersand {ps : List Piece} (h : ∀ p ∈ ps, EscapedAs p) :
    ∀ p ∈ ps, p ≠ ⟨'&', none⟩ := by
  rintro p mem rfl
  cases h _ mem with
  | plain ordinary => exact ordinary (by decide)

def laterBodies : List (List Char × Char) := namedBodies.tail

/-- The ampersands come first, and no escaped text spells their name by itself. -/
theorem settled_escaped {ps : List Piece} (h : ∀ p ∈ ps, EscapedAs p) :
    ∃ rs qs, Replaced "amp".toList '&' ps rs ∧ meant rs = meant ps ∧ rs.length = ps.length ∧
      Settled laterBodies rs qs ∧ namedText (spelt ps) = spelt qs := by
  have agrees := EscapedAs.agrees h
  have first : ("amp".toList, '&') ∈ namedBodies := by decide
  obtain ⟨rs, replaced⟩ := replace_pieces (c := '&') (agrees.spelled _ first).1
    (fun p mem => ⟨agrees.clean p mem, agrees.values p mem _ first⟩)
  have later : Agrees laterBodies rs := Agrees.step agrees replaced
  obtain ⟨qs, settled⟩ := settled_names later
  have length := replaced.kept (fun run => EscapedAs.not_raw_ampersand h _ run.ampersand rfl)
  refine ⟨rs, qs, replaced, replaced.same length, length, settled, ?_⟩
  rw [← settled.text, ← replaced.text]
  rfl

theorem mem_laterBodies {e : List Char × Char} (mem : e ∈ laterBodies) :
    (∃ name ∈ ["lt", "gt", "quot", "apos", "nbsp"], e.1 = name.toList) ∨ e.1 = "#39".toList := by
  have cases' : ∀ e ∈ laterBodies, (∃ name ∈ ["lt", "gt", "quot", "apos", "nbsp"],
      e.1 = name.toList) ∨ e.1 = "#39".toList := by decide
  exact cases' e mem

theorem StopsAtReference.no_apostrophe {text : List Char} (h : StopsAtReference text) :
    ¬spellingOf "#39".toList <:+: text := by
  rintro ⟨front, back, whole⟩
  have split : text = front ++ '&' :: '#' :: ("39".toList ++ ';' :: back) := by
    rw [← whole, List.append_assoc]
    rfl
  have undecoded := (h _ _ (h.first split)).2 _ _ rfl (by decide)
  exact absurd undecoded (by decide)

/-- A text that spells no name and stops at its first `&#` comes back from each of its escaped
forms. -/
theorem decode_escaped {text escaped : List Char} (names : SpellsNoName text)
    (stops : StopsAtReference text) (h : Escapes text escaped) :
    decodeHtmlEntities escaped = text := by
  obtain ⟨ps, pieces, rfl, rfl⟩ := h
  obtain ⟨rs, qs, replaced, meantRs, -, settled, decoded⟩ := settled_escaped pieces
  have absent : ∀ e ∈ laterBodies, ¬spellingOf e.1 <:+: meant rs := by
    intro e mem
    rw [meantRs]
    rcases mem_laterBodies mem with ⟨name, known, same⟩ | same
    · rw [same]
      exact names name known
    · rw [same]
      exact stops.no_apostrophe
  have meantQs : meant qs = meant ps := (settled.same (settled.kept absent)).trans meantRs
  -- Of the references only the numeric ones are left.
  have left : ∀ q ∈ qs, Numeral q ∧ (q.body ≠ none → q.value ∈ specials) := by
    intro q mem
    rcases settled.pieces q mem with ⟨inRs, differs⟩ | raw
    · rcases replaced.pieces q inRs with ⟨inPs, other⟩ | rfl
      · cases pieces q inPs with
        | plain => exact ⟨Or.inl rfl, fun given => absurd rfl given⟩
        | @named name c known =>
          have split : ∀ e ∈ escapeNames, e.1 = "amp".toList ∨ ∃ e' ∈ laterBodies, e'.1 = e.1 := by
            decide
          rcases split _ known with first | ⟨e', mem', same⟩
          · exact absurd (congrArg some first) other
          · exact absurd (congrArg some same.symm) (differs e' mem')
        | @numeric entity c special known =>
          exact ⟨Or.inr ⟨_, rfl, known⟩, fun _ => special⟩
      · exact ⟨Or.inl rfl, fun given => absurd rfl given⟩
    · exact ⟨Or.inl raw, fun given => absurd raw given⟩
  have run := decodes_pieces qs (fun q mem => (left q mem).1) [] [] (by
    rintro before q behind split given a b equal
    rw [List.nil_append] at equal
    have whole : meant ps = a ++ '&' :: '#' :: (b ++ q.value :: meant behind) := by
      rw [← meantQs, split, meant_append, equal]
      simp [meant]
    have none := (stops _ _ (stops.first whole)).1 q.value (by simp)
    exact none ((left q (by simp [split])).2 given))
  rw [List.nil_append, List.append_nil, List.nil_append, List.append_nil, meantQs, ← decoded] at run
  exact decodeHtmlEntities_eq run stops.ends

/-- Every character that one of the references is for, by its reference. -/
def allBy (bodies : List (List Char × Char)) (text : List Char) : List Piece :=
  text.map (fun c => ⟨c, (bodies.find? (fun e => e.2 == c)).map Prod.fst⟩)

theorem meant_allBy (bodies : List (List Char × Char)) (text : List Char) :
    meant (allBy bodies text) = text := by
  rw [meant, allBy, List.map_map]
  exact List.map_id text

theorem allBy_body {bodies : List (List Char × Char)} {text body : List Char} {p : Piece}
    (mem : p ∈ allBy bodies text) (given : p.body = some body) : (body, p.value) ∈ bodies := by
  obtain ⟨c, -, rfl⟩ := List.mem_map.mp mem
  obtain ⟨e, found, rfl⟩ := Option.map_eq_some_iff.mp given
  have same : e.2 = c := by simpa using List.find?_some found
  rw [← same]
  exact List.mem_of_find?_eq_some found

theorem allBy_bare {bodies : List (List Char × Char)} {text : List Char} {p : Piece}
    (covers : ∀ c ∈ specials, (bodies.find? (fun e => e.2 == c)).isSome = true)
    (mem : p ∈ allBy bodies text) (bare : p.body = none) : p.value ∉ specials := by
  obtain ⟨c, -, rfl⟩ := List.mem_map.mp mem
  intro special
  have some := covers c special
  rw [Option.map_eq_none_iff.mp bare] at some
  cases some

def allNamed (text : List Char) : List Piece := allBy escapeNames text

theorem allNamed_escaped (text : List Char) : ∀ p ∈ allNamed text, EscapedAs p := by
  intro p mem
  obtain ⟨value, body⟩ := p
  cases body with
  | none => exact .plain (allBy_bare (forall_mem_of_all (by decide)) mem rfl)
  | some name => exact .named (allBy_body mem rfl)

/-- By the names the text comes back shorter, or not at all. -/
theorem decode_allNamed {text : List Char}
    (h : decodeHtmlEntities (spelt (allNamed text)) = text) :
    SpellsNoName text ∧ decodeStep text = none := by
  obtain ⟨rs, qs, replaced, meantRs, length, settled, decoded⟩ :=
    settled_escaped (allNamed_escaped text)
  have whole : meant (allNamed text) = text := meant_allBy escapeNames text
  rw [whole] at meantRs
  have size : rs.length = text.length := length.trans (List.length_map _)
  have byName : ∀ p ∈ allNamed text, ∀ body, p.body = some body → (body, p.value) ∈ escapeNames :=
    fun p mem body given => allBy_body mem given
  obtain ⟨run, ended⟩ := decodeHtmlEntities_ends (spelt (allNamed text))
  rw [h] at run ended
  refine ⟨fun name known spelled => ?_, ended⟩
  have raw : ∀ r ∈ rs, r.body = none ∨ r.value ∈ laterSpecials := by
    intro r mem
    rcases replaced.pieces r mem with ⟨there, other⟩ | rfl
    · cases body : r.body with
      | none => exact Or.inl rfl
      | some name =>
        have later : ∀ e ∈ escapeNames, e.1 = "amp".toList ∨ e.2 ∈ laterSpecials := by decide
        rcases later _ (byName r there name body) with first | special
        · rw [body] at other
          exact absurd (congrArg some first) other
        · exact Or.inr special
    · exact Or.inl rfl
  have body : ∀ name ∈ ["lt", "gt", "quot", "apos", "nbsp"],
      ∃ e ∈ laterBodies, e.1 = name.toList := by decide
  obtain ⟨e, mem, same⟩ := body name known
  have less := settled.strict raw ⟨e, mem, by rw [same, meantRs]; exact spelled⟩
  -- Nothing but characters as they are is left.
  have bare : ∀ q ∈ qs, q.body = none := by
    intro q inside
    rcases settled.pieces q inside with ⟨inRs, differs⟩ | raw
    · rcases replaced.pieces q inRs with ⟨inPs, other⟩ | rfl
      · cases body : q.body with
        | none => rfl
        | some name =>
          have split : ∀ e ∈ escapeNames, e.1 = "amp".toList ∨ ∃ e' ∈ laterBodies, e'.1 = e.1 := by
            decide
          rcases split _ (byName q inPs name body) with first | ⟨e', mem', same'⟩
          · exact absurd (body.trans (congrArg some first)) other
          · exact absurd (body.trans (congrArg some same'.symm)) (differs e' mem')
      · rfl
    · exact raw
  have lengths : (spelt qs).length = qs.length := by
    rw [spelt_bare bare]
    exact List.length_map _
  have shrunk := decodesTo_length run
  rw [decoded, lengths] at shrunk
  omega

def escapeNumbers : List (List Char × Char) :=
  [("#38".toList, '&'), ("#60".toList, '<'), ("#62".toList, '>'), ("#34".toList, '"'),
    ("#x27".toList, '\'')]

theorem escapeNumbers_known : ∀ e ∈ escapeNumbers, e.2 ∈ specials ∧ e.1.head? = some '#' ∧
    referenceChar e.1.tail = some e.2 ∧ '+' ∉ e.1.tail ∧ ∀ e' ∈ namedBodies, e.1 ≠ e'.1 := by
  decide

def allNumeric (text : List Char) : List Piece := allBy escapeNumbers text

theorem numeral_body {p : Piece} {text body : List Char} (mem : p ∈ allNumeric text)
    (given : p.body = some body) :
    ∃ entity, body = '#' :: entity ∧ referenceChar entity = some p.value ∧
      p.value ∈ specials ∧ '+' ∉ entity := by
  obtain ⟨special, head, known, unsigned, -⟩ := escapeNumbers_known _ (allBy_body mem given)
  cases body with
  | nil => cases head
  | cons c entity =>
    obtain rfl : c = '#' := Option.some.inj head
    exact ⟨entity, rfl, known, special, unsigned⟩

theorem allNumeric_escaped (text : List Char) : ∀ p ∈ allNumeric text, EscapedAs p := by
  intro p mem
  obtain ⟨value, body⟩ := p
  cases body with
  | none => exact .plain (allBy_bare (forall_mem_of_all (by decide)) mem rfl)
  | some body =>
    obtain ⟨entity, rfl, known, special, unsigned⟩ := numeral_body mem rfl
    exact .numeric special known unsigned

theorem namedText_allNumeric (text : List Char) :
    namedText (spelt (allNumeric text)) = spelt (allNumeric text) := by
  have escaped := allNumeric_escaped text
  obtain ⟨qs, settled⟩ := settled_names (EscapedAs.agrees escaped)
  have same := settled.idle (EscapedAs.not_raw_ampersand escaped)
    (fun p mem e known given =>
      (escapeNumbers_known _ (allBy_body mem given)).2.2.2.2 e known rfl)
  rw [namedText_eq, settled.text, same]

theorem length_spelt {ps : List Piece} : ps.length ≤ (spelt ps).length ∧
    ((spelt ps).length = ps.length → ∀ p ∈ ps, p.body = none) := by
  induction ps with
  | nil => exact ⟨le_rfl, fun _ => nofun⟩
  | cons p ps ih =>
    obtain ⟨longer, bare⟩ := ih
    have length : (spelt (p :: ps)).length = p.text.length + (spelt ps).length :=
      List.length_append
    have count : (p :: ps).length = ps.length + 1 := rfl
    cases body : p.body with
    | none =>
      have one : p.text.length = 1 := by rw [Piece.text, body]; rfl
      refine ⟨by omega, fun equal q mem => ?_⟩
      rcases List.mem_cons.mp mem with rfl | later
      · exact body
      · exact bare (by omega) q later
    | some inner =>
      have two : 2 ≤ p.text.length := by
        rw [Piece.text, body]
        simp
      exact ⟨by omega, fun equal => by omega⟩

theorem meant_allNumeric (text : List Char) : meant (allNumeric text) = text :=
  meant_allBy escapeNumbers text

theorem decodes_front {front : List Char} (absent : ∀ a b, front ≠ a ++ '&' :: '#' :: b)
    (rest : List Char) :
    DecodesTo (spelt (allNumeric (front ++ ['&'])) ++ '#' :: rest)
      (front ++ '&' :: '#' :: rest) := by
  have numerals : ∀ p ∈ allNumeric (front ++ ['&']), Numeral p := by
    intro p mem
    cases body : p.body with
    | none => exact Or.inl body
    | some inner =>
      obtain ⟨entity, rfl, known, -⟩ := numeral_body mem body
      exact Or.inr ⟨entity, body, known⟩
  have run := decodes_pieces (allNumeric (front ++ ['&'])) numerals [] ('#' :: rest) (by
    rintro before p back parts - a b equal
    rw [List.nil_append] at equal
    have values := congrArg meant parts
    rw [meant_allNumeric, meant_append, equal] at values
    -- The reference would end before the last ampersand.
    have inside := congrArg List.dropLast values
    rw [List.dropLast_concat, List.append_assoc, List.dropLast_append_of_ne_nil (by simp)] at inside
    have nonempty : b ++ meant (p :: back) ≠ [] := by simp [meant]
    rw [List.cons_append, List.cons_append, List.dropLast_cons_of_ne_nil (by simp),
      List.dropLast_cons_of_ne_nil nonempty] at inside
    exact absent a _ inside)
  rw [List.nil_append, List.nil_append, meant_allNumeric] at run
  simpa using run

theorem decodeStep_kept {front behind : List Char} (absent : ∀ a b, front ≠ a ++ '&' :: '#' :: b)
    (undecoded : ∀ entity after, behind = entity ++ ';' :: after → ';' ∉ entity →
      referenceChar entity = none) :
    decodeStep (front ++ '&' :: '#' :: spelt (allNumeric behind)) = none := by
  cases step : decodeStep (front ++ '&' :: '#' :: spelt (allNumeric behind)) with
  | none => rfl
  | some next =>
    obtain ⟨before, entity, after, c, parts, -, known, -⟩ := decodeStep_some step
    have letters := referenceChar_alphanumeric known
    have plain : '&' ∉ entity ++ [';'] := by
      intro mem
      rcases List.mem_append.mp mem with inside | last
      · rcases letters _ inside with bad | bad | bad | bad <;> exact absurd bad (by decide)
      · exact absurd last (by decide)
    rw [reference, splitOnce_reference absent, Option.bind_some] at parts
    obtain ⟨pair, ends, equal⟩ := Option.map_eq_some_iff.mp parts
    cases equal
    obtain ⟨inner, single⟩ := splitOnce_char ends
    have starts : spelt (allNumeric behind) = pair.1 ++ [';'] ++ pair.2 := by
      rw [List.append_assoc]
      exact inner
    obtain ⟨qs, rows, -⟩ := raw_of_start plain starts
    have values := congrArg meant rows
    rw [meant_allNumeric, meant_append, meant_raw] at values
    have none := undecoded pair.1 (meant qs) (by rw [values]; simp) single
    rw [known] at none
    cases none

/-- By the numbers the loop stops behind the first `&#`, and what is escaped there stays so. -/
theorem decode_allNumeric {text : List Char} (ended : decodeStep text = none)
    (h : decodeHtmlEntities (spelt (allNumeric text)) = text) : StopsAtReference text := by
  intro front behind split
  obtain ⟨whole, longest⟩ := splitOnce_first split
  have whole' : text = front ++ '&' :: '#' :: behind := by rw [whole]; simp
  have absent : ∀ a b, front ≠ a ++ '&' :: '#' :: b := by
    rintro a b rfl
    have later := (longest a (b ++ ['&', '#'] ++ behind) (by rw [whole]; simp)).length_le
    simp only [List.length_append, List.length_cons, List.length_nil] at later
    omega
  have undecoded : ∀ entity after, behind = entity ++ ';' :: after → ';' ∉ entity →
      referenceChar entity = none := by
    rintro entity after rfl -
    cases known : referenceChar entity with
    | none => rfl
    | some c =>
      have step := decodeStep_reference absent known after
      rw [← whole', ended] at step
      cases step
  refine ⟨?_, undecoded⟩
  have reached : decodeHtmlEntities (spelt (allNumeric text)) =
      front ++ '&' :: '#' :: spelt (allNumeric behind) := by
    have pieces : spelt (allNumeric text) =
        spelt (allNumeric (front ++ ['&'])) ++ '#' :: spelt (allNumeric behind) := by
      have parts : text = (front ++ ['&']) ++ ('#' :: behind) := by rw [whole']; simp
      rw [parts, allNumeric, allBy, List.map_append, spelt_append]
      rfl
    refine decodeHtmlEntities_eq ?_ (decodeStep_kept absent undecoded)
    rw [namedText_allNumeric, pieces]
    exact decodes_front absent _
  have lengths := congrArg List.length (h.symm.trans reached)
  have same : (allNumeric behind).length = behind.length := List.length_map _
  have longer : (spelt (allNumeric behind)).length = (allNumeric behind).length := by
    have size := congrArg List.length whole'
    simp only [List.length_append, List.length_cons] at lengths size
    omega
  have bare := length_spelt.2 longer
  intro c mem special
  rw [← meant_allNumeric behind] at mem
  obtain ⟨p, inside, rfl⟩ := List.mem_map.mp mem
  exact allBy_bare (forall_mem_of_all (by decide)) inside (bare p inside) special

/-- All escaped forms of a text are decoded to it where it spells no name that is replaced after
the ampersands, and behind its first `&#` has nothing that was escaped or is read as a reference.
The loop ends by itself on every text. -/
theorem decode_escaped_iff (text : List Char) :
    ((∀ escaped, Escapes text escaped → decodeHtmlEntities escaped = text) ↔
      SpellsNoName text ∧ StopsAtReference text) ∧
    ∀ value, DecodesTo (namedText value) (decodeHtmlEntities value) ∧
      decodeStep (decodeHtmlEntities value) = none := by
  refine ⟨⟨fun all => ?_, fun h escaped form => decode_escaped h.1 h.2 form⟩,
    decodeHtmlEntities_ends⟩
  have named := all _ ⟨allNamed text, allNamed_escaped text, meant_allBy escapeNames text, rfl⟩
  have numeric := all _ ⟨allNumeric text, allNumeric_escaped text, meant_allBy escapeNumbers text,
    rfl⟩
  obtain ⟨names, ended⟩ := decode_allNamed named
  exact ⟨names, decode_allNumeric ended numeric⟩

/-- An escaped `&lt;` is decoded twice. -/
theorem twice_decoded : Escapes "&lt;".toList "&amp;lt;".toList ∧
    decodeHtmlEntities "&amp;lt;".toList = "<".toList := by
  refine ⟨⟨allNamed "&lt;".toList, allNamed_escaped _, by decide, by decide⟩, by decide +kernel⟩

end Amatl
