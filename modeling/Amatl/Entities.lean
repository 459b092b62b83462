import Amatl.Normalize
import Amatl.Lib.Glob
import Mathlib.Logic.Relation

/-! The loop that decodes numeric references. A pass replaces the first reference and shortens the
text, so the loop ends, and what it ends with does not depend on the fuel. -/

namespace Amatl

open Text

/-- The code of a reference, written behind the `&#`. -/
def entityCode (entity : List Char) : Option Nat :=
  let hex := match entity with
    | 'x' :: digits => parseUnsigned 16 (2 ^ 32) digits
    | 'X' :: digits => parseUnsigned 16 (2 ^ 32) digits
    | _ => none
  hex.or (parseUnsigned 10 (2 ^ 32) entity)

def referenceChar (entity : List Char) : Option Char :=
  (entityCode entity).bind (fun code => if code.isValidChar then some (Char.ofNat code) else none)

/-- The text before the first `&#`, what stands from there to the next semicolon, and the rest. -/
def reference (text : List Char) : Option (List Char × List Char × List Char) :=
  (splitOnce ['&', '#'] text).bind (fun front =>
    (splitOnce [';'] front.2).map (fun pair => (front.1, pair.1, pair.2)))

/-- One pass of the loop, none where it ends. -/
def decodeStep (text : List Char) : Option (List Char) :=
  (reference text).bind (fun parts =>
    (referenceChar parts.2.1).map (fun c => parts.1 ++ c :: parts.2.2))

theorem decodeNumericEntities_succ (fuel : Nat) (text : List Char) :
    decodeNumericEntities (fuel + 1) text =
      match decodeStep text with
      | none => text
      | some next => decodeNumericEntities fuel next := by
  have ampersand : "&#".toList = ['&', '#'] := rfl
  rw [decodeNumericEntities, decodeStep, reference, ampersand, find_splitOnce]
  cases first : splitOnce ['&', '#'] text with
  | none => rfl
  | some front =>
    obtain ⟨before, rest⟩ := front
    have whole := (splitOnce_first first).1
    have dropped : text.drop before.length = '&' :: '#' :: rest := by
      rw [whole, List.append_assoc, List.drop_left]
      rfl
    have behind : text.drop (before.length + 2) = rest := by
      rw [← List.drop_drop, dropped]
      rfl
    simp only [Option.map_some, Option.bind_some]
    have found : find [';'] ('&' :: '#' :: rest) =
        (splitOnce [';'] rest).map (fun pair => pair.1.length + 2) := by
      have skips : ∀ (c : Char) (s : List Char), c ≠ ';' →
          find [';'] (c :: s) = (find [';'] s).map (· + 1) := by
        intro c s other
        rw [find, if_neg]
        simpa using fun equal => other equal.symm
      rw [skips _ _ (by decide), skips _ _ (by decide), find_splitOnce, Option.map_map,
        Option.map_map]
      rfl
    rw [dropped, found]
    cases second : splitOnce [';'] rest with
    | none => rfl
    | some pair =>
      obtain ⟨entity, after⟩ := pair
      have inner := (splitOnce_char second).1
      have taken : (text.drop (before.length + 2)).take (entity.length + 2 - 2) = entity := by
        rw [behind, inner, Nat.add_sub_cancel, List.take_left]
      have rest' : text.drop (before.length + (entity.length + 2) + 1) = after := by
        have split : before.length + (entity.length + 2) + 1 =
            before.length + 2 + (entity.length + 1) := by omega
        rw [split, ← List.drop_drop, behind, inner]
        simp
      have start : text.take before.length = before := by
        rw [whole, List.append_assoc, List.take_left]
      simp only [Option.map_some, Option.bind_some, taken, rest', start]
      rw [referenceChar]
      generalize code : Option.or _ _ = value
      have known : entityCode entity = value := code
      rw [known]
      cases value with
      | none => rfl
      | some value =>
        simp only [Option.bind_some]
        by_cases valid : value.isValidChar
        · rw [if_pos valid, if_pos valid]
          rfl
        · rw [if_neg valid, if_neg valid]
          rfl

theorem decodeStep_some {text next : List Char} (h : decodeStep text = some next) :
    ∃ before entity after c, reference text = some (before, entity, after) ∧
      text = before ++ '&' :: '#' :: (entity ++ ';' :: after) ∧ referenceChar entity = some c ∧
      next = before ++ c :: after := by
  obtain ⟨⟨before, entity, after⟩, parts, decoded⟩ := Option.bind_eq_some_iff.mp h
  obtain ⟨c, known, rfl⟩ := Option.map_eq_some_iff.mp decoded
  refine ⟨before, entity, after, c, parts, ?_, known, rfl⟩
  obtain ⟨⟨front, rest⟩, first, second⟩ := Option.bind_eq_some_iff.mp parts
  obtain ⟨pair, ends, equal⟩ := Option.map_eq_some_iff.mp second
  cases equal
  have whole := (splitOnce_first first).1
  have inner := (splitOnce_char ends).1
  rw [whole, ← inner, List.append_assoc]
  rfl

theorem decodeStep_length {text next : List Char} (h : decodeStep text = some next) :
    next.length < text.length := by
  obtain ⟨before, entity, after, c, -, rfl, -, rfl⟩ := decodeStep_some h
  simp only [List.length_append, List.length_cons]
  omega

abbrev DecodesTo := Relation.ReflTransGen (fun text next => decodeStep text = some next)

/-- With fuel for the length of the text the loop ends by itself. -/
theorem decodeNumericEntities_ends {fuel : Nat} {text : List Char} (enough : text.length ≤ fuel) :
    DecodesTo text (decodeNumericEntities fuel text) ∧
      decodeStep (decodeNumericEntities fuel text) = none := by
  induction fuel generalizing text with
  | zero =>
    have empty : text = [] := List.length_eq_zero_iff.mp (Nat.le_zero.mp enough)
    subst empty
    exact ⟨.refl, rfl⟩
  | succ fuel ih =>
    rw [decodeNumericEntities_succ]
    cases step : decodeStep text with
    | none => exact ⟨.refl, step⟩
    | some next =>
      have shorter := decodeStep_length step
      have enough' : next.length ≤ fuel := by omega
      obtain ⟨run, ended⟩ := ih enough'
      exact ⟨.head step run, ended⟩

theorem decodeNumericEntities_eq {fuel : Nat} {text result : List Char}
    (run : DecodesTo text result) (ended : decodeStep result = none)
    (enough : text.length ≤ fuel) : decodeNumericEntities fuel text = result := by
  induction run using Relation.ReflTransGen.head_induction_on generalizing fuel with
  | refl =>
    cases fuel with
    | zero => rfl
    | succ fuel => rw [decodeNumericEntities_succ, ended]
  | head step _ ih =>
    have shorter := decodeStep_length step
    cases fuel with
    | zero => omega
    | succ fuel =>
      rw [decodeNumericEntities_succ, step]
      exact ih (by omega)

theorem decodesTo_length {text result : List Char} (run : DecodesTo text result) :
    result.length ≤ text.length := by
  induction run with
  | refl => exact le_rfl
  | tail _ step ih => exact (decodeStep_length step).le.trans ih

/-- The text with its named entities replaced, each name once over the whole text. -/
def namedText (value : List Char) : List Char :=
  namedEntities.foldl (fun text entity => replace entity.1.toList entity.2.toList text) value

theorem decodeHtmlEntities_ends (value : List Char) :
    DecodesTo (namedText value) (decodeHtmlEntities value) ∧
      decodeStep (decodeHtmlEntities value) = none :=
  decodeNumericEntities_ends le_rfl

theorem decodeHtmlEntities_eq {value result : List Char} (run : DecodesTo (namedText value) result)
    (ended : decodeStep result = none) : decodeHtmlEntities value = result :=
  decodeNumericEntities_eq run ended le_rfl

end Amatl
