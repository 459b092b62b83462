import Amatl.Lib.F64
import Mathlib.Tactic.Linarith
import Mathlib.Tactic.NormNum
import Mathlib.Tactic.Positivity

/-! Floats that round: the exact result of an operation, and of it the nearest float. Rounding
keeps the order. -/

namespace F64

/-- `x * y` and `x + y`, `x - y` as the machine has them. -/
def times : F64 → F64 → F64
  | .finite x, .finite y => ofRat (x * y)
  | x, y => mul x y

def plus : F64 → F64 → F64
  | .finite x, .finite y => ofRat (x + y)
  | x, y => add x y

def minus : F64 → F64 → F64
  | .finite x, .finite y => ofRat (x - y)
  | x, .infinity negative => add x (.infinity !negative)
  | x, y => add x y

/-- `f64::max`, which passes a NaN over. -/
def max (x y : F64) : F64 := if x = nan ∨ lt x y then y else x

/-- A whole number next to `x`, of two at one distance the even one. -/
def roundEven (x : ℚ) : ℤ :=
  if 1 / 2 < x - ⌊x⌋ ∨ (x - ⌊x⌋ = 1 / 2 ∧ ⌊x⌋ % 2 = 1) then ⌊x⌋ + 1 else ⌊x⌋

theorem le_roundEven (x : ℚ) : ⌊x⌋ ≤ roundEven x := by
  unfold roundEven
  split_ifs
  · exact (lt_add_one _).le
  · exact le_rfl

theorem roundEven_le (x : ℚ) : roundEven x ≤ ⌊x⌋ + 1 := by
  unfold roundEven
  split_ifs
  · exact le_rfl
  · exact (lt_add_one _).le

theorem roundEven_mono {x y : ℚ} (h : x ≤ y) : roundEven x ≤ roundEven y := by
  rcases (Int.floor_mono h).lt_or_eq with below | same
  · calc roundEven x ≤ ⌊x⌋ + 1 := roundEven_le x
      _ ≤ ⌊y⌋ := below
      _ ≤ roundEven y := le_roundEven y
  · unfold roundEven
    rw [← same]
    split_ifs with up down
    · exact le_rfl
    · -- What takes `x` up takes `y` up.
      refine absurd ?_ down
      rcases up with more | ⟨half, odd⟩
      · exact .inl (by linarith)
      · rcases h.lt_or_eq with less | rfl
        · exact .inl (by linarith)
        · exact .inr ⟨half, odd⟩
    · exact (lt_add_one _).le
    · exact le_rfl

theorem roundEven_intCast (k : ℤ) : roundEven (k : ℚ) = k := by
  unfold roundEven
  rw [Int.floor_intCast, sub_self, if_neg]
  rintro (more | ⟨half, -⟩)
  · linarith
  · linarith

/-- The power of two at or below a positive number. -/
def exponent (q : ℚ) : ℤ :=
  let top : ℤ := (q.num.natAbs.log2 : ℤ) - q.den.log2
  if (2 : ℚ) ^ top ≤ |q| then top else top - 1

theorem exponent_spec {q : ℚ} (positive : 0 < q) :
    (2 : ℚ) ^ exponent q ≤ q ∧ q < 2 ^ (exponent q + 1) := by
  have numerator : (q.num.natAbs : ℚ) = q.num := by
    rw [← Int.cast_natCast, Int.natAbs_of_nonneg (Rat.num_pos.mpr positive).le]
  have value : q = q.num.natAbs / q.den := by rw [numerator, Rat.num_div_den]
  have some_num : q.num.natAbs ≠ 0 := Int.natAbs_ne_zero.mpr (Rat.num_pos.mpr positive).ne'
  have num_low : (2 : ℚ) ^ q.num.natAbs.log2 ≤ q.num.natAbs := by
    exact_mod_cast Nat.log2_self_le some_num
  have num_high : (q.num.natAbs : ℚ) < 2 ^ (q.num.natAbs.log2 + 1) := by
    exact_mod_cast Nat.lt_log2_self
  have den_low : (2 : ℚ) ^ q.den.log2 ≤ q.den := by
    exact_mod_cast Nat.log2_self_le q.den_ne_zero
  have den_high : (q.den : ℚ) < 2 ^ (q.den.log2 + 1) := by
    exact_mod_cast Nat.lt_log2_self
  have den_pos : (0 : ℚ) < q.den := by exact_mod_cast q.den_pos
  have above : q < 2 ^ ((q.num.natAbs.log2 : ℤ) - q.den.log2 + 1) := by
    have split : (2 : ℚ) ^ ((q.num.natAbs.log2 : ℤ) - q.den.log2 + 1) =
        2 ^ (q.num.natAbs.log2 + 1) / 2 ^ q.den.log2 := by
      rw [sub_add_eq_add_sub, zpow_sub₀ two_ne_zero]
      norm_cast
    calc q = q.num.natAbs / q.den := value
      _ < 2 ^ (q.num.natAbs.log2 + 1) / 2 ^ q.den.log2 :=
        div_lt_div₀ num_high den_low (by positivity) (by positivity)
      _ = _ := split.symm
  have below : 2 ^ ((q.num.natAbs.log2 : ℤ) - q.den.log2 - 1) ≤ q := by
    have split : (2 : ℚ) ^ ((q.num.natAbs.log2 : ℤ) - q.den.log2 - 1) =
        2 ^ q.num.natAbs.log2 / 2 ^ (q.den.log2 + 1) := by
      rw [sub_sub, zpow_sub₀ two_ne_zero]
      norm_cast
    calc 2 ^ ((q.num.natAbs.log2 : ℤ) - q.den.log2 - 1)
        = 2 ^ q.num.natAbs.log2 / 2 ^ (q.den.log2 + 1) := split
      _ ≤ q.num.natAbs / q.den := div_le_div₀ (by positivity) num_low den_pos den_high.le
      _ = q := value.symm
  unfold exponent
  simp only [abs_of_pos positive]
  split_ifs with whole
  · exact ⟨whole, above⟩
  · refine ⟨below, ?_⟩
    rw [sub_add_cancel]
    exact not_le.mp whole

theorem exponent_mono {q r : ℚ} (positive : 0 < q) (h : q ≤ r) : exponent q ≤ exponent r := by
  have low := (exponent_spec positive).1
  have high := (exponent_spec (positive.trans_le h)).2
  have between : (2 : ℚ) ^ exponent q < 2 ^ (exponent r + 1) := low.trans_lt (h.trans_lt high)
  exact Int.lt_add_one_iff.mp ((zpow_lt_zpow_iff_right₀ one_lt_two).mp between)

/-- The distance of the floats about a number. -/
def unit (q : ℚ) : ℚ := 2 ^ Max.max (exponent q - 52) (-1074)

theorem unit_pos (q : ℚ) : 0 < unit q := zpow_pos two_pos _

def nearest (q : ℚ) : ℚ := roundEven (q / unit q) * unit q

/-- A multiple of the unit is passed by no rounding. -/
theorem nearest_le {q : ℚ} {k : ℤ} (h : q ≤ k * unit q) : nearest q ≤ k * unit q := by
  refine mul_le_mul_of_nonneg_right ?_ (unit_pos q).le
  have whole := roundEven_mono ((div_le_iff₀ (unit_pos q)).mpr h)
  rw [roundEven_intCast] at whole
  exact_mod_cast whole

theorem le_nearest {q : ℚ} {k : ℤ} (h : k * unit q ≤ q) : k * unit q ≤ nearest q := by
  refine mul_le_mul_of_nonneg_right ?_ (unit_pos q).le
  have whole := roundEven_mono ((le_div_iff₀ (unit_pos q)).mpr h)
  rw [roundEven_intCast] at whole
  exact_mod_cast whole

theorem nearest_nonneg {q : ℚ} (nonneg : 0 ≤ q) : 0 ≤ nearest q := by
  have least := le_nearest (q := q) (k := 0) (by simpa using nonneg)
  simpa using least

/-- A power of two from the unit on is a multiple of it. -/
theorem unit_dvd {q : ℚ} {e : ℤ} (low : -1074 ≤ e) (h : exponent q - 52 ≤ e) :
    ∃ k : ℤ, (k : ℚ) * unit q = 2 ^ e := by
  have le : Max.max (exponent q - 52) (-1074) ≤ e := max_le h low
  obtain ⟨n, rest⟩ := Int.eq_ofNat_of_zero_le (sub_nonneg.mpr le)
  refine ⟨2 ^ n, ?_⟩
  rw [unit, ← sub_add_cancel e (Max.max (exponent q - 52) (-1074)), rest, zpow_add₀ two_ne_zero]
  norm_cast

theorem nearest_mono {q r : ℚ} (positive : 0 < q) (h : q ≤ r) : nearest q ≤ nearest r := by
  have positive' : 0 < r := positive.trans_le h
  by_cases same : unit q = unit r
  · unfold nearest
    rw [same]
    refine mul_le_mul_of_nonneg_right ?_ (unit_pos r).le
    exact_mod_cast roundEven_mono (div_le_div_of_nonneg_right h (unit_pos r).le)
  · -- A power of two stands between the two, and it is a float for both.
    have grows := exponent_mono positive h
    have apart : exponent q + 1 ≤ exponent r ∧ -1074 ≤ exponent r - 52 := by
      unfold unit at same
      constructor
      · by_contra less
        exact same (by rw [show exponent q = exponent r by omega])
      · by_contra less
        refine same ?_
        rw [max_eq_right (by omega), max_eq_right (by omega)]
    obtain ⟨k, under⟩ := unit_dvd (q := q) (e := exponent r) (by omega) (by omega)
    obtain ⟨l, upper⟩ := unit_dvd (q := r) (e := exponent r) (by omega) (by omega)
    calc nearest q ≤ k * unit q := by
          refine nearest_le ?_
          rw [under]
          exact (exponent_spec positive).2.le.trans (zpow_le_zpow_right₀ one_le_two apart.1)
      _ = l * unit r := by rw [under, upper]
      _ ≤ nearest r := by
          refine le_nearest ?_
          rw [upper]
          exact (exponent_spec positive').1

theorem ofRat_of_pos {q : ℚ} (positive : 0 < q) :
    ofRat q = if 2 ^ 1024 ≤ nearest q then .infinity false else .finite (nearest q) := by
  have sign : ¬q < 0 := positive.le.not_gt
  unfold ofRat nearest unit exponent roundEven
  rw [if_neg positive.ne']
  simp only [abs_of_pos positive, decide_eq_false sign, if_neg sign, Int.cast_ite]

theorem ofRat_zero : ofRat 0 = .finite 0 := if_pos rfl

theorem ofRat_mono {q r : ℚ} (nonneg : 0 ≤ q) (h : q ≤ r) : le (ofRat q) (ofRat r) = true := by
  rcases (nonneg.trans h).eq_or_lt with rfl | positive'
  · obtain rfl : q = 0 := le_antisymm h nonneg
    rw [ofRat_zero]
    exact decide_eq_true (le_refl (0 : ℚ))
  rw [ofRat_of_pos positive']
  rcases nonneg.eq_or_lt with rfl | positive
  · rw [ofRat_zero]
    split_ifs
    · rfl
    · exact decide_eq_true (nearest_nonneg positive'.le)
  · have grows := nearest_mono positive h
    rw [ofRat_of_pos positive]
    split_ifs with large large'
    · rfl
    · exact absurd (large.trans grows) large'
    · rfl
    · exact decide_eq_true grows

section Signs

variable {x y : F64}

theorem ofRat_not_neg {q : ℚ} (nonneg : 0 ≤ q) : lt (ofRat q) (.finite 0) = false := by
  rcases nonneg.eq_or_lt with rfl | positive
  · rw [ofRat_zero]
    exact decide_eq_false (lt_irrefl (0 : ℚ))
  · rw [ofRat_of_pos positive]
    split_ifs
    · rfl
    · exact decide_eq_false (nearest_nonneg nonneg).not_gt

theorem finite_nonneg {q : ℚ} (h : lt (.finite q) (.finite 0) = false) : 0 ≤ q :=
  not_lt.mp (of_decide_eq_false h)

/-- What is not below zero, a NaN among them, multiplies to what is not. -/
theorem times_not_neg (hx : lt x (.finite 0) = false) (hy : lt y (.finite 0) = false) :
    lt (times x y) (.finite 0) = false := by
  cases x with
  | finite a =>
    have nonneg := finite_nonneg hx
    cases y with
    | finite b => exact ofRat_not_neg (mul_nonneg nonneg (finite_nonneg hy))
    | infinity negative =>
      cases negative with
      | true => cases hy
      | false =>
        simp only [times, mul]
        split_ifs
        · rfl
        · rw [decide_eq_false nonneg.not_gt]
          rfl
    | nan => rfl
  | infinity negative =>
    cases negative with
    | true => cases hx
    | false =>
      cases y with
      | finite b =>
        simp only [times, mul]
        split_ifs
        · rfl
        · rw [decide_eq_false (finite_nonneg hy).not_gt]
          rfl
      | infinity negative =>
        cases negative with
        | true => cases hy
        | false => rfl
      | nan => rfl
  | nan => rfl

theorem plus_not_neg (hx : lt x (.finite 0) = false) (hy : lt y (.finite 0) = false) :
    lt (plus x y) (.finite 0) = false := by
  cases x with
  | finite a =>
    cases y with
    | finite b => exact ofRat_not_neg (add_nonneg (finite_nonneg hx) (finite_nonneg hy))
    | infinity negative => exact hy
    | nan => rfl
  | infinity negative =>
    cases negative with
    | true => cases hx
    | false =>
      cases y with
      | finite b => rfl
      | infinity negative =>
        cases negative with
        | true => cases hy
        | false => rfl
      | nan => rfl
  | nan => rfl

theorem max_not_neg {c : ℚ} (nonneg : 0 ≤ c) : lt (max x (.finite c)) (.finite 0) = false := by
  unfold max
  split_ifs with less
  · exact decide_eq_false nonneg.not_gt
  · rw [not_or] at less
    cases x with
    | finite a => exact decide_eq_false (nonneg.trans (not_lt.mp (by simpa [lt] using less.2))).not_gt
    | infinity negative =>
      cases negative with
      | true => exact absurd rfl less.2
      | false => rfl
    | nan => exact absurd rfl less.1

end Signs

section Clamping

theorem clamp_of_mem {low high q : ℚ} (above : low ≤ q) (below : q ≤ high) :
    clamp (.finite low) (.finite high) (.finite q) = .finite q := by
  have raised : lt (.finite q) (.finite low) = false := decide_eq_false above.not_gt
  have kept : lt (.finite high) (.finite q) = false := decide_eq_false below.not_gt
  simp [clamp, raised, kept]

theorem clamp_infinity (low high : ℚ) :
    clamp (.finite low) (.finite high) (.infinity false) = .finite high := rfl

theorem clamp_finite_eq {low high : ℚ} (h : low ≤ high) (q : ℚ) :
    clamp (.finite low) (.finite high) (.finite q) = .finite (Max.max low (Min.min high q)) := by
  by_cases small : q < low
  · have raised : lt (.finite q) (.finite low) = true := decide_eq_true small
    have inside : lt (.finite high) (.finite low) = false := decide_eq_false h.not_gt
    simp [clamp, raised, inside, small.le, min_eq_right (small.le.trans h)]
  · have raised : lt (.finite q) (.finite low) = false := decide_eq_false small
    by_cases large : high < q
    · have lowered : lt (.finite high) (.finite q) = true := decide_eq_true large
      simp [clamp, raised, lowered, min_eq_left large.le, h]
    · rw [clamp_of_mem (not_lt.mp small) (not_lt.mp large), min_eq_right (not_lt.mp large),
        max_eq_right (not_lt.mp small)]

/-- Clamping keeps the order of what is not below zero. -/
theorem clamp_mono {low high a b : ℚ} {x y : F64} (h : low ≤ high)
    (ordered : le x y = true) (hx : lt x (.finite 0) = false)
    (ha : clamp (.finite low) (.finite high) x = .finite a)
    (hb : clamp (.finite low) (.finite high) y = .finite b) : a ≤ b := by
  cases y with
  | nan => cases hb
  | infinity negative =>
    cases negative with
    | true =>
      cases x with
      | finite _ => cases ordered
      | infinity negative =>
        cases negative with
        | true => cases hx
        | false => cases ordered
      | nan => cases ordered
    | false =>
      rw [clamp_infinity] at hb
      cases hb
      cases x with
      | finite q =>
        rw [clamp_finite_eq h] at ha
        cases ha
        exact max_le h (min_le_left _ _)
      | infinity negative =>
        cases negative with
        | true => cases hx
        | false =>
          cases ha
          exact le_rfl
      | nan => cases ordered
  | finite r =>
    cases x with
    | finite q =>
      rw [clamp_finite_eq h] at ha hb
      cases ha
      cases hb
      exact max_le_max le_rfl (min_le_min le_rfl (of_decide_eq_true ordered))
    | infinity negative =>
      cases negative with
      | true => cases hx
      | false => cases ordered
    | nan => cases ordered

end Clamping

end F64
