import Amatl.Lib.Text
import Mathlib.Algebra.Order.Ring.Rat
import Mathlib.Data.Rat.Floor

/-! Floating-point numbers with rounding left out: an exact rational, an
infinity or a NaN. Comparisons with a NaN are false. -/

inductive F64 where
  | finite (value : ℚ)
  | infinity (negative : Bool)
  | nan
  deriving DecidableEq

namespace F64

def isFinite : F64 → Bool
  | .finite _ => true
  | _ => false

/-- The number of a finite value. -/
def toRat : F64 → ℚ
  | .finite value => value
  | _ => 0

def le : F64 → F64 → Bool
  | .finite x, .finite y => x ≤ y
  | .infinity true, .finite _ => true
  | .infinity true, .infinity _ => true
  | .finite _, .infinity false => true
  | .infinity false, .infinity false => true
  | _, _ => false

def lt : F64 → F64 → Bool
  | .finite x, .finite y => x < y
  | .infinity true, .finite _ => true
  | .infinity true, .infinity false => true
  | .finite _, .infinity false => true
  | _, _ => false

/-- Sums and products are exact, and a zero has no sign. -/
def add : F64 → F64 → F64
  | .finite x, .finite y => .finite (x + y)
  | .nan, _ | _, .nan => .nan
  | .infinity a, .infinity b => if a = b then .infinity a else .nan
  | .infinity a, .finite _ | .finite _, .infinity a => .infinity a

def mul : F64 → F64 → F64
  | .finite x, .finite y => .finite (x * y)
  | .nan, _ | _, .nan => .nan
  | .infinity a, .infinity b => .infinity (a != b)
  | .infinity a, .finite y | .finite y, .infinity a =>
    if y = 0 then .nan else .infinity (a != decide (y < 0))

/-- Nothing fails: zero by zero is a NaN, another number by zero an infinity. -/
def div : F64 → F64 → F64
  | .finite x, .finite y =>
    if y = 0 then if x = 0 then .nan else .infinity (x < 0) else .finite (x / y)
  | .nan, _ | _, .nan => .nan
  | .infinity _, .infinity _ => .nan
  | .infinity a, .finite y => .infinity (a != decide (y < 0))
  | .finite _, .infinity _ => .finite 0

/-- `f64::clamp`, which lets a NaN through. -/
def clamp (low high value : F64) : F64 :=
  let raised := if lt value low then low else value
  if lt high raised then high else raised

/-- The nearest float to an integer, ties to even: 53 bits are kept. -/
def ofInt (n : Int) : F64 :=
  let unit := 2 ^ (n.natAbs.log2 - 52)
  let kept := n.natAbs / unit
  let low := n.natAbs % unit
  let rounded := if unit < 2 * low ∨ (unit = 2 * low ∧ kept % 2 = 1) then kept + 1 else kept
  .finite (n.sign * (rounded * unit : Nat))

/-- The nearest float to a rational, ties to even: 53 bits are kept, fewer below
the normal range, and what would need a larger exponent is an infinity. -/
def ofRat (q : ℚ) : F64 :=
  if q = 0 then .finite 0
  else
    let top : Int := (q.num.natAbs.log2 : Int) - q.den.log2
    let exponent := if (2 : ℚ) ^ top ≤ |q| then top else top - 1
    let unit : ℚ := 2 ^ max (exponent - 52) (-1074)
    let kept := ⌊|q| / unit⌋
    let low := |q| / unit - kept
    let rounded := if 1 / 2 < low ∨ (low = 1 / 2 ∧ kept % 2 = 1) then kept + 1 else kept
    if 2 ^ 1024 ≤ rounded * unit then .infinity (q < 0)
    else .finite (if q < 0 then -(rounded * unit) else rounded * unit)

def sign (text : List Char) : Bool × List Char :=
  match text with
  | '-' :: rest => (true, rest)
  | '+' :: rest => (false, rest)
  | _ => (false, text)

/-- Digits with an optional point among or around them: the number they spell
and how many stand behind the point. -/
def mantissa (text : List Char) : Option (Nat × Nat) :=
  let (whole, fraction) := (Text.splitOnce ['.'] text).getD (text, [])
  (Text.digitsValue 10 (whole ++ fraction) none).map (fun digits => (digits, fraction.length))

/-- `str::parse::<f64>`. -/
def parse (text : List Char) : Option F64 :=
  let (negative, rest) := sign text
  let word := rest.map Text.toAsciiLower
  if word = "inf".toList ∨ word = "infinity".toList then some (.infinity negative)
  else if word = "nan".toList then some .nan
  else
    let (digits, power) := match Text.splitOnce ['e'] word with
      | none => (word, some 0)
      | some (digits, power) =>
        let (below, power) := sign power
        (digits, (Text.digitsValue 10 power none).map (fun n => if below then -(n : Int) else n))
    match mantissa digits, power with
    | some (value, behind), some power =>
      let exact : ℚ := value * 10 ^ (power - behind : Int)
      some (ofRat (if negative then -exact else exact))
    | _, _ => none

/-- `(low..=high).contains(&value)`. -/
def within (low high value : F64) : Bool := le low value && le value high

@[simp] theorem add_finite (x y : ℚ) : add (.finite x) (.finite y) = .finite (x + y) := rfl

@[simp] theorem mul_finite (x y : ℚ) : mul (.finite x) (.finite y) = .finite (x * y) := rfl

theorem div_finite {x y : ℚ} (h : y ≠ 0) : div (.finite x) (.finite y) = .finite (x / y) := by
  rw [div, if_neg h]

theorem div_zero_zero : div (.finite 0) (.finite 0) = .nan := by
  rw [div, if_pos rfl, if_pos rfl]

theorem clamp_finite {low high : ℚ} (h : low ≤ high) (value : ℚ) :
    ∃ kept, clamp (.finite low) (.finite high) (.finite value) = .finite kept ∧
      low ≤ kept ∧ kept ≤ high := by
  by_cases small : value < low
  · have raised : lt (.finite value) (.finite low) = true := decide_eq_true small
    have inside : lt (.finite high) (.finite low) = false := decide_eq_false (not_lt.mpr h)
    exact ⟨low, by simp [clamp, raised, inside], le_refl low, h⟩
  · have raised : lt (.finite value) (.finite low) = false := decide_eq_false small
    by_cases large : high < value
    · have lowered : lt (.finite high) (.finite value) = true := decide_eq_true large
      exact ⟨high, by simp [clamp, raised, lowered], h, le_refl high⟩
    · have kept : lt (.finite high) (.finite value) = false := decide_eq_false large
      exact ⟨value, by simp [clamp, raised, kept], not_lt.mp small, not_lt.mp large⟩

theorem within_finite {low high : ℚ} {value : F64}
    (h : within (.finite low) (.finite high) value = true) :
    ∃ q, value = .finite q ∧ low ≤ q ∧ q ≤ high := by
  cases value with
  | finite q =>
    have both := Bool.and_eq_true_iff.mp h
    exact ⟨q, rfl, of_decide_eq_true both.1, of_decide_eq_true both.2⟩
  | infinity negative => cases negative <;> simp [within, le] at h
  | nan => simp [within, le] at h

end F64
