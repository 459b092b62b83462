import Mathlib.Data.Int.Order.Basic
import Mathlib.Logic.Function.Iterate
import Mathlib.Tactic.Common
import Mathlib.Tactic.IntervalCases

/-! The Gregorian calendar over all years, before and after. A day is followed by the next one; the
number of a day counts from 1970-01-01, by years that begin in March so that a leap day is the
last of its year. -/

namespace Gregorian

structure Date where
  year : Int
  month : Nat
  day : Nat
  deriving DecidableEq, Repr

def Leap (year : Int) : Prop := year % 400 = 0 ∨ year % 4 = 0 ∧ year % 100 ≠ 0

instance (year : Int) : Decidable (Leap year) := inferInstanceAs (Decidable (_ ∨ _))

def daysIn (year : Int) (month : Nat) : Nat :=
  [31, if Leap year then 29 else 28, 31, 30, 31, 30, 31, 31, 30, 31, 30, 31].getD (month - 1) 0

structure Date.Valid (date : Date) : Prop where
  month_range : 1 ≤ date.month ∧ date.month ≤ 12
  day_range : 1 ≤ date.day ∧ date.day ≤ daysIn date.year date.month

instance (date : Date) : Decidable date.Valid :=
  decidable_of_iff ((1 ≤ date.month ∧ date.month ≤ 12) ∧
      1 ≤ date.day ∧ date.day ≤ daysIn date.year date.month)
    ⟨fun h => ⟨h.1, h.2⟩, fun h => ⟨h.month_range, h.day_range⟩⟩

def Date.Before (a b : Date) : Prop :=
  a.year < b.year ∨ a.year = b.year ∧
    (a.month < b.month ∨ a.month = b.month ∧ a.day < b.day)

def Date.next (date : Date) : Date :=
  if date.day < daysIn date.year date.month then { date with day := date.day + 1 }
  else if date.month < 12 then { date with month := date.month + 1, day := 1 }
  else ⟨date.year + 1, 1, 1⟩

/-- One date lies a number of days after another, or before it. -/
def Lies (days : Int) (start date : Date) : Prop :=
  Date.next^[days.toNat] start = Date.next^[(-days).toNat] date

def epoch : Date := ⟨1970, 1, 1⟩

/-- Years that begin in March. -/
def marchYear (date : Date) : Int := if date.month ≤ 2 then date.year - 1 else date.year

def marchMonth (date : Date) : Int := if date.month ≤ 2 then date.month + 9 else date.month - 3

def yearStart (year : Int) : Int := 365 * year + year / 4 - year / 100 + year / 400

def monthStart (month : Int) : Int := (153 * month + 2) / 5

/-- The number of a day, counted from 1970-01-01. -/
def Date.dayNumber (date : Date) : Int :=
  yearStart (marchYear date) + monthStart (marchMonth date) + date.day - 719469

theorem epoch_dayNumber : epoch.dayNumber = 0 := by decide

theorem epoch_valid : epoch.Valid := by decide

theorem length_month {date : Date} (range : 1 ≤ date.month ∧ date.month ≤ 12) :
    (daysIn date.year date.month : Int) =
      if date.month = 2 then yearStart (marchYear date + 1) - yearStart (marchYear date) - 337
      else monthStart (marchMonth date + 1) - monthStart (marchMonth date) := by
  obtain ⟨year, month, day⟩ := date
  obtain ⟨low, high⟩ := range
  dsimp only at low high
  by_cases february : month = 2
  · subst february
    have length : daysIn year 2 = if Leap year then 29 else 28 := rfl
    have before : marchYear ⟨year, 2, day⟩ = year - 1 := rfl
    rw [length, if_pos rfl, before, yearStart, yearStart]
    by_cases leap : Leap year
    · rw [if_pos leap]
      unfold Leap at leap
      omega
    · rw [if_neg leap]
      unfold Leap at leap
      omega
  · rw [if_neg february]
    interval_cases month <;> simp [daysIn, marchMonth, monthStart] at february ⊢

theorem monthStart_mono {a b : Int} (h : a ≤ b) : monthStart a ≤ monthStart b := by
  unfold monthStart
  omega

theorem yearStart_mono {a b : Int} (h : a ≤ b) : yearStart a ≤ yearStart b := by
  unfold yearStart
  omega

theorem yearStart_step (year : Int) : 365 ≤ yearStart (year + 1) - yearStart year := by
  unfold yearStart
  omega

theorem marchMonth_range {date : Date} (range : 1 ≤ date.month ∧ date.month ≤ 12) :
    0 ≤ marchMonth date ∧ marchMonth date ≤ 11 := by
  unfold marchMonth
  split_ifs <;> omega

theorem daysIn_range {year : Int} {month : Nat} (range : 1 ≤ month ∧ month ≤ 12) :
    1 ≤ daysIn year month ∧ daysIn year month ≤ 31 := by
  obtain ⟨low, high⟩ := range
  by_cases leap : Leap year
  · interval_cases month <;> simp [daysIn, leap]
  · interval_cases month <;> simp [daysIn, leap]

theorem Date.Valid.next {date : Date} (valid : date.Valid) : date.next.Valid := by
  obtain ⟨year, month, day⟩ := date
  obtain ⟨⟨low, high⟩, ⟨first, last⟩⟩ := valid
  dsimp only at low high first last
  by_cases inside : day < daysIn year month
  · have step : Date.next ⟨year, month, day⟩ = ⟨year, month, day + 1⟩ := if_pos inside
    rw [step]
    exact ⟨⟨low, high⟩, ⟨by simp, inside⟩⟩
  · by_cases december : month < 12
    · have step : Date.next ⟨year, month, day⟩ = ⟨year, month + 1, 1⟩ := by
        simp [Date.next, inside, december]
      rw [step]
      exact ⟨⟨by simp, december⟩, ⟨le_rfl, (daysIn_range ⟨by simp, december⟩).1⟩⟩
    · have step : Date.next ⟨year, month, day⟩ = ⟨year + 1, 1, 1⟩ := by
        simp [Date.next, inside, december]
      rw [step]
      exact ⟨⟨le_rfl, by simp⟩, ⟨le_rfl, (daysIn_range ⟨le_rfl, by simp⟩).1⟩⟩

/-- The next day has the next number. -/
theorem dayNumber_next {date : Date} (valid : date.Valid) :
    date.next.dayNumber = date.dayNumber + 1 := by
  obtain ⟨months, days⟩ := valid
  have length := length_month months
  unfold Date.next
  by_cases inside : date.day < daysIn date.year date.month
  · rw [if_pos inside]
    change yearStart (marchYear date) + monthStart (marchMonth date) + ((date.day + 1 : Nat) : Int) -
      719469 = _
    unfold Date.dayNumber
    omega
  · rw [if_neg inside]
    have last : date.day = daysIn date.year date.month := by omega
    obtain ⟨year, month, day⟩ := date
    dsimp only at months last length ⊢
    rw [← last] at length
    obtain ⟨low, high⟩ := months
    clear inside days last
    interval_cases month <;>
      simp [Date.dayNumber, marchYear, marchMonth, monthStart] at length ⊢ <;> omega

theorem dayNumber_iterate {date : Date} (valid : date.Valid) (days : Nat) :
    (Date.next^[days] date).Valid ∧ (Date.next^[days] date).dayNumber = date.dayNumber + days := by
  induction days with
  | zero => exact ⟨valid, by simp⟩
  | succ days ih =>
    obtain ⟨valid', number⟩ := ih
    rw [Function.iterate_succ_apply']
    have one := dayNumber_next valid'
    exact ⟨valid'.next, by omega⟩

theorem Date.Valid.month_end {date : Date} (valid : date.Valid) (month : marchMonth date < 11) :
    monthStart (marchMonth date) + date.day ≤ monthStart (marchMonth date + 1) := by
  obtain ⟨months, first, last⟩ := valid
  have length := length_month months
  have other : date.month ≠ 2 := by
    intro february
    have here : marchMonth date = 11 := by simp [marchMonth, february]
    omega
  rw [if_neg other] at length
  omega

theorem Date.Valid.year_end {date : Date} (valid : date.Valid) :
    yearStart (marchYear date) + monthStart (marchMonth date) + date.day ≤
      yearStart (marchYear date + 1) := by
  by_cases month : marchMonth date < 11
  · have inside := valid.month_end month
    have whole := monthStart_mono (show marchMonth date + 1 ≤ 11 by omega)
    have eleven : monthStart 11 = 337 := rfl
    have year := yearStart_step (marchYear date)
    omega
  · obtain ⟨months, first, last⟩ := valid
    have length := length_month months
    have range := marchMonth_range months
    have february : date.month = 2 := by
      unfold marchMonth at month range
      split_ifs at month range <;> omega
    have eleven : monthStart (marchMonth date) = 337 := by simp [marchMonth, february, monthStart]
    rw [if_pos february] at length
    omega

theorem before_march {a b : Date} (ra : 1 ≤ a.month ∧ a.month ≤ 12)
    (rb : 1 ≤ b.month ∧ b.month ≤ 12) (h : a.Before b) :
    marchYear a < marchYear b ∨ marchYear a = marchYear b ∧
      (marchMonth a < marchMonth b ∨ marchMonth a = marchMonth b ∧ a.day < b.day) := by
  unfold Date.Before at h
  unfold marchYear marchMonth
  split_ifs <;> omega

theorem dayNumber_lt {a b : Date} (va : a.Valid) (vb : b.Valid) (h : a.Before b) :
    a.dayNumber < b.dayNumber := by
  have first := vb.day_range.1
  unfold Date.dayNumber
  rcases before_march va.month_range vb.month_range h with year | ⟨year, month | ⟨month, day⟩⟩
  · have ended := va.year_end
    have later := yearStart_mono (show marchYear a + 1 ≤ marchYear b by omega)
    have range := marchMonth_range vb.month_range
    have zero : monthStart 0 = 0 := rfl
    have begun := monthStart_mono range.1
    omega
  · have range := marchMonth_range vb.month_range
    have ended := va.month_end (by omega)
    have later := monthStart_mono (show marchMonth a + 1 ≤ marchMonth b by omega)
    rw [year]
    omega
  · rw [year, month]
    omega

theorem Date.before_or_eq (a b : Date) : a.Before b ∨ a = b ∨ b.Before a := by
  obtain ⟨year, month, day⟩ := a
  obtain ⟨year', month', day'⟩ := b
  simp only [Date.Before, Date.mk.injEq]
  omega

theorem dayNumber_lt_iff {a b : Date} (va : a.Valid) (vb : b.Valid) :
    a.dayNumber < b.dayNumber ↔ a.Before b := by
  constructor
  · intro less
    rcases a.before_or_eq b with before | same | after
    · exact before
    · rw [same] at less
      omega
    · have more := dayNumber_lt vb va after
      omega
  · exact dayNumber_lt va vb

theorem dayNumber_injective {a b : Date} (va : a.Valid) (vb : b.Valid)
    (h : a.dayNumber = b.dayNumber) : a = b := by
  rcases a.before_or_eq b with before | same | after
  · have less := dayNumber_lt va vb before
    omega
  · exact same
  · have less := dayNumber_lt vb va after
    omega

theorem lies_iff {days : Int} {start date : Date} (vs : start.Valid) (vd : date.Valid) :
    Lies days start date ↔ date.dayNumber = start.dayNumber + days := by
  obtain ⟨valid, forward⟩ := dayNumber_iterate vs days.toNat
  obtain ⟨valid', backward⟩ := dayNumber_iterate vd (-days).toNat
  constructor
  · intro meet
    unfold Lies at meet
    rw [meet, backward] at forward
    omega
  · intro number
    apply dayNumber_injective valid valid'
    omega

end Gregorian
