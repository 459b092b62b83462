import Amatl.Lib.Calendar
import Amatl.QueryInvariants
import Amatl.Server.Access

/-! The UTC day that a credential is compared with, from the seconds of the clock. -/

namespace Amatl

/-! The steps of `civil_from_days`: a day of an era of 400 years, the year of the era, the day of
that year and its month. -/

def yearOfEra (doe : Int) : Int :=
  (doe - doe.tdiv 1460 + doe.tdiv 36524 - doe.tdiv 146096).tdiv 365

def dayOfYear (doe yoe : Int) : Int := doe - (365 * yoe + yoe.tdiv 4 - yoe.tdiv 100)

def monthFromMarch (doy : Int) : Int := (5 * doy + 2).tdiv 153

def asU32 (n : Int) : Nat := (n % 4294967296).toNat

def civilFromDays (days : Int) : Gregorian.Date :=
  let z := days + 719468
  let era := z / 146097
  let doe := z % 146097
  let yoe := yearOfEra doe
  let year := yoe + era * 400
  let doy := dayOfYear doe yoe
  let mp := monthFromMarch doy
  let day := asU32 (doy - (153 * mp + 2).tdiv 5 + 1)
  let month := asU32 (if mp < 10 then mp + 3 else mp - 9)
  ⟨if month ≤ 2 then year + 1 else year, month, day⟩

open Gregorian Text

/-- A day of an era by its century, its four years in the century, its year of these and the day
of that year; the last day of a leap year has the number 365. -/
theorem era_split {doe : Int} (low : 0 ≤ doe) (high : doe < 146097) :
    ∃ c q y r : Int, doe = 36524 * c + 1461 * q + 365 * y + r ∧ (0 ≤ c ∧ c ≤ 3) ∧
      (0 ≤ q ∧ q ≤ 24) ∧ (0 ≤ y ∧ y ≤ 3) ∧
      (0 ≤ r ∧ (r < 365 ∨ r = 365 ∧ y = 3 ∧ (q < 24 ∨ c = 3))) := by
  obtain ⟨c, e, day, century, inside⟩ : ∃ c e : Int, doe = 36524 * c + e ∧ (0 ≤ c ∧ c ≤ 3) ∧
      (0 ≤ e ∧ (e < 36524 ∨ e = 36524 ∧ c = 3)) := by
    by_cases last : doe = 146096
    · exact ⟨3, 36524, by omega, by omega, by omega⟩
    · exact ⟨doe / 36524, doe % 36524, by omega, by omega, by omega⟩
  obtain ⟨q, f, day', four, inside'⟩ : ∃ q f : Int, e = 1461 * q + f ∧ (0 ≤ q ∧ q ≤ 24) ∧
      (0 ≤ f ∧ (f < 1460 ∨ f = 1460 ∧ (q < 24 ∨ c = 3))) :=
    ⟨e / 1461, e % 1461, by omega, by omega, by omega⟩
  by_cases last : f = 1460
  · exact ⟨c, q, 3, 365, by omega, century, four, by omega, by omega⟩
  · exact ⟨c, q, f / 365, f % 365, by omega, century, four, by omega, by omega⟩

theorem yearOfEra_eq {doe c q y r : Int} (day : doe = 36524 * c + 1461 * q + 365 * y + r)
    (century : 0 ≤ c ∧ c ≤ 3) (four : 0 ≤ q ∧ q ≤ 24) (year : 0 ≤ y ∧ y ≤ 3)
    (inside : 0 ≤ r ∧ (r < 365 ∨ r = 365 ∧ y = 3 ∧ (q < 24 ∨ c = 3))) :
    yearOfEra doe = 100 * c + 4 * q + y := by
  have low : 0 ≤ doe := by omega
  have years : yearOfEra doe = (doe - doe / 1460 + doe / 36524 - doe / 146096) / 365 := by
    unfold yearOfEra
    rw [Int.tdiv_eq_ediv_of_nonneg low, Int.tdiv_eq_ediv_of_nonneg low,
      Int.tdiv_eq_ediv_of_nonneg low, Int.tdiv_eq_ediv_of_nonneg (by omega)]
  -- Only the last days of the four years lie past one more multiple of 1460.
  have fours : doe / 1460 = 25 * c + q ∨ doe / 1460 = 25 * c + q + 1 ∧ y = 3 ∧ 1 ≤ r := by omega
  have centuries : doe / 36524 - doe / 146096 = c := by
    have last : doe = 146096 ∧ c = 3 ∨ doe < 36524 * (c + 1) := by omega
    rcases last with ⟨last, three⟩ | inside
    · rw [last, three]
      rfl
    · have none : doe / 146096 = 0 := by omega
      omega
  rw [years]
  omega

/-- The year of the era is the one that the day lies in. -/
theorem yearOfEra_spec {doe : Int} (low : 0 ≤ doe) (high : doe < 146097) :
    0 ≤ yearOfEra doe ∧ yearOfEra doe < 400 ∧ yearStart (yearOfEra doe) ≤ doe ∧
      doe < yearStart (yearOfEra doe + 1) := by
  obtain ⟨c, q, y, r, day, century, four, year, inside⟩ := era_split low high
  rw [yearOfEra_eq day century four year inside]
  have start : yearStart (100 * c + 4 * q + y) = 36524 * c + 1461 * q + 365 * y := by
    unfold yearStart
    omega
  have next : 36524 * c + 1461 * q + 365 * y + r < yearStart (100 * c + 4 * q + y + 1) := by
    unfold yearStart
    by_cases leap : y = 3
    · have fours : (100 * c + 4 * q + y + 1) / 4 = 25 * c + q + 1 := by omega
      by_cases hundred : q = 24
      · have centuries : (100 * c + 4 * q + y + 1) / 100 = c + 1 := by omega
        omega
      · have centuries : (100 * c + 4 * q + y + 1) / 100 = c := by omega
        omega
    · have fours : (100 * c + 4 * q + y + 1) / 4 = 25 * c + q := by omega
      have centuries : (100 * c + 4 * q + y + 1) / 100 = c := by omega
      omega
  refine ⟨by omega, by omega, by omega, by omega⟩

theorem dayOfYear_eq {doe yoe : Int} (low : 0 ≤ yoe) (high : yoe < 400) :
    dayOfYear doe yoe = doe - yearStart yoe := by
  unfold dayOfYear yearStart
  rw [Int.tdiv_eq_ediv_of_nonneg low, Int.tdiv_eq_ediv_of_nonneg low]
  omega

theorem monthFromMarch_spec {doy : Int} (low : 0 ≤ doy) (high : doy < 366) :
    0 ≤ monthFromMarch doy ∧ monthFromMarch doy < 12 ∧ monthStart (monthFromMarch doy) ≤ doy ∧
      doy < monthStart (monthFromMarch doy + 1) := by
  have month : monthFromMarch doy = (5 * doy + 2) / 153 := by
    unfold monthFromMarch
    rw [Int.tdiv_eq_ediv_of_nonneg (by omega)]
  rw [month]
  unfold monthStart
  refine ⟨by omega, by omega, by omega, by omega⟩

theorem asU32_eq {n : Int} (low : 0 ≤ n) (high : n < 4294967296) : (asU32 n : Int) = n := by
  unfold asU32
  omega

def ofMarch (year doy : Int) : Date :=
  let mp := monthFromMarch doy
  let month := asU32 (if mp < 10 then mp + 3 else mp - 9)
  ⟨if month ≤ 2 then year + 1 else year, month, asU32 (doy - (153 * mp + 2).tdiv 5 + 1)⟩

theorem civilFromDays_eq (days : Int) :
    civilFromDays days = ofMarch
      (yearOfEra ((days + 719468) % 146097) + (days + 719468) / 146097 * 400)
      (dayOfYear ((days + 719468) % 146097) (yearOfEra ((days + 719468) % 146097))) := rfl

theorem ofMarch_spec (year : Int) {doy : Int} (low : 0 ≤ doy) (high : doy < 366) :
    (1 ≤ (ofMarch year doy).month ∧ (ofMarch year doy).month ≤ 12) ∧
    marchYear (ofMarch year doy) = year ∧
    marchMonth (ofMarch year doy) = monthFromMarch doy ∧
    ((ofMarch year doy).day : Int) = doy - monthStart (monthFromMarch doy) + 1 := by
  obtain ⟨first, last, begun, ended⟩ := monthFromMarch_spec low high
  have day : ((ofMarch year doy).day : Int) = doy - monthStart (monthFromMarch doy) + 1 := by
    have start : (153 * monthFromMarch doy + 2).tdiv 5 = monthStart (monthFromMarch doy) :=
      Int.tdiv_eq_ediv_of_nonneg (by omega)
    have short : monthStart (monthFromMarch doy + 1) ≤ monthStart (monthFromMarch doy) + 31 := by
      unfold monthStart
      omega
    change ((asU32 (doy - (153 * monthFromMarch doy + 2).tdiv 5 + 1) : Nat) : Int) = _
    rw [start]
    exact asU32_eq (by omega) (by omega)
  have month : ((ofMarch year doy).month : Int) =
      if monthFromMarch doy < 10 then monthFromMarch doy + 3 else monthFromMarch doy - 9 :=
    asU32_eq (by split_ifs <;> omega) (by split_ifs <;> omega)
  have years : (ofMarch year doy).year =
      if (ofMarch year doy).month ≤ 2 then year + 1 else year := rfl
  refine ⟨?_, ?_, ?_, day⟩
  · split_ifs at month <;> omega
  · unfold marchYear
    split_ifs at years ⊢ <;> omega
  · unfold marchMonth
    split_ifs at month ⊢ <;> omega

theorem civilFromDays_march (days : Int) : ∃ year doy : Int,
    civilFromDays days = ofMarch year doy ∧ yearStart year + doy = days + 719468 ∧
    0 ≤ doy ∧ doy < yearStart (year + 1) - yearStart year := by
  have low : 0 ≤ (days + 719468) % 146097 := by omega
  have high : (days + 719468) % 146097 < 146097 := by omega
  obtain ⟨first, last, begun, ended⟩ := yearOfEra_spec low high
  have doy : dayOfYear ((days + 719468) % 146097) (yearOfEra ((days + 719468) % 146097)) =
      (days + 719468) % 146097 - yearStart (yearOfEra ((days + 719468) % 146097)) :=
    dayOfYear_eq first last
  have whole := Int.emod_add_mul_ediv (days + 719468) 146097
  -- A whole era has 146097 days.
  have era : ∀ yoe, yearStart (yoe + (days + 719468) / 146097 * 400) =
      yearStart yoe + 146097 * ((days + 719468) / 146097) := by
    intro yoe
    unfold yearStart
    omega
  refine ⟨_, _, civilFromDays_eq days, ?_, ?_, ?_⟩
  · rw [doy, era]
    omega
  · omega
  · have next := era (yearOfEra ((days + 719468) % 146097) + 1)
    rw [doy, add_right_comm, next, era]
    omega

theorem civilFromDays_dayNumber (days : Int) :
    (civilFromDays days).Valid ∧ (civilFromDays days).dayNumber = days := by
  obtain ⟨year, doy, dated, whole, low, high⟩ := civilFromDays_march days
  have long : yearStart (year + 1) - yearStart year ≤ 366 := by
    unfold yearStart
    omega
  obtain ⟨months, marched, month, day⟩ := ofMarch_spec year low (by omega)
  obtain ⟨first, last, begun, ended⟩ := monthFromMarch_spec low (by omega)
  have length := length_month months
  rw [dated]
  rw [marched, month] at length
  refine ⟨⟨months, by omega, ?_⟩, ?_⟩
  · split_ifs at length with february
    · have eleven : marchMonth (ofMarch year doy) = 11 := by simp [marchMonth, february]
      have start : monthStart (monthFromMarch doy) = 337 := by rw [← month, eleven]; rfl
      omega
    · omega
  · unfold Date.dayNumber
    rw [marched, month]
    omega

theorem civilFromDays_lies (days : Int) : Lies days epoch (civilFromDays days) := by
  obtain ⟨valid, number⟩ := civilFromDays_dayNumber days
  rw [lies_iff epoch_valid valid, number, epoch_dayNumber]
  omega

/-- A number in the format `{:0width}`, whose sign comes before the zeros. -/
def zeroPadded (width : Nat) (n : Int) : List Char :=
  let digits := Nat.toDigits 10 n.natAbs
  if n < 0 then '-' :: (List.replicate (width - 1 - digits.length) '0' ++ digits)
  else List.replicate (width - digits.length) '0' ++ digits

/-- The day of the clock, which counts seconds from the epoch and none before it. -/
def today (seconds : UInt64) : Date := civilFromDays (seconds / 86400).toNat

def todayIso (seconds : UInt64) : String :=
  let date := today seconds
  String.ofList (zeroPadded 4 date.year ++ '-' ::
    (zeroPadded 2 date.month ++ '-' :: zeroPadded 2 date.day))

def CalendarDate.date (date : CalendarDate) : Date := ⟨date.year, date.month, date.day⟩

/-- The Julian day number, in which 1970-01-01 has the number 2440588. -/
def CalendarDate.julianDay (date : CalendarDate) : Int := date.date.dayNumber + 2440588

section

variable [TimeCrate]

/-- `Iso8601::DATE` reads every day of the calendar from its ISO text. -/
def ReadsIsoDates : Prop :=
  ∀ date : CalendarDate, TimeCrate.parseIsoDate (String.ofList date.text) = some date.julianDay

end

theorem zeroPadded_eq (width : Nat) {n : Nat} (small : n < 10 ^ (width + 1)) :
    zeroPadded (width + 1) n = padded (width + 1) n := by
  have plain : ∀ width n : Nat, zeroPadded width n =
      List.replicate (width - (Nat.toDigits 10 n).length) '0' ++ Nat.toDigits 10 n := by
    intro width n
    have sign : ¬ (n : Int) < 0 := by omega
    simp [zeroPadded, sign]
  rw [plain]
  induction width generalizing n with
  | zero =>
    have digit : n % 10 = n := Nat.mod_eq_of_lt (by omega)
    simp [padded, Nat.toDigits_of_lt_base (show n < 10 by omega), digit]
  | succ width ih =>
    have front := ih (show n / 10 < 10 ^ (width + 1) by omega)
    rw [padded, ← front]
    by_cases h : n < 10
    · have none : n / 10 = 0 := by omega
      have digit : n % 10 = n := Nat.mod_eq_of_lt h
      rw [none, digit, Nat.toDigits_of_lt_base h, Nat.toDigits_zero]
      simp [← List.replicate_succ']
    · rw [Nat.toDigits_of_base_le (by simp) (by omega)]
      simp

theorem leap_iff {year : Nat} : Leap year ↔ LeapYear year := by
  unfold Leap LeapYear
  omega

theorem daysIn_eq (year month : Nat) : Gregorian.daysIn year month = daysIn year month := by
  simp only [Gregorian.daysIn, daysIn, leap_iff]

theorem CalendarDate.date_valid (date : CalendarDate) : date.date.Valid := by
  refine ⟨date.month_range, ?_⟩
  have length := daysIn_eq date.year date.month
  rw [CalendarDate.date, length]
  exact date.day_range

theorem today_valid (seconds : UInt64) : (today seconds).Valid :=
  (civilFromDays_dayNumber _).1

theorem today_dayNumber (seconds : UInt64) :
    (today seconds).dayNumber = (seconds / 86400).toNat :=
  (civilFromDays_dayNumber _).2

theorem today_year (seconds : UInt64) : 1970 ≤ (today seconds).year := by
  have after : ¬ (today seconds).Before epoch := by
    rw [← dayNumber_lt_iff (today_valid seconds) epoch_valid, epoch_dayNumber, today_dayNumber]
    omega
  by_contra early
  exact after (.inl (show (today seconds).year < 1970 by omega))

/-- Up to the year 9999 the text of today is the ISO text of the day. -/
theorem todayIso_eq {seconds : UInt64} (year : (today seconds).year ≤ 9999) :
    ∃ date : CalendarDate, date.date = today seconds ∧
      todayIso seconds = String.ofList date.text := by
  have first := today_year seconds
  have natural : ((today seconds).year.toNat : Int) = (today seconds).year := by omega
  have length := daysIn_eq (today seconds).year.toNat (today seconds).month
  rw [natural] at length
  have months := (today_valid seconds).month_range
  have days := (today_valid seconds).day_range
  have short : Gregorian.daysIn (today seconds).year (today seconds).month ≤ 31 :=
    (daysIn_range months).2
  refine ⟨⟨(today seconds).year.toNat, (today seconds).month, (today seconds).day, by omega,
    months, ⟨days.1, length ▸ days.2⟩⟩, ?_, ?_⟩
  · simp [CalendarDate.date, natural]
  · have four := zeroPadded_eq 3 (show (today seconds).year.toNat < 10 ^ 4 by omega)
    have month := zeroPadded_eq 1 (show (today seconds).month < 10 ^ 2 by omega)
    have day := zeroPadded_eq 1 (show (today seconds).day < 10 ^ 2 by omega)
    rw [natural] at four
    simp only [todayIso, CalendarDate.text, four, month, day]

section

variable [TimeCrate]

theorem unexpiredOn_iff {client : ServerClient} {expiry day : String} {e d : CalendarDate}
    (stored : client.expiresAt = some expiry)
    (ends : TimeCrate.parseIsoDate expiry = some e.julianDay)
    (now : TimeCrate.parseIsoDate day = some d.julianDay) :
    client.unexpiredOn day = true ↔ ¬ e.date.Before d.date := by
  have order := dayNumber_lt_iff e.date_valid d.date_valid
  have numbers : client.unexpiredOn day = decide (d.julianDay ≤ e.julianDay) := by
    simp only [ServerClient.unexpiredOn, stored, ends, now]
  rw [numbers, decide_eq_true_iff, ← order]
  unfold CalendarDate.julianDay
  omega

/-- The days are those of the calendar, and a credential is accepted up to the end of the day that
it expires on. -/
theorem civilFromDays_expiry (iso : ReadsIsoDates) :
    (∀ days : Int, (civilFromDays days).Valid ∧ Lies days epoch (civilFromDays days)) ∧
    ∀ (seconds : UInt64) (client : ServerClient) (expiry : String) (e : CalendarDate),
      (today seconds).year ≤ 9999 → client.expiresAt = some expiry →
      TimeCrate.parseIsoDate expiry = TimeCrate.parseIsoDate (String.ofList e.text) →
      (client.unexpiredOn (todayIso seconds) = true ↔ ¬ e.date.Before (today seconds)) := by
  refine ⟨fun days => ⟨(civilFromDays_dayNumber days).1, civilFromDays_lies days⟩, ?_⟩
  intro seconds client expiry e year stored same
  obtain ⟨date, dated, text⟩ := todayIso_eq year
  have ends : TimeCrate.parseIsoDate expiry = some e.julianDay := same.trans (iso e)
  have now : TimeCrate.parseIsoDate (todayIso seconds) = some date.julianDay := by
    rw [text]
    exact iso date
  rw [← dated]
  exact unexpiredOn_iff stored ends now

end

theorem digitsValue_padded (width : Nat) {n : Nat} (small : n < 10 ^ width) :
    digitsValue 10 (padded width n) (some 0) = some n := by
  induction width generalizing n with
  | zero =>
    have zero : n = 0 := by omega
    rw [zero]
    rfl
  | succ width ih =>
    have front := ih (show n / 10 < 10 ^ width by omega)
    have digit := digitValue_digitChar 10 (by simp) (n % 10) (by omega)
    rw [padded, digitsValue_append _ _ front digit, Nat.div_add_mod']

def readIsoDate (text : List Char) : Option Int :=
  match digitsValue 10 (text.take 4) (some 0), digitsValue 10 ((text.drop 5).take 2) (some 0),
      digitsValue 10 (text.drop 8) (some 0) with
  | some year, some month, some day =>
    if (1 ≤ month ∧ month ≤ 12) ∧ (1 ≤ day ∧ day ≤ daysIn year month) ∧
        text = padded 4 year ++ '-' :: (padded 2 month ++ '-' :: padded 2 day) then
      some ((⟨year, month, day⟩ : Date).dayNumber + 2440588)
    else none
  | _, _, _ => none

@[reducible] def isoDates : TimeCrate where
  parseRfc3339 _ := none
  reformatRfc3339 _ := none
  midnightRfc3339 _ := none
  parseIsoDate text := readIsoDate text.toList

theorem isoDates_read : @ReadsIsoDates isoDates := by
  intro date
  have months := date.month_range
  have days := date.day_range
  have length := daysIn_eq date.year date.month
  have short : Gregorian.daysIn date.year date.month ≤ 31 := (daysIn_range months).2
  have gone : ∀ {width k : Nat} (n : Nat), width ≤ k → (padded width n).drop k = [] := by
    intro width k n h
    exact List.drop_eq_nil_of_le (by rw [length_padded]; exact h)
  have front : date.text.take 4 = padded 4 date.year := by
    simp [CalendarDate.text, length_padded]
  have middle : (date.text.drop 5).take 2 = padded 2 date.month := by
    simp [CalendarDate.text, List.drop_append, length_padded, gone]
  have back : date.text.drop 8 = padded 2 date.day := by
    simp [CalendarDate.text, List.drop_append, length_padded, gone]
  have year := digitsValue_padded 4 date.year_small
  have month := digitsValue_padded 2 (show date.month < 10 ^ 2 by omega)
  have day := digitsValue_padded 2 (show date.day < 10 ^ 2 by omega)
  change readIsoDate (String.ofList date.text).toList = _
  simp only [readIsoDate, String.toList_ofList, front, middle, back, year, month, day]
  rw [if_pos ⟨months, days, rfl⟩]
  rfl

/-- A credential that expires on a leap day is accepted on that day and not on the next. -/
theorem civilFromDays_expiry_leapDay :
    let client := { ServerClient.default with expiresAt := some "2024-02-29" }
    @ServerClient.unexpiredOn isoDates client (todayIso 1709251199) = true ∧
      @ServerClient.unexpiredOn isoDates client (todayIso 1709251200) = false := by
  let _ := isoDates
  let day : CalendarDate := ⟨2024, 2, 29, by decide, by decide, by decide⟩
  have accepted := fun seconds year => (civilFromDays_expiry isoDates_read).2 seconds
    { ServerClient.default with expiresAt := some "2024-02-29" } "2024-02-29" day year rfl
    (congrArg _ (by decide +kernel))
  have before : ¬ day.date.Before (today 1709251199) := by
    have same : today 1709251199 = ⟨2024, 2, 29⟩ := by decide +kernel
    simp [same, day, CalendarDate.date, Date.Before]
  have after : day.date.Before (today 1709251200) := by
    have next : today 1709251200 = ⟨2024, 3, 1⟩ := by decide +kernel
    simp [next, day, CalendarDate.date, Date.Before]
  constructor
  · exact (accepted 1709251199 (by decide +kernel)).mpr before
  · have refused := (accepted 1709251200 (by decide +kernel)).not.mpr (by simpa using after)
    simpa using refused

end Amatl
