import Mathlib.Data.Int.Notation
import Mathlib.Order.Monotone.Basic
import Mathlib.Tactic.IntervalCases
import Mathlib.Tactic.NormNum
import Mathlib.Tactic.SplitIfs

/-! # Civil dates

The day number of a date in the proleptic Gregorian calendar, counted from the first
of January 1970, and the date of a day number.
-/

namespace CivilDate

/-- The day number of a date. The year is counted from March, in eras of four hundred years. -/
def daysFromCivil (year month day : ℤ) : ℤ :=
  let y := if month ≤ 2 then year - 1 else year
  let era := y / 400
  let yoe := y - era * 400
  let doy := (153 * (if 2 < month then month - 3 else month + 9) + 2) / 5 + day - 1
  let doe := yoe * 365 + yoe / 4 - yoe / 100 + doy
  era * 146097 + doe - 719468

def isLeap (year : ℤ) : Bool := 4 ∣ year ∧ (¬ 100 ∣ year ∨ 400 ∣ year)

def lastDay (year month : ℤ) : ℤ :=
  if month = 2 then if isLeap year then 29 else 28
  else if month = 4 ∨ month = 6 ∨ month = 9 ∨ month = 11 then 30
  else 31

/-- The date exists. -/
def Valid (year month day : ℤ) : Prop :=
  1 ≤ month ∧ month ≤ 12 ∧ 1 ≤ day ∧ day ≤ lastDay year month

instance (year month day : ℤ) : Decidable (Valid year month day) :=
  inferInstanceAs (Decidable (_ ∧ _))

example : daysFromCivil 1970 1 1 = 0 ∧ daysFromCivil 2000 3 1 = 11017 := by decide

/-- The year, the month and the day of a day number. -/
def civilFromDays (days : ℤ) : ℤ × ℤ × ℤ :=
  let z := days + 719468
  let era := z / 146097
  let doe := z - era * 146097
  let yoe := (doe - doe / 1460 + doe / 36524 - doe / 146096) / 365
  let doy := doe - (365 * yoe + yoe / 4 - yoe / 100)
  let mp := (5 * doy + 2) / 153
  let month := if mp < 10 then mp + 3 else mp - 9
  let year := yoe + era * 400
  (if month ≤ 2 then year + 1 else year, month, doy - (153 * mp + 2) / 5 + 1)

example : civilFromDays 0 = (1970, 1, 1) ∧ civilFromDays 11016 = (2000, 2, 29) ∧
    civilFromDays (-1) = (1969, 12, 31) := by decide

/-! ## Years and months that begin in March -/

/-- The days before the first of March of a year. -/
def yearStart (y : ℤ) : ℤ := 365 * y + y / 4 - y / 100 + y / 400

/-- The year that begins in March. -/
def marchYear (year month : ℤ) : ℤ := if month ≤ 2 then year - 1 else year

/-- The days before a month, from the first of March. -/
def monthStart (month : ℤ) : ℤ := (153 * (if 2 < month then month - 3 else month + 9) + 2) / 5

theorem daysFromCivil_eq (year month day : ℤ) :
    daysFromCivil year month day =
      yearStart (marchYear year month) + monthStart month + day - 719469 := by
  simp only [daysFromCivil, yearStart, marchYear, monthStart]
  omega

theorem yearStart_succ (y : ℤ) :
    yearStart (y + 1) = yearStart y + if isLeap (y + 1) then 366 else 365 := by
  simp only [yearStart, isLeap, decide_eq_true_eq]
  split_ifs <;> omega

theorem yearStart_mono {y y' : ℤ} (h : y ≤ y') : yearStart y ≤ yearStart y' := by
  simp only [yearStart]
  omega

/-! ## The year of a day of an era -/

/-- The days of an era before a year of it. -/
def eraStart (y : ℕ) : ℕ := 365 * y + y / 4 - y / 100 + y / 400

def eraDays (doe : ℕ) : ℕ := doe - doe / 1460 + doe / 36524 - doe / 146096

theorem eraDays_mono {doe doe' : ℕ} (h : doe ≤ doe') (hlt : doe' < 146097) :
    eraDays doe ≤ eraDays doe' := by
  induction doe', h using Nat.le_induction with
  | base => exact le_refl _
  | succ n _ ih =>
    refine (ih (by omega)).trans ?_
    simp only [eraDays]
    omega

theorem eraDays_bounds : ∀ y < 400, eraDays (eraStart y) / 365 = y ∧
    eraDays (eraStart (y + 1) - 1) / 365 = y ∧ eraStart (y + 1) - 1 < 146097 ∧
      0 < eraStart (y + 1) := by
  decide +kernel

theorem yearStart_add (y era : ℤ) : yearStart (y + era * 400) = yearStart y + era * 146097 := by
  simp only [yearStart]
  omega

theorem yearStart_natCast (y : ℕ) : yearStart y = eraStart y := by
  simp only [yearStart, eraStart]
  omega

theorem exists_eraYear (doe : ℕ) (hlt : doe < 146097) :
    ∃ y < 400, eraStart y ≤ doe ∧ doe < eraStart (y + 1) := by
  have hfind : ∀ k, doe < eraStart k → ∃ y < k, eraStart y ≤ doe ∧ doe < eraStart (y + 1) := by
    intro k
    induction k with
    | zero => exact fun h => absurd h (Nat.not_lt_zero _)
    | succ k ih =>
      intro h
      by_cases hk : doe < eraStart k
      · obtain ⟨y, hy, hstart⟩ := ih hk
        exact ⟨y, by omega, hstart⟩
      · exact ⟨k, Nat.lt_succ_self k, not_lt.mp hk, h⟩
  exact hfind 400 hlt

theorem eraDays_div {doe y : ℕ} (hy : y < 400) (hstart : eraStart y ≤ doe)
    (hend : doe < eraStart (y + 1)) : eraDays doe / 365 = y := by
  obtain ⟨hfirst, hlast, hbound, hpos⟩ := eraDays_bounds y hy
  have hlow := Nat.div_le_div_right (c := 365) (eraDays_mono hstart (by omega))
  have hhigh := Nat.div_le_div_right (c := 365)
    (eraDays_mono (show doe ≤ eraStart (y + 1) - 1 by omega) hbound)
  omega

/-- The year of a day of an era. -/
def eraYear (doe : ℤ) : ℤ := (doe - doe / 1460 + doe / 36524 - doe / 146096) / 365

theorem eraYear_bounds (doe : ℤ) (hnonneg : 0 ≤ doe) (hlt : doe < 146097) :
    0 ≤ eraYear doe ∧ eraYear doe < 400 ∧ yearStart (eraYear doe) ≤ doe ∧
      doe < yearStart (eraYear doe + 1) := by
  obtain ⟨n, rfl⟩ := Int.eq_ofNat_of_zero_le hnonneg
  obtain ⟨y, hy, hstart, hend⟩ := exists_eraYear n (by omega)
  have hyear := eraDays_div hy hstart hend
  have heq : eraYear n = y := by
    simp only [eraDays] at hyear
    simp only [eraYear]
    omega
  rw [heq, ← Nat.cast_add_one, yearStart_natCast, yearStart_natCast]
  omega

/-- The year, from March, of a day that is counted from the first of March of the year 0. -/
def yearOf (z : ℤ) : ℤ := eraYear (z - z / 146097 * 146097) + z / 146097 * 400

theorem yearOf_bounds (z : ℤ) : yearStart (yearOf z) ≤ z ∧ z < yearStart (yearOf z + 1) := by
  obtain ⟨-, -, hstart, hend⟩ := eraYear_bounds (z - z / 146097 * 146097) (by omega) (by omega)
  rw [yearOf, add_right_comm, yearStart_add, yearStart_add]
  omega

/-! ## Dates of days -/

/-- The date of a day of a year from March. -/
def dateOf (y doy : ℤ) : ℤ × ℤ × ℤ :=
  let mp := (5 * doy + 2) / 153
  let month := if mp < 10 then mp + 3 else mp - 9
  (if month ≤ 2 then y + 1 else y, month, doy - (153 * mp + 2) / 5 + 1)

theorem civilFromDays_eq (days : ℤ) :
    civilFromDays days =
      dateOf (yearOf (days + 719468)) (days + 719468 - yearStart (yearOf (days + 719468))) := by
  obtain ⟨hnonneg, hlt, -, -⟩ := eraYear_bounds
    (days + 719468 - (days + 719468) / 146097 * 146097) (by omega) (by omega)
  have hdoy : days + 719468 - yearStart (yearOf (days + 719468)) =
      days + 719468 - (days + 719468) / 146097 * 146097 -
        (365 * eraYear (days + 719468 - (days + 719468) / 146097 * 146097) +
          eraYear (days + 719468 - (days + 719468) / 146097 * 146097) / 4 -
            eraYear (days + 719468 - (days + 719468) / 146097 * 146097) / 100) := by
    rw [yearOf, yearStart_add, yearStart]
    omega
  rw [hdoy]
  rfl

theorem valid_dateOf (y : ℤ) {doy : ℤ} (hnonneg : 0 ≤ doy)
    (hlt : doy < if isLeap (y + 1) then 366 else 365) :
    Valid (dateOf y doy).1 (dateOf y doy).2.1 (dateOf y doy).2.2 ∧
      daysFromCivil (dateOf y doy).1 (dateOf y doy).2.1 (dateOf y doy).2.2 =
        yearStart y + doy - 719468 := by
  obtain ⟨mp, hmp⟩ : ∃ mp, mp = (5 * doy + 2) / 153 := ⟨_, rfl⟩
  have hmax : doy < 366 := by
    split_ifs at hlt
    · exact hlt
    · omega
  have hrange : 0 ≤ mp ∧ mp ≤ 11 := by omega
  rw [daysFromCivil_eq]
  simp only [dateOf, ← hmp, marchYear, monthStart, Valid, lastDay]
  obtain ⟨hlow, hhigh⟩ := hrange
  interval_cases mp
  all_goals norm_num
  -- only the last month, February, depends on the year
  case «11» =>
    split_ifs at hlt ⊢ <;> omega
  all_goals omega

/-- A day has a date, and the date is that of the day. -/
theorem valid_civilFromDays (days : ℤ) :
    let date := civilFromDays days
    Valid date.1 date.2.1 date.2.2 ∧ daysFromCivil date.1 date.2.1 date.2.2 = days := by
  obtain ⟨hle, hlt⟩ := yearOf_bounds (days + 719468)
  rw [yearStart_succ] at hlt
  intro date
  have hnonneg : 0 ≤ days + 719468 - yearStart (yearOf (days + 719468)) := by omega
  obtain ⟨hvalid, hdays⟩ := valid_dateOf (yearOf (days + 719468)) hnonneg (by omega)
  rw [← civilFromDays_eq] at hvalid hdays
  exact ⟨hvalid, hdays.trans (by omega)⟩

section Order

variable {year month day year' month' day' : ℤ}

/-- The days of a year from March before a month, and those up to its end. -/
theorem monthStart_bounds (h : Valid year month day) :
    0 ≤ monthStart month ∧ monthStart month + day ≤
      if isLeap (marchYear year month + 1) then 366 else 365 := by
  obtain ⟨hlow, hhigh, -, hday⟩ := h
  simp only [lastDay] at hday
  simp only [monthStart, marchYear]
  interval_cases month
  all_goals norm_num at hday ⊢
  case «2» =>
    split_ifs at hday ⊢ <;> omega
  all_goals split_ifs <;> omega

/-- January and February are the last months of a year from March. -/
theorem monthStart_lt (h : Valid year month day) :
    if 2 < month then monthStart month + day ≤ 306 else 307 ≤ monthStart month + day := by
  obtain ⟨hlow, hhigh, hday, hlast⟩ := h
  simp only [lastDay] at hlast
  simp only [monthStart]
  interval_cases month
  all_goals norm_num at hlast ⊢
  all_goals omega

/-- A month ends before the next one of the same year from March begins. -/
theorem monthStart_next (h : Valid year month day) (hlt : month < month') (hhigh' : month' ≤ 12)
    (hsame : 2 < month ↔ 2 < month') : monthStart month + day ≤ monthStart month' := by
  obtain ⟨hlow, hhigh, hday, hlast⟩ := h
  simp only [lastDay] at hlast
  simp only [monthStart]
  interval_cases month
  all_goals norm_num at hlast hsame ⊢
  case «1» =>
    rw [if_neg (by omega)]
    omega
  case «2» => omega
  all_goals
    rw [if_pos (by omega)]
    omega

theorem daysFromCivil_newYear (year : ℤ) :
    daysFromCivil year 1 1 = yearStart (year - 1) + 306 - 719468 := by
  rw [daysFromCivil_eq]
  simp [marchYear, monthStart]
  omega

/-- The days of a year stand between its first day and that of the next year. -/
theorem daysFromCivil_bounds (h : Valid year month day) :
    daysFromCivil year 1 1 ≤ daysFromCivil year month day ∧
      daysFromCivil year month day < daysFromCivil (year + 1) 1 1 := by
  obtain ⟨hstart, hend⟩ := monthStart_bounds h
  have hmonth := monthStart_lt h
  have hsucc := yearStart_succ (year - 1)
  obtain ⟨-, -, hday, -⟩ := h
  rw [daysFromCivil_newYear, daysFromCivil_newYear, daysFromCivil_eq, add_sub_cancel_right]
  rw [sub_add_cancel] at hsucc
  by_cases hfeb : month ≤ 2
  · have hmarch : marchYear year month = year - 1 := if_pos hfeb
    rw [if_neg (by omega)] at hmonth
    rw [hmarch, sub_add_cancel] at hend
    rw [hmarch]
    omega
  · have hmarch : marchYear year month = year := if_neg hfeb
    rw [if_pos (by omega)] at hmonth
    rw [hmarch]
    split_ifs at hsucc <;> omega

theorem daysFromCivil_newYear_mono (h : year ≤ year') :
    daysFromCivil year 1 1 ≤ daysFromCivil year' 1 1 := by
  rw [daysFromCivil_newYear, daysFromCivil_newYear]
  have hmono := yearStart_mono (show year - 1 ≤ year' - 1 by omega)
  omega

/-- Later dates have later days. -/
theorem daysFromCivil_lt (h : Valid year month day) (h' : Valid year' month' day')
    (hlt : year < year' ∨ year = year' ∧ (month < month' ∨ month = month' ∧ day < day')) :
    daysFromCivil year month day < daysFromCivil year' month' day' := by
  obtain hyear | ⟨rfl, hmonth | ⟨rfl, hday⟩⟩ := hlt
  · have hmono := daysFromCivil_newYear_mono (show year + 1 ≤ year' by omega)
    have hbefore := (daysFromCivil_bounds h).2
    have hafter := (daysFromCivil_bounds h').1
    omega
  · obtain ⟨hstart, hend⟩ := monthStart_bounds h
    obtain ⟨hstart', -⟩ := monthStart_bounds h'
    obtain ⟨-, hhigh', hday', -⟩ := h'
    rw [daysFromCivil_eq, daysFromCivil_eq]
    by_cases hsame : 2 < month ↔ 2 < month'
    · have hnext := monthStart_next h hmonth hhigh' hsame
      have hmarch : marchYear year month = marchYear year month' := by
        simp only [marchYear]
        split_ifs <;> omega
      rw [hmarch]
      omega
    · have hmarch : marchYear year month = year - 1 := if_pos (by omega)
      have hmarch' : marchYear year month' = year := if_neg (by omega)
      have hsucc := yearStart_succ (year - 1)
      rw [hmarch, sub_add_cancel] at hend
      rw [sub_add_cancel] at hsucc
      rw [hmarch, hmarch']
      omega
  · rw [daysFromCivil_eq, daysFromCivil_eq]
    omega

/-- The year of a day is the one whose days it stands between. -/
theorem civilFromDays_year_iff (days : ℤ) :
    (civilFromDays days).1 = year ↔
      daysFromCivil year 1 1 ≤ days ∧ days < daysFromCivil (year + 1) 1 1 := by
  obtain ⟨hvalid, hdays⟩ := valid_civilFromDays days
  have hbounds := daysFromCivil_bounds hvalid
  rw [hdays] at hbounds
  constructor
  · rintro rfl
    exact hbounds
  · rintro ⟨hstart, hend⟩
    by_contra hne
    obtain hbefore | hafter := lt_or_gt_of_ne hne
    · have hmono := daysFromCivil_newYear_mono (show (civilFromDays days).1 + 1 ≤ year by omega)
      omega
    · have hmono := daysFromCivil_newYear_mono (show year + 1 ≤ (civilFromDays days).1 by omega)
      omega

end Order

end CivilDate
