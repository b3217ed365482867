import Mathlib.Data.String.Basic
import BacktestEngine.Library.BinarySearch
import BacktestEngine.Models.MarketHours
import BacktestEngine.Models.Trade

/-! # Peak hours

New entries are permitted while the market that drives a symbol is in the hours behind its open.
The law changes the clocks at an hour inside a Sunday; the filter decides by the day, and the
weekend, when nothing is permitted, hides the difference.
-/

namespace BacktestEngine

namespace MarketHours

open CivilDate

inductive Session
  | asia
  | europe
  | newYork
  | unknown
  deriving DecidableEq, Repr

structure Entry where
  symbol : String
  session : Session
  deriving DecidableEq, Repr

def kTable : List Entry := [
  ⟨"AUDNZD", .asia⟩,
  ⟨"AUDUSD", .asia⟩,
  ⟨"AUSIDXAUD", .asia⟩,
  ⟨"BRENTCMDUSD", .newYork⟩,
  ⟨"COPPERCMDUSD", .newYork⟩,
  ⟨"DEUIDXEUR", .europe⟩,
  ⟨"EURAUD", .asia⟩,
  ⟨"EURCHF", .europe⟩,
  ⟨"EURGBP", .europe⟩,
  ⟨"EURJPY", .asia⟩,
  ⟨"EURNOK", .europe⟩,
  ⟨"EURUSD", .europe⟩,
  ⟨"FRAIDXEUR", .europe⟩,
  ⟨"GBPJPY", .asia⟩,
  ⟨"GBPUSD", .europe⟩,
  ⟨"GBRIDXGBP", .europe⟩,
  ⟨"HKGIDXHKD", .asia⟩,
  ⟨"JPNIDXJPY", .asia⟩,
  ⟨"LIGHTCMDUSD", .newYork⟩,
  ⟨"NZDUSD", .asia⟩,
  ⟨"USA30IDXUSD", .newYork⟩,
  ⟨"USA500IDXUSD", .newYork⟩,
  ⟨"USATECHIDXUSD", .newYork⟩,
  ⟨"USDCAD", .newYork⟩,
  ⟨"USDCHF", .europe⟩,
  ⟨"USDJPY", .asia⟩,
  ⟨"USDSEK", .europe⟩,
  ⟨"XAGUSD", .newYork⟩,
  ⟨"XAUUSD", .newYork⟩]

theorem kTable_sorted : (kTable.map Entry.symbol).Pairwise (· < ·) := by decide

def sessionFor (symbol : String) : Session :=
  match BinarySearch.find Entry.symbol kTable symbol with
  | some entry => entry.session
  | none => .unknown

theorem sessionFor_of_mem {entry : Entry} (h : entry ∈ kTable) :
    sessionFor entry.symbol = entry.session := by
  rw [sessionFor, (BinarySearch.find_eq_some_iff kTable_sorted).mpr ⟨h, rfl⟩]

def hours (n : ℤ) : ℤ := n * (3600 * second)

def minutes (n : ℤ) : ℤ := n * (60 * second)

def dayOf (timestamp : ℤ) : ℤ := timestamp / hours 24

def sinceMidnight (timestamp : ℤ) : ℤ := timestamp - dayOf timestamp * hours 24

/-- A new entry is allowed. Saturdays are not blocked. -/
def tradePermitted (symbol : String) (utcTimestamp : ℤ) : Bool :=
  let day := dayOf utcTimestamp
  let dow := weekday day
  let time := sinceMidnight utcTimestamp
  if dow = 0 then false
  else if dow = 5 ∧ hours 16 ≤ time then false
  else if dow = 1 ∧ time < hours 2 then false
  else match sessionFor symbol with
    | .asia => time < hours 6
    | .europe =>
      let opens := if isLondonSummer day then hours 7 else hours 8
      opens ≤ time && time < opens + hours 3
    | .newYork =>
      let opens := (if isNewYorkSummer day then hours 13 else hours 14) + minutes 30
      opens ≤ time && time < opens + hours 3
    | .unknown => false

/-! ## The clocks of the markets -/

/-- The last Sunday of a month. -/
structure IsLastSunday (year month day : ℤ) : Prop where
  sunday : weekday day = 0
  first : daysFromCivil year month 1 ≤ day
  last : day ≤ daysFromCivil year month (lastDay year month)
  next : daysFromCivil year month (lastDay year month) < day + 7

/-- The Sunday of that number of a month. -/
structure IsNthSunday (year month index day : ℤ) : Prop where
  sunday : weekday day = 0
  first : daysFromCivil year month 1 + 7 * (index - 1) ≤ day
  last : day < daysFromCivil year month 1 + 7 * index

/-- From one in the morning of the last Sunday of March to that of the last Sunday of October. -/
def BritishSummerTime (timestamp : ℤ) : Prop :=
  ∃ year start stop, IsLastSunday year 3 start ∧ IsLastSunday year 10 stop ∧
    start * hours 24 + hours 1 ≤ timestamp ∧ timestamp < stop * hours 24 + hours 1

/-- From seven in the morning of the second Sunday of March to six on the first of November. -/
def EasternDaylightTime (timestamp : ℤ) : Prop :=
  ∃ year start stop, IsNthSunday year 3 2 start ∧ IsNthSunday year 11 1 stop ∧
    start * hours 24 + hours 7 ≤ timestamp ∧ timestamp < stop * hours 24 + hours 6

open Classical in
noncomputable def londonTime (timestamp : ℤ) : ℤ :=
  if BritishSummerTime timestamp then timestamp + hours 1 else timestamp

open Classical in
noncomputable def newYorkTime (timestamp : ℤ) : ℤ :=
  if EasternDaylightTime timestamp then timestamp - hours 4 else timestamp - hours 5

/-- The clock of the market of a session shows one of its hours. -/
def PeakHours (session : Session) (timestamp : ℤ) : Prop :=
  match session with
  | .asia => sinceMidnight timestamp < hours 6
  | .europe => hours 8 ≤ sinceMidnight (londonTime timestamp) ∧
      sinceMidnight (londonTime timestamp) < hours 11
  | .newYork => hours 9 + minutes 30 ≤ sinceMidnight (newYorkTime timestamp) ∧
      sinceMidnight (newYorkTime timestamp) < hours 12 + minutes 30
  | .unknown => False

/-- From Friday at four in the afternoon to Monday at two in the morning. -/
def Weekend (timestamp : ℤ) : Prop :=
  ∃ friday, weekday friday = 5 ∧ friday * hours 24 + hours 16 ≤ timestamp ∧
    timestamp < (friday + 3) * hours 24 + hours 2

theorem dayOf_bounds (timestamp : ℤ) : dayOf timestamp * hours 24 ≤ timestamp ∧
    timestamp < dayOf timestamp * hours 24 + hours 24 := by
  simp only [dayOf, hours, second]
  omega

/-! ## Days of the change -/

section Summer

variable {year month index day start stop timestamp : ℤ}

theorem isLastSunday_lastSunday (hmonth : month = 3 ∨ month = 10) (year : ℤ) :
    IsLastSunday year month (lastSunday year month) := by
  have hlast : lastDay year month = 31 := by
    obtain rfl | rfl := hmonth
    · rfl
    · rfl
  have hdays : daysFromCivil year month 31 = daysFromCivil year month 1 + 30 := by
    rw [daysFromCivil_eq, daysFromCivil_eq]
    omega
  constructor
  all_goals
    simp only [lastSunday, weekday, hlast, hdays]
    omega

theorem IsLastSunday.eq (h : IsLastSunday year month day) (h' : IsLastSunday year month start) :
    day = start := by
  obtain ⟨hsunday, hfirst, hlast, hnext⟩ := h
  obtain ⟨hsunday', hfirst', hlast', hnext'⟩ := h'
  simp only [weekday] at hsunday hsunday'
  omega

theorem isNthSunday_sunday (year month index : ℤ) :
    IsNthSunday year month index (sunday year month index) := by
  constructor
  all_goals
    simp only [sunday, weekday]
    omega

theorem IsNthSunday.eq (h : IsNthSunday year month index day)
    (h' : IsNthSunday year month index start) : day = start := by
  obtain ⟨hsunday, hfirst, hlast⟩ := h
  obtain ⟨hsunday', hfirst', hlast'⟩ := h'
  simp only [weekday] at hsunday hsunday'
  omega

/-- Which days are summer is decided as the law does, for a change at any hours of Sundays. -/
theorem summer_iff {starts stops : ℤ → ℤ} {isStart isStop : ℤ → ℤ → Prop}
    (hstarts : ∀ year, isStart year (starts year)) (hstops : ∀ year, isStop year (stops year))
    (hstart : ∀ year day, isStart year day → day = starts year ∧ weekday day = 0 ∧
      daysFromCivil year 1 1 ≤ day)
    (hstop : ∀ year day, isStop year day → day = stops year ∧ weekday day = 0 ∧
      day < daysFromCivil (year + 1) 1 1)
    {first last : ℤ} (hfirst : 0 ≤ first ∧ first ≤ hours 24) (hlast : 0 ≤ last ∧ last ≤ hours 24)
    (hsunday : weekday (dayOf timestamp) ≠ 0) :
    (starts (MarketHours.year (dayOf timestamp)) ≤ dayOf timestamp ∧
        dayOf timestamp < stops (MarketHours.year (dayOf timestamp))) ↔
      ∃ year start stop, isStart year start ∧ isStop year stop ∧
        start * hours 24 + first ≤ timestamp ∧ timestamp < stop * hours 24 + last := by
  obtain ⟨hdayStart, hdayEnd⟩ := dayOf_bounds timestamp
  constructor
  · rintro ⟨hle, hlt⟩
    obtain ⟨-, hsunday', -⟩ := hstart _ _ (hstarts (MarketHours.year (dayOf timestamp)))
    have hne : starts (MarketHours.year (dayOf timestamp)) ≠ dayOf timestamp := by
      rintro heq
      rw [heq] at hsunday'
      exact hsunday hsunday'
    refine ⟨MarketHours.year (dayOf timestamp), _, _, hstarts _, hstops _, ?_, ?_⟩
    · simp only [hours, second] at *
      omega
    · simp only [hours, second] at *
      omega
  · rintro ⟨year, start, stop, hisStart, hisStop, hfrom, hto⟩
    obtain ⟨rfl, -, hyearStart⟩ := hstart _ _ hisStart
    obtain ⟨rfl, hsunday', hyearEnd⟩ := hstop _ _ hisStop
    have hle : starts year ≤ dayOf timestamp := by
      simp only [hours, second] at *
      omega
    have hle' : dayOf timestamp ≤ stops year := by
      simp only [hours, second] at *
      omega
    have hlt : dayOf timestamp < stops year := by
      refine lt_of_le_of_ne hle' ?_
      rintro heq
      rw [← heq] at hsunday'
      exact hsunday hsunday'
    have hyear : MarketHours.year (dayOf timestamp) = year :=
      (civilFromDays_year_iff _).mpr ⟨hyearStart.trans hle, hlt.trans hyearEnd⟩
    rw [hyear]
    exact ⟨hle, hlt⟩

theorem isLondonSummer_iff (hsunday : weekday (dayOf timestamp) ≠ 0) :
    isLondonSummer (dayOf timestamp) = true ↔ BritishSummerTime timestamp := by
  rw [isLondonSummer, Bool.and_eq_true, decide_eq_true_eq, decide_eq_true_eq]
  refine summer_iff (isLastSunday_lastSunday (.inl rfl)) (isLastSunday_lastSunday (.inr rfl))
    (fun year day h => ⟨h.eq (isLastSunday_lastSunday (.inl rfl) year), h.sunday, ?_⟩)
    (fun year day h => ⟨h.eq (isLastSunday_lastSunday (.inr rfl) year), h.sunday, ?_⟩)
    (by decide) (by decide) hsunday
  · have hvalid : Valid year 3 1 := by
      simp [Valid, lastDay]
    exact (daysFromCivil_bounds hvalid).1.trans h.first
  · have hvalid : Valid year 10 31 := by
      simp [Valid, lastDay]
    exact h.last.trans_lt (daysFromCivil_bounds hvalid).2

theorem isNewYorkSummer_iff (hsunday : weekday (dayOf timestamp) ≠ 0) :
    isNewYorkSummer (dayOf timestamp) = true ↔ EasternDaylightTime timestamp := by
  rw [isNewYorkSummer, Bool.and_eq_true, decide_eq_true_eq, decide_eq_true_eq]
  refine summer_iff (fun year => isNthSunday_sunday year 3 2)
    (fun year => isNthSunday_sunday year 11 1)
    (fun year day h => ⟨h.eq (isNthSunday_sunday year 3 2), h.sunday, ?_⟩)
    (fun year day h => ⟨h.eq (isNthSunday_sunday year 11 1), h.sunday, ?_⟩)
    (by decide) (by decide) hsunday
  · have hvalid : Valid year 3 1 := by
      simp [Valid, lastDay]
    have hfirst := h.first
    have hbounds := (daysFromCivil_bounds hvalid).1
    omega
  · have hvalid : Valid year 11 8 := by
      simp [Valid, lastDay]
    have hlast := h.last
    have hbounds := (daysFromCivil_bounds hvalid).2
    have hdays : daysFromCivil year 11 8 = daysFromCivil year 11 1 + 7 := by
      rw [daysFromCivil_eq, daysFromCivil_eq]
      omega
    omega

end Summer

/-! ## The filter and the clocks -/

section Filter

variable {timestamp : ℤ}

/-- Outside of the weekend it is a day from Monday to Friday, and the filter has no block. -/
theorem not_blocked (h : ¬ Weekend timestamp) :
    weekday (dayOf timestamp) ≠ 0 ∧
      ¬ (weekday (dayOf timestamp) = 5 ∧ hours 16 ≤ sinceMidnight timestamp) ∧
      ¬ (weekday (dayOf timestamp) = 1 ∧ sinceMidnight timestamp < hours 2) := by
  obtain ⟨hstart, hend⟩ := dayOf_bounds timestamp
  refine ⟨fun hsunday => h ⟨dayOf timestamp - 2, ?_, ?_, ?_⟩,
    fun ⟨hfriday, htime⟩ => h ⟨dayOf timestamp, hfriday, ?_, ?_⟩,
    fun ⟨hmonday, htime⟩ => h ⟨dayOf timestamp - 3, ?_, ?_, ?_⟩⟩
  all_goals
    simp only [weekday, hours, second, sinceMidnight] at *
    omega

/-- Outside of the weekend an entry is permitted exactly at the peak hours of the market's own
clock. -/
theorem peak_hours {entry : Entry} (hentry : entry ∈ kTable) (hweekend : ¬ Weekend timestamp) :
    tradePermitted entry.symbol timestamp = true ↔ PeakHours entry.session timestamp := by
  obtain ⟨hsunday, hfriday, hmonday⟩ := not_blocked hweekend
  obtain ⟨hstart, hend⟩ := dayOf_bounds timestamp
  rw [tradePermitted]
  dsimp only
  rw [if_neg hsunday, if_neg hfriday, if_neg hmonday, sessionFor_of_mem hentry]
  cases hsession : entry.session with
  | asia => exact decide_eq_true_iff
  | unknown => exact iff_of_false Bool.false_ne_true id
  | europe =>
    change (_ && _) = true ↔ _ ∧ _
    rw [Bool.and_eq_true, decide_eq_true_eq, decide_eq_true_eq]
    by_cases hsummer : BritishSummerTime timestamp
    · rw [if_pos ((isLondonSummer_iff hsunday).mpr hsummer), londonTime, if_pos hsummer]
      simp only [sinceMidnight, dayOf, hours, second] at *
      omega
    · rw [if_neg (mt (isLondonSummer_iff hsunday).mp hsummer), londonTime, if_neg hsummer]
      simp only [sinceMidnight, dayOf, hours, second] at *
      omega
  | newYork =>
    change (_ && _) = true ↔ _ ∧ _
    rw [Bool.and_eq_true, decide_eq_true_eq, decide_eq_true_eq]
    by_cases hsummer : EasternDaylightTime timestamp
    · rw [if_pos ((isNewYorkSummer_iff hsunday).mpr hsummer), newYorkTime, if_pos hsummer]
      simp only [sinceMidnight, dayOf, hours, minutes, second] at *
      omega
    · rw [if_neg (mt (isNewYorkSummer_iff hsunday).mp hsummer), newYorkTime, if_neg hsummer]
      simp only [sinceMidnight, dayOf, hours, minutes, second] at *
      omega

/-- London opens at seven on the day after its change to summer time. -/
theorem peak_hours_gbpusd : tradePermitted "GBPUSD" 1774854000000000 = true ↔
    PeakHours .europe 1774854000000000 := by
  have hentry : (⟨"GBPUSD", .europe⟩ : Entry) ∈ kTable := by decide
  refine peak_hours hentry ?_
  rintro ⟨friday, hfriday, hfrom, hto⟩
  simp only [weekday, hours, second] at hfriday hfrom hto
  omega

example : tradePermitted "GBPUSD" 1774854000000000 = true := by decide

end Filter

end MarketHours

end BacktestEngine
