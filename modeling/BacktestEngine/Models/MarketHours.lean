import BacktestEngine.Library.CivilDate

/-! # Market hours

Days are counted from the first of January 1970, which was a Thursday. London and New York
change their clocks on Sundays.
-/

namespace BacktestEngine

namespace MarketHours

open CivilDate

/-- The day of the week of a day number, from Sunday. -/
def weekday (day : ℤ) : ℤ := (day + 4) % 7

def year (day : ℤ) : ℤ := (civilFromDays day).1

/-- The last Sunday of a month. -/
def lastSunday (year month : ℤ) : ℤ :=
  let last := daysFromCivil year month (lastDay year month)
  last - weekday last

/-- The Sunday of that number of a month. -/
def sunday (year month index : ℤ) : ℤ :=
  let first := daysFromCivil year month 1
  first + (7 - weekday first) % 7 + 7 * (index - 1)

/-- British summer time, from the last Sunday of March until the last Sunday of October. -/
def isLondonSummer (day : ℤ) : Bool :=
  lastSunday (year day) 3 ≤ day && day < lastSunday (year day) 10

/-- Eastern daylight time, from the second Sunday of March until the first Sunday of November. -/
def isNewYorkSummer (day : ℤ) : Bool :=
  sunday (year day) 3 2 ≤ day && day < sunday (year day) 11 1

example : isLondonSummer (daysFromCivil 2026 3 28) = false ∧
    isLondonSummer (daysFromCivil 2026 3 29) = true ∧
    isNewYorkSummer (daysFromCivil 2026 3 7) = false ∧
    isNewYorkSummer (daysFromCivil 2026 3 8) = true := by decide

end MarketHours

end BacktestEngine
