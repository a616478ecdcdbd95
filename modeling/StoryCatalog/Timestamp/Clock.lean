import StoryCatalog.Timestamp.Basic

/-!
# Clocks

The timestamp that a clock shows which counts from the beginning of 1970. Days are counted from the
first of March of the year 0, so that a leap day is the last day of its year, and in cycles of 400
years, which all have one count of days.
-/

namespace StoryCatalog

namespace Date

/-- The days of 400 years. -/
def cycleDays : Nat := 146097

/-- The days from the first of March of the year 0 to the beginning of 1970. -/
def daysBefore1970 : Nat := 719468

/-- The date a count of days behind the first of March of the year 0. Months are counted from March
on: the five months from March or from August have 153 days. -/
def ofMarchDays? (days : Nat) : Option Date :=
  let inCycle := days % cycleDays
  let year := (inCycle - inCycle / 1460 + inCycle / 36524 - inCycle / 146096) / 365
  let inYear := inCycle - (365 * year + year / 4 - year / 100)
  let month := (5 * inYear + 2) / 153
  let day := inYear - (153 * month + 2) / 5 + 1
  let marchYear := days / cycleDays * 400 + year
  if month < 10 then of? marchYear (month + 3) day else of? (marchYear + 1) (month - 9) day

example : (ofMarchDays? daysBefore1970).map (fun d ↦ (d.year, d.month, d.day)) =
    some (1970, 1, 1) := by decide
example : (ofMarchDays? (daysBefore1970 + 19782)).map (fun d ↦ (d.year, d.month, d.day)) =
    some (2024, 2, 29) := by decide

end Date

/-- The timestamp in Coordinated Universal Time a count of microseconds behind the beginning of
1970. -/
def Timestamp.ofClock? (microseconds : Nat) : Option Timestamp := do
  let seconds := microseconds / 1000000
  let date ← Date.ofMarchDays? (Date.daysBefore1970 + seconds / 86400)
  let time ← TimeOfDay.of? (seconds / 3600 % 24) (seconds / 60 % 60) (seconds % 60)
    (microseconds % 1000000)
  return ⟨date, time, .utc⟩

end StoryCatalog
