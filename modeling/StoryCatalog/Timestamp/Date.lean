/-!
# Dates

Days of the Gregorian calendar in the years 1 to 9999, by month and day or by week and weekday.
A week belongs to the year that holds its Thursday, and its days are numbered from Monday, 1.
-/

namespace StoryCatalog

/-- Whether a year has a 29th of February. -/
def isLeapYear (year : Nat) : Bool := year % 4 == 0 && (year % 100 != 0 || year % 400 == 0)

/-- The count of days of a month; none of a month that does not exist. -/
def daysInMonth (year month : Nat) : Nat :=
  match month with
  | 1 | 3 | 5 | 7 | 8 | 10 | 12 => 31
  | 4 | 6 | 9 | 11 => 30
  | 2 => if isLeapYear year then 29 else 28
  | _ => 0

/-- A day of the calendar. -/
structure Date where
  year : Nat
  month : Nat
  day : Nat
  year_pos : 1 ≤ year
  year_le : year ≤ 9999
  day_pos : 1 ≤ day
  /-- The month exists and has that many days. -/
  day_le : day ≤ daysInMonth year month
  deriving DecidableEq, Repr

namespace Date

/-- The date with a year, a month and a day, if there is one. -/
def of? (year month day : Nat) : Option Date :=
  if h : (1 ≤ year ∧ year ≤ 9999) ∧ (1 ≤ day ∧ day ≤ daysInMonth year month) then
    some ⟨year, month, day, h.1.1, h.1.2, h.2.1, h.2.2⟩
  else none

/-- The parts of a date give the date again. -/
@[simp] theorem of?_self (d : Date) : of? d.year d.month d.day = some d := by
  have h : (1 ≤ d.year ∧ d.year ≤ 9999) ∧ (1 ≤ d.day ∧ d.day ≤ daysInMonth d.year d.month) :=
    ⟨⟨d.year_pos, d.year_le⟩, d.day_pos, d.day_le⟩
  simp [of?, h]

/-- The weekday of the first of January, counted from Monday, 0. -/
def firstWeekday (year : Nat) : Nat :=
  let before := year - 1
  (before * 365 + before / 4 - before / 100 + before / 400) % 7

/-- The count of days of a year. -/
def daysInYear (year : Nat) : Nat := if isLeapYear year then 366 else 365

/-- The count of weeks of a year: 53 if it begins on a Thursday, or on a Wednesday with a leap
day. -/
def weeksInYear (year : Nat) : Nat :=
  if firstWeekday year == 3 || (firstWeekday year == 2 && isLeapYear year) then 53 else 52

/-- The month and the day that lie a count of days behind the first day of a month. -/
def forward? (year month days : Nat) : Nat → Option Date
  | 0 => none
  | months + 1 =>
    if days < daysInMonth year month then of? year month (days + 1)
    else forward? year (month + 1) (days - daysInMonth year month) months

/-- The day of a year with a number, counted from 0; numbers outside lie in a neighbouring year. -/
def ofDayOfYear? (year : Nat) (number : Int) : Option Date :=
  if number < 0 then of? (year - 1) 12 (31 - (-number - 1).toNat)
  else if number.toNat < daysInYear year then forward? year 1 number.toNat 12
  else forward? (year + 1) 1 (number.toNat - daysInYear year) 12

/-- The date of a weekday in a week of a year. -/
def ofWeek? (year week weekday : Nat) : Option Date :=
  if year = 0 || week = 0 || weeksInYear year < week || weekday = 0 || 7 < weekday then none
  else
    let first : Int := firstWeekday year
    let monday : Int := if first ≤ 3 then -first else 7 - first
    ofDayOfYear? year (monday + (week - 1 : Nat) * 7 + (weekday - 1 : Nat))

end Date

end StoryCatalog
