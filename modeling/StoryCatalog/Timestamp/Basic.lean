import StoryCatalog.Text.CodePoint
import StoryCatalog.Timestamp.Date

/-!
# Timestamps

A point of time: a date, a time of day to the microsecond, and the offset of its clock from
Coordinated Universal Time. Its text puts `Z` in the place of an offset of zero hours and minutes.
-/

namespace StoryCatalog

/-- A time of day. -/
structure TimeOfDay where
  hour : Nat
  minute : Nat
  second : Nat
  microsecond : Nat
  hour_lt : hour < 24
  minute_lt : minute < 60
  second_lt : second < 60
  microsecond_lt : microsecond < 1000000
  deriving DecidableEq, Repr

namespace TimeOfDay

/-- The time of day with given parts, if there is one. -/
def of? (hour minute second microsecond : Nat) : Option TimeOfDay :=
  if h : (hour < 24 ∧ minute < 60) ∧ (second < 60 ∧ microsecond < 1000000) then
    some ⟨hour, minute, second, microsecond, h.1.1, h.1.2, h.2.1, h.2.2⟩
  else none

/-- The parts of a time of day give it again. -/
@[simp] theorem of?_self (t : TimeOfDay) :
    of? t.hour t.minute t.second t.microsecond = some t := by
  have h : (t.hour < 24 ∧ t.minute < 60) ∧ (t.second < 60 ∧ t.microsecond < 1000000) :=
    ⟨⟨t.hour_lt, t.minute_lt⟩, t.second_lt, t.microsecond_lt⟩
  simp [of?, h]

/-- The beginning of a day. -/
def midnight : TimeOfDay := ⟨0, 0, 0, 0, by decide, by decide, by decide, by decide⟩

end TimeOfDay

/-- How far a clock is ahead of Coordinated Universal Time, in microseconds: less than a day, and
not by a fraction of a second alone. -/
structure UtcOffset where
  microseconds : Int
  lt_day : microseconds.natAbs < 86400 * 1000000
  whole : microseconds.natAbs < 1000000 → microseconds = 0
  deriving DecidableEq, Repr

namespace UtcOffset

/-- No offset. -/
def utc : UtcOffset := ⟨0, by decide, fun _ ↦ rfl⟩

/-- The offset of seconds and microseconds, both with one sign, if it is less than a day; a fraction
of a second alone is no offset. -/
def of? (negative : Bool) (seconds microseconds : Nat) : Option UtcOffset :=
  let size := seconds * 1000000 + microseconds
  if size < 1000000 then some utc
  else if h : size < 86400 * 1000000 ∧ ¬ size < 1000000 then
    some ⟨if negative then -(size : Int) else size, by split <;> omega, by split <;> omega⟩
  else none

end UtcOffset

/-- A point of time as a clock shows it. -/
structure Timestamp where
  date : Date
  time : TimeOfDay
  offset : UtcOffset
  deriving DecidableEq, Repr

namespace Timestamp

/-- A number with at least a count of digits. -/
def padded (width n : Nat) : Text :=
  let digits := Text.ofNat n
  List.replicate (width - digits.length) (CodePoint.ofChar '0') ++ digits

/-- The text of a date. -/
def dateText (d : Date) : Text :=
  Text.concat [padded 4 d.year, "-", padded 2 d.month, "-", padded 2 d.day]

/-- The text of a fraction of a second, where there is one. -/
def fractionText (microsecond : Nat) : Text :=
  if microsecond = 0 then [] else Text.concat [".", padded 6 microsecond]

/-- The text of a time of day. -/
def timeText (t : TimeOfDay) : Text :=
  Text.concat [padded 2 t.hour, ":", padded 2 t.minute, ":", padded 2 t.second,
    fractionText t.microsecond]

/-- The text of an offset: hours and minutes, and seconds where there are any. No hours and minutes
ahead are written `Z`. -/
def offsetText (o : UtcOffset) : Text :=
  let size := o.microseconds.natAbs
  let seconds := size / 1000000
  let sign : Text := if o.microseconds < 0 then "-" else "+"
  let minutes := Text.concat [sign, padded 2 (seconds / 3600), ":", padded 2 (seconds / 60 % 60)]
  let start : Text := if minutes = ("+00:00" : Text) then "Z" else minutes
  let rest :=
    if seconds % 60 = 0 && size % 1000000 = 0 then []
    else Text.concat [":", padded 2 (seconds % 60), fractionText (size % 1000000)]
  start ++ rest

/-- The text of a timestamp. -/
def text (t : Timestamp) : Text :=
  Text.concat [dateText t.date, "T", timeText t.time, offsetText t.offset]

end Timestamp

end StoryCatalog
