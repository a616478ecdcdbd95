import StoryCatalog.Timestamp.Basic

/-!
# Reading timestamps

The forms of ISO 8601: a date by month or by week, with hyphens or without, then possibly one code
point and a time of day, with colons or without, then possibly an offset. A text without an offset
is in Coordinated Universal Time. A time of day that an offset follows may have anything between
its last part and the offset.
-/

namespace StoryCatalog.Timestamp

/-- The mark between the parts of a date. -/
def hyphen : CodePoint := CodePoint.ofChar '-'

/-- The mark between the parts of a time of day. -/
def colon : CodePoint := CodePoint.ofChar ':'

/-- The code point at which a time of day ends early. -/
def nul : CodePoint := CodePoint.ofChar '\x00'

/-- The number of exactly so many digits at the start of a text, and the rest. -/
def takeNumber? (count : Nat) (t : Text) : Option (Nat × Text) := do
  let digits ← (t.take count).mapM CodePoint.digitValue?
  if digits.length = count then some (Text.readDigits 10 digits, t.drop count) else none

/-- A rest without the hyphen that belongs there, if hyphens are used. -/
def skipHyphen? (used : Bool) (t : Text) : Option Text :=
  if used then
    match t with
    | c :: rest => if c = hyphen then some rest else none
    | [] => none
  else some t

/-- The date at the start of a text: of the code points before the time, if it gives a week without
a weekday, which then is Monday. -/
def readDate? (length : Nat) (t : Text) : Option Date := do
  let (year, rest) ← takeNumber? 4 t
  let hyphens := rest.head? == some hyphen
  let rest ← skipHyphen? hyphens rest
  if rest.head? = some (CodePoint.ofChar 'W') then
    let (week, rest) ← takeNumber? 2 (rest.drop 1)
    if t.length - rest.length < length then
      let rest ← skipHyphen? hyphens rest
      let (weekday, _) ← takeNumber? 1 rest
      Date.ofWeek? year week weekday
    else Date.ofWeek? year week 1
  else
    let (month, rest) ← takeNumber? 2 rest
    let rest ← skipHyphen? hyphens rest
    let (day, _) ← takeNumber? 2 rest
    Date.of? year month day

/-- The offset at which the code point between date and time stands. A week followed by a hyphen
and two digits is taken to end there. -/
def separatorOffset (t : Text) : Nat :=
  let isDigit (c : Option CodePoint) := c.any CodePoint.isDigit
  let week := some (CodePoint.ofChar 'W')
  if t.length = 7 then 7
  else if t[4]? = some hyphen then
    if t[5]? = week && (t[8]? != some hyphen || isDigit t[10]?) then 8 else 10
  else if t[4]? = week then
    let digits := ((t.drop 7).takeWhile CodePoint.isDigit).length
    if digits < 2 then 7 + digits else if digits % 2 = 1 then 7 else 8
  else 8

/-- What a clock shows, and whether the text ends there. -/
structure ClockReading where
  hour : Nat
  minute : Nat
  second : Nat
  microsecond : Nat
  complete : Bool

/-- Whether a rest is the end of a text: nothing, or from a NUL on. -/
def isEnd (closed : Bool) : Text → Bool
  | [] => closed
  | c :: _ => c == nul

/-- The fraction of a second: six digits count, more are skipped. -/
def readFraction? (closed : Bool) (t : Text) : Option (Nat × Bool) := do
  let count := min 6 t.length
  let (value, rest) ← takeNumber? count t
  return (value * Nat.pow 10 (6 - count), isEnd closed (rest.dropWhile CodePoint.isDigit))

/-- The pairs of digits of a clock reading, at most so many as are left to read, and the fraction.
After the first pair it is known whether colons stand between them. -/
def readParts? (closed : Bool) (colons : Option Bool) :
    Nat → Text → Option (List Nat × Nat × Bool)
  | 0, t => (readFraction? closed t).map fun (fraction, complete) ↦ ([], fraction, complete)
  | left + 1, t => do
    let (value, rest) ← takeNumber? 2 t
    match rest with
    | [] => return ([value], 0, closed)
    | [c] => if c.val < 0x80 then return ([value], 0, c == nul) else none
    | c :: next =>
      let colons := colons.getD (c == colon)
      if colons && c == colon then
        let (values, result) ← readParts? closed (some colons) left next
        return (value :: values, result)
      else if c == CodePoint.ofChar '.' || c == CodePoint.ofChar ',' then
        let (fraction, complete) ← readFraction? closed next
        return ([value], fraction, complete)
      else if colons then none
      else
        let (values, result) ← readParts? closed (some colons) left rest
        return (value :: values, result)

/-- The clock reading that a text begins with. -/
def readClock? (closed : Bool) (t : Text) : Option ClockReading := do
  let (values, microsecond, complete) ← readParts? closed none 3 t
  return ⟨values[0]?.getD 0, values[1]?.getD 0, values[2]?.getD 0, microsecond, complete⟩

/-- The time of day and the offset of a text behind its date. -/
def readTime? (t : Text) : Option (TimeOfDay × UtcOffset) := do
  let isSign (c : CodePoint) := c == hyphen || c == CodePoint.ofChar '+'
  let clock := t.takeWhile (!isSign ·)
  let zone := t.dropWhile (!isSign ·)
  let reading ← readClock? zone.isEmpty clock
  let time := TimeOfDay.of? reading.hour reading.minute reading.second reading.microsecond
  match zone with
  | [] => if reading.complete then return (← time, .utc) else none
  | sign :: zone =>
    let ahead ← readClock? true zone
    if !ahead.complete then none
    let seconds := ahead.hour * 3600 + ahead.minute * 60 + ahead.second
    return (← time, ← UtcOffset.of? (sign == hyphen) seconds ahead.microsecond)

/-- The text with the first surrogate at a place where date and time may be separated taken for an
ASCII letter. -/
def plainSeparator (t : Text) : Text :=
  match [7, 8, 10].find? fun i ↦ t[i]?.any CodePoint.isSurrogate with
  | some i => t.set i (CodePoint.ofChar 'T')
  | none => t

/-- The timestamp that a text denotes. `Z` stands for an offset of zero wherever it stands. Any code
point may stand between date and time, but a surrogate nowhere else. -/
def read? (t : Text) : Option Timestamp := do
  let t := plainSeparator (t.replace (CodePoint.ofChar 'Z') "+00:00")
  if t.length < 7 || t.any CodePoint.isSurrogate then none
  let length := separatorOffset t
  let date ← readDate? length t
  match t.drop length with
  | [] => return ⟨date, .midnight, .utc⟩
  | _ :: rest =>
    let (time, offset) ← readTime? rest
    return ⟨date, time, offset⟩

end StoryCatalog.Timestamp
