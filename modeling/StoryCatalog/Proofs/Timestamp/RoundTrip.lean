import StoryCatalog.Proofs.Text.Digits
import StoryCatalog.Proofs.Text.Utf8
import StoryCatalog.Timestamp.Reader

/-!
# Reading what is written of a timestamp

Every timestamp is read back from its text (`read?_text`). The parts of the text have fixed widths,
so each reader is given the digits that it takes and finds the mark behind them.
-/

namespace StoryCatalog.Timestamp

open Text

variable {n width : Nat} {rest : Text}

/-! ### Numbers of fixed width -/

private theorem isDigit_of_mem_padded {c : CodePoint} (h : c ∈ padded width n) :
    c.isDigit = true := by
  rcases List.mem_append.mp h with hzero | hdigit
  · rw [List.eq_of_mem_replicate hzero]
    decide
  · exact isDigit_of_mem_ofNat hdigit

/-- A number below a power of ten fills its width. -/
theorem length_padded (hwidth : 0 < width) (h : n < 10 ^ width) :
    (padded width n).length = width := by
  have hlength := (length_ofNat_le_iff hwidth).mpr h
  rw [padded, List.length_append, List.length_replicate]
  omega

private theorem padded_ne_nil (width n : Nat) : padded width n ≠ [] :=
  List.append_ne_nil_of_right_ne_nil _ (ofNat_ne_nil n)

private theorem digitNumber_padded : digitNumber (padded width n) = n := by
  rw [padded, digitNumber_append _ fun c ↦ isDigit_of_mem_ofNat, digitNumber_zeros,
    digitNumber_ofNat, Nat.zero_mul, Nat.zero_add]

private theorem mapM_digitValue? {t : Text} (h : ∀ c ∈ t, c.isDigit = true) :
    t.mapM CodePoint.digitValue? = some (t.filterMap CodePoint.digitValue?) ∧
      (t.filterMap CodePoint.digitValue?).length = t.length := by
  induction t with
  | nil => exact ⟨rfl, rfl⟩
  | cons c rest ih =>
    obtain ⟨hc, hrest⟩ := List.forall_mem_cons.mp h
    obtain ⟨n, hn, rfl⟩ := CodePoint.exists_eq_ofDigit hc
    obtain ⟨hmap, hlength⟩ := ih hrest
    rw [List.mapM_cons, hmap, List.filterMap_cons, CodePoint.digitValue?_ofDigit hn]
    exact ⟨rfl, congrArg (· + 1) hlength⟩

/-- A number is read back from its digits. -/
theorem takeNumber?_padded (hwidth : 0 < width) (h : n < 10 ^ width) (rest : Text) :
    takeNumber? width (padded width n ++ rest) = some (n, rest) := by
  have hlength := length_padded hwidth h
  have hdigits : ∀ c ∈ padded width n, c.isDigit = true := fun c ↦ isDigit_of_mem_padded
  obtain ⟨hmap, hcount⟩ := mapM_digitValue? hdigits
  rw [takeNumber?, List.take_left' hlength, List.drop_left' hlength, hmap]
  have hread : readDigits 10 ((padded width n).filterMap CodePoint.digitValue?) = n :=
    digitNumber_padded
  rw [hlength] at hcount
  simp only [Option.bind_eq_bind, Option.bind_some, hcount, hread, if_true]

/-! ### Dates -/

private theorem head?_padded {c : CodePoint} (hwidth : 0 < width) (h : n < 10 ^ width)
    (hc : (padded width n ++ rest).head? = some c) : c.isDigit = true := by
  have hlength := length_padded hwidth h
  cases hpadded : padded width n with
  | nil => rw [hpadded, List.length_nil] at hlength; omega
  | cons d more =>
    rw [hpadded] at hc
    cases hc
    exact isDigit_of_mem_padded (hpadded ▸ List.mem_cons_self)

private theorem month_le (d : Date) : d.month ≤ 12 := by
  have hday := Nat.le_trans d.day_pos d.day_le
  unfold daysInMonth at hday
  split at hday <;> omega

private theorem daysInMonth_le (year month : Nat) : daysInMonth year month ≤ 31 := by
  unfold daysInMonth
  grind

private theorem date_lt (d : Date) : d.year < 10 ^ 4 ∧ d.month < 10 ^ 2 ∧ d.day < 10 ^ 2 := by
  have hmonth := month_le d
  have hday := Nat.le_trans d.day_le (daysInMonth_le d.year d.month)
  have hyear := d.year_le
  omega

theorem length_dateText (d : Date) : (dateText d).length = 10 := by
  obtain ⟨hyear, hmonth, hday⟩ := date_lt d
  simp only [dateText, concat, List.flatten_cons, List.flatten_nil, List.length_append,
    length_padded (by decide) hyear, length_padded (by decide) hmonth,
    length_padded (by decide) hday]
  rfl

/-- The text of a date, part by part. -/
private theorem dateText_append (d : Date) (rest : Text) :
    dateText d ++ rest = padded 4 d.year ++ (hyphen ::
      (padded 2 d.month ++ (hyphen :: (padded 2 d.day ++ rest)))) := by
  simp [dateText, concat, ofString, hyphen]

/-- A date is read back from its text. -/
theorem readDate?_dateText (length : Nat) (d : Date) (rest : Text) :
    readDate? length (dateText d ++ rest) = some d := by
  obtain ⟨hyear, hmonth, hday⟩ := date_lt d
  have hweek : ∀ more, (padded 2 d.month ++ more).head? ≠ some (CodePoint.ofChar 'W') := by
    intro more hhead
    have hdigit := head?_padded (by decide) hmonth hhead
    revert hdigit
    decide
  have hmark : ∀ more, ((hyphen :: more : Text).head? == some hyphen) = true := fun _ ↦ rfl
  have hskip : ∀ more, skipHyphen? true (hyphen :: more) = some more := fun _ ↦ rfl
  rw [dateText_append, readDate?, takeNumber?_padded (by decide) hyear]
  simp only [Option.bind_eq_bind, Option.bind_some, hmark, hskip, if_neg (hweek _),
    takeNumber?_padded (show 0 < 2 by decide) hmonth,
    takeNumber?_padded (show 0 < 2 by decide) hday, Date.of?_self]

/-! ### Times of day -/

private theorem timeText_eq (t : TimeOfDay) :
    timeText t = padded 2 t.hour ++ (colon :: (padded 2 t.minute ++
      (colon :: (padded 2 t.second ++ fractionText t.microsecond)))) := by
  simp [timeText, concat, ofString, colon]

private theorem fractionText_of_ne_zero (h : n ≠ 0) :
    fractionText n = CodePoint.ofChar '.' :: padded 6 n := by
  simp [fractionText, h, concat, ofString]

private theorem readFraction?_padded (closed : Bool) (h : n < 10 ^ 6) :
    readFraction? closed (padded 6 n) = some (n, closed) := by
  have htake := takeNumber?_padded (by decide) h []
  rw [List.append_nil] at htake
  rw [readFraction?, length_padded (by decide) h]
  simp only [Nat.min_self, htake, Option.bind_eq_bind, Option.bind_some]
  simp [isEnd]

/-- A part that a colon follows is read, and then the parts behind it. -/
private theorem readParts?_colon (closed : Bool) {colons : Option Bool}
    (hcolons : colons.getD true = true) (left : Nat) (h : n < 10 ^ 2) (hrest : rest ≠ []) :
    readParts? closed colons (left + 1) (padded 2 n ++ (colon :: rest)) =
      (readParts? closed (some true) left rest).map fun parts ↦ (n :: parts.1, parts.2) := by
  obtain ⟨c, more, rfl⟩ := List.exists_cons_of_ne_nil hrest
  rw [readParts?, takeNumber?_padded (by decide) h]
  simp only [Option.bind_eq_bind, Option.bind_some, beq_self_eq_true, hcolons, Bool.and_self,
    if_true]
  cases readParts? closed (some true) left (c :: more) <;> rfl

/-- The last part is read with its fraction. -/
private theorem readParts?_last (closed : Bool) (colons : Option Bool) (left : Nat) (h : n < 10 ^ 2)
    {fraction : Nat} (hfraction : fraction < 10 ^ 6) :
    readParts? closed colons (left + 1) (padded 2 n ++ fractionText fraction) =
      some ([n], fraction, closed) := by
  rw [readParts?, takeNumber?_padded (by decide) h]
  simp only [Option.bind_eq_bind, Option.bind_some]
  by_cases hzero : fraction = 0
  · subst hzero
    rfl
  · obtain ⟨c, more, hmore⟩ := List.exists_cons_of_ne_nil (padded_ne_nil 6 fraction)
    have hfalse : ∀ b : Bool, (b && CodePoint.ofChar '.' == colon) = false := by decide
    have hread := readFraction?_padded closed hfraction
    rw [hmore] at hread
    rw [fractionText_of_ne_zero hzero, hmore]
    simp only [hfalse, beq_self_eq_true, Bool.true_or, if_true, hread, Option.bind_some]
    rfl

/-- A time of day is read back from its text. -/
theorem readClock?_timeText (closed : Bool) (t : TimeOfDay) :
    readClock? closed (timeText t) =
      some ⟨t.hour, t.minute, t.second, t.microsecond, closed⟩ := by
  have hhour : t.hour < 10 ^ 2 := Nat.lt_trans t.hour_lt (by decide)
  have hminute : t.minute < 10 ^ 2 := Nat.lt_trans t.minute_lt (by decide)
  have hsecond : t.second < 10 ^ 2 := Nat.lt_trans t.second_lt (by decide)
  have hne : ∀ (m : Nat) (more : Text), padded 2 m ++ more ≠ [] :=
    fun m more ↦ List.append_ne_nil_of_left_ne_nil (padded_ne_nil 2 m) more
  rw [readClock?, timeText_eq, readParts?_colon closed rfl 2 hhour (hne _ _),
    readParts?_colon closed rfl 1 hminute (hne _ _),
    readParts?_last closed (some true) 0 hsecond t.microsecond_lt]
  rfl

/-- Hours and minutes alone are read back from their text. -/
private theorem readClock?_minutes {hour minute : Nat} (hhour : hour < 10 ^ 2)
    (hminute : minute < 10 ^ 2) :
    readClock? true (padded 2 hour ++ (colon :: padded 2 minute)) =
      some ⟨hour, minute, 0, 0, true⟩ := by
  have hlast := readParts?_last true (some true) 1 hminute (show 0 < 10 ^ 6 by decide)
  rw [show fractionText 0 = [] from rfl, List.append_nil] at hlast
  rw [readClock?, readParts?_colon true rfl 2 hhour (padded_ne_nil 2 minute),
    hlast]
  rfl

/-! ### Offsets -/

/-- The hours and minutes of an offset. -/
private def hourText (o : UtcOffset) : Text :=
  let seconds := o.microseconds.natAbs / 1000000
  padded 2 (seconds / 3600) ++ (colon :: padded 2 (seconds / 60 % 60))

/-- The seconds of an offset where there are any. -/
private def secondText (o : UtcOffset) : Text :=
  let size := o.microseconds.natAbs
  let seconds := size / 1000000
  if seconds % 60 = 0 && size % 1000000 = 0 then []
  else colon :: (padded 2 (seconds % 60) ++ fractionText (size % 1000000))

/-- An offset without its sign. -/
private def clockText (o : UtcOffset) : Text := hourText o ++ secondText o

/-- The sign of an offset. -/
private def signOf (o : UtcOffset) : CodePoint :=
  if o.microseconds < 0 then hyphen else CodePoint.ofChar '+'

/-- The parts of an offset give it again. -/
private theorem offset_of?_self (o : UtcOffset) :
    UtcOffset.of? (o.microseconds < 0) (o.microseconds.natAbs / 1000000)
      (o.microseconds.natAbs % 1000000) = some o := by
  obtain ⟨size, hday, hwhole⟩ := o
  have hparts : size.natAbs / 1000000 * 1000000 + size.natAbs % 1000000 = size.natAbs := by omega
  simp only [UtcOffset.of?, hparts]
  by_cases hsmall : size.natAbs < 1000000
  · have hzero := hwhole hsmall
    subst hzero
    rfl
  · rw [if_neg hsmall, dif_pos ⟨hday, hsmall⟩]
    simp only [Option.some.injEq, UtcOffset.mk.injEq, decide_eq_true_eq]
    split <;> omega

/-- An offset is read back from its clock text. -/
private theorem readClock?_clockText (o : UtcOffset) :
    ∃ reading, readClock? true (clockText o) = some reading ∧ reading.complete = true ∧
      UtcOffset.of? (o.microseconds < 0)
        (reading.hour * 3600 + reading.minute * 60 + reading.second) reading.microsecond =
          some o := by
  have hself := offset_of?_self o
  have hday := o.lt_day
  unfold clockText hourText secondText
  generalize o.microseconds.natAbs = size at hself hday ⊢
  dsimp only
  by_cases hrest : (size / 1000000 % 60 = 0 && size % 1000000 = 0) = true
  · simp only [Bool.and_eq_true, decide_eq_true_eq] at hrest
    have hseconds : size / 1000000 / 3600 * 3600 + size / 1000000 / 60 % 60 * 60 + 0 =
        size / 1000000 := by omega
    refine ⟨⟨size / 1000000 / 3600, size / 1000000 / 60 % 60, 0, 0, true⟩, ?_, rfl, ?_⟩
    · rw [if_pos (by simpa using hrest), List.append_nil]
      exact readClock?_minutes (by omega) (by omega)
    · rw [hseconds, ← hrest.2]
      exact hself
  · have hseconds : size / 1000000 / 3600 * 3600 + size / 1000000 / 60 % 60 * 60 +
        size / 1000000 % 60 = size / 1000000 := by omega
    refine ⟨⟨size / 1000000 / 3600, size / 1000000 / 60 % 60, size / 1000000 % 60,
      size % 1000000, true⟩, ?_, rfl, ?_⟩
    · have hclock := readClock?_timeText true
        ⟨size / 1000000 / 3600, size / 1000000 / 60 % 60, size / 1000000 % 60, size % 1000000,
          by omega, by omega, by omega, by omega⟩
      rw [timeText_eq] at hclock
      rw [if_neg hrest]
      simpa only [List.append_assoc, List.cons_append] using hclock
    · rw [hseconds]
      exact hself

/-! ### What the text is made of -/

/-- A text of digits and of marks. -/
private def IsMadeOf (marks t : Text) : Prop := ∀ c ∈ t, c.isDigit = true ∨ c ∈ marks

private theorem isMadeOf_append {marks s t : Text} :
    IsMadeOf marks (s ++ t) ↔ IsMadeOf marks s ∧ IsMadeOf marks t := by
  simp only [IsMadeOf, List.mem_append, or_imp, forall_and]

private theorem isMadeOf_cons {marks t : Text} {c : CodePoint} :
    IsMadeOf marks (c :: t) ↔ (c.isDigit = true ∨ c ∈ marks) ∧ IsMadeOf marks t := by
  simp only [IsMadeOf, List.forall_mem_cons]

private theorem isMadeOf_padded (marks : Text) (width n : Nat) : IsMadeOf marks (padded width n) :=
  fun _ hc ↦ .inl (isDigit_of_mem_padded hc)

private theorem isMadeOf_nil (marks : Text) : IsMadeOf marks [] :=
  fun _ hc ↦ absurd hc List.not_mem_nil

private theorem isMadeOf_fractionText (microsecond : Nat) :
    IsMadeOf ":." (fractionText microsecond) := by
  by_cases hzero : microsecond = 0
  · subst hzero
    exact isMadeOf_nil _
  · rw [fractionText_of_ne_zero hzero, isMadeOf_cons]
    exact ⟨by decide, isMadeOf_padded _ _ _⟩

private theorem isMadeOf_timeText (t : TimeOfDay) : IsMadeOf ":." (timeText t) := by
  have hcolon : colon.isDigit = true ∨ colon ∈ (":." : Text) := by decide
  rw [timeText_eq]
  simp only [isMadeOf_append, isMadeOf_cons, isMadeOf_padded, isMadeOf_fractionText, hcolon,
    and_self]

private theorem isMadeOf_clockText (o : UtcOffset) : IsMadeOf ":." (clockText o) := by
  have hcolon : colon.isDigit = true ∨ colon ∈ (":." : Text) := by decide
  unfold clockText hourText secondText
  dsimp only
  split <;>
    simp only [isMadeOf_append, isMadeOf_cons, isMadeOf_nil, isMadeOf_padded,
      isMadeOf_fractionText, hcolon, and_self]

private theorem isMadeOf_dateText (d : Date) : IsMadeOf "-" (dateText d) := by
  have hhyphen : hyphen.isDigit = true ∨ hyphen ∈ ("-" : Text) := by decide
  have hdate := dateText_append d []
  rw [List.append_nil, List.append_nil] at hdate
  rw [hdate]
  simp only [isMadeOf_append, isMadeOf_cons, isMadeOf_padded, hhyphen, and_self]

/-- A code point that is no digit and no mark is not in the text. -/
private theorem IsMadeOf.not_mem {marks t : Text} {c : CodePoint} (h : IsMadeOf marks t)
    (hdigit : c.isDigit = false) (hmark : c ∉ marks) : c ∉ t := by
  intro hc
  rcases h c hc with htrue | hmem
  · rw [hdigit] at htrue
    cases htrue
  · exact hmark hmem

private theorem IsMadeOf.isScalar {marks t : Text} (h : IsMadeOf marks t)
    (hmarks : marks.IsScalar) : t.IsScalar := by
  intro c hc
  rcases h c hc with hdigit | hmem
  · simp only [CodePoint.isDigit, Bool.and_eq_true, decide_eq_true_eq] at hdigit
    rw [CodePoint.isSurrogate, Bool.and_eq_false_iff, decide_eq_false_iff_not]
    exact .inl (by omega)
  · exact hmarks c hmem

private theorem isSurrogate_signOf (o : UtcOffset) : (signOf o).isSurrogate = false := by
  unfold signOf
  split <;> decide

/-! ### Reading timestamps -/

private theorem replace_of_not_mem {t : Text} {c : CodePoint} (new : Text) (h : c ∉ t) :
    t.replace c new = t := by
  rw [replace]
  induction t with
  | nil => rfl
  | cons d rest ih =>
    obtain ⟨hd, hrest⟩ := not_or.mp (mt List.mem_cons.mpr h)
    rw [List.flatMap_cons, ih hrest, if_neg (Ne.symm hd)]
    rfl

private theorem replace_append (s t : Text) (c : CodePoint) (new : Text) :
    (s ++ t).replace c new = s.replace c new ++ t.replace c new :=
  List.flatMap_append

private theorem replace_zero {minutes : Text} (h : CodePoint.ofChar 'Z' ∉ minutes) :
    (if minutes = ("+00:00" : Text) then ("Z" : Text) else minutes).replace (CodePoint.ofChar 'Z')
      "+00:00" = minutes := by
  split
  · next heq => rw [heq]; rfl
  · exact replace_of_not_mem _ h

private theorem offsetText_eq (o : UtcOffset) :
    offsetText o = (if signOf o :: hourText o = ("+00:00" : Text) then ("Z" : Text)
      else signOf o :: hourText o) ++ secondText o := by
  have hstart : ∀ hour minute, concat [if o.microseconds < 0 then ("-" : Text) else "+",
      padded 2 hour, ":", padded 2 minute] =
        signOf o :: (padded 2 hour ++ (colon :: padded 2 minute)) := by
    intro hour minute
    unfold signOf
    split <;> simp [concat, ofString, hyphen, colon]
  have hend : ∀ second fraction, concat [":", padded 2 second, fractionText fraction] =
      colon :: (padded 2 second ++ fractionText fraction) := by
    intro second fraction
    simp [concat, ofString, colon]
  unfold offsetText
  dsimp only
  rw [hstart, hend]
  rfl

/-- With its zero spelled out, an offset is a sign and a clock text. -/
private theorem replace_offsetText (o : UtcOffset) :
    (offsetText o).replace (CodePoint.ofChar 'Z') "+00:00" = signOf o :: clockText o := by
  have hclock := (isMadeOf_clockText o).not_mem
    (show (CodePoint.ofChar 'Z').isDigit = false by decide) (by decide)
  have hsign : CodePoint.ofChar 'Z' ≠ signOf o := by
    unfold signOf
    split <;> decide
  rw [clockText, List.mem_append, not_or] at hclock
  obtain ⟨hhours, hseconds⟩ := hclock
  have hstart : CodePoint.ofChar 'Z' ∉ signOf o :: hourText o := by
    rw [List.mem_cons, not_or]
    exact ⟨hsign, hhours⟩
  rw [offsetText_eq, replace_append, replace_zero hstart, replace_of_not_mem _ hseconds]
  rfl

private theorem text_eq (t : Timestamp) :
    t.text = dateText t.date ++ ([CodePoint.ofChar 'T'] ++
      (timeText t.time ++ offsetText t.offset)) := by
  simp [text, concat, ofString]

/-- The text of a timestamp holds no surrogate. -/
theorem isScalar_text (t : Timestamp) : t.text.IsScalar := by
  have hclock := (isMadeOf_clockText t.offset).isScalar (by decide)
  rw [clockText, isScalar_append] at hclock
  obtain ⟨hhours, hseconds⟩ := hclock
  rw [text_eq, offsetText_eq]
  simp only [isScalar_append]
  refine ⟨(isMadeOf_dateText _).isScalar (by decide), by decide,
    (isMadeOf_timeText _).isScalar (by decide), ?_, hseconds⟩
  split
  · exact isScalar_ofString _
  · exact isScalar_cons.mpr ⟨isSurrogate_signOf _, hhours⟩

/-- The text of a timestamp, its zero offset spelled out. -/
private theorem replace_text (t : Timestamp) :
    t.text.replace (CodePoint.ofChar 'Z') "+00:00" =
      dateText t.date ++ (CodePoint.ofChar 'T' ::
        (timeText t.time ++ (signOf t.offset :: clockText t.offset))) := by
  have hdate := replace_of_not_mem "+00:00" ((isMadeOf_dateText t.date).not_mem
    (show (CodePoint.ofChar 'Z').isDigit = false by decide) (by decide))
  have htime := replace_of_not_mem "+00:00" ((isMadeOf_timeText t.time).not_mem
    (show (CodePoint.ofChar 'Z').isDigit = false by decide) (by decide))
  rw [text_eq, replace_append, replace_append, replace_append, hdate, htime, replace_offsetText]
  rfl

private theorem plainSeparator_of_isScalar {t : Text} (h : t.IsScalar) : plainSeparator t = t := by
  have hnone : ([7, 8, 10].find? fun i ↦ t[i]?.any CodePoint.isSurrogate) = none := by
    rw [List.find?_eq_none]
    intro i _
    cases hget : t[i]? with
    | none => simp
    | some c => simp [h c (List.mem_of_getElem? hget)]
  rw [plainSeparator, hnone]

private theorem separatorOffset_dateText (d : Date) (rest : Text) :
    separatorOffset (dateText d ++ rest) = 10 := by
  obtain ⟨hyear, hmonth, -⟩ := date_lt d
  have hlength : (dateText d ++ rest).length ≠ 7 := by
    rw [List.length_append, length_dateText]
    omega
  have hwidth : (padded 4 d.year).length = 4 := length_padded (by decide) hyear
  have hfour : (dateText d ++ rest)[4]? = some hyphen := by
    rw [dateText_append, List.getElem?_append_right (by omega), hwidth]
    rfl
  have hfive : (dateText d ++ rest)[5]? ≠ some (CodePoint.ofChar 'W') := by
    rw [dateText_append, List.getElem?_append_right (by omega), hwidth]
    change (padded 2 d.month ++ _)[0]? ≠ _
    rw [← List.head?_eq_getElem?]
    intro hhead
    have hdigit := head?_padded (by decide) hmonth hhead
    revert hdigit
    decide
  rw [separatorOffset]
  simp only [if_neg hlength, hfour, if_true]
  rw [if_neg]
  simp [hfive]

private theorem readTime?_timeText (t : TimeOfDay) (o : UtcOffset) :
    readTime? (timeText t ++ (signOf o :: clockText o)) = some (t, o) := by
  have hmarks : ∀ c ∈ timeText t, (!(c == hyphen || c == CodePoint.ofChar '+')) = true := by
    intro c hc
    have hhyphen : c ≠ hyphen := by
      rintro rfl
      exact (isMadeOf_timeText t).not_mem (by decide) (by decide) hc
    have hplus : c ≠ CodePoint.ofChar '+' := by
      rintro rfl
      exact (isMadeOf_timeText t).not_mem (by decide) (by decide) hc
    simp [hhyphen, hplus]
  have hsign : (!(signOf o == hyphen || signOf o == CodePoint.ofChar '+')) = false := by
    unfold signOf
    split <;> decide
  have hnegative : (signOf o == hyphen) = decide (o.microseconds < 0) := by
    unfold signOf
    split
    · next hlt => rw [decide_eq_true hlt]; rfl
    · next hge => rw [decide_eq_false hge]; rfl
  obtain ⟨reading, hreading, hcomplete, hoffset⟩ := readClock?_clockText o
  have hclock := readClock?_timeText false t
  rw [readTime?]
  simp only [List.takeWhile_append_of_pos hmarks, List.dropWhile_append_of_pos hmarks,
    List.takeWhile_cons, List.dropWhile_cons, hsign, Bool.false_eq_true, if_false,
    List.isEmpty_cons, List.append_nil]
  simp only [hclock, hreading, hcomplete, hnegative, hoffset, TimeOfDay.of?_self,
    Option.bind_eq_bind, Option.bind_some, Bool.not_true, Bool.false_eq_true, if_false]
  rfl

/-- A timestamp is read back from its text. -/
theorem read?_text (t : Timestamp) : read? t.text = some t := by
  have hscalar : (dateText t.date ++ (CodePoint.ofChar 'T' ::
      (timeText t.time ++ (signOf t.offset :: clockText t.offset)))).IsScalar := by
    simp only [isScalar_append, isScalar_cons, isSurrogate_signOf,
      (isMadeOf_dateText _).isScalar (by decide), (isMadeOf_timeText _).isScalar (by decide),
      (isMadeOf_clockText _).isScalar (by decide), true_and, and_true]
    decide
  have hany : (dateText t.date ++ (CodePoint.ofChar 'T' ::
      (timeText t.time ++ (signOf t.offset :: clockText t.offset)))).any CodePoint.isSurrogate =
        false := by
    rw [List.any_eq_false]
    intro c hc
    simp [hscalar c hc]
  have hlength : ¬ (dateText t.date ++ (CodePoint.ofChar 'T' ::
      (timeText t.time ++ (signOf t.offset :: clockText t.offset)))).length < 7 := by
    rw [List.length_append, length_dateText]
    omega
  rw [read?, replace_text, plainSeparator_of_isScalar hscalar]
  simp only [hany, hlength, decide_false, Bool.or_self, Bool.false_eq_true, if_false,
    separatorOffset_dateText, readDate?_dateText, List.drop_left' (length_dateText t.date),
    readTime?_timeText, Option.bind_eq_bind, Option.bind_some]
  rfl

/-- The beginning of a day, as the time of sessions with given files. -/
def secondOfJanuary : Timestamp :=
  ⟨⟨2024, 1, 2, by decide, by decide, by decide, by decide⟩, .midnight, .utc⟩

end StoryCatalog.Timestamp
