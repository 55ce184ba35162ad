import Nhi.Calendar
import Nhi.LogWhere

/-!
The date filters of `fetch`, `log` and `log-session`. The pieces between the
separators only have to be numbers for Go, and `time.Date` takes any numbers.
-/

namespace Nhi

open Calendar
open Sql (ascii unsigned signedNumber isDigit maxInteger digitsNumber)

/-- The seconds a zone is ahead, at a local time in seconds. Gaps and repeated
hours are left out of account. -/
abbrev Zone := Int → Int

structure Civil.Valid (civil : Civil) : Prop where
  month : 1 ≤ civil.month ∧ civil.month ≤ 12
  day : 1 ≤ civil.day ∧ civil.day ≤ monthDays civil.year civil.month
  hour : 0 ≤ civil.hour ∧ civil.hour ≤ 23
  minute : 0 ≤ civil.minute ∧ civil.minute ≤ 59
  second : 0 ≤ civil.second ∧ civil.second ≤ 59

def Civil.clock (civil : Civil) : Int :=
  (daysToYear civil.year + daysToMonth civil.year civil.month + (civil.day - 1)) * 86400 +
    civil.hour * 3600 + civil.minute * 60 + civil.second

def Zone.unix (zone : Zone) (civil : Civil) : Int := civil.clock - zone civil.clock

/-- `time.Date` normalises: months carry into the year, and the rest is added up. -/
def normalised (civil : Civil) : Int :=
  let months := civil.month - 1
  let year := civil.year + months / 12
  let month := months % 12 + 1
  (daysSinceEpoch year + daysBefore year month + (civil.day - 1)) * 86400 + civil.hour * 3600 +
    civil.minute * 60 + civil.second

def date (zone : Zone) : LocalTime := fun civil => BitVec.ofInt 64 (normalised civil - zone (normalised civil))

theorem normalised_valid {civil : Civil} (valid : civil.Valid) : normalised civil = civil.clock := by
  have months := valid.month
  have year : civil.year + (civil.month - 1) / 12 = civil.year := by omega
  have month : (civil.month - 1) % 12 + 1 = civil.month := by omega
  simp only [normalised, Civil.clock, year, month, daysSinceEpoch_counted, daysBefore_counted _ months.1 months.2]

/-! How a date is written. -/
section Layout

def layout (year month day hour minute second : Text) : Text :=
  year ++ 45#8 :: (month ++ 45#8 :: (day ++ 32#8 :: (hour ++ 58#8 :: (minute ++ 58#8 :: second))))

/-- `year-month-day hour:minute:second`, with numbers as the two functions read
them: one for the year and the month, one for the others. -/
inductive Written (front back : Text → Option Int) : Text → Civil → Prop where
  | mk (year month day hour minute second : Text) (civil : Civil) :
      front year = some civil.year → front month = some civil.month → back day = some civil.day →
      back hour = some civil.hour → back minute = some civil.minute → back second = some civil.second →
      Written front back (layout year month day hour minute second) civil

/-- A real date and time. -/
def RealDateTime (argument : Text) (civil : Civil) : Prop := Written integerOf integerOf argument civil ∧ civil.Valid

def atoiUnsigned (text : Text) : Option Int := if text.contains 45#8 then none else atoi text

/-- Six numbers that Go reads. -/
def SixNumbers (argument : Text) (civil : Civil) : Prop := Written atoiUnsigned atoi argument civil

theorem datePart_ok {label part text : Text} {value : Int} :
    datePart label part text = .ok value ↔ atoi text = some value := by
  rw [datePart]
  cases atoi text <;> simp

theorem atoi_apart {text : Text} {value : Int} (read : atoi text = some value) {byte : Byte}
    (other : byte ≠ 43#8 ∧ byte ≠ 45#8 ∧ isDigit byte = false) : byte ∉ text :=
  spelled_apart (Sql.plainInteger_spelled read) other

theorem atoiUnsigned_some {text : Text} {value : Int} :
    atoiUnsigned text = some value ↔ 45#8 ∉ text ∧ atoi text = some value := by
  rw [atoiUnsigned, Option.ite_none_left_eq_some, List.contains_iff_mem]

theorem dateTime_iff (label argument : Text) (civil : Civil) :
    dateTime label argument = .ok civil ↔ SixNumbers argument civil := by
  constructor
  · -- each split and each number that was read, from the outside in
    intro read
    rw [dateTime] at read
    split at read
    · rename_i dates times whole
      split at read
      · rename_i year month day inDate
        obtain ⟨yearValue, yearRead, read⟩ := bind_eq_ok.mp read
        obtain ⟨monthValue, monthRead, read⟩ := bind_eq_ok.mp read
        obtain ⟨dayValue, dayRead, read⟩ := bind_eq_ok.mp read
        split at read
        · rename_i hour minute second inTime
          obtain ⟨hourValue, hourRead, read⟩ := bind_eq_ok.mp read
          obtain ⟨minuteValue, minuteRead, read⟩ := bind_eq_ok.mp read
          obtain ⟨secondValue, secondRead, read⟩ := bind_eq_ok.mp read
          obtain rfl := Except.ok.inj read
          obtain ⟨rfl, _⟩ := splitN_two_iff.mp whole
          obtain ⟨rfl, yearMinus, monthMinus⟩ := splitN_three_iff.mp inDate
          obtain ⟨rfl, _⟩ := splitN_three_iff.mp inTime
          have written : SixNumbers (layout year month day hour minute second)
              ⟨yearValue, monthValue, dayValue, hourValue, minuteValue, secondValue⟩ :=
            .mk _ _ _ _ _ _ _ (atoiUnsigned_some.mpr ⟨yearMinus, datePart_ok.mp yearRead⟩)
              (atoiUnsigned_some.mpr ⟨monthMinus, datePart_ok.mp monthRead⟩) (datePart_ok.mp dayRead)
              (datePart_ok.mp hourRead) (datePart_ok.mp minuteRead) (datePart_ok.mp secondRead)
          simpa [layout] using written
        · cases read
      · cases read
    · cases read
  · rintro ⟨year, month, day, hour, minute, second, civil, yearRead, monthRead, dayRead, hourRead, minuteRead,
      secondRead⟩
    obtain ⟨yearMinus, yearRead⟩ := atoiUnsigned_some.mp yearRead
    obtain ⟨monthMinus, monthRead⟩ := atoiUnsigned_some.mp monthRead
    have space : 32#8 ∉ year ++ 45#8 :: (month ++ 45#8 :: day) := by
      simp [atoi_apart yearRead, atoi_apart monthRead, atoi_apart dayRead, isDigit]
    have whole : splitN 32#8 2 (layout year month day hour minute second) =
        [year ++ 45#8 :: (month ++ 45#8 :: day), hour ++ 58#8 :: (minute ++ 58#8 :: second)] :=
      splitN_two_iff.mpr ⟨by simp [layout], space⟩
    have inDate : splitN 45#8 3 (year ++ 45#8 :: (month ++ 45#8 :: day)) = [year, month, day] :=
      splitN_three_iff.mpr ⟨rfl, yearMinus, monthMinus⟩
    have inTime : splitN 58#8 3 (hour ++ 58#8 :: (minute ++ 58#8 :: second)) = [hour, minute, second] :=
      splitN_three_iff.mpr ⟨rfl, atoi_apart hourRead (by decide), atoi_apart minuteRead (by decide)⟩
    simp only [dateTime, whole, inDate, inTime, bind_eq_ok, datePart_ok]
    exact ⟨_, yearRead, _, monthRead, _, dayRead, _, hourRead, _, minuteRead, _, secondRead, rfl⟩

theorem integerOf_minus {text : Text} {value : Int} (read : integerOf text = some value) (minus : 45#8 ∈ text) :
    text.head? = some 45#8 ∧ value ≤ 0 := by
  rw [integerOf, Option.ite_none_right_eq_some] at read
  obtain ⟨⟨_, digits⟩, same⟩ := read
  have head : text.head? = some 45#8 := by
    cases text with
    | nil => cases minus
    | cons first rest =>
        rw [List.all_eq_true, unsigned] at digits
        split_ifs at digits with sign
        · rcases List.mem_cons.mp minus with here | later
          · rw [here]
            rfl
          · exact absurd (digits _ later) (by decide)
        · exact absurd (digits _ minus) (by decide)
  refine ⟨head, ?_⟩
  rw [signedNumber, if_pos head] at same
  have same := Option.some.inj same
  omega

theorem integerOf_nonneg {text : Text} {value : Int} (read : integerOf text = some value) (plus : 45#8 ∉ text) :
    0 ≤ value := by
  rw [integerOf, Option.ite_none_right_eq_some] at read
  have head : text.head? ≠ some 45#8 := fun head => plus (List.mem_of_head? head)
  have same := Option.some.inj read.2
  rw [signedNumber, if_neg head] at same
  omega

theorem integerOf_nonempty {text : Text} {value : Int} (read : integerOf text = some value) : text ≠ [] := by
  rintro rfl
  cases read

theorem atoi_integerOf {text : Text} {value : Int} (read : integerOf text = some value)
    (low : -(maxInteger + 1 : Int) ≤ value) (high : value ≤ maxInteger) : atoi text = some value := by
  rw [integerOf, Option.ite_none_right_eq_some] at read
  obtain ⟨⟨nonempty, digits⟩, same⟩ := read
  obtain rfl := Option.some.inj same
  rw [atoi, Sql.plainInteger, if_pos ⟨nonempty, digits, low, high⟩]

theorem monthDays_le (year month : Int) : monthDays year month ≤ 31 := by
  rw [monthDays]
  split_ifs <;> decide

/-- A real date is read as what it is, unless its year has a minus sign or more
than 64 bits. -/
theorem real_sixNumbers {argument : Text} {civil other : Civil} (real : RealDateTime argument civil) :
    SixNumbers argument other ↔
      other = civil ∧ argument.head? ≠ some 45#8 ∧ civil.year ≤ maxInteger := by
  obtain ⟨⟨year, month, day, hour, minute, second, civil, yearRead, monthRead, dayRead, hourRead, minuteRead,
    secondRead⟩, valid⟩ := real
  have head : (layout year month day hour minute second).head? = year.head? := by
    rw [layout, List.head?_append_of_ne_nil _ (integerOf_nonempty yearRead)]
  have monthMinus : 45#8 ∉ month := fun minus => by
    have low := (integerOf_minus monthRead minus).2
    have positive := valid.month.1
    omega
  rw [head]
  constructor
  · intro accepted
    generalize same : layout year month day hour minute second = argument at accepted
    obtain ⟨year', month', day', hour', minute', second', other, yearRead', monthRead', dayRead', hourRead',
      minuteRead', secondRead'⟩ := accepted
    obtain ⟨yearMinus', yearRead'⟩ := atoiUnsigned_some.mp yearRead'
    obtain ⟨monthMinus', monthRead'⟩ := atoiUnsigned_some.mp monthRead'
    have nonempty := integerOf_nonempty (integerOf_atoi yearRead')
    have noMinus : year.head? ≠ some 45#8 := by
      rw [← head, same, layout, List.head?_append_of_ne_nil _ nonempty]
      exact fun first => yearMinus' (List.mem_of_head? first)
    have yearMinus : 45#8 ∉ year := fun minus => noMinus (integerOf_minus yearRead minus).1
    -- both ways to take the argument apart end each piece at the same separator
    have daySpace : 32#8 ∉ day := integerOf_apart dayRead (by decide)
    have daySpace' : 32#8 ∉ day' := atoi_apart dayRead' (by decide)
    have hourColon : 58#8 ∉ hour := integerOf_apart hourRead (by decide)
    have hourColon' : 58#8 ∉ hour' := atoi_apart hourRead' (by decide)
    have minuteColon : 58#8 ∉ minute := integerOf_apart minuteRead (by decide)
    have minuteColon' : 58#8 ∉ minute' := atoi_apart minuteRead' (by decide)
    obtain ⟨rfl, behindYear⟩ := cut_inj yearMinus yearMinus' same
    obtain ⟨rfl, behindMonth⟩ := cut_inj monthMinus monthMinus' behindYear
    obtain ⟨rfl, behindDay⟩ := cut_inj daySpace daySpace' behindMonth
    obtain ⟨rfl, behindHour⟩ := cut_inj hourColon hourColon' behindDay
    obtain ⟨rfl, rfl⟩ := cut_inj minuteColon minuteColon' behindHour
    have years := Option.some.inj (yearRead.symm.trans (integerOf_atoi yearRead'))
    have months := Option.some.inj (monthRead.symm.trans (integerOf_atoi monthRead'))
    have days := Option.some.inj (dayRead.symm.trans (integerOf_atoi dayRead'))
    have hours := Option.some.inj (hourRead.symm.trans (integerOf_atoi hourRead'))
    have minutes := Option.some.inj (minuteRead.symm.trans (integerOf_atoi minuteRead'))
    have seconds := Option.some.inj (secondRead.symm.trans (integerOf_atoi secondRead'))
    refine ⟨?_, noMinus, years ▸ (Sql.plainInteger_spelled yearRead').bounds.2⟩
    obtain ⟨_, _, _, _, _, _⟩ := civil
    obtain ⟨_, _, _, _, _, _⟩ := other
    simp only at years months days hours minutes seconds
    simp only [years, months, days, hours, minutes, seconds]
  · rintro ⟨rfl, noMinus, high⟩
    have yearMinus : 45#8 ∉ year := fun minus => noMinus (integerOf_minus yearRead minus).1
    have nonneg := integerOf_nonneg yearRead yearMinus
    have days := monthDays_le other.year other.month
    obtain ⟨months, dayBounds, hours, minutes, seconds⟩ := valid
    refine .mk _ _ _ _ _ _ _ (atoiUnsigned_some.mpr ⟨yearMinus, atoi_integerOf yearRead (by omega) high⟩)
      (atoiUnsigned_some.mpr ⟨monthMinus, atoi_integerOf monthRead ?_ ?_⟩) (atoi_integerOf dayRead ?_ ?_)
      (atoi_integerOf hourRead ?_ ?_) (atoi_integerOf minuteRead ?_ ?_) (atoi_integerOf secondRead ?_ ?_) <;>
      · rw [maxInteger]
        omega

end Layout

/-! The three clause builders, each with the arguments it has beside the dates. -/
section Builders

inductive ClauseBuilder where
  | fetch (sliceStartEndRange : Text × Text) (startRangeInt endRangeInt : Int)
      (indicator exitStatus directory : Text)
  | log
  | logSession (exitStatus directory : Text)

namespace ClauseBuilder

variable (builder : ClauseBuilder) (localTime : LocalTime) (before after : Text)

def run : Except Text Text :=
  match builder with
  | .fetch sliceStartEndRange startRangeInt endRangeInt indicator exitStatus directory =>
      getWhere localTime sliceStartEndRange startRangeInt endRangeInt billion indicator exitStatus directory
        before after
  | .log => logWhere localTime before after
  | .logSession exitStatus directory => logSessionWhere localTime exitStatus directory before after

def base : Text :=
  match builder with
  | .fetch sliceStartEndRange startRangeInt endRangeInt indicator exitStatus directory =>
      let clause := rangeWhere sliceStartEndRange startRangeInt endRangeInt billion indicator
      let clause := if exitStatus ≠ [] then exitStatusCondition exitStatus else clause
      if directory ≠ [] then clause ++ ascii " AND " ++ directoryCondition directory else clause
  | .log => []
  | .logSession exitStatus directory => getContentWhere exitStatus directory

def put (clause condition : Text) : Text :=
  match builder with
  | .fetch _ _ _ _ _ _ => clause ++ ascii " AND " ++ condition
  | .log | .logSession _ _ => also clause condition

def clause (latest earliest : Option Long) : Text :=
  let clause := builder.base
  let clause := latest.elim clause fun seconds => builder.put clause (beforeCondition seconds)
  earliest.elim clause fun seconds => builder.put clause (afterCondition seconds)

theorem run_moments :
    builder.run localTime before after = (do
      let latest ← momentOf (ascii "before") before
      let earliest ← momentOf (ascii "after") after
      return builder.clause (latest.map localTime) (earliest.map localTime)) := by
  refine Eq.trans ?_ (dates_joined localTime builder.put
    (fun latest earliest => builder.clause (latest.map localTime) (earliest.map localTime)) ?_ ?_ before after)
  · have start : builder.clause ((none : Option Civil).map localTime) ((none : Option Civil).map localTime) =
        builder.base := by simp only [clause, Option.map_none, Option.elim_none]
    rw [start]
    cases builder with
    | fetch => simp only [run, getWhere, base, put]
    | log => simp only [run, logWhere, base, put, also, if_true]
    | logSession => simp only [run, logSessionWhere, base, put, getContentWhere]
  · intro civil
    simp only [clause, Option.map_none, Option.map_some, Option.elim_none, Option.elim_some]
  · intro latest civil
    rw [Option.map_none, Option.map_some, clause, clause, Option.elim_none, Option.elim_some]

end ClauseBuilder

end Builders

section Moments

variable {zone : Zone} {label argument : Text}

theorem momentOf_some {civil : Civil} (given : argument ≠ []) :
    momentOf label argument = .ok (some civil) ↔ SixNumbers argument civil := by
  rw [momentOf, if_neg given, ← dateTime_iff label]
  cases dateTime label argument with
  | error message => simp [Except.map]
  | ok other => simp [Except.map]

theorem momentOf_error (given : argument ≠ []) :
    (∃ message, momentOf label argument = .error message) ↔ ∀ civil, ¬ SixNumbers argument civil := by
  rw [momentOf, if_neg given]
  simp only [← dateTime_iff label]
  cases dateTime label argument with
  | error message => simp [Except.map]
  | ok other => simp [Except.map]

/-- The number a condition should have: the Unix time of the date, none without one. -/
inductive Threshold (zone : Zone) : Text → Option Long → Prop where
  | omitted : Threshold zone [] none
  | given (argument : Text) (civil : Civil) (seconds : Long) : RealDateTime argument civil →
      seconds.toInt = zone.unix civil → Threshold zone argument (some seconds)

/-- The date is real, its year is not negative and has no more than 64 bits, and
neither has its Unix time. -/
def Convertible (zone : Zone) (argument : Text) : Prop :=
  ∃ civil, RealDateTime argument civil ∧ argument.head? ≠ some 45#8 ∧ civil.year ≤ maxInteger ∧
    -2 ^ 63 ≤ zone.unix civil ∧ zone.unix civil < 2 ^ 63

theorem convertible_moment (label : Text) (convertible : argument ≠ [] → Convertible zone argument) :
    ∃ time, momentOf label argument = .ok time ∧ Threshold zone argument (time.map (date zone)) := by
  by_cases given : argument = []
  · subst given
    exact ⟨none, rfl, .omitted⟩
  · obtain ⟨civil, real, head, year, low, high⟩ := convertible given
    refine ⟨some civil, (momentOf_some given).mpr ((real_sixNumbers real).mpr ⟨rfl, head, year⟩),
      .given argument civil _ real ?_⟩
    rw [date, normalised_valid real.2, ← Zone.unix, BitVec.toInt_ofInt]
    exact Int.bmod_eq_of_le (by omega) (by omega)

theorem threshold_convertible {seconds : Option Long} {civil : Civil} (given : argument ≠ [])
    (threshold : Threshold zone argument seconds) (read : SixNumbers argument civil) : Convertible zone argument := by
  cases threshold with
  | omitted => exact absurd rfl given
  | given _ other seconds real same =>
      obtain ⟨rfl, head, year⟩ := (real_sixNumbers real).mp read
      have low := BitVec.le_toInt seconds
      have high := BitVec.toInt_lt (x := seconds)
      exact ⟨civil, real, head, year, by omega, by omega⟩

end Moments

def givenDates (before after : Text) : List Text := [before, after].filter (· ≠ [])

structure DatesExact (zone : Zone) (builder : ClauseBuilder) (before after : Text) : Prop where
  accepted : (∀ argument ∈ givenDates before after, ∃ civil, RealDateTime argument civil) →
    ∃ latest earliest, Threshold zone before latest ∧ Threshold zone after earliest ∧
      builder.run (date zone) before after = .ok (builder.clause latest earliest)
  refused : (∃ argument ∈ givenDates before after, ∀ civil, ¬ RealDateTime argument civil) →
    ∃ message, builder.run (date zone) before after = .error message

/-- Real dates are convertible, and among others there is one that is not six
numbers for Go. -/
structure DatesTold (zone : Zone) (before after : Text) : Prop where
  convertible : (∀ argument ∈ givenDates before after, ∃ civil, RealDateTime argument civil) →
    ∀ argument ∈ givenDates before after, Convertible zone argument
  told : (∃ argument ∈ givenDates before after, ∀ civil, ¬ RealDateTime argument civil) →
    ∃ argument ∈ givenDates before after, ∀ civil, ¬ SixNumbers argument civil

section Exact

variable {zone : Zone} {builder : ClauseBuilder} {before after : Text}

theorem mem_givenDates {argument : Text} :
    argument ∈ givenDates before after ↔ (argument = before ∨ argument = after) ∧ argument ≠ [] := by
  simp [givenDates]

theorem run_ok {localTime : LocalTime} {text : Text} (ran : builder.run localTime before after = .ok text) :
    ∀ argument ∈ givenDates before after, ∃ civil, SixNumbers argument civil := by
  rw [ClauseBuilder.run_moments] at ran
  obtain ⟨latest, beforeRead, ran⟩ := bind_eq_ok.mp ran
  obtain ⟨earliest, afterRead, _⟩ := bind_eq_ok.mp ran
  have read {label argument : Text} {time : Option Civil} (given : argument ≠ [])
      (moment : momentOf label argument = .ok time) : ∃ civil, SixNumbers argument civil := by
    cases time with
    | none =>
        rw [momentOf, if_neg given] at moment
        cases parsed : dateTime label argument <;> simp [parsed, Except.map] at moment
    | some civil => exact ⟨civil, (momentOf_some given).mp moment⟩
  rintro argument member
  obtain ⟨rfl | rfl, given⟩ := mem_givenDates.mp member
  · exact read given beforeRead
  · exact read given afterRead

theorem run_error_iff {localTime : LocalTime} :
    (∃ message, builder.run localTime before after = .error message) ↔
      ∃ argument ∈ givenDates before after, ∀ civil, ¬ SixNumbers argument civil := by
  constructor
  · -- `before` is read first
    rintro ⟨message, refused⟩
    rw [ClauseBuilder.run_moments] at refused
    cases beforeRead : momentOf (ascii "before") before with
    | error other =>
        have given : before ≠ [] := by
          rintro rfl
          cases beforeRead
        exact ⟨before, mem_givenDates.mpr ⟨Or.inl rfl, given⟩, (momentOf_error given).mp ⟨other, beforeRead⟩⟩
    | ok latest =>
        cases afterRead : momentOf (ascii "after") after with
        | error other =>
            have given : after ≠ [] := by
              rintro rfl
              cases afterRead
            exact ⟨after, mem_givenDates.mpr ⟨Or.inr rfl, given⟩, (momentOf_error given).mp ⟨other, afterRead⟩⟩
        | ok earliest =>
            rw [beforeRead, afterRead] at refused
            cases refused
  · rintro ⟨argument, member, unread⟩
    cases ran : builder.run localTime before after with
    | error message => exact ⟨message, rfl⟩
    | ok text =>
        obtain ⟨civil, read⟩ := run_ok ran argument member
        exact absurd read (unread civil)

theorem thresholds_convertible {latest earliest : Option Long} {text : Text}
    (untilThen : Threshold zone before latest) (since : Threshold zone after earliest)
    (ran : builder.run (date zone) before after = .ok text) :
    ∀ argument ∈ givenDates before after, Convertible zone argument := by
  intro argument member
  obtain ⟨civil, read⟩ := run_ok ran argument member
  obtain ⟨rfl | rfl, given⟩ := mem_givenDates.mp member
  · exact threshold_convertible given untilThen read
  · exact threshold_convertible given since read

theorem convertible_run (convertible : ∀ argument ∈ givenDates before after, Convertible zone argument) :
    ∃ latest earliest, Threshold zone before latest ∧ Threshold zone after earliest ∧
      builder.run (date zone) before after = .ok (builder.clause latest earliest) := by
  obtain ⟨latest, beforeRead, untilThen⟩ := convertible_moment (ascii "before") fun given =>
    convertible before (mem_givenDates.mpr ⟨Or.inl rfl, given⟩)
  obtain ⟨earliest, afterRead, since⟩ := convertible_moment (ascii "after") fun given =>
    convertible after (mem_givenDates.mpr ⟨Or.inr rfl, given⟩)
  refine ⟨_, _, untilThen, since, ?_⟩
  rw [ClauseBuilder.run_moments, beforeRead, afterRead]
  rfl

end Exact

/-- A clause builder takes exactly the real dates, with their Unix times, where
the dates are told: where all are real, none has a negative year or leaves the 64
bits; where one is not, Go does not read six numbers from each. -/
theorem datesExact_iff (zone : Zone) (builder : ClauseBuilder) (before after : Text) :
    DatesExact zone builder before after ↔ DatesTold zone before after := by
  constructor
  · rintro ⟨accepted, refused⟩
    refine ⟨fun real => ?_, fun unreal => run_error_iff.mp (refused unreal)⟩
    obtain ⟨latest, earliest, untilThen, since, ran⟩ := accepted real
    exact thresholds_convertible untilThen since ran
  · rintro ⟨convertible, told⟩
    exact ⟨fun real => convertible_run (convertible real), fun unreal => run_error_iff.mpr (told unreal)⟩

def utc : Zone := fun _ => 0

/-- The 30th of February is taken for the 2nd of March. -/
theorem february_accepted :
    ClauseBuilder.log.run (date utc) (ascii "2023-02-30 10:00:00") [] =
      .ok (ascii "start_time < '1677751200'") ∧
    ¬ DatesExact utc .log (ascii "2023-02-30 10:00:00") [] := by
  have ran : ClauseBuilder.log.run (date utc) (ascii "2023-02-30 10:00:00") [] =
      .ok (ascii "start_time < '1677751200'") := by decide +kernel
  have read : SixNumbers (ascii "2023-02-30 10:00:00") ⟨2023, 2, 30, 10, 0, 0⟩ :=
    (dateTime_iff [] _ _).mp rfl
  have unreal : ∀ civil, ¬ RealDateTime (ascii "2023-02-30 10:00:00") civil := by
    intro civil real
    obtain ⟨rfl, _⟩ := (real_sixNumbers real).mp read
    exact absurd real.2.day.2 (by decide)
  refine ⟨ran, fun exact => ?_⟩
  obtain ⟨message, refused⟩ := exact.refused ⟨_, List.mem_cons_self, unreal⟩
  rw [ran] at refused
  cases refused

end Nhi
