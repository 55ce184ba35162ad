import Nhi.Fetch
import Nhi.Filters
import Nhi.Gets
import Nhi.SessionQuery
import Nhi.SqlLiterals

/-!
pkg/fetch/fetch.go: the where clause that `getWhere` writes, and `Fetch` with its
arguments as texts. A given exit status takes the place of the range.
-/

namespace Nhi

open RowidTable
open Sql (ascii Comparator Phrase Numeral Tail joined)

def rangeWhere (sliceStartEndRange : Text × Text) (startRangeInt endRangeInt billion : Int)
    (indicator : Text) : Text :=
  let (start, stop) := sliceStartEndRange
  if startRangeInt < billion ∧ endRangeInt < billion then
    if startRangeInt < 0 ∧ endRangeInt < 0 then
      ascii "rowid >= (SELECT max(rowid)+" ++ start ++ ascii " FROM `" ++ indicator ++
        ascii "`) AND rowid < (SELECT max(rowid)+" ++ stop ++ ascii " FROM `" ++ indicator ++ ascii "`)"
    else if startRangeInt < 0 then
      ascii "rowid >= (SELECT max(rowid)+" ++ start ++ ascii " FROM `" ++ indicator ++
        ascii "`) AND rowid <= " ++ stop
    else if endRangeInt < 0 then
      ascii "rowid > " ++ start ++ ascii " AND rowid < (SELECT max(rowid)+" ++ stop ++
        ascii " FROM `" ++ indicator ++ ascii "`)"
    else ascii "rowid > " ++ start ++ ascii " AND rowid <= " ++ stop
  else if startRangeInt < billion then
    if startRangeInt < 0 then
      ascii "rowid >= (SELECT max(rowid)+" ++ start ++ ascii " FROM `" ++ indicator ++
        ascii "`) AND indicator <= " ++ stop
    else ascii "rowid > " ++ start ++ ascii " AND indicator <= " ++ stop
  else if endRangeInt < billion then
    if endRangeInt < 0 then
      ascii "indicator >= " ++ start ++ ascii " AND rowid < (SELECT max(rowid)+" ++ stop ++
        ascii " FROM `" ++ indicator ++ ascii "`)"
    else ascii "indicator >= " ++ start ++ ascii " AND rowid <= " ++ stop
  else ascii "indicator >= " ++ start ++ ascii " AND indicator <= " ++ stop

def getWhere (localTime : LocalTime) (sliceStartEndRange : Text × Text)
    (startRangeInt endRangeInt billion : Int)
    (indicator exitStatus directory before after : Text) : Except Text Text := do
  let clause := rangeWhere sliceStartEndRange startRangeInt endRangeInt billion indicator
  let clause := if exitStatus ≠ [] then exitStatusCondition exitStatus else clause
  let clause := if directory ≠ [] then clause ++ ascii " AND " ++ directoryCondition directory else clause
  let clause ←
    if before ≠ [] then do
      let civil ← dateTime (ascii "before") before
      pure (clause ++ ascii " AND " ++ beforeCondition (localTime civil))
    else pure clause
  if after ≠ [] then do
    let civil ← dateTime (ascii "after") after
    return clause ++ ascii " AND " ++ afterCondition (localTime civil)
  else return clause

def fetchQuery (indicator clause : Text) : Text :=
  ascii "SELECT PS1, command, output FROM `" ++ indicator ++ ascii "` WHERE " ++ clause ++ ascii ";"

def fetchColumns : List Text := [ascii "ps1", ascii "command", ascii "output"]

structure FetchRequest where
  startEndRange : Text
  exitStatus : Text
  directory : Text
  before : Text
  after : Text

/-- The query of a request, or the error it ends with. -/
def requestQuery (localTime : LocalTime) (indicator : Text) (request : FetchRequest) : Except Text Text := do
  let sliceStartEndRange ← getSliceStartEndRange request.startEndRange billion
  let (startRangeInt, endRangeInt) ← getStartAndEndRangeInt sliceStartEndRange
  let clause ← getWhere localTime sliceStartEndRange startRangeInt endRangeInt billion indicator
    request.exitStatus request.directory request.before request.after
  return fetchQuery indicator clause

/-- `Fetch` with its arguments as texts. What SQLite does with a text that is not
a plain query is left open. -/
def fetchRequest (platform : Platform) (localTime : LocalTime)
    (unread : Text → Except Text (List SelectedRow)) (nested : Text → Fetched) (options : Options)
    (db : RowidDatabase) (indicator : Text) (request : FetchRequest) : Except Text Fetched := do
  let text ← requestQuery localTime indicator request
  match selectSession db fetchColumns text with
  | .rows rows => return printRows platform nested options (rows.map fun entry => entry.2.selected)
  | .noSuchTable => .error (ascii "no such shell session: " ++ indicator)
  | .unread => (unread text).map (printRows platform nested options)

/-! The clause as phrases. -/
section Phrases

variable (indicator : Long)

def highestOf (numeral : Numeral) : Sql.Right :=
  numeral.highest (decimal_noQuote indicator) (decimal_noNul indicator)

def startPhrase (numeral : Numeral) : Phrase :=
  if numeral.value < 0 then rowidFrom.phrase (highestOf indicator numeral)
  else if numeral.value < billion then rowidAbove.phrase numeral.right
  else indicatorFrom.phrase numeral.right

def stopPhrase (numeral : Numeral) : Phrase :=
  if numeral.value < 0 then rowidBelow.phrase (highestOf indicator numeral)
  else if numeral.value < billion then rowidUpTo.phrase numeral.right
  else indicatorUpTo.phrase numeral.right

/-- The nine shapes of a range are one condition for each endpoint. -/
theorem rangeWhere_phrases (start stop : Numeral) :
    rangeWhere (start.text, stop.text) start.value stop.value billion (decimal indicator) =
      Sql.conjoin [startPhrase indicator start, stopPhrase indicator stop] := by
  have value : billion = 1000000000 := rfl
  rw [rangeWhere, startPhrase, stopPhrase]
  split_ifs
  all_goals first
    | omega
    | (simp only [Sql.conjoin, Comparator.phrase, highestOf, Numeral.highest, Numeral.right,
        List.append_assoc]
       rfl)

/-- A date that is left out, or one that is written as it has to be. -/
inductive Moment (label : Text) : Text → Option Civil → Prop where
  | omitted : Moment label [] none
  | given (argument : Text) (civil : Civil) : argument ≠ [] → dateTime label argument = .ok civil →
      Moment label argument (some civil)

def filterConditions (localTime : LocalTime) (exitStatus directory : Text) (latest earliest : Option Civil) :
    List Text :=
  (if exitStatus = [] then [] else [exitStatusCondition exitStatus]) ++
  (if directory = [] then [] else [directoryCondition directory]) ++
  (latest.map fun civil => beforeCondition (localTime civil)).toList ++
  (earliest.map fun civil => afterCondition (localTime civil)).toList

def clausePhrases (localTime : LocalTime) (range : List Phrase) {exitStatus directory : Text}
    (plainExit : Plain exitStatus) (plainDirectory : Plain directory) (before after : Option Civil) :
    List Phrase :=
  (if exitStatus = [] then range else [exitPhrase exitStatus plainExit]) ++
  (if directory = [] then [] else [directoryPhrase directory plainDirectory]) ++
  (before.map fun civil => beforePhrase (localTime civil)).toList ++
  (after.map fun civil => afterPhrase (localTime civil)).toList

/-- The phrases one by one; the range gives way to an exit status. -/
theorem clausePhrases_map {α : Type} (localTime : LocalTime) {exitStatus directory : Text}
    (plainExit : Plain exitStatus) (plainDirectory : Plain directory) (latest earliest : Option Civil)
    (use : Phrase → α) (range : List Phrase) :
    (clausePhrases localTime range plainExit plainDirectory latest earliest).map use =
      (if exitStatus = [] then range.map use else []) ++
        ((if exitStatus = [] then [] else [use (exitPhrase exitStatus plainExit)]) ++
          (if directory = [] then [] else [use (directoryPhrase directory plainDirectory)]) ++
          (latest.map fun civil => use (beforePhrase (localTime civil))).toList ++
          (earliest.map fun civil => use (afterPhrase (localTime civil))).toList) := by
  have befores : (latest.map fun civil => beforePhrase (localTime civil)).toList.map use =
      (latest.map fun civil => use (beforePhrase (localTime civil))).toList := by cases latest <;> rfl
  have afters : (earliest.map fun civil => afterPhrase (localTime civil)).toList.map use =
      (earliest.map fun civil => use (afterPhrase (localTime civil))).toList := by cases earliest <;> rfl
  have directories : (if directory = [] then [] else [directoryPhrase directory plainDirectory]).map use =
      if directory = [] then [] else [use (directoryPhrase directory plainDirectory)] := by split <;> rfl
  have exits : (if exitStatus = [] then range else [exitPhrase exitStatus plainExit]).map use =
      (if exitStatus = [] then range.map use else []) ++
        if exitStatus = [] then [] else [use (exitPhrase exitStatus plainExit)] := by
    split
    · exact (List.append_nil _).symm
    · rfl
  rw [clausePhrases, List.map_append, List.map_append, List.map_append, befores, afters, directories, exits]
  simp only [List.append_assoc]

theorem clausePhrases_texts (localTime : LocalTime) {exitStatus directory : Text} (plainExit : Plain exitStatus)
    (plainDirectory : Plain directory) (latest earliest : Option Civil) (range : List Phrase) :
    (clausePhrases localTime range plainExit plainDirectory latest earliest).map Phrase.text =
      (if exitStatus = [] then range.map Phrase.text else []) ++
        filterConditions localTime exitStatus directory latest earliest := by
  rw [clausePhrases_map, exitPhrase_text]
  rfl

def momentOf (label argument : Text) : Except Text (Option Civil) :=
  if argument = [] then .ok none else (dateTime label argument).map some

theorem dates_joined (localTime : LocalTime) (put : Text → Text → Text)
    (clauses : Option Civil → Option Civil → Text)
    (befores : ∀ civil, put (clauses none none) (beforeCondition (localTime civil)) = clauses (some civil) none)
    (afters : ∀ latest civil,
      put (clauses latest none) (afterCondition (localTime civil)) = clauses latest (some civil))
    (before after : Text) :
    (do
      let clause ←
        if before ≠ [] then do
          let civil ← dateTime (ascii "before") before
          pure (put (clauses none none) (beforeCondition (localTime civil)))
        else pure (clauses none none)
      if after ≠ [] then do
        let civil ← dateTime (ascii "after") after
        return put clause (afterCondition (localTime civil))
      else return clause : Except Text Text) = (do
      let latest ← momentOf (ascii "before") before
      let earliest ← momentOf (ascii "after") after
      return clauses latest earliest) := by
  have last (latest : Option Civil) :
      (if after ≠ [] then do
          let civil ← dateTime (ascii "after") after
          return put (clauses latest none) (afterCondition (localTime civil))
        else return clauses latest none : Except Text Text) = (do
      let earliest ← momentOf (ascii "after") after
      return clauses latest earliest) := by
    rw [momentOf]
    by_cases omitted : after = []
    · rw [if_neg (not_not.mpr omitted), if_pos omitted]
      rfl
    · rw [if_pos omitted, if_neg omitted]
      cases dateTime (ascii "after") after with
      | error message => rfl
      | ok civil => exact congrArg Except.ok (afters latest civil)
  rw [momentOf]
  by_cases omitted : before = []
  · rw [if_neg (not_not.mpr omitted), if_pos omitted]
    exact last none
  · rw [if_pos omitted, if_neg omitted]
    cases dateTime (ascii "before") before with
    | error message => rfl
    | ok civil =>
        simp only [bind, Except.bind, pure, Except.pure, Except.map, befores]
        exact last (some civil)

theorem Moment.read {label argument : Text} {time : Option Civil} (moment : Moment label argument time) :
    momentOf label argument = .ok time := by
  cases moment with
  | omitted => rfl
  | given argument civil given written =>
      rw [momentOf, if_neg given, written]
      rfl

def rangeTexts (indicator : Long) (low high : Numeral) (exitStatus : Text) : List Text :=
  if exitStatus = [] then [startPhrase indicator low, stopPhrase indicator high].map Phrase.text else []

theorem getWhere_joined (low high : Numeral) (localTime : LocalTime) (exitStatus directory before after : Text) :
    getWhere localTime (low.text, high.text) low.value high.value billion (decimal indicator) exitStatus
      directory before after = (do
      let latest ← momentOf (ascii "before") before
      let earliest ← momentOf (ascii "after") after
      return joined (rangeTexts indicator low high exitStatus ++
        filterConditions localTime exitStatus directory latest earliest)) := by
  have nonempty (directory : Text) (latest earliest : Option Civil) :
      rangeTexts indicator low high exitStatus ++
        filterConditions localTime exitStatus directory latest earliest ≠ [] := by
    by_cases omitted : exitStatus = [] <;> simp [rangeTexts, filterConditions, omitted]
  have begun : (if exitStatus ≠ [] then exitStatusCondition exitStatus
      else rangeWhere (low.text, high.text) low.value high.value billion (decimal indicator)) =
        joined (rangeTexts indicator low high exitStatus ++
          filterConditions localTime exitStatus [] none none) := by
    by_cases omitted : exitStatus = []
    · rw [if_neg (not_not.mpr omitted), rangeWhere_phrases, ← Sql.joined_phrases, rangeTexts, if_pos omitted]
      simp [filterConditions, omitted]
    · rw [if_pos omitted, rangeTexts, if_neg omitted]
      simp [filterConditions, omitted, joined]
  -- the directory comes behind either of the two
  have placed : (if directory ≠ [] then joined (rangeTexts indicator low high exitStatus ++
        filterConditions localTime exitStatus [] none none) ++ ascii " AND " ++ directoryCondition directory
      else joined (rangeTexts indicator low high exitStatus ++
        filterConditions localTime exitStatus [] none none)) =
        joined (rangeTexts indicator low high exitStatus ++
          filterConditions localTime exitStatus directory none none) := by
    by_cases omitted : directory = []
    · rw [if_neg (not_not.mpr omitted), omitted]
    · rw [if_pos omitted, ← Sql.joined_concat (nonempty _ _ _)]
      simp [filterConditions, omitted]
  rw [← dates_joined localTime (fun clause condition => clause ++ ascii " AND " ++ condition)
    fun latest earliest => joined (rangeTexts indicator low high exitStatus ++
      filterConditions localTime exitStatus directory latest earliest)]
  · simp only [getWhere, begun, placed]
  · intro civil
    rw [← Sql.joined_concat (nonempty _ _ _)]
    simp [filterConditions]
  · intro latest civil
    rw [← Sql.joined_concat (nonempty _ _ _)]
    simp [filterConditions]

theorem getWhere_phrases (localTime : LocalTime) (start stop : Numeral) {exitStatus directory : Text}
    (plainExit : Plain exitStatus) (plainDirectory : Plain directory) {before after : Text}
    {earliest latest : Option Civil} (untilThen : Moment (ascii "before") before latest)
    (since : Moment (ascii "after") after earliest) :
    getWhere localTime (start.text, stop.text) start.value stop.value billion (decimal indicator)
        exitStatus directory before after =
      .ok (Sql.conjoin (clausePhrases localTime [startPhrase indicator start, stopPhrase indicator stop]
        plainExit plainDirectory latest earliest)) := by
  rw [getWhere_joined, untilThen.read, since.read, ← Sql.joined_phrases, clausePhrases_texts]
  rfl

theorem fetchQuery_select {phrases : List Phrase} (nonempty : phrases ≠ []) :
    Sql.parseText (fetchQuery (decimal indicator) (Sql.conjoin phrases)) =
      some (.select ⟨fetchColumns, decimal indicator, phrases.map Phrase.comparison, false, none⟩) := by
  have text : fetchQuery (decimal indicator) (Sql.conjoin phrases) =
      ascii "SELECT PS1, command, output FROM `" ++ decimal indicator ++ ascii "`" ++
        Sql.whereText phrases ++ Tail.plain.text := by
    have space : ascii "` WHERE " = ascii "`" ++ ascii " WHERE " := rfl
    rw [fetchQuery, Sql.whereText, if_neg nonempty, space]
    simp only [List.append_assoc]
    rfl
  rw [text]
  exact Sql.parseText_select (by simp [fetchColumns]) rfl (decimal_noQuote indicator)
    (decimal_noNul indicator) phrases Tail.plain

theorem requestQuery_phrases (localTime : LocalTime) {bound : Int} {start stop : Text}
    {startValue stopValue : Option Int} (starts : Endpoint bound start startValue)
    (stops : Endpoint bound stop stopValue) (braced : Bool) {exitStatus directory : Text}
    (plainExit : Plain exitStatus) (plainDirectory : Plain directory) {before after : Text}
    {earliest latest : Option Civil} (untilThen : Moment (ascii "before") before latest)
    (since : Moment (ascii "after") after earliest) :
    ∃ low high : Numeral, low.value = startValue.getD 0 ∧ high.value = stopValue.getD (billion - 1) ∧
      requestQuery localTime (decimal indicator)
          ⟨rangeText braced start stop, exitStatus, directory, before, after⟩ =
        .ok (fetchQuery (decimal indicator) (Sql.conjoin (clausePhrases localTime
          [startPhrase indicator low, stopPhrase indicator high] plainExit plainDirectory latest earliest))) := by
  have zero : Sql.Spelled (ascii "0") 0 :=
    .plain (ascii "0") (by decide) (by decide) (by decide)
  obtain ⟨low, lowText, lowRead, lowValue⟩ := starts.numeral zero
  obtain ⟨high, highText, highRead, highValue⟩ := stops.numeral billion_spelled
  refine ⟨low, high, lowValue, highValue, ?_⟩
  have range : getSliceStartEndRange (rangeText braced start stop) billion = .ok (low.text, high.text) := by
    rw [slice_rangeText starts stops, lowText, highText]
  have integers : getStartAndEndRangeInt (low.text, high.text) = .ok (low.value, high.value) := by
    simp only [getStartAndEndRangeInt, lowRead, highRead]
  have clause := getWhere_phrases indicator localTime low high plainExit plainDirectory untilThen since
  simp only [requestQuery, range, integers, bind, Except.bind, clause]
  rfl

end Phrases

/-! The rows such a query selects. -/
section Selection

variable {db : RowidDatabase} {indicator : Long} {table : List (Nat × Row)}

theorem selectSession_ordered (found : db.table indicator = some table) {columns : List Text}
    {text : Text} {conditions : List Sql.Comparison} {descending : Bool}
    (read : Sql.parseText text = some (.select ⟨columns, decimal indicator, conditions, descending, none⟩))
    (known : columns.all fun column => (Sql.columnOf sessionSchema column).isSome)
    {test : Nat → Row → Bool} (tested : Sql.conditionTest sessionSchema db.rowids conditions = some test) :
    selectSession db columns text =
      .rows (if descending then (Sql.matching test table).reverse else Sql.matching test table) := by
  simp [selectSession, read, RowidDatabase.decimal_not_meta, RowidDatabase.tableNamed_decimal, found,
    Sql.Select.rows, known, tested]

theorem selectSession_matching (found : db.table indicator = some table) {columns : List Text}
    {text : Text} {conditions : List Sql.Comparison}
    (read : Sql.parseText text = some (.select ⟨columns, decimal indicator, conditions, false, none⟩))
    (known : columns.all fun column => (Sql.columnOf sessionSchema column).isSome)
    {test : Nat → Row → Bool} (tested : Sql.conditionTest sessionSchema db.rowids conditions = some test) :
    selectSession db columns text = .rows (Sql.matching test table) :=
  selectSession_ordered found read known tested

def startTest (highest : Option Nat) (value : Int) (rowid : Nat) (row : Row) : Bool :=
  if value < 0 then highest.any fun most => most + value ≤ rowid
  else if value < billion then value < rowid
  else row.indicator.any fun indicator => value ≤ indicator.toInt

def stopTest (highest : Option Nat) (value : Int) (rowid : Nat) (row : Row) : Bool :=
  if value < 0 then highest.any fun most => rowid < most + value
  else if value < billion then rowid ≤ value
  else row.indicator.any fun indicator => indicator.toInt ≤ value

def highestRowid (table : List (Nat × Row)) : Option Nat := (table.map Prod.fst).max?

theorem highest_value (found : db.table indicator = some table) (offset : Int) :
    Sql.Operand.value db.rowids (.highest offset (decimal indicator)) =
      some ((((highestRowid table).map fun (most : Nat) => most + offset).map Sql.Value.integer).getD .null) := by
  rw [Sql.Operand.value, RowidDatabase.rowids_decimal, found, Option.map_some, Option.map_some, highestRowid]
  cases (table.map Prod.fst).max? <;> rfl

theorem indicator_column :
    Sql.columnOf sessionSchema (ascii "indicator") =
      some ⟨.integer, fun _ row => longValue row.indicator⟩ := rfl

theorem startPhrase_test (found : db.table indicator = some table) (numeral : Numeral) :
    (startPhrase indicator numeral).comparison.test sessionSchema db.rowids =
      some (startTest (highestRowid table) numeral.value) := by
  have plain : Sql.Operand.value db.rowids (.integer numeral.value) =
      some (((some numeral.value).map Sql.Value.integer).getD .null) := rfl
  rw [startPhrase]
  split_ifs with negative small
  · refine (test_place (highest_value found numeral.value)).trans ?_
    congr 1
    funext rowid row
    rw [startTest, if_pos negative]
    cases highestRowid table <;> rfl
  · refine (test_place plain).trans ?_
    congr 1
    funext rowid row
    rw [startTest, if_neg negative, if_pos small]
    rfl
  · refine (test_long indicator_column rfl).trans ?_
    congr 1
    funext rowid row
    rw [startTest, if_neg negative, if_neg small]
    rfl

theorem stopPhrase_test (found : db.table indicator = some table) (numeral : Numeral) :
    (stopPhrase indicator numeral).comparison.test sessionSchema db.rowids =
      some (stopTest (highestRowid table) numeral.value) := by
  have plain : Sql.Operand.value db.rowids (.integer numeral.value) =
      some (((some numeral.value).map Sql.Value.integer).getD .null) := rfl
  rw [stopPhrase]
  split_ifs with negative small
  · refine (test_place (highest_value found numeral.value)).trans ?_
    congr 1
    funext rowid row
    rw [stopTest, if_pos negative]
    cases highestRowid table <;> rfl
  · refine (test_place plain).trans ?_
    congr 1
    funext rowid row
    rw [stopTest, if_neg negative, if_pos small]
    rfl
  · refine (test_long indicator_column rfl).trans ?_
    congr 1
    funext rowid row
    rw [stopTest, if_neg negative, if_neg small]
    rfl

def rangeTest (table : List (Nat × Row)) (startValue stopValue : Option Int) (rowid : Nat)
    (row : Row) : Bool :=
  startTest (highestRowid table) (startValue.getD 0) rowid row &&
    stopTest (highestRowid table) (stopValue.getD (billion - 1)) rowid row

theorem rangeConditions_test (found : db.table indicator = some table) {low high : Numeral}
    {startValue stopValue : Option Int} (lowValue : low.value = startValue.getD 0)
    (highValue : high.value = stopValue.getD (billion - 1)) :
    Sql.conditionTest sessionSchema db.rowids
        ([startPhrase indicator low, stopPhrase indicator high].map Phrase.comparison) =
      some (rangeTest table startValue stopValue) := by
  have one := Sql.conditionTest_singleton (startPhrase_test found low)
  have two := Sql.conditionTest_singleton (stopPhrase_test found high)
  rw [lowValue] at one
  rw [highValue] at two
  exact Sql.conditionTest_append one two

theorem requestQuery_range (localTime : LocalTime) (found : db.table indicator = some table)
    {bound : Int} {start stop : Text} {startValue stopValue : Option Int}
    (starts : Endpoint bound start startValue) (stops : Endpoint bound stop stopValue) (braced : Bool) :
    ∃ text,
      requestQuery localTime (decimal indicator) ⟨rangeText braced start stop, [], [], [], []⟩ = .ok text ∧
      selectSession db fetchColumns text =
        .rows (Sql.matching (rangeTest table startValue stopValue) table) := by
  have unfiltered : Plain [] := ⟨List.not_mem_nil, List.not_mem_nil⟩
  obtain ⟨low, high, lowValue, highValue, text⟩ := requestQuery_phrases indicator localTime starts stops
    braced unfiltered unfiltered (.omitted : Moment (ascii "before") [] none) .omitted
  have read := fetchQuery_select indicator
    (List.cons_ne_nil (startPhrase indicator low) [stopPhrase indicator high])
  exact ⟨_, text, selectSession_matching found read rfl (rangeConditions_test found lowValue highValue)⟩

end Selection

end Nhi
