import Nhi.FetchDepth
import Nhi.FetchWhere
import Nhi.FilterTests

/-!
The filters of `fetch` narrow each other and the range, but for the exit status,
which takes the place of the range.
-/

namespace Nhi

open RowidTable
open Sql (ascii Phrase)

section Statement

variable (localTime : LocalTime) (db : RowidDatabase) (indicator : Long)

def Selects (request : FetchRequest) (entry : Nat × Row) : Prop :=
  ∃ text rows, requestQuery localTime (decimal indicator) request = .ok text ∧
    selectSession db fetchColumns text = .rows rows ∧ entry ∈ rows

def SelectedBy (condition : Text) (entry : Nat × Row) : Prop :=
  ∃ rows, selectSession db fetchColumns (fetchQuery (decimal indicator) condition) = .rows rows ∧
    entry ∈ rows

/-- A request with some of the filters of another left out. -/
structure Fewer (part whole : FetchRequest) : Prop where
  startEndRange : part.startEndRange = whole.startEndRange
  exitStatus : part.exitStatus = [] ∨ part.exitStatus = whole.exitStatus
  directory : part.directory = [] ∨ part.directory = whole.directory
  before : part.before = [] ∨ part.before = whole.before
  after : part.after = [] ∨ part.after = whole.after

structure Conjunctive (request : FetchRequest) (conditions : List Text) : Prop where
  intersection : ∀ entry, Selects localTime db indicator request entry ↔
    Selects localTime db indicator ⟨request.startEndRange, [], [], [], []⟩ entry ∧
      ∀ condition ∈ conditions, SelectedBy db indicator condition entry
  narrowed : ∀ part, Fewer part request → ∀ entry, Selects localTime db indicator request entry →
    Selects localTime db indicator part entry

end Statement

section Selected

variable {localTime : LocalTime} {db : RowidDatabase} {indicator : Long} {table : List (Nat × Row)}

def meetsFilters (exitStatus directory : Text) (latest earliest : Option Long) (row : Row) : Bool :=
  exitTest exitStatus row && directoryTest directory row && beforeTest latest row &&
    afterTest earliest row

theorem clausePhrases_meet (localTime : LocalTime) (db : RowidDatabase) {range : List Phrase}
    {ranged : Nat → Row → Bool}
    (tested : Sql.conditionTest sessionSchema db.rowids (range.map Phrase.comparison) = some ranged)
    {exitStatus directory : Text} (plainExit : Plain exitStatus) (plainDirectory : Plain directory)
    (latest earliest : Option Civil) :
    Sql.conditionTest sessionSchema db.rowids ((clausePhrases localTime range plainExit plainDirectory latest
          earliest).map Phrase.comparison) =
      some fun rowid row => (exitStatus ≠ [] || ranged rowid row) &&
        meetsFilters exitStatus directory (latest.map localTime) (earliest.map localTime) row := by
  have exits : Sql.conditionTest sessionSchema db.rowids ((if exitStatus = [] then range
        else [exitPhrase exitStatus plainExit]).map Phrase.comparison) =
      some fun rowid row => (exitStatus ≠ [] || ranged rowid row) && exitTest exitStatus row := by
    split
    · rename_i omitted
      rw [tested]
      simp [omitted, exitTest]
    · rename_i given
      refine (Sql.conditionTest_singleton (exitPhrase_test plainExit given)).trans ?_
      simp [given]
  have directories : Sql.conditionTest sessionSchema db.rowids ((if directory = [] then []
      else [directoryPhrase directory plainDirectory]).map Phrase.comparison) =
        some fun _ row => directoryTest directory row := by
    split
    · rename_i omitted
      simp [omitted, directoryTest, Sql.conditionTest]
    · rename_i given
      exact Sql.conditionTest_singleton (directoryPhrase_test plainDirectory given)
  have befores : Sql.conditionTest sessionSchema db.rowids
      ((latest.map fun civil => beforePhrase (localTime civil)).toList.map Phrase.comparison) =
        some fun _ row => beforeTest (latest.map localTime) row := by
    cases latest with
    | none => rfl
    | some civil => exact Sql.conditionTest_singleton (beforePhrase_test (localTime civil))
  have afters : Sql.conditionTest sessionSchema db.rowids
      ((earliest.map fun civil => afterPhrase (localTime civil)).toList.map Phrase.comparison) =
        some fun _ row => afterTest (earliest.map localTime) row := by
    cases earliest with
    | none => rfl
    | some civil => exact Sql.conditionTest_singleton (afterPhrase_test (localTime civil))
  have whole := Sql.conditionTest_append (Sql.conditionTest_append
    (Sql.conditionTest_append exits directories) befores) afters
  rw [clausePhrases, List.map_append, List.map_append, List.map_append, whole]
  simp only [meetsFilters, Bool.and_assoc]

theorem clausePhrases_test (found : db.table indicator = some table) {low high : Sql.Numeral}
    {startValue stopValue : Option Int} (lowValue : low.value = startValue.getD 0)
    (highValue : high.value = stopValue.getD (billion - 1)) {exitStatus directory : Text}
    (plainExit : Plain exitStatus) (plainDirectory : Plain directory) (latest earliest : Option Civil) :
    Sql.conditionTest sessionSchema db.rowids ((clausePhrases localTime
        [startPhrase indicator low, stopPhrase indicator high] plainExit plainDirectory latest
          earliest).map Phrase.comparison) =
      some fun rowid row => (exitStatus ≠ [] || rangeTest table startValue stopValue rowid row) &&
        meetsFilters exitStatus directory (latest.map localTime) (earliest.map localTime) row :=
  clausePhrases_meet localTime db (rangeConditions_test found lowValue highValue) plainExit plainDirectory latest
    earliest

variable {bound : Int} {start stop : Text} {startValue stopValue : Option Int}
  {exitStatus directory before after : Text} {latest earliest : Option Civil}

theorem clausePhrases_nonempty (localTime : LocalTime) {range : List Phrase} (more : range ≠ [])
    (plainExit : Plain exitStatus) (plainDirectory : Plain directory) (latest earliest : Option Civil) :
    clausePhrases localTime range plainExit plainDirectory latest earliest ≠ [] := by
  have head : (if exitStatus = [] then range else [exitPhrase exitStatus plainExit]) ≠ [] := by
    split
    · exact more
    · exact List.cons_ne_nil _ _
  exact List.append_ne_nil_of_left_ne_nil (List.append_ne_nil_of_left_ne_nil
    (List.append_ne_nil_of_left_ne_nil head _) _) _

theorem request_rows (localTime : LocalTime) (found : db.table indicator = some table)
    (starts : Endpoint bound start startValue) (stops : Endpoint bound stop stopValue) (braced : Bool)
    (plainExit : Plain exitStatus) (plainDirectory : Plain directory)
    (untilThen : Moment (ascii "before") before latest) (since : Moment (ascii "after") after earliest) :
    ∃ text, requestQuery localTime (decimal indicator)
        ⟨rangeText braced start stop, exitStatus, directory, before, after⟩ = .ok text ∧
      selectSession db fetchColumns text = .rows (Sql.matching (fun rowid row =>
        (exitStatus ≠ [] || rangeTest table startValue stopValue rowid row) &&
          meetsFilters exitStatus directory (latest.map localTime) (earliest.map localTime) row) table) := by
  obtain ⟨low, high, lowValue, highValue, text⟩ := requestQuery_phrases indicator localTime starts stops
    braced plainExit plainDirectory untilThen since
  have read := fetchQuery_select indicator (clausePhrases_nonempty localTime
    (List.cons_ne_nil (startPhrase indicator low) [stopPhrase indicator high]) plainExit plainDirectory latest
      earliest)
  exact ⟨_, text, selectSession_matching found read rfl
    (clausePhrases_test found lowValue highValue plainExit plainDirectory latest earliest)⟩

theorem selects_iff {request : FetchRequest} {text : Text} {test : Nat → Row → Bool}
    (written : requestQuery localTime (decimal indicator) request = .ok text)
    (selected : selectSession db fetchColumns text = .rows (Sql.matching test table))
    (entry : Nat × Row) :
    Selects localTime db indicator request entry ↔ entry ∈ table ∧ test entry.1 entry.2 = true := by
  constructor
  · rintro ⟨other, rows, also, answer, member⟩
    obtain rfl := Except.ok.inj (written.symm.trans also)
    obtain rfl := Answer.rows.inj (selected.symm.trans answer)
    exact List.mem_filter.mp member
  · exact fun member => ⟨text, _, written, selected, List.mem_filter.mpr member⟩

theorem selectedBy_iff (found : db.table indicator = some table) (phrase : Phrase)
    {test : Nat → Row → Bool} (tested : phrase.comparison.test sessionSchema db.rowids = some test)
    (entry : Nat × Row) :
    SelectedBy db indicator phrase.text entry ↔ entry ∈ table ∧ test entry.1 entry.2 = true := by
  have read := fetchQuery_select indicator (List.cons_ne_nil phrase [])
  have selected := selectSession_matching found read rfl (Sql.conditionTest_singleton tested)
  constructor
  · rintro ⟨rows, answer, member⟩
    obtain rfl := Answer.rows.inj (selected.symm.trans answer)
    exact List.mem_filter.mp member
  · exact fun member => ⟨_, selected, List.mem_filter.mpr member⟩

theorem filterConditions_iff (found : db.table indicator = some table) (plainExit : Plain exitStatus)
    (plainDirectory : Plain directory) (latest earliest : Option Civil) {entry : Nat × Row}
    (member : entry ∈ table) :
    (∀ condition ∈ filterConditions localTime exitStatus directory latest earliest,
        SelectedBy db indicator condition entry) ↔
      meetsFilters exitStatus directory (latest.map localTime) (earliest.map localTime) entry.2 = true := by
  have exits : (∀ condition ∈ if exitStatus = [] then [] else [exitStatusCondition exitStatus],
      SelectedBy db indicator condition entry) ↔ exitTest exitStatus entry.2 = true := by
    split
    · rename_i omitted
      simp [exitTest, omitted]
    · rename_i given
      rw [List.forall_mem_singleton, ← exitPhrase_text exitStatus plainExit,
        selectedBy_iff found _ (exitPhrase_test plainExit given)]
      exact and_iff_right member
  have directories : (∀ condition ∈ if directory = [] then [] else [directoryCondition directory],
      SelectedBy db indicator condition entry) ↔ directoryTest directory entry.2 = true := by
    split
    · rename_i omitted
      simp [directoryTest, omitted]
    · rename_i given
      rw [List.forall_mem_singleton, ← directoryPhrase_text directory plainDirectory,
        selectedBy_iff found _ (directoryPhrase_test plainDirectory given)]
      exact and_iff_right member
  have befores : (∀ condition ∈ (latest.map fun civil => beforeCondition (localTime civil)).toList,
      SelectedBy db indicator condition entry) ↔ beforeTest (latest.map localTime) entry.2 = true := by
    cases latest with
    | none => simp [beforeTest]
    | some civil =>
        rw [Option.map_some, Option.toList_some, List.forall_mem_singleton, ← beforePhrase_text,
          selectedBy_iff found _ (beforePhrase_test (localTime civil))]
        exact and_iff_right member
  have afters : (∀ condition ∈ (earliest.map fun civil => afterCondition (localTime civil)).toList,
      SelectedBy db indicator condition entry) ↔ afterTest (earliest.map localTime) entry.2 = true := by
    cases earliest with
    | none => simp [afterTest]
    | some civil =>
        rw [Option.map_some, Option.toList_some, List.forall_mem_singleton, ← afterPhrase_text,
          selectedBy_iff found _ (afterPhrase_test (localTime civil))]
        exact and_iff_right member
  rw [filterConditions, List.forall_mem_append, List.forall_mem_append, List.forall_mem_append, exits,
    directories, befores, afters]
  simp only [meetsFilters, Bool.and_eq_true]

end Selected

/-! Requests are calls of `fetch`, whose condition is a test of the rows. -/
section Calls

variable (platform : Platform) (localTime : LocalTime) (unread : Text → Except Text (List SelectedRow))
  (options : Options) (depth : Nat) {db : Database} {indicator : Long} {rows : List Row}

theorem fetchRequest_fetch (found : db.rows indicator = some rows) {bound : Int} {start stop : Text}
    {startValue stopValue : Option Int} (starts : Endpoint bound start startValue)
    (stops : Endpoint bound stop stopValue) (braced : Bool) {exitStatus directory before after : Text}
    (plainExit : Plain exitStatus) (plainDirectory : Plain directory) {latest earliest : Option Civil}
    (untilThen : Moment (ascii "before") before latest) (since : Moment (ascii "after") after earliest) :
    fetchRequest platform localTime unread (nestedFetch platform db depth options) options db.numbered
        (decimal indicator) ⟨rangeText braced start stop, exitStatus, directory, before, after⟩ =
      .ok (fetch platform db (depth + 1) (decimal indicator) (fun rowid row =>
        (exitStatus ≠ [] || rangeTest (number rows) startValue stopValue rowid row) &&
          meetsFilters exitStatus directory (latest.map localTime) (earliest.map localTime) row) options) := by
  have table : db.numbered.table indicator = some (number rows) := by rw [numbered_table, found, Option.map_some]
  obtain ⟨text, written, selected⟩ := request_rows localTime table starts stops braced plainExit plainDirectory
    untilThen since
  have answer := query_decimal platform db indicator fun rowid row =>
    (exitStatus ≠ [] || rangeTest (number rows) startValue stopValue rowid row) &&
      meetsFilters exitStatus directory (latest.map localTime) (earliest.map localTime) row
  rw [found, Option.map_some] at answer
  rw [fetch_selected answer]
  simp only [fetchRequest, written, selected, bind, Except.bind, pure, Except.pure]
  rfl

/-- The call for a link is that of the range `:` without filters. -/
theorem fetchRequest_whole (found : db.rows indicator = some rows) :
    fetchRequest platform localTime unread (nestedFetch platform db depth options) options db.numbered
        (decimal indicator) ⟨ascii ":", [], [], [], []⟩ =
      .ok (fetch platform db (depth + 1) (decimal indicator) wholeRange options) := by
  have whole : Endpoint billion [] none := .omitted
  have unfiltered : Plain [] := ⟨List.not_mem_nil, List.not_mem_nil⟩
  have called := fetchRequest_fetch platform localTime unread options depth found whole whole false unfiltered
    unfiltered .omitted .omitted
  have condition : (fun rowid row => (([] : Text) ≠ [] || rangeTest (number rows) none none rowid row) &&
      meetsFilters [] [] none none row) = wholeRange := by
    funext rowid row
    have end_iff : (rowid : Int) ≤ 999999999 ↔ rowid ≤ 999999999 := by omega
    simp [rangeTest, startTest, stopTest, billion, meetsFilters, exitTest, directoryTest, beforeTest, afterTest,
      wholeRange, end_iff]
  rw [← condition]
  exact called

end Calls

/-! Leaving filters out. -/
section Fewer

variable {exitStatus directory before after : Text} {latest earliest : Option Civil}

theorem plain_nil : Plain [] := ⟨List.not_mem_nil, List.not_mem_nil⟩

theorem plain_fewer {part whole : Text} (plain : Plain whole) (fewer : part = [] ∨ part = whole) :
    Plain part := by
  rcases fewer with rfl | rfl
  · exact plain_nil
  · exact plain

theorem moment_fewer {label part whole : Text} {time : Option Civil} (moment : Moment label whole time)
    (fewer : part = [] ∨ part = whole) :
    ∃ other, Moment label part other ∧ (other = none ∨ other = time) := by
  rcases fewer with rfl | rfl
  · exact ⟨none, .omitted, Or.inl rfl⟩
  · exact ⟨time, moment, Or.inr rfl⟩

theorem meetsFilters_fewer {exitPart directoryPart : Text} {latestPart earliestPart : Option Long}
    {latest earliest : Option Long} (fewerExit : exitPart = [] ∨ exitPart = exitStatus)
    (fewerDirectory : directoryPart = [] ∨ directoryPart = directory)
    (fewerLatest : latestPart = none ∨ latestPart = latest)
    (fewerEarliest : earliestPart = none ∨ earliestPart = earliest) {row : Row}
    (meets : meetsFilters exitStatus directory latest earliest row = true) :
    meetsFilters exitPart directoryPart latestPart earliestPart row = true := by
  simp only [meetsFilters, Bool.and_eq_true] at meets ⊢
  obtain ⟨⟨⟨exits, directories⟩, befores⟩, afters⟩ := meets
  refine ⟨⟨⟨?_, ?_⟩, ?_⟩, ?_⟩
  · rcases fewerExit with rfl | rfl
    · rfl
    · exact exits
  · rcases fewerDirectory with rfl | rfl
    · rfl
    · exact directories
  · rcases fewerLatest with rfl | rfl
    · rfl
    · exact befores
  · rcases fewerEarliest with rfl | rfl
    · rfl
    · exact afters

end Fewer

/-- The filters are conjunctive exactly when no exit status is given, or when it
would not widen the range: every row that meets the filters lies in it. -/
theorem filters_conjunctive_iff {localTime : LocalTime} {db : RowidDatabase} {indicator : Long}
    {table : List (Nat × Row)} (found : db.table indicator = some table) {bound : Int}
    {start stop : Text} {startValue stopValue : Option Int} (starts : Endpoint bound start startValue)
    (stops : Endpoint bound stop stopValue) (braced : Bool) {exitStatus directory : Text}
    (plainExit : Plain exitStatus) (plainDirectory : Plain directory) {before after : Text}
    {latest earliest : Option Civil} (untilThen : Moment (ascii "before") before latest)
    (since : Moment (ascii "after") after earliest) :
    ∃ text rows, requestQuery localTime (decimal indicator)
        ⟨rangeText braced start stop, exitStatus, directory, before, after⟩ = .ok text ∧
      selectSession db fetchColumns text = .rows rows ∧
      (Conjunctive localTime db indicator
          ⟨rangeText braced start stop, exitStatus, directory, before, after⟩
          (filterConditions localTime exitStatus directory latest earliest) ↔
        exitStatus = [] ∨ ∀ entry ∈ table,
          meetsFilters exitStatus directory (latest.map localTime) (earliest.map localTime) entry.2 = true →
            rangeTest table startValue stopValue entry.1 entry.2 = true) := by
  obtain ⟨text, written, selected⟩ := request_rows localTime found starts stops braced plainExit plainDirectory
    untilThen since
  refine ⟨text, _, written, selected, ?_⟩
  have whole := selects_iff written selected
  obtain ⟨text', written', selected'⟩ := requestQuery_range localTime found starts stops braced
  have ranged := selects_iff written' selected'
  constructor
  · intro conjunctive
    by_cases omitted : exitStatus = []
    · exact Or.inl omitted
    · -- the exit status alone selects the row, so the range has to as well
      right
      intro entry member meets
      have inside := (whole entry).mpr ⟨member, by simp [omitted, meets]⟩
      exact ((ranged entry).mp ((conjunctive.intersection entry).mp inside).1).2
  · intro narrow
    have within (entry : Nat × Row) (member : entry ∈ table) :
        ((decide (exitStatus ≠ []) || rangeTest table startValue stopValue entry.1 entry.2) &&
            meetsFilters exitStatus directory (latest.map localTime) (earliest.map localTime) entry.2) = true ↔
          rangeTest table startValue stopValue entry.1 entry.2 = true ∧
            meetsFilters exitStatus directory (latest.map localTime) (earliest.map localTime) entry.2 = true := by
      rw [Bool.and_eq_true, Bool.or_eq_true, decide_eq_true_eq]
      constructor
      · rintro ⟨first, meets⟩
        rcases narrow with omitted | inside
        · exact ⟨first.resolve_left (not_not.mpr omitted), meets⟩
        · exact ⟨inside entry member meets, meets⟩
      · exact fun ⟨first, meets⟩ => ⟨Or.inr first, meets⟩
    constructor
    · intro entry
      rw [whole, ranged]
      constructor
      · rintro ⟨member, test⟩
        obtain ⟨inside, meets⟩ := (within entry member).mp test
        exact ⟨⟨member, inside⟩,
          (filterConditions_iff found plainExit plainDirectory latest earliest member).mpr meets⟩
      · rintro ⟨⟨member, inside⟩, each⟩
        have meets := (filterConditions_iff found plainExit plainDirectory latest earliest member).mp each
        exact ⟨member, (within entry member).mpr ⟨inside, meets⟩⟩
    · -- a part has the range or a filter of the whole, or nothing, in each place
      intro part fewer entry chosen
      obtain ⟨member, test⟩ := (whole entry).mp chosen
      obtain ⟨inside, meets⟩ := (within entry member).mp test
      obtain ⟨partRange, partExit, partDirectory, partBefore, partAfter⟩ := part
      obtain ⟨sameRange, fewerExit, fewerDirectory, fewerBefore, fewerAfter⟩ := fewer
      obtain ⟨latestPart, untilPart, fewerLatest⟩ := moment_fewer untilThen fewerBefore
      obtain ⟨earliestPart, sincePart, fewerEarliest⟩ := moment_fewer since fewerAfter
      obtain rfl : partRange = rangeText braced start stop := sameRange
      obtain ⟨other, writtenPart, selectedPart⟩ := request_rows localTime found starts stops
        braced (plain_fewer plainExit fewerExit) (plain_fewer plainDirectory fewerDirectory) untilPart sincePart
      refine (selects_iff writtenPart selectedPart entry).mpr ⟨member, ?_⟩
      have fewerUntil : latestPart.map localTime = none ∨ latestPart.map localTime = latest.map localTime :=
        fewerLatest.imp (congrArg _) (congrArg _)
      have fewerSince : earliestPart.map localTime = none ∨ earliestPart.map localTime = earliest.map localTime :=
        fewerEarliest.imp (congrArg _) (congrArg _)
      have meetsPart := meetsFilters_fewer fewerExit fewerDirectory fewerUntil fewerSince meets
      rw [inside, meetsPart, Bool.or_true, Bool.and_true]

def twoCommands (first second : Text) : RowidDatabase :=
  sessionOf 10#64 [completedRow first (ascii "ls"), completedRow second (ascii "make"), pendingRow]

theorem filters_conjunctive_failures :
    Conjunctive (fun _ => 5#64) (twoCommands (ascii "0") (ascii "2")) 10#64
      ⟨rangeText true (ascii "1") [], ascii "not0", ascii "/", ascii "2022-01-02 10:00:00", []⟩
      (filterConditions (fun _ => 5#64) (ascii "not0") (ascii "/") (some ⟨2022, 1, 2, 10, 0, 0⟩) none) := by
  have found : (twoCommands (ascii "0") (ascii "2")).table 10#64 =
    some (RowidTable.number [completedRow (ascii "0") (ascii "ls"), completedRow (ascii "2") (ascii "make"),
      pendingRow]) := rfl
  have starts : Endpoint 10 (ascii "1") (some 1) := .given (ascii "1") 1 (by decide) (by decide)
  have plainExit : Plain (ascii "not0") := by decide
  have plainDirectory : Plain (ascii "/") := by decide
  have untilThen : Moment (ascii "before") (ascii "2022-01-02 10:00:00") (some ⟨2022, 1, 2, 10, 0, 0⟩) :=
    .given _ _ (by decide) rfl
  obtain ⟨_, _, _, _, same⟩ := @filters_conjunctive_iff (fun _ => 5#64) _ _ _ found _ _ _ _ _ starts .omitted true
    _ _ plainExit plainDirectory _ _ _ _ untilThen .omitted
  exact same.mpr (Or.inr (by decide))

theorem filters_conjunctive_outside :
    ¬ Conjunctive (fun _ => 5#64) (twoCommands (ascii "0") (ascii "0")) 10#64
      ⟨rangeText true (ascii "1") [], ascii "0", [], [], []⟩
      (filterConditions (fun _ => 5#64) (ascii "0") [] none none) := by
  intro conjunctive
  have found : (twoCommands (ascii "0") (ascii "0")).table 10#64 =
    some (RowidTable.number [completedRow (ascii "0") (ascii "ls"), completedRow (ascii "0") (ascii "make"),
      pendingRow]) := rfl
  have starts : Endpoint 10 (ascii "1") (some 1) := .given (ascii "1") 1 (by decide) (by decide)
  have plainExit : Plain (ascii "0") := by decide
  obtain ⟨text, written, selected⟩ := request_rows (fun _ => 5#64) found starts .omitted true
    plainExit plain_nil (.omitted : Moment (ascii "before") [] none) .omitted
  obtain ⟨text', written', selected'⟩ := requestQuery_range (fun _ => 5#64) found starts .omitted true
  have first := (selects_iff written selected (1, completedRow (ascii "0") (ascii "ls"))).mpr (by decide)
  have ranged := (selects_iff written' selected' _).mp ((conjunctive.intersection _).mp first).1
  exact absurd ranged.2 (by decide)

end Nhi
