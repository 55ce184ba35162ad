import Nhi.LogWhere

/-!
Exit statuses and directories as data. A value stands between quotes as it is,
so the statement is the intended one only for values without a quote, and with
`fetch` only as long as no exit status takes the place of the range.
-/

namespace Nhi

open Sql (ascii Phrase Numeral Tail Comparison joined)

/-! What each of the three means to ask. -/
section Intended

def exitComparison (exitStatus : Text) : Comparison :=
  if 3 ≤ exitStatus.length ∧ exitStatus.take 3 = ascii "not" then
    ⟨ascii "exit_status", .notEqual, .text (exitStatus.drop 3)⟩
  else ⟨ascii "exit_status", .equal, .text exitStatus⟩

def directoryComparison (directory : Text) : Comparison :=
  ⟨ascii "pwd", .equal, .text (trimmedDirectory directory)⟩

def filterComparisons (localTime : LocalTime) (exitStatus directory : Text) (latest earliest : Option Civil) :
    List Comparison :=
  (if exitStatus = [] then [] else [exitComparison exitStatus]) ++
  (if directory = [] then [] else [directoryComparison directory]) ++
  (latest.map fun civil => ⟨ascii "start_time", .less, .text (decimal (localTime civil))⟩).toList ++
  (earliest.map fun civil => ⟨ascii "start_time", .greater, .text (decimal (localTime civil))⟩).toList

def startComparison (indicator : Long) (start : Int) : Comparison :=
  if start < 0 then ⟨ascii "rowid", .greaterEqual, .highest start (decimal indicator)⟩
  else if start < billion then ⟨ascii "rowid", .greater, .integer start⟩
  else ⟨ascii "indicator", .greaterEqual, .integer start⟩

def stopComparison (indicator : Long) (stop : Int) : Comparison :=
  if stop < 0 then ⟨ascii "rowid", .less, .highest stop (decimal indicator)⟩
  else if stop < billion then ⟨ascii "rowid", .lessEqual, .integer stop⟩
  else ⟨ascii "indicator", .lessEqual, .integer stop⟩

def fetchIntended (localTime : LocalTime) (indicator : Long) (request : FetchRequest) :
    Except Text Sql.Select := do
  let sliceStartEndRange ← getSliceStartEndRange request.startEndRange billion
  let (startRangeInt, endRangeInt) ← getStartAndEndRangeInt sliceStartEndRange
  let latest ← momentOf (ascii "before") request.before
  let earliest ← momentOf (ascii "after") request.after
  return ⟨fetchColumns, decimal indicator,
    [startComparison indicator startRangeInt, stopComparison indicator endRangeInt] ++
      filterComparisons localTime request.exitStatus request.directory latest earliest, false, none⟩

def contentIntended (localTime : LocalTime) (indicator : Long) (exitStatus directory : Text)
    (latest earliest : Option Civil) : Sql.Select :=
  ⟨contentColumns, decimal indicator, filterComparisons localTime exitStatus directory latest earliest,
    true, none⟩

def logSessionIntended (localTime : LocalTime) (indicator : Long)
    (exitStatus directory before after : Text) : Except Text Sql.Select := do
  let latest ← momentOf (ascii "before") before
  let earliest ← momentOf (ascii "after") after
  return contentIntended localTime indicator exitStatus directory latest earliest

/-- The text is read as the intended selection, and its rows meet the filters. -/
structure AsData (text : Text) (query : Sql.Select) (exitStatus directory : Text) : Prop where
  read : Sql.parseText text = some (.select query)
  rows : ∀ db rows, selectSession db query.columns text = .rows rows → ∀ entry ∈ rows,
    exitTest exitStatus entry.2 = true ∧ directoryTest directory entry.2 = true

end Intended

/-! Values that are read as themselves. -/
section Values

variable {localTime : LocalTime} {exitStatus directory : Text} {latest earliest : Option Civil}

theorem plain_not {exitStatus : Text} (negated : exitStatus.take 3 = ascii "not")
    (plain : Plain (exitStatus.drop 3)) : Plain exitStatus := by
  have split := List.take_append_drop 3 exitStatus
  rw [negated] at split
  have head : Plain (ascii "not") := by decide
  rw [← split]
  exact ⟨fun quote => (List.mem_append.mp quote).elim head.1 plain.1,
    fun nul => (List.mem_append.mp nul).elim head.2 plain.2⟩

theorem plain_trimmed {directory : Text} (plain : Plain (trimmedDirectory directory)) : Plain directory := by
  rw [trimmedDirectory] at plain
  split at plain
  · rw [trimSuffix] at plain
    split at plain
    · rename_i slash
      have split := List.dropLast_append_getLast? _ slash
      have last : Plain [47#8] := by decide
      rw [← split]
      exact ⟨fun quote => (List.mem_append.mp quote).elim plain.1 last.1,
        fun nul => (List.mem_append.mp nul).elim plain.2 last.2⟩
    · exact plain
  · exact plain

theorem exitCondition_value (exitStatus : Text) :
    ∃ comparator : Sql.Comparator, ∃ value, exitStatusCondition exitStatus =
        comparator.text ++ 39#8 :: (value ++ [39#8]) ∧
      (exitComparison exitStatus).operand.literals = [value] ∧ (Plain value → Plain exitStatus) := by
  rw [exitStatusCondition, exitComparison]
  split
  · rename_i negated
    refine ⟨exitIsNot, exitStatus.drop 3, ?_, rfl, plain_not negated.2⟩
    rw [List.append_assoc]
    rfl
  · refine ⟨exitIs, exitStatus, ?_, rfl, id⟩
    rw [List.append_assoc]
    rfl

theorem directoryCondition_value (directory : Text) :
    directoryCondition directory = pwdIs.text ++ 39#8 :: (trimmedDirectory directory ++ [39#8]) := by
  rw [directoryCondition, List.append_assoc]
  rfl

theorem exitPhrase_comparison (plain : Plain exitStatus) :
    (exitPhrase exitStatus plain).comparison = exitComparison exitStatus := by
  rw [exitPhrase, exitComparison]
  split <;> rfl

theorem clausePhrases_comparisons (localTime : LocalTime) (plainExit : Plain exitStatus)
    (plainDirectory : Plain directory) (latest earliest : Option Civil) (range : List Phrase) :
    (clausePhrases localTime range plainExit plainDirectory latest earliest).map Phrase.comparison =
      (if exitStatus = [] then range.map Phrase.comparison else []) ++
        filterComparisons localTime exitStatus directory latest earliest := by
  rw [clausePhrases_map, exitPhrase_comparison]
  rfl

theorem conditionLiterals_append (front back : List Comparison) :
    Sql.conditionLiterals (front ++ back) = Sql.conditionLiterals front ++ Sql.conditionLiterals back :=
  List.flatMap_append

variable {head tail : Text} {before : List Sql.Token}
  (opens : Sql.run ⟨[], .start⟩ head = ⟨before, .start⟩) (unread : Sql.literals before.reverse = [])
  {range : List Phrase} (unquoted : Sql.conditionLiterals (range.map Phrase.comparison) = [])
  (follow : tail.head? ≠ some 39#8) {query : Sql.Select} {others : List Comparison}
  (conditions : query.conditions = others ++ filterComparisons localTime exitStatus directory latest earliest)
  (literalFree : Sql.conditionLiterals others = [])
  (read : Sql.parseText (head ++ (joined (range.map Phrase.text ++
    filterConditions localTime exitStatus directory latest earliest) ++ tail)) = some (.select query))

include opens unread unquoted follow conditions literalFree read

theorem exit_plain : Plain exitStatus := by
  by_cases omitted : exitStatus = []
  · rw [omitted]
    exact plain_nil
  · obtain ⟨comparator, value, text, literal, whole⟩ := exitCondition_value exitStatus
    simp only [filterConditions, if_neg omitted, text, List.append_assoc, List.singleton_append] at read
    refine whole (Sql.value_plain opens unread range comparator value _ follow read ?_)
    rw [unquoted, Sql.Statement.literals, conditions, conditionLiterals_append, literalFree,
      filterComparisons, if_neg omitted, List.append_assoc, List.append_assoc, conditionLiterals_append,
      Sql.conditionLiterals, List.flatMap_singleton, literal]
    rfl

theorem directory_plain : Plain directory := by
  have plainExit := exit_plain opens unread unquoted follow conditions literalFree read
  by_cases omitted : directory = []
  · rw [omitted]
    exact plain_nil
  · -- the exit status is the only value in front of it
    have texts := clausePhrases_texts localTime plainExit plain_nil none none []
    have comparisons := clausePhrases_comparisons localTime plainExit plain_nil none none []
    simp only [List.map_nil, ite_self, List.nil_append] at texts comparisons
    generalize clausePhrases localTime [] plainExit plain_nil none none = front at texts comparisons
    have split : filterConditions localTime exitStatus directory latest earliest =
        front.map Phrase.text ++ (pwdIs.text ++ 39#8 :: (trimmedDirectory directory ++ [39#8])) ::
          filterConditions localTime [] [] latest earliest := by
      rw [texts, ← directoryCondition_value]
      simp [filterConditions, omitted]
    have intended : filterComparisons localTime exitStatus directory latest earliest =
        front.map Phrase.comparison ++ directoryComparison directory ::
          filterComparisons localTime [] [] latest earliest := by
      rw [comparisons]
      simp [filterComparisons, omitted]
    have literals : Sql.conditionLiterals ((range ++ front).map Phrase.comparison) =
        Sql.conditionLiterals (front.map Phrase.comparison) := by
      rw [List.map_append, conditionLiterals_append, unquoted, List.nil_append]
    rw [split, ← List.append_assoc (range.map Phrase.text), ← List.map_append] at read
    refine plain_trimmed (Sql.value_plain opens unread (range ++ front) pwdIs _ _ follow read ?_)
    rw [literals, Sql.Statement.literals, conditions, conditionLiterals_append, literalFree, List.nil_append,
      intended, conditionLiterals_append, List.getElem?_append_right (Nat.le_refl _), Nat.sub_self]
    rfl

end Values

/-! The three statements. -/
section Statements

variable {localTime : LocalTime} {exitStatus directory : Text} {latest earliest : Option Civil}

theorem selectSession_meets {db : RowidDatabase} {text : Text} {query : Sql.Select} {rows : List (Nat × Row)}
    (read : Sql.parseText text = some (.select query))
    (answer : selectSession db query.columns text = .rows rows) {entry : Nat × Row} (member : entry ∈ rows)
    {comparison : Comparison} (inside : comparison ∈ query.conditions) {one : Nat → Row → Bool}
    (tested : comparison.test sessionSchema db.rowids = some one) : one entry.1 entry.2 = true := by
  rw [selectSession, read] at answer
  simp only [true_and] at answer
  split at answer
  · split at answer
    · cases answer
    · rename_i table _
      cases selected : query.rows sessionSchema db.rowids table with
      | none =>
          rw [selected] at answer
          cases answer
      | some found =>
          rw [selected] at answer
          obtain rfl := Answer.rows.inj answer
          exact Sql.Select.rows_meet selected member inside tested
  · cases answer

theorem asData_of_read {text : Text} {query : Sql.Select} {others : List Comparison}
    (plainExit : Plain exitStatus) (plainDirectory : Plain directory)
    (conditions : query.conditions = others ++ filterComparisons localTime exitStatus directory latest earliest)
    (read : Sql.parseText text = some (.select query)) : AsData text query exitStatus directory := by
  refine ⟨read, fun db rows answer entry member => ⟨?_, ?_⟩⟩
  · by_cases omitted : exitStatus = []
    · rw [exitTest, if_pos omitted]
    · have inside : exitComparison exitStatus ∈ query.conditions := by
        rw [conditions, filterComparisons, if_neg omitted]
        simp
      have tested : (exitPhrase exitStatus plainExit).comparison.test sessionSchema db.rowids =
        some fun _ row => exitTest exitStatus row := exitPhrase_test plainExit omitted
      rw [exitPhrase_comparison plainExit] at tested
      exact selectSession_meets read answer member inside tested
  · by_cases omitted : directory = []
    · rw [directoryTest, decide_eq_true omitted, Bool.true_or]
    · have inside : directoryComparison directory ∈ query.conditions := by
        rw [conditions, filterComparisons, if_neg omitted]
        simp
      exact selectSession_meets read answer member inside (directoryPhrase_test plainDirectory omitted)

theorem plain_of_none (none : filterConditions localTime exitStatus directory latest earliest = []) :
    Plain exitStatus ∧ Plain directory := by
  constructor
  · by_cases omitted : exitStatus = []
    · rw [omitted]
      exact plain_nil
    · simp [filterConditions, omitted] at none
  · by_cases omitted : directory = []
    · rw [omitted]
      exact plain_nil
    · simp [filterConditions, omitted] at none

theorem content_data_iff (indicator : Long) :
    AsData (contentQuery (decimal indicator)
        (joined (filterConditions localTime exitStatus directory latest earliest)))
      (contentIntended localTime indicator exitStatus directory latest earliest) exitStatus directory ↔
        Plain exitStatus ∧ Plain directory := by
  constructor
  · intro data
    by_cases none : filterConditions localTime exitStatus directory latest earliest = []
    · exact plain_of_none none
    · have given := mt (joined_nil_iff (filterConditions_nonempty localTime exitStatus directory latest
        earliest)).mp none
      have text : contentQuery (decimal indicator)
          (joined (filterConditions localTime exitStatus directory latest earliest)) =
          contentHead ++ decimal indicator ++ ascii "` WHERE " ++
            (joined (([] : List Phrase).map Phrase.text ++
              filterConditions localTime exitStatus directory latest earliest) ++ ascii " ORDER BY rowid DESC;") := by
        rw [contentQuery, if_neg given]
        simp only [List.append_assoc]
        rfl
      have opens : Sql.run ⟨[], .start⟩ (contentHead ++ decimal indicator ++ ascii "` WHERE ") =
          ⟨Sql.keyword "where" :: .name (decimal indicator) ::
            (Sql.keyword "select" :: (Sql.columnTokens contentColumns ++ [Sql.keyword "from"])).reverse, .start⟩ := by
        rw [List.append_assoc, Sql.run_append, run_contentHead,
          Sql.run_table (decimal_noQuote indicator) (decimal_noNul indicator)]
        rfl
      have read := data.read
      rw [text] at read
      have noRange : Sql.conditionLiterals (([] : List Phrase).map Phrase.comparison) = [] := rfl
      have literalFree : Sql.conditionLiterals [] = [] := rfl
      exact ⟨exit_plain opens rfl noRange (by decide) rfl literalFree read,
        directory_plain opens rfl noRange (by decide) rfl literalFree read⟩
  · rintro ⟨plainExit, plainDirectory⟩
    have select := contentQuery_select localTime plainExit plainDirectory latest earliest indicator
    rw [clausePhrases_comparisons, List.map_nil, ite_self, List.nil_append] at select
    exact asData_of_read plainExit plainDirectory (List.nil_append _).symm select

variable (indicator : Long) (low high : Numeral)

theorem range_comparisons :
    [startPhrase indicator low, stopPhrase indicator high].map Phrase.comparison =
      [startComparison indicator low.value, stopComparison indicator high.value] := by
  have first : (startPhrase indicator low).comparison = startComparison indicator low.value := by
    rw [startPhrase, startComparison]
    split_ifs <;> rfl
  have second : (stopPhrase indicator high).comparison = stopComparison indicator high.value := by
    rw [stopPhrase, stopComparison]
    split_ifs <;> rfl
  rw [List.map_cons, List.map_singleton, first, second]

theorem range_literals :
    Sql.conditionLiterals [startComparison indicator low.value, stopComparison indicator high.value] = [] := by
  rw [startComparison, stopComparison]
  split_ifs <;> rfl

theorem fetch_read (localTime : LocalTime) (plainExit : Plain exitStatus) (plainDirectory : Plain directory)
    (latest earliest : Option Civil) :
    Sql.parseText (fetchQuery (decimal indicator) (joined (rangeTexts indicator low high exitStatus ++
        filterConditions localTime exitStatus directory latest earliest))) =
      some (.select ⟨fetchColumns, decimal indicator, (if exitStatus = [] then
        [startComparison indicator low.value, stopComparison indicator high.value] else []) ++
          filterComparisons localTime exitStatus directory latest earliest, false, none⟩) := by
  have nonempty := clausePhrases_nonempty localTime
    (List.cons_ne_nil (startPhrase indicator low) [stopPhrase indicator high]) plainExit plainDirectory latest
      earliest
  have select := fetchQuery_select indicator nonempty
  rwa [clausePhrases_comparisons, range_comparisons, ← Sql.joined_phrases, clausePhrases_texts] at select

theorem fetch_data_iff :
    AsData (fetchQuery (decimal indicator) (joined (rangeTexts indicator low high exitStatus ++
        filterConditions localTime exitStatus directory latest earliest)))
      ⟨fetchColumns, decimal indicator,
        [startComparison indicator low.value, stopComparison indicator high.value] ++
          filterComparisons localTime exitStatus directory latest earliest, false, none⟩
      exitStatus directory ↔ exitStatus = [] ∧ Plain directory := by
  constructor
  · intro data
    have text : fetchQuery (decimal indicator) (joined (rangeTexts indicator low high exitStatus ++
        filterConditions localTime exitStatus directory latest earliest)) =
        ascii "SELECT PS1, command, output FROM `" ++ decimal indicator ++ ascii "` WHERE " ++
          (joined ((if exitStatus = [] then [startPhrase indicator low, stopPhrase indicator high]
            else []).map Phrase.text ++ filterConditions localTime exitStatus directory latest earliest) ++
              ascii ";") := by
      rw [fetchQuery, rangeTexts]
      split <;> simp only [List.append_assoc, List.map_nil]
    have opens : Sql.run ⟨[], .start⟩ (ascii "SELECT PS1, command, output FROM `" ++ decimal indicator ++
        ascii "` WHERE ") =
        ⟨Sql.keyword "where" :: .name (decimal indicator) ::
          (Sql.keyword "select" :: (Sql.columnTokens fetchColumns ++ [Sql.keyword "from"])).reverse, .start⟩ := by
      have head : Sql.run ⟨[], .start⟩ (ascii "SELECT PS1, command, output FROM `") =
        ⟨(Sql.keyword "select" :: (Sql.columnTokens fetchColumns ++ [Sql.keyword "from"])).reverse, .name []⟩ := rfl
      rw [List.append_assoc, Sql.run_append, head,
        Sql.run_table (decimal_noQuote indicator) (decimal_noNul indicator)]
      rfl
    have unquoted : Sql.conditionLiterals ((if exitStatus = [] then
        [startPhrase indicator low, stopPhrase indicator high] else []).map Phrase.comparison) = [] := by
      split
      · rw [range_comparisons, range_literals]
      · rfl
    have read := data.read
    rw [text] at read
    have literalFree := range_literals indicator low high
    have plainExit := exit_plain opens rfl unquoted (by decide) rfl literalFree read
    have plainDirectory := directory_plain opens rfl unquoted (by decide) rfl literalFree read
    refine ⟨?_, plainDirectory⟩
    by_contra given
    -- the conditions on the range are not there
    have same := data.read.symm.trans
      (fetch_read indicator low high localTime plainExit plainDirectory latest earliest)
    rw [if_neg given, List.nil_append] at same
    have lengths := congrArg List.length
      (congrArg Sql.Select.conditions (Sql.Statement.select.inj (Option.some.inj same)))
    simp only [List.length_append, List.length_cons] at lengths
    omega
  · rintro ⟨omitted, plainDirectory⟩
    have plainExit : Plain exitStatus := omitted ▸ plain_nil
    have read := fetch_read indicator low high localTime plainExit plainDirectory latest earliest
    rw [if_pos omitted] at read
    exact asData_of_read plainExit plainDirectory rfl read

end Statements

/-! The statements that are built at all. -/
section Built

variable {localTime : LocalTime} {indicator : Long}

theorem endpoints_read {slice : Text × Text} {startInt stopInt : Int}
    (integers : getStartAndEndRangeInt slice = .ok (startInt, stopInt)) :
    ∃ low high : Numeral, slice = (low.text, high.text) ∧ startInt = low.value ∧ stopInt = high.value := by
  obtain ⟨start, stop⟩ := slice
  rw [getStartAndEndRangeInt] at integers
  cases first : atoi start with
  | none =>
      rw [first] at integers
      cases integers
  | some low =>
      cases last : atoi stop with
      | none =>
          rw [first, last] at integers
          cases integers
      | some high =>
          rw [first, last] at integers
          obtain ⟨rfl, rfl⟩ := Prod.mk.inj (Except.ok.inj integers)
          exact ⟨Numeral.ofText (Sql.plainInteger_spelled first), Numeral.ofText (Sql.plainInteger_spelled last),
            rfl, rfl, rfl⟩

theorem request_data_iff {request : FetchRequest} {text : Text}
    (written : requestQuery localTime (decimal indicator) request = .ok text) :
    ∃ query, fetchIntended localTime indicator request = .ok query ∧
      (AsData text query request.exitStatus request.directory ↔
        request.exitStatus = [] ∧ Plain request.directory) := by
  rw [requestQuery] at written
  rw [fetchIntended]
  -- the range and the dates are read in the same order, so the errors are the same
  cases range : getSliceStartEndRange request.startEndRange billion with
  | error message =>
      rw [range] at written
      cases written
  | ok slice =>
      cases integers : getStartAndEndRangeInt slice with
      | error message =>
          simp only [range, bind, Except.bind, integers] at written
          cases written
      | ok ints =>
          obtain ⟨low, high, rfl, first, last⟩ := endpoints_read integers
          have clause := getWhere_joined indicator low high localTime request.exitStatus request.directory
            request.before request.after
          simp only [range, bind, Except.bind, integers, first, last, clause] at written ⊢
          cases before : momentOf (ascii "before") request.before with
          | error message =>
              rw [before] at written
              cases written
          | ok latest =>
              cases after : momentOf (ascii "after") request.after with
              | error message =>
                  rw [before] at written
                  simp only [after] at written
                  cases written
              | ok earliest =>
                  simp only [before, after] at written
                  obtain rfl := Except.ok.inj written
                  exact ⟨_, rfl, fetch_data_iff indicator low high⟩

end Built

/-- The statements of `log` and `log-session` are the intended ones exactly when
neither value has a quote, and that of `fetch` when the directory has none and
no exit status is given. -/
theorem filter_values_iff (localTime : LocalTime) (indicator : Long) (exitStatus directory : Text) :
    (∀ startEndRange before after text,
      requestQuery localTime (decimal indicator) ⟨startEndRange, exitStatus, directory, before, after⟩ = .ok text →
      ∃ query,
        fetchIntended localTime indicator ⟨startEndRange, exitStatus, directory, before, after⟩ = .ok query ∧
        (AsData text query exitStatus directory ↔ exitStatus = [] ∧ Plain directory)) ∧
    (AsData (contentQuery (decimal indicator) (getContentWhere exitStatus directory))
      (contentIntended localTime indicator exitStatus directory none none) exitStatus directory ↔
        Plain exitStatus ∧ Plain directory) ∧
    (∀ before after text,
      logSessionQuery localTime (decimal indicator) exitStatus directory before after = .ok text →
      ∃ query, logSessionIntended localTime indicator exitStatus directory before after = .ok query ∧
        (AsData text query exitStatus directory ↔ Plain exitStatus ∧ Plain directory)) := by
  refine ⟨fun startEndRange before after text written => request_data_iff written, ?_, ?_⟩
  · rw [getContentWhere_joined localTime]
    exact content_data_iff indicator
  · intro before after text written
    rw [logSessionQuery, logSessionWhere_joined] at written
    rw [logSessionIntended]
    cases first : momentOf (ascii "before") before with
    | error message =>
        rw [first] at written
        cases written
    | ok latest =>
        cases second : momentOf (ascii "after") after with
        | error message =>
            rw [first, second] at written
            cases written
        | ok earliest =>
            rw [first, second] at written
            obtain rfl := Except.ok.inj written
            exact ⟨_, rfl, content_data_iff indicator⟩

section Samples

theorem filter_values_plain :
    ∃ text query, logSessionQuery (fun _ => 5#64) (decimal 10#64) (ascii "not0") (ascii "/tmp/") [] [] = .ok text ∧
      logSessionIntended (fun _ => 5#64) 10#64 (ascii "not0") (ascii "/tmp/") [] [] = .ok query ∧
      AsData text query (ascii "not0") (ascii "/tmp/") := by
  have written : logSessionQuery (fun _ => 5#64) (decimal 10#64) (ascii "not0") (ascii "/tmp/") [] [] =
    .ok _ := rfl
  obtain ⟨query, intended, data⟩ :=
    (filter_values_iff (fun _ => 5#64) 10#64 (ascii "not0") (ascii "/tmp/")).2.2 [] [] _ written
  exact ⟨_, query, written, intended, data.mpr ⟨by decide, by decide⟩⟩

theorem filter_values_quote :
    (¬ AsData (contentQuery (decimal 10#64) (getContentWhere [] (ascii "/home/it's")))
      (contentIntended (fun _ => 5#64) 10#64 [] (ascii "/home/it's") none none) [] (ascii "/home/it's")) ∧
    Sql.parseText (contentQuery (decimal 10#64) (getContentWhere [] (ascii "/' AND pwd != '/"))) =
      some (.select ⟨contentColumns, decimal 10#64,
        [⟨ascii "pwd", .equal, .text (ascii "/")⟩, ⟨ascii "pwd", .notEqual, .text []⟩], true, none⟩) := by
  constructor
  · rw [getContentWhere_joined (fun _ => 5#64), content_data_iff]
    exact fun plain => absurd plain.2 (by decide)
  · decide +kernel

end Samples

end Nhi
