import Nhi.Gets
import Nhi.MetaStatements

/-!
pkg/remove/remove.go. The endpoints of a range of sessions become the rowids
that lie at those places in `meta`, or null where there is no such place.
-/

namespace Nhi

open Sql (ascii Comparator Phrase Numeral Tail)

def removeQuery (startEndRange : Text) : Except Text Text := do
  let sliceStartEndRange ← getSliceStartEndRange startEndRange billion
  let (startRangeInt, endRangeInt) ← getStartAndEndRangeInt sliceStartEndRange
  let clause := getWhereFromRange sliceStartEndRange startRangeInt endRangeInt billion (ascii "meta")
  return ascii "SELECT indicator FROM `meta` WHERE " ++ clause ++ ascii ";"

def removeSelect (db : RowidDatabase) (startEndRange : Text) : Except Text (List Long) := do
  let text ← removeQuery startEndRange
  match selectMeta db [ascii "indicator"] text with
  | .rows rows => return rows.map fun entry => entry.2.indicator
  -- neither comes of a range that was read, by `removeSelect_range`
  | .noSuchTable | .unread => .error []

/-- `db.Exec` whose result is dropped. -/
def execIgnored (db : RowidDatabase) (text : Text) : RowidDatabase :=
  match db.execute text with
  | .done after => after
  | .failed | .unread => db

def removeSession (db : RowidDatabase) (indicator : Long) : RowidDatabase :=
  execIgnored (execIgnored db (dropText (decimal indicator))) (deleteText (decimal indicator))

def remove (db : RowidDatabase) (startEndRange : Text) : Except Text RowidDatabase := do
  let indicators ← removeSelect db startEndRange
  return indicators.foldl removeSession db

/-! The clause as phrases. -/
section Phrases

def metaPlace (descending : Bool) (numeral : Numeral) : Sql.Right :=
  numeral.nth descending (show 96#8 ∉ ascii "meta" by decide) (by decide)

variable {start stop : Text} {startInt stopInt : Int} (starts : Sql.Spelled start startInt)
  (stops : Sql.Spelled stop stopInt)

def sessionsFrom : Phrase :=
  if startInt < 0 then
    rowidFrom.phrase (metaPlace true (Numeral.ofText (backward_spelled starts)))
  else if startInt < billion then rowidFrom.phrase (metaPlace false (Numeral.ofText starts))
  else indicatorFrom.phrase (Numeral.ofText starts).right

def sessionsBelow : Phrase :=
  if stopInt < 0 then
    rowidBelow.phrase (metaPlace true (Numeral.ofText (backward_spelled stops)))
  else if stopInt = billion - 1 then rowidBelow.phrase (Numeral.ofText stops).right
  else if stopInt < billion then rowidBelow.phrase (metaPlace false (Numeral.ofText stops))
  else indicatorUpTo.phrase (Numeral.ofText stops).right

theorem getWhereFromRange_phrases :
    getWhereFromRange (start, stop) startInt stopInt billion (ascii "meta") =
      Sql.conjoin [sessionsFrom starts, sessionsBelow stops] := by
  have value : billion = 1000000000 := rfl
  rw [getWhereFromRange, getRowidsFromRange, rowidStartRange, rowidEndRange, sessionsFrom, sessionsBelow]
  split_ifs
  all_goals first
    | omega
    | (simp only [Sql.conjoin, Comparator.phrase, metaPlace, Numeral.nth, Numeral.ofText, Numeral.right,
        List.append_assoc]
       rfl)

theorem removeQuery_select {phrases : List Phrase} (nonempty : phrases ≠ []) :
    Sql.parseText (ascii "SELECT indicator FROM `meta` WHERE " ++ Sql.conjoin phrases ++ ascii ";") =
      some (.select ⟨[ascii "indicator"], ascii "meta", phrases.map Phrase.comparison, false, none⟩) := by
  have text : ascii "SELECT indicator FROM `meta` WHERE " ++ Sql.conjoin phrases ++ ascii ";" =
      ascii "SELECT indicator FROM `" ++ ascii "meta" ++ ascii "`" ++ Sql.whereText phrases ++
        Tail.plain.text := by
    have head : ascii "SELECT indicator FROM `meta` WHERE " =
        ascii "SELECT indicator FROM `" ++ ascii "meta" ++ ascii "`" ++ ascii " WHERE " := rfl
    rw [Sql.whereText, if_neg nonempty, head]
    simp only [List.append_assoc]
    rfl
  rw [text]
  exact Sql.parseText_select (by simp) rfl (by decide) (by decide) phrases Tail.plain

end Phrases

/-! The rows of `meta` in a range. -/
section Selection

def sessionPlace (rowids : List Nat) (value : Int) : Option Nat :=
  if value < 0 then rowids.reverse[(-1 * value - 1).toNat]? else rowids[value.toNat]?

def fromTest (rowids : List Nat) (startInt : Int) (rowid : Nat) (row : MetaRow) : Bool :=
  if startInt < billion then (sessionPlace rowids startInt).any fun first => first ≤ rowid
  else startInt ≤ row.indicator.toInt

def belowTest (rowids : List Nat) (stopInt : Int) (rowid : Nat) (row : MetaRow) : Bool :=
  if stopInt = billion - 1 then rowid < stopInt
  else if stopInt < billion then (sessionPlace rowids stopInt).any fun last => rowid < last
  else row.indicator.toInt ≤ stopInt

variable (db : RowidDatabase)

def metaRowids : List Nat := db.metaTable.map Prod.fst

theorem metaPlace_value (descending : Bool) (numeral : Numeral) :
    Sql.Operand.value db.rowids (metaPlace descending numeral).operand =
      some (((if descending then (metaRowids db).reverse else metaRowids db)[numeral.value.toNat]?.map
        fun (rowid : Nat) => Sql.Value.integer rowid).getD .null) := rfl

theorem place_test {operator : Sql.Operator} {operand : Sql.Operand} {place : Option Nat}
    (value : Sql.Operand.value db.rowids operand =
      some ((place.map fun (rowid : Nat) => Sql.Value.integer rowid).getD .null)) :
    Sql.Comparison.test metaSchema db.rowids ⟨ascii "rowid", operator, operand⟩ =
      some fun (rowid : Nat) _ => place.any fun (other : Nat) => decide (operator.Holds rowid other) := by
  have cast : (place.map fun (rowid : Nat) => Sql.Value.integer rowid) =
      (place.map fun (rowid : Nat) => (rowid : Int)).map Sql.Value.integer := (Option.map_map ..).symm
  rw [cast] at value
  refine (test_place value).trans ?_
  simp only [Option.any_map]

theorem metaIndicator_column :
    Sql.columnOf metaSchema (ascii "indicator") =
      some ⟨.integer, fun _ row => .integer row.indicator.toInt⟩ := rfl

variable {start stop : Text} {startInt stopInt : Int} (starts : Sql.Spelled start startInt)
  (stops : Sql.Spelled stop stopInt)

theorem sessionsFrom_test :
    (sessionsFrom starts).comparison.test metaSchema db.rowids =
      some (fromTest (metaRowids db) startInt) := by
  rw [sessionsFrom]
  split_ifs with negative small
  · refine (place_test db (metaPlace_value db true _)).trans ?_
    congr 1
    funext rowid row
    have small : startInt < billion := lt_trans negative (by decide)
    simp [fromTest, sessionPlace, negative, small, Numeral.ofText, rowidFrom, Sql.Operator.Holds]
  · refine (place_test db (metaPlace_value db false _)).trans ?_
    congr 1
    funext rowid row
    simp [fromTest, sessionPlace, negative, small, Numeral.ofText, rowidFrom, Sql.Operator.Holds]
  · refine (test_integer metaIndicator_column rfl rfl).trans ?_
    congr 1
    funext rowid row
    simp [fromTest, small, Sql.compare_integer, Numeral.ofText, indicatorFrom, Sql.Operator.Holds]

theorem sessionsBelow_test :
    (sessionsBelow stops).comparison.test metaSchema db.rowids =
      some (belowTest (metaRowids db) stopInt) := by
  rw [sessionsBelow]
  split_ifs with negative border small
  · refine (place_test db (metaPlace_value db true _)).trans ?_
    congr 1
    funext rowid row
    have small : stopInt < billion := lt_trans negative (by decide)
    have apart : stopInt ≠ billion - 1 := ne_of_lt (lt_trans negative (by decide))
    simp [belowTest, sessionPlace, negative, small, apart, Numeral.ofText, rowidBelow, Sql.Operator.Holds]
  · refine (test_rowid _ rfl).trans ?_
    congr 1
    funext rowid row
    simp [belowTest, border, Sql.compare_integer, Numeral.ofText, rowidBelow, Sql.Operator.Holds]
  · refine (place_test db (metaPlace_value db false _)).trans ?_
    congr 1
    funext rowid row
    simp [belowTest, sessionPlace, negative, border, small, Numeral.ofText, rowidBelow, Sql.Operator.Holds]
  · refine (test_integer metaIndicator_column rfl rfl).trans ?_
    congr 1
    funext rowid row
    simp [belowTest, border, small, Sql.compare_integer, Numeral.ofText, indicatorUpTo, Sql.Operator.Holds]

def sessionRange (startInt stopInt : Int) : List (Nat × MetaRow) :=
  db.metaTable.filter fun entry =>
    fromTest (metaRowids db) startInt entry.1 entry.2 && belowTest (metaRowids db) stopInt entry.1 entry.2

theorem removeSelect_range {startEndRange : Text}
    (range : getSliceStartEndRange startEndRange billion = .ok (start, stop))
    (first : atoi start = some startInt) (last : atoi stop = some stopInt) :
    removeSelect db startEndRange =
      .ok ((sessionRange db startInt stopInt).map fun entry => entry.2.indicator) := by
  have starts := Sql.plainInteger_spelled first
  have stops := Sql.plainInteger_spelled last
  have integers : getStartAndEndRangeInt (start, stop) = .ok (startInt, stopInt) := by
    simp only [getStartAndEndRangeInt, first, last]
  have query : removeQuery startEndRange = .ok (ascii "SELECT indicator FROM `meta` WHERE " ++
      Sql.conjoin [sessionsFrom starts, sessionsBelow stops] ++ ascii ";") := by
    rw [removeQuery, range]
    simp only [bind, Except.bind, integers, getWhereFromRange_phrases starts stops]
    rfl
  have tests := Sql.conditionTest_append (Sql.conditionTest_singleton (sessionsFrom_test db starts))
    (Sql.conditionTest_singleton (sessionsBelow_test db stops))
  have answer : selectMeta db [ascii "indicator"] (ascii "SELECT indicator FROM `meta` WHERE " ++
      Sql.conjoin [sessionsFrom starts, sessionsBelow stops] ++ ascii ";") =
        .rows (sessionRange db startInt stopInt) := by
    have known : [ascii "indicator"].all fun column => (Sql.columnOf metaSchema column).isSome := rfl
    have here : RowidDatabase.isMeta (ascii "meta") = true := rfl
    rw [selectMeta, removeQuery_select (by simp)]
    simp only [here, and_self, if_true, Sql.Select.rows, known, guard_true, List.map_cons, List.map_nil]
    rw [List.singleton_append] at tests
    simp only [bind, pure, Option.bind_some, tests, Option.map_some, Option.getD_some]
    rfl
  rw [removeSelect, query]
  simp only [bind, Except.bind, answer]
  rfl

theorem removeSelect_listed {startEndRange : Text} {indicators : List Long}
    (selected : removeSelect db startEndRange = .ok indicators) :
    ∀ indicator ∈ indicators, db.listed indicator = true := by
  have listed (startInt stopInt : Int) : ∀ indicator ∈ (sessionRange db startInt stopInt).map fun entry =>
      entry.2.indicator, db.listed indicator = true := by
    intro indicator chosen
    obtain ⟨entry, member, rfl⟩ := List.mem_map.mp chosen
    exact List.any_eq_true.mpr ⟨entry, (List.mem_filter.mp member).1, decide_eq_true rfl⟩
  cases range : getSliceStartEndRange startEndRange billion with
  | error message =>
      rw [removeSelect, removeQuery, range] at selected
      cases selected
  | ok slice =>
      obtain ⟨start, stop⟩ := slice
      cases first : atoi start with
      | none =>
          simp only [removeSelect, removeQuery, range, bind, Except.bind, getStartAndEndRangeInt, first]
            at selected
          cases selected
      | some startInt =>
          cases last : atoi stop with
          | none =>
              simp only [removeSelect, removeQuery, range, bind, Except.bind, getStartAndEndRangeInt, first,
                last] at selected
              cases selected
          | some stopInt =>
              rw [removeSelect_range db range first last] at selected
              obtain rfl := Except.ok.inj selected
              exact listed startInt stopInt

end Selection

/-! What the statements of a removal leave. -/
section Removal

variable (db : RowidDatabase)

def withoutSession (db : RowidDatabase) (indicator : Long) : RowidDatabase :=
  (db.dropTable indicator).deleteWhere (withIndicator indicator)

theorem execIgnored_drop (indicator : Long) :
    execIgnored db (dropText (decimal indicator)) = db.dropTable indicator := by
  rw [execIgnored, execute_dropText]
  by_cases there : (db.table indicator).isSome
  · rw [if_pos there]
  · rw [if_neg there]
    exact (dropTable_absent db indicator (Option.not_isSome_iff_eq_none.mp there)).symm

theorem execIgnored_delete (indicator : Long) :
    execIgnored db (deleteText (decimal indicator)) = db.deleteWhere (withIndicator indicator) := by
  rw [execIgnored, execute_deleteText]

theorem removeSession_without (indicator : Long) :
    removeSession db indicator = withoutSession db indicator := by
  rw [removeSession, execIgnored_drop, execIgnored_delete]
  rfl

theorem removeSessions_tables (indicators : List Long) :
    (indicators.foldl removeSession db).tables =
      db.tables.filter fun table => table.1 ∉ indicators := by
  induction indicators generalizing db with
  | nil => simp
  | cons indicator rest ih =>
      rw [List.foldl_cons, ih, removeSession_without]
      simp only [withoutSession, RowidDatabase.deleteWhere, RowidDatabase.dropTable, List.filter_filter]
      apply List.filter_congr
      intro table _
      simp [Bool.and_comm]

theorem removeSessions_metaTable (indicators : List Long) :
    (indicators.foldl removeSession db).metaTable =
      db.metaTable.filter fun entry => entry.2.indicator ∉ indicators := by
  induction indicators generalizing db with
  | nil => simp
  | cons indicator rest ih =>
      rw [List.foldl_cons, ih, removeSession_without]
      simp only [withoutSession, RowidDatabase.deleteWhere, RowidDatabase.dropTable, List.filter_filter]
      apply List.filter_congr
      intro entry _
      simp [withIndicator, Bool.and_comm]

end Removal

end Nhi
