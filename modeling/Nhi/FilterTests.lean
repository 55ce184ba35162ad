import Nhi.Filters
import Nhi.SessionQuery

/-!
What the filters ask of a row.
-/

namespace Nhi

open Sql (ascii Value)

def exitTest (exitStatus : Text) (row : Row) : Bool :=
  if exitStatus = [] then true
  else if 3 ≤ exitStatus.length ∧ exitStatus.take 3 = ascii "not" then
    row.exitStatus.any fun status => status ≠ exitStatus.drop 3
  else row.exitStatus = some exitStatus

def directoryTest (directory : Text) (row : Row) : Bool :=
  directory = [] || row.pwd = some (trimmedDirectory directory)

def beforeTest (latest : Option Long) (row : Row) : Bool :=
  latest.all fun seconds => row.startTime.any fun time => time.toInt < seconds.toInt

def afterTest (earliest : Option Long) (row : Row) : Bool :=
  earliest.all fun seconds => row.startTime.any fun time => seconds.toInt < time.toInt

section Tests

variable {rowids : Text → Option (List Nat)}

theorem textValue_equal {value : Option Text} {bytes : Text} :
    Sql.compare .equal (textValue value) (.text bytes) = some true ↔ value = some bytes := by
  rw [Sql.equal_text]
  cases value <;> simp [textValue]

theorem textValue_notEqual {value : Option Text} {bytes : Text} :
    Sql.compare .notEqual (textValue value) (.text bytes) = some true ↔
      value.any (fun text => text ≠ bytes) = true := by
  rw [Sql.notEqual_text]
  cases value <;> simp [textValue]

theorem exitPhrase_test {exitStatus : Text} (plain : Plain exitStatus) (given : exitStatus ≠ []) :
    (exitPhrase exitStatus plain).comparison.test sessionSchema rowids =
      some fun _ row => exitTest exitStatus row := by
  have column : Sql.columnOf sessionSchema (ascii "exit_status") =
      some ⟨.text, fun _ row => textValue row.exitStatus⟩ := rfl
  rw [exitPhrase]
  split
  · rename_i negated
    refine (test_text _ column rfl).trans ?_
    congr 1
    funext rowid row
    rw [exitTest, if_neg given, if_pos negated, Bool.eq_iff_iff, decide_eq_true_eq]
    exact textValue_notEqual
  · rename_i plainly
    refine (test_text _ column rfl).trans ?_
    congr 1
    funext rowid row
    rw [exitTest, if_neg given, if_neg plainly, decide_eq_decide]
    exact textValue_equal

theorem directoryPhrase_test {directory : Text} (plain : Plain directory) (given : directory ≠ []) :
    (directoryPhrase directory plain).comparison.test sessionSchema rowids =
      some fun _ row => directoryTest directory row := by
  have column : Sql.columnOf sessionSchema (ascii "pwd") =
      some ⟨.text, fun _ row => textValue row.pwd⟩ := rfl
  refine (test_text _ column rfl).trans ?_
  congr 1
  funext rowid row
  rw [directoryTest, decide_eq_false given, Bool.false_or, decide_eq_decide]
  exact textValue_equal

theorem startTime_column :
    Sql.columnOf sessionSchema (ascii "start_time") =
      some ⟨.integer, fun _ row => longValue row.startTime⟩ := rfl

theorem beforePhrase_test (seconds : Long) :
    (beforePhrase seconds).comparison.test sessionSchema rowids =
      some fun _ row => beforeTest (some seconds) row := by
  refine (test_quoted seconds startTime_column rfl).trans ?_
  congr 1
  funext rowid row
  rw [Bool.eq_iff_iff, decide_eq_true_eq, longValue_compare]
  rfl

theorem afterPhrase_test (seconds : Long) :
    (afterPhrase seconds).comparison.test sessionSchema rowids =
      some fun _ row => afterTest (some seconds) row := by
  refine (test_quoted seconds startTime_column rfl).trans ?_
  congr 1
  funext rowid row
  rw [Bool.eq_iff_iff, decide_eq_true_eq, longValue_compare]
  rfl

end Tests

end Nhi
