import Nhi.EventHandling
import Nhi.GoText
import Nhi.SqlClauses
import Nhi.SqlRows

/-!
The session tables and `meta` under the queries of pkg/. Query texts are read as
SQLite reads them; a text outside the plain statements gets no answer here.
-/

namespace Nhi

open RowidTable
open Sql (ascii Value Affinity Column Schema Comparison Operator Operand Numeral Comparator Right Phrase
  Tail)

section Columns

def textValue (value : Option Text) : Value := (value.map Value.text).getD .null

def longValue (value : Option Long) : Value := (value.map fun value => Value.integer value.toInt).getD .null

def sessionSchema : Schema Row := fun name =>
  if name = ascii "ps1" then some ⟨.text, fun _ row => textValue row.PS1⟩
  else if name = ascii "command" then some ⟨.text, fun _ row => textValue row.command⟩
  else if name = ascii "output" then some ⟨.blob, fun _ row => .text row.output⟩
  else if name = ascii "exit_status" then some ⟨.text, fun _ row => textValue row.exitStatus⟩
  else if name = ascii "pwd" then some ⟨.text, fun _ row => textValue row.pwd⟩
  else if name = ascii "start_time" then some ⟨.integer, fun _ row => longValue row.startTime⟩
  else if name = ascii "finish_time" then some ⟨.integer, fun _ row => longValue row.finishTime⟩
  else if name = ascii "indicator" then some ⟨.integer, fun _ row => longValue row.indicator⟩
  else none

def metaSchema : Schema MetaRow := fun name =>
  if name = ascii "indicator" then some ⟨.integer, fun _ row => .integer row.indicator.toInt⟩
  else if name = ascii "name" then some ⟨.text, fun _ row => .text row.name⟩
  else if name = ascii "start_time" then some ⟨.integer, fun _ row => .integer row.startTime.toInt⟩
  else if name = ascii "finish_time" then some ⟨.integer, fun _ row => longValue row.finishTime⟩
  else none

end Columns

namespace RowidDatabase

def tableNamed (db : RowidDatabase) (name : Text) : Option (List (Nat × Row)) :=
  (db.tables.find? fun table => decimal table.1 = name).map Prod.snd

def isMeta (name : Text) : Bool := name.map Sql.lower = ascii "meta"

def rowids (db : RowidDatabase) (name : Text) : Option (List Nat) :=
  if isMeta name then some (db.metaTable.map Prod.fst)
  else (db.tableNamed name).map fun table => table.map Prod.fst

end RowidDatabase

/-- `db.Query`: the rows, the error that the table is not there, or a text that
is not a plain query for these columns. -/
inductive Answer (ρ : Type) where
  | rows (rows : List (Nat × ρ))
  | noSuchTable
  | unread

def selectSession (db : RowidDatabase) (columns : List Text) (text : Text) : Answer Row :=
  match Sql.parseText text with
  | some (.select query) =>
      if query.columns = columns ∧ ¬ RowidDatabase.isMeta query.table then
        match db.tableNamed query.table with
        | none => .noSuchTable
        | some table => ((query.rows sessionSchema db.rowids table).map .rows).getD .unread
      else .unread
  | _ => .unread

def selectMeta (db : RowidDatabase) (columns : List Text) (text : Text) : Answer MetaRow :=
  match Sql.parseText text with
  | some (.select query) =>
      if query.columns = columns ∧ RowidDatabase.isMeta query.table then
        ((query.rows metaSchema db.rowids db.metaTable).map .rows).getD .unread
      else .unread
  | _ => .unread

namespace RowidDatabase

variable (db : RowidDatabase) (indicator : Long)

theorem tableNamed_decimal : db.tableNamed (decimal indicator) = db.table indicator := by
  have same (other : Long) : decide (decimal other = decimal indicator) = decide (other = indicator) := by
    apply decide_eq_decide.mpr
    exact ⟨decimal_injective, fun equal => equal ▸ rfl⟩
  simp only [tableNamed, table, same]

theorem decimal_not_meta : isMeta (decimal indicator) = false := by
  rw [isMeta, decide_eq_false_iff_not]
  intro same
  obtain ⟨first, rest, shape⟩ : ∃ first rest, decimal indicator = first :: rest := by
    rcases shape : decimal indicator with _ | ⟨first, rest⟩
    · rw [shape] at same
      cases same
    · exact ⟨first, rest, rfl⟩
  have letter : Sql.lower first = 109#8 := by
    rw [shape] at same
    exact (List.cons.inj same).1
  rcases mem_decimal (shape ▸ List.mem_cons_self : first ∈ decimal indicator) with rfl | ⟨_, high⟩
  · exact absurd letter (by decide)
  · have digit : Sql.lower first = first := by
      have small : ¬ 65#8 ≤ first := by
        rw [BitVec.le_def]
        exact Nat.not_le_of_lt (Nat.lt_of_le_of_lt high (by decide))
      simp [Sql.lower, small]
    rw [digit] at letter
    subst letter
    exact absurd high (by decide)

theorem rowids_decimal :
    db.rowids (decimal indicator) = (db.table indicator).map fun table => table.map Prod.fst := by
  rw [rowids, decimal_not_meta, if_neg (by decide), tableNamed_decimal]

end RowidDatabase

/-! What a comparison tests, by its column and operand. -/
section Tests

variable {ρ : Type} {schema : Schema ρ} {rowids : Text → Option (List Nat)}

theorem test_integer {name : Text} {operator : Operator} {operand : Operand} {column : Column ρ}
    (found : Sql.columnOf schema name = some column) (integers : column.affinity = .integer)
    {value : Int} (right : operand.value rowids = some (.integer value)) :
    Comparison.test schema rowids ⟨name, operator, operand⟩ = some fun rowid row =>
      decide (Sql.compare operator (column.value rowid row) (.integer value) = some true) := by
  simp [Comparison.test, found, right, integers, Sql.convert]

theorem test_null {name : Text} {operator : Operator} {operand : Operand} {column : Column ρ}
    (found : Sql.columnOf schema name = some column) (right : operand.value rowids = some .null) :
    Comparison.test schema rowids ⟨name, operator, operand⟩ = some fun _ _ => false := by
  have null (rowid : Nat) (row : ρ) :
      Sql.compare operator (column.value rowid row) .null ≠ some true := Sql.compare_null.2
  have converted : Sql.convert column.affinity .null = some .null := by
    cases column.affinity <;> rfl
  simp [Comparison.test, found, right, converted, null]

theorem test_rowid (operator : Operator) {operand : Operand} {value : Int}
    (right : operand.value rowids = some (.integer value)) :
    Comparison.test schema rowids ⟨ascii "rowid", operator, operand⟩ = some fun (rowid : Nat) _ =>
      decide (Sql.compare operator (.integer rowid) (.integer value) = some true) :=
  have found : Sql.columnOf schema (ascii "rowid") = some ⟨.integer, fun rowid _ => .integer rowid⟩ :=
    if_pos rfl
  test_integer found rfl right

theorem test_place {operator : Operator} {operand : Operand} {place : Option Int}
    (right : operand.value rowids = some ((place.map Value.integer).getD .null)) :
    Comparison.test schema rowids ⟨ascii "rowid", operator, operand⟩ =
      some fun (rowid : Nat) _ => place.any fun other => operator.Holds rowid other := by
  cases place with
  | none => exact test_null (if_pos rfl) right
  | some other =>
      refine (test_rowid operator right).trans ?_
      congr 1
      funext rowid row
      rw [Option.any_some, decide_eq_decide]
      exact Sql.compare_integer

theorem longValue_compare {operator : Sql.Operator} {value : Option Long} {number : Int} :
    Sql.compare operator (longValue value) (.integer number) = some true ↔
      value.any (fun value => operator.Holds value.toInt number) = true := by
  cases value with
  | none => simp [longValue, Sql.compare_null.1]
  | some value => simp [longValue, Sql.compare_integer]

theorem test_long {name : Text} {operator : Operator} {operand : Operand} {field : ρ → Option Long}
    (found : Sql.columnOf schema name = some ⟨.integer, fun _ row => longValue (field row)⟩)
    {number : Int} (right : operand.value rowids = some (.integer number)) :
    Comparison.test schema rowids ⟨name, operator, operand⟩ =
      some fun _ row => (field row).any fun value => operator.Holds value.toInt number := by
  refine (test_integer found rfl right).trans ?_
  congr 1
  funext rowid row
  rw [Bool.eq_iff_iff, decide_eq_true_eq]
  exact longValue_compare

theorem test_text {name : Text} {operator : Operator} {column : Column ρ} (bytes : Text)
    (found : Sql.columnOf schema name = some column) (texts : column.affinity = .text) :
    Comparison.test schema rowids ⟨name, operator, .text bytes⟩ = some fun rowid row =>
      decide (Sql.compare operator (column.value rowid row) (.text bytes) = some true) := by
  simp [Comparison.test, found, Operand.value, texts, Sql.convert]

theorem test_quoted {name : Text} {operator : Operator} {column : Column ρ} (value : Long)
    (found : Sql.columnOf schema name = some column) (integers : column.affinity = .integer) :
    Comparison.test schema rowids ⟨name, operator, .text (decimal value)⟩ = some fun rowid row =>
      decide (Sql.compare operator (column.value rowid row) (.integer value.toInt) = some true) := by
  have read : Sql.plainInteger (decimal value) = some value.toInt := (decimal_spelled value).read
  simp [Comparison.test, found, Operand.value, integers, Sql.convert, read]

end Tests

section Samples

def sessionOf (indicator : Long) (rows : List Row) : RowidDatabase := ⟨[(indicator, number rows)], []⟩

def completedRow (exitStatus command : Text) : Row :=
  ⟨some (ascii "$ "), some command, [], some exitStatus, some (ascii "/"), some 1#64, some 1#64, some 1#64⟩

def pendingRow : Row := ⟨some (ascii "$ "), none, [], none, some (ascii "/"), none, none, none⟩

end Samples

end Nhi
