import Nhi.Filters
import Nhi.SessionQuery

/-!
The statements of pkg/ that change the database: a table is dropped, and rows of
`meta` are deleted or get another name.
-/

namespace Nhi

open Sql (ascii)

/-- `db.Exec`: the database after it, an error, or a text that is not a plain
statement of this kind. -/
inductive Executed where
  | done (after : RowidDatabase)
  | failed
  | unread

namespace RowidDatabase

def dropTable (db : RowidDatabase) (indicator : Long) : RowidDatabase :=
  { db with tables := db.tables.filter fun table => table.1 ≠ indicator }

def deleteWhere (db : RowidDatabase) (test : Nat → MetaRow → Bool) : RowidDatabase :=
  { db with metaTable := db.metaTable.filter fun entry => !test entry.1 entry.2 }

def renameWhere (db : RowidDatabase) (test : Nat → MetaRow → Bool) (name : Text) : RowidDatabase :=
  { db with metaTable := db.metaTable.map fun entry =>
      if test entry.1 entry.2 then (entry.1, { entry.2 with name := name }) else entry }

def execute (db : RowidDatabase) (text : Text) : Executed :=
  match Sql.parseText text with
  | some (.dropTable name) =>
      if isMeta name = true then .unread
      else if (db.tableNamed name).isSome then
        .done { db with tables := db.tables.filter fun table => decimal table.1 ≠ name }
      else .failed
  | some (.delete name conditions) =>
      if isMeta name = true then
        match Sql.conditionTest metaSchema db.rowids conditions with
        | some test => .done (db.deleteWhere test)
        | none => .unread
      else .unread
  | some (.update name column text conditions) =>
      if isMeta name = true ∧ column = ascii "name" then
        match Sql.conditionTest metaSchema db.rowids conditions with
        | some test => .done (db.renameWhere test text)
        | none => .unread
      else .unread
  | some (.select _) | none => .unread

end RowidDatabase

section Texts

def dropText (indicator : Text) : Text := ascii "DROP TABLE `" ++ indicator ++ ascii "`;"

def deleteText (indicator : Text) : Text :=
  ascii "DELETE FROM `meta` WHERE indicator = '" ++ indicator ++ ascii "';"

def updateText (name indicator : Text) : Text :=
  ascii "UPDATE `meta` SET name='" ++ name ++ ascii "' WHERE indicator = '" ++ indicator ++ ascii "';"

theorem parse_dropText {indicator : Text} (noQuote : 96#8 ∉ indicator) (noNul : 0#8 ∉ indicator) :
    Sql.parseText (dropText indicator) = some (.dropTable indicator) := by
  have opened : Sql.run ⟨[], .start⟩ (ascii "DROP TABLE `") =
      ⟨[Sql.keyword "table", Sql.keyword "drop"], .name []⟩ := rfl
  rw [Sql.parseText, Sql.lex, dropText, List.append_assoc, Sql.run_append, opened, Sql.run_append,
    Sql.run_name noQuote noNul]
  rfl

def indicatorIs (indicator : Text) : Sql.Comparison := ⟨ascii "indicator", .equal, .text indicator⟩

theorem parse_deleteText {indicator : Text} (noQuote : 39#8 ∉ indicator) (noNul : 0#8 ∉ indicator) :
    Sql.parseText (deleteText indicator) = some (.delete (ascii "meta") [indicatorIs indicator]) := by
  have opened : Sql.run ⟨[], .start⟩ (ascii "DELETE FROM `meta` WHERE indicator = '") =
      ⟨[.symbol .equal, .word (ascii "indicator"), Sql.keyword "where", .name (ascii "meta"),
        Sql.keyword "from", Sql.keyword "delete"], .text []⟩ := rfl
  rw [Sql.parseText, Sql.lex, deleteText, List.append_assoc, Sql.run_append, opened, Sql.run_append,
    Sql.run_text noQuote noNul]
  rfl

theorem parse_updateText {name indicator : Text} (noQuote : 39#8 ∉ name) (noNul : 0#8 ∉ name)
    (noQuote' : 39#8 ∉ indicator) (noNul' : 0#8 ∉ indicator) :
    Sql.parseText (updateText name indicator) =
      some (.update (ascii "meta") (ascii "name") name [indicatorIs indicator]) := by
  have opened : Sql.run ⟨[], .start⟩ (ascii "UPDATE `meta` SET name='") =
      ⟨[.symbol .equal, .word (ascii "name"), Sql.keyword "set", .name (ascii "meta"),
        Sql.keyword "update"], .text []⟩ := rfl
  have next (before : List Sql.Token) (bytes : Text) :
      Sql.run ⟨before, .text bytes⟩ (ascii "' WHERE indicator = '") =
        ⟨.symbol .equal :: .word (ascii "indicator") :: Sql.keyword "where" :: .text bytes :: before,
          .text []⟩ := rfl
  rw [Sql.parseText, Sql.lex, updateText, List.append_assoc, List.append_assoc, List.append_assoc,
    Sql.run_append, opened, Sql.run_append, Sql.run_text noQuote noNul, Sql.run_append, next,
    Sql.run_append, Sql.run_text noQuote' noNul']
  rfl

end Texts

/-! What these texts do, for the indicator of a session. -/
section Executed

variable (db : RowidDatabase) (indicator : Long)

def withIndicator (_rowid : Nat) (row : MetaRow) : Bool := row.indicator = indicator

theorem indicatorIs_test :
    Sql.conditionTest metaSchema db.rowids [indicatorIs (decimal indicator)] =
      some (withIndicator indicator) := by
  have found : Sql.columnOf metaSchema (ascii "indicator") =
      some ⟨.integer, fun _ row => .integer row.indicator.toInt⟩ := rfl
  refine Sql.conditionTest_singleton ((test_quoted indicator found rfl).trans ?_)
  congr 1
  funext rowid row
  rw [withIndicator, decide_eq_decide, Sql.compare_integer]
  exact ⟨fun same => BitVec.eq_of_toInt_eq same, fun same => congrArg BitVec.toInt same⟩

theorem execute_dropText :
    db.execute (dropText (decimal indicator)) =
      if (db.table indicator).isSome then .done (db.dropTable indicator) else .failed := by
  have same : (fun table : Long × List (Nat × Row) => decide (decimal table.1 ≠ decimal indicator)) =
      fun table => decide (table.1 ≠ indicator) := by
    funext table
    rw [decide_eq_decide]
    exact not_congr ⟨decimal_injective, fun equal => equal ▸ rfl⟩
  rw [RowidDatabase.execute, parse_dropText (decimal_noQuote indicator) (decimal_noNul indicator)]
  simp only [RowidDatabase.decimal_not_meta, RowidDatabase.tableNamed_decimal, same]
  rfl

theorem execute_deleteText :
    db.execute (deleteText (decimal indicator)) = .done (db.deleteWhere (withIndicator indicator)) := by
  have here : RowidDatabase.isMeta (ascii "meta") = true := rfl
  rw [RowidDatabase.execute, parse_deleteText (decimal_plain indicator).1 (decimal_plain indicator).2]
  simp only [here, if_true, indicatorIs_test]

theorem execute_updateText {name : Text} (plain : Plain name) :
    db.execute (updateText name (decimal indicator)) =
      .done (db.renameWhere (withIndicator indicator) name) := by
  have here : RowidDatabase.isMeta (ascii "meta") = true := rfl
  rw [RowidDatabase.execute, parse_updateText plain.1 plain.2 (decimal_plain indicator).1
    (decimal_plain indicator).2]
  simp only [here, true_and, if_true, indicatorIs_test]

theorem dropTable_absent (absent : db.table indicator = none) : db.dropTable indicator = db := by
  have all : db.tables.filter (fun table => table.1 ≠ indicator) = db.tables := by
    rw [List.filter_eq_self]
    intro table member
    simp only [RowidDatabase.table, Option.map_eq_none_iff, List.find?_eq_none] at absent
    simpa using absent table member
  rw [RowidDatabase.dropTable, all]

theorem table_dropTable (other : Long) :
    (db.dropTable indicator).table other = if other = indicator then none else db.table other := by
  simp only [RowidDatabase.dropTable, RowidDatabase.table, List.find?_filter]
  split
  · rename_i same
    subst same
    rw [Option.map_eq_none_iff, List.find?_eq_none]
    simp
  · rename_i apart
    have same : (fun table : Long × List (Nat × Row) => decide (decide (table.1 ≠ indicator) = true ∧
        decide (table.1 = other) = true)) = fun table => decide (table.1 = other) := by
      funext table
      simp only [decide_eq_true_eq, decide_eq_decide, and_iff_right_iff_imp]
      rintro rfl
      exact apart
    rw [same]

def RowidDatabase.listed (db : RowidDatabase) (indicator : Long) : Bool :=
  db.metaTable.any fun entry => entry.2.indicator = indicator

theorem listed_deleteWhere (other : Long) :
    (db.deleteWhere (withIndicator indicator)).listed other =
      if other = indicator then false else db.listed other := by
  rw [RowidDatabase.deleteWhere, RowidDatabase.listed, List.any_filter]
  split
  · rename_i same
    subst same
    simp [withIndicator]
  · rename_i apart
    rw [RowidDatabase.listed]
    congr 1
    funext entry
    by_cases here : entry.2.indicator = other
    · simp [withIndicator, here, apart]
    · simp [here]

theorem deleteWhere_unlisted (absent : db.listed indicator = false) :
    db.deleteWhere (withIndicator indicator) = db := by
  have all : db.metaTable.filter (fun entry => !withIndicator indicator entry.1 entry.2) = db.metaTable := by
    rw [List.filter_eq_self]
    intro entry member
    simp only [RowidDatabase.listed, List.any_eq_false, decide_eq_true_eq] at absent
    simp [withIndicator, absent entry member]
  rw [RowidDatabase.deleteWhere, all]

end Executed

end Nhi
