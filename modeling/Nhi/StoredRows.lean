import Nhi.EventHandling
import Nhi.FetchTermination

/-!
What holds of every row the daemon stores. A statement keeps it when it holds
of the row a table begins a command with and the change to a row keeps it.
-/

namespace Nhi

open RowidTable

def RowsHold (holds : Row → Prop) (db : Database) : Prop := ∀ table ∈ db.tables, ∀ row ∈ table.2, holds row

def Statement.Preserves (holds : Row → Prop) : Statement → Prop
  | .createRow _ => holds Row.blank
  | .updateLast _ change => ∀ row, holds row → holds (change row)
  | .createTable _ | .metaCreateRow _ | .metaAddFinishTime _ _ => True

section Statements

variable {holds : Row → Prop} {db : Database}

theorem Statement.Preserves.maintains {statement : Statement} (preserves : statement.Preserves holds) :
    statement.Maintains fun _ rows => ∀ row ∈ rows, holds row := by
  cases statement with
  | createTable indicator => exact List.forall_mem_nil _
  | createRow indicator =>
      intro rows all
      rw [List.forall_mem_append, List.forall_mem_singleton]
      exact ⟨all, preserves⟩
  | updateLast indicator change => exact fun rows all => forall_changeLast all fun last _ => preserves last
  | metaCreateRow row => trivial
  | metaAddFinishTime indicator time => trivial

theorem RowsHold.foldl {list : List Statement} (kept : RowsHold holds db)
    (preserves : ∀ statement ∈ list, statement.Preserves holds) :
    RowsHold holds (list.foldl Database.exec db) := by
  have tables : TablesHold (fun _ rows => ∀ row ∈ rows, holds row) db := kept
  exact tables.foldl fun statement member => (preserves statement member).maintains

theorem RowsHold.rows (kept : RowsHold holds db) {indicator : Long} {rows : List Row}
    (found : db.rows indicator = some rows) : ∀ row ∈ rows, holds row := by
  obtain ⟨table, there, rfl⟩ := Option.map_eq_some_iff.mp found
  exact kept table (List.mem_of_find?_eq_some there)

end Statements

/-! The outputs. -/
section Outputs

variable {holds : Text → Prop}

theorem statements_outputs {handling : Handling} {list : List Statement} (blank : holds [])
    (linked : handling.opens.isSome → ∀ text, holds text → holds (text ++ parentLink handling.opening))
    (written : ∀ bytes ∈ StoreStep.recorded (.handle handling), ∀ text, holds text → holds (text ++ bytes))
    (result : statements handling = some list) :
    ∀ statement ∈ list, statement.Preserves fun row => holds row.output := by
  intro statement member
  have writes := statements_write result statement member
  cases statement with
  | createRow => exact blank
  | updateLast indicator change =>
      intro row held
      cases writes with
      | same stays => rwa [stays]
      | link opens appends =>
          rw [appends]
          exact linked opens row.output held
      | write bytes recorded appends =>
          rw [appends]
          exact written bytes recorded row.output held
  | createTable | metaCreateRow | metaAddFinishTime => trivial

end Outputs

end Nhi
