import Nhi.RowidTable
import Nhi.System

/-!
The handlers of the daemon as a transition of the database: `handled` runs the
handler of one event to its end. What a handler does is a list of SQL
statements, and these are also run on tables that carry their rowids, as SQLite
keeps them.
-/

namespace Nhi

open RowidTable

/-- One event with all its handler learns from outside. What is read of `shells`
can be anything, as kernel programs change it at any time. -/
structure Handling where
  call : HandlerCall
  opening : Opening
  closing : Closing
  outside : Outside
  shells : Shells

def handled (handling : Handling) (db : Database) : Option Database :=
  match handling.call with
  | .handleKillSIGUSR killEvent =>
      let created := createSession handling.opening killEvent db
      match finishSession handling.closing killEvent (getIndicator handling.opening.now) created with
      | .failed => some created
      | .entered db _ => some db
      | .crashed => none
  | call =>
      match handle handling.outside handling.shells db call with
      | (.crashed, _) => none
      | (_, db) => some db

def Handling.opens (handling : Handling) : Option Long :=
  match handling.call with
  | .handleKillSIGUSR _ => some (getIndicator handling.opening.now)
  | _ => none

theorem Handling.opens_call {handling : Handling} {indicator : Long} (opens : handling.opens = some indicator) :
    ∃ killEvent, handling.call = .handleKillSIGUSR killEvent ∧ indicator = getIndicator handling.opening.now := by
  cases call : handling.call with
  | handleKillSIGUSR killEvent => exact ⟨killEvent, rfl, by simpa [Handling.opens, call, eq_comm] using opens⟩
  | handleKillSIGRTMIN | handleChildCreation | handleShellExit | handleWrite =>
      simp [Handling.opens, call] at opens

def dbStep (db : Database) (handling : Handling) : Option Database := handled handling db

inductive Statement where
  | createTable (indicator : Long)
  | createRow (indicator : Long)
  | updateLast (indicator : Long) (change : Row → Row)
  | metaCreateRow (row : MetaRow)
  | metaAddFinishTime (indicator time : Long)

def Row.blank : Row := ⟨none, none, [], none, none, none, none, none⟩

def Row.setPS1 (text : Text) (row : Row) : Row := { row with PS1 := some text }
def Row.setPwd (text : Text) (row : Row) : Row := { row with pwd := some text }
def Row.setCommand (text : Text) (row : Row) : Row := { row with command := some text }
def Row.setExitStatus (text : Text) (row : Row) : Row := { row with exitStatus := some text }
def Row.setFinishTime (time : Long) (row : Row) : Row := { row with finishTime := some time }
def Row.setIndicator (value : Long) (row : Row) : Row := { row with indicator := some value }
def Row.appendOutput (bytes : Text) (row : Row) : Row := { row with output := row.output ++ bytes }
def Row.setStartTime (time : Long) (row : Row) : Row :=
  if row.startTime.isNone then { row with startTime := some time } else row

def creationStatements (opening : Opening) (killEvent : KillEvent) : List Statement :=
  let indicator := getIndicator opening.now
  (if killEvent.parentShellIndicator ≠ 0#64 then
      [.updateLast killEvent.parentShellIndicator (Row.appendOutput (parentLink opening))]
    else []) ++
  [.createTable indicator, .createRow indicator,
    .metaCreateRow ⟨indicator, (cString opening.name (decimal indicator)).toList.take 11,
      opening.time, none⟩]

/-- The statements of a handler; none for one the daemon dies in. -/
def statements (handling : Handling) : Option (List Statement) :=
  match handling.call with
  | .handleKillSIGUSR killEvent =>
      let indicator := getIndicator handling.opening.now
      let creation := creationStatements handling.opening killEvent
      let closing := handling.closing
      if closing.environAddress = 0#64 ∨ closing.psOutput.bind (fgets 8) = none then some creation
      else
        closing.PS1.bind fun PS1 => closing.pwd.map fun pwd => creation ++
          [.updateLast indicator (Row.setPS1 PS1), .updateLast indicator (Row.setPwd pwd)]
  | .handleKillSIGRTMIN killEvent _ =>
      let indicator := indicatorOf handling.shells killEvent.shellPid
      let ending := handling.outside.ending
      ending.command.bind fun command => ending.exitStatus.bind fun exitStatus =>
      ending.PS1.bind fun PS1 => ending.pwd.map fun pwd =>
        [.updateLast indicator (Row.setCommand command),
          .updateLast indicator (Row.setExitStatus exitStatus),
          .updateLast indicator (Row.setFinishTime ending.time),
          .updateLast indicator (Row.setIndicator (getIndicator ending.now)),
          .createRow indicator,
          .updateLast indicator (Row.setPS1 PS1),
          .updateLast indicator (Row.setPwd pwd)]
  | .handleChildCreation shellPid =>
      some [.updateLast (indicatorOf handling.shells shellPid)
        (Row.setStartTime handling.outside.time)]
  | .handleShellExit indicator => some [.metaAddFinishTime indicator handling.outside.time]
  | .handleWrite indicator output outputLen =>
      some [.updateLast indicator (Row.appendOutput (output.take outputLen))]

def Database.exec (db : Database) : Statement → Database
  | .createTable indicator => db.createTable indicator
  | .createRow indicator => db.createRow indicator
  | .updateLast indicator change => db.updateLast indicator change
  | .metaCreateRow row => { db with metaTable := db.metaTable ++ [row] }
  | .metaAddFinishTime indicator time => db.metaAddFinishTime indicator time

theorem statements_creation {handling : Handling} {killEvent : KillEvent} {list : List Statement}
    (call : handling.call = .handleKillSIGUSR killEvent) (written : statements handling = some list) :
    list = creationStatements handling.opening killEvent ∨
      ∃ PS1 pwd, list = creationStatements handling.opening killEvent ++
        [.updateLast (getIndicator handling.opening.now) (Row.setPS1 PS1),
          .updateLast (getIndicator handling.opening.now) (Row.setPwd pwd)] := by
  simp only [statements, call] at written
  split at written
  · exact Or.inl (Option.some.inj written).symm
  · simp only [Option.bind_eq_some_iff, Option.map_eq_some_iff] at written
    obtain ⟨PS1, _, pwd, _, rfl⟩ := written
    exact Or.inr ⟨PS1, pwd, rfl⟩

theorem statements_completion {handling : Handling} {killEvent : KillEvent} {dataSz : Nat} {list : List Statement}
    (call : handling.call = .handleKillSIGRTMIN killEvent dataSz) (written : statements handling = some list) :
    ∃ command exitStatus PS1 pwd, handling.outside.ending.command = some command ∧
      list = [Row.setCommand command, Row.setExitStatus exitStatus,
          Row.setFinishTime handling.outside.ending.time,
          Row.setIndicator (getIndicator handling.outside.ending.now)].map
            (.updateLast (indicatorOf handling.shells killEvent.shellPid)) ++
        .createRow (indicatorOf handling.shells killEvent.shellPid) ::
          [Row.setPS1 PS1, Row.setPwd pwd].map (.updateLast (indicatorOf handling.shells killEvent.shellPid)) := by
  simp only [statements, call, Option.bind_eq_some_iff, Option.map_eq_some_iff] at written
  obtain ⟨command, line, exitStatus, _, PS1, _, pwd, _, rfl⟩ := written
  exact ⟨command, exitStatus, PS1, pwd, line, rfl⟩

theorem createSession_exec (opening : Opening) (killEvent : KillEvent) (db : Database) :
    createSession opening killEvent db =
      (creationStatements opening killEvent).foldl Database.exec db := by
  by_cases orphan : killEvent.parentShellIndicator = 0#64
  · simp [createSession, creationStatements, orphan, Database.exec, Database.metaCreateRow]
  · simp only [createSession, creationStatements, orphan, ne_eq, not_false_eq_true, if_true]
    rfl

theorem handled_exec (handling : Handling) (db : Database) :
    handled handling db = (statements handling).map fun list => list.foldl Database.exec db := by
  obtain ⟨call, opening, closing, outside, shells⟩ := handling
  cases call with
  | handleKillSIGUSR killEvent =>
      simp only [handled, statements, finishSession]
      rw [createSession_exec]
      by_cases lost : closing.environAddress = 0#64
      · simp [lost]
      · cases line : closing.psOutput.bind (fgets 8) with
        | none => simp [lost]
        | some line =>
            cases prompt : closing.PS1 with
            | none => simp [lost, Database.addPS1]
            | some PS1 =>
                cases directory : closing.pwd with
                | none => simp [lost, Database.addPS1, Database.addPwd]
                | some pwd =>
                    simp only [lost, Database.addPS1, Database.addPwd, Option.map_some,
                      Option.bind_some, reduceCtorEq, or_self, if_false, List.foldl_append]
                    rfl
  | handleKillSIGRTMIN killEvent dataSz =>
      simp only [handled, statements, handle, handleKillSIGRTMIN]
      cases outside.ending.command with
      | none => rfl
      | some command =>
          cases outside.ending.exitStatus with
          | none => rfl
          | some exitStatus =>
              cases outside.ending.PS1 with
              | none => rfl
              | some PS1 =>
                  cases outside.ending.pwd with
                  | none => rfl
                  | some pwd => rfl
  | handleChildCreation shellPid => rfl
  | handleShellExit indicator => rfl
  | handleWrite indicator output outputLen => rfl

/-! One table under the statements. -/
section Rows

def Statement.onRows (other : Long) (rows : Option (List Row)) : Statement → Option (List Row)
  | .createTable indicator => if other = indicator then some (rows.getD []) else rows
  | .createRow indicator => rows.map fun rows => if other = indicator then rows ++ [Row.blank] else rows
  | .updateLast indicator change =>
      rows.map fun rows => if other = indicator then changeLast change rows else rows
  | .metaCreateRow _ | .metaAddFinishTime _ _ => rows

theorem rows_createTable (db : Database) (indicator other : Long) :
    (db.createTable indicator).rows other =
      if other = indicator then some ((db.rows other).getD []) else db.rows other := by
  simp only [Database.createTable]
  by_cases here : other = indicator
  · subst other
    cases found : db.rows indicator with
    | some rows => simp [found]
    | none =>
        have absent : db.tables.find? (fun table => table.1 = indicator) = none := by
          simpa [Database.rows] using found
        simp [Database.rows, List.find?_append, absent]
  · rw [if_neg here]
    split
    · rfl
    · simp [Database.rows, List.find?_append, Ne.symm here]

theorem rows_exec (db : Database) (other : Long) (statement : Statement) :
    (db.exec statement).rows other = statement.onRows other (db.rows other) := by
  cases statement with
  | createTable indicator =>
      rw [Database.exec, rows_createTable]
      rfl
  | createRow indicator => exact Database.rows_mapTable db indicator _ other
  | updateLast indicator change => exact Database.rows_mapTable db indicator _ other
  | metaCreateRow row => rfl
  | metaAddFinishTime indicator time => rfl

theorem rows_foldl (db : Database) (other : Long) (list : List Statement) :
    (list.foldl Database.exec db).rows other =
      list.foldl (Statement.onRows other) (db.rows other) :=
  (List.foldl_hom (Database.rows · other) fun db statement =>
    (rows_exec db other statement).symm).symm

end Rows

/-! What holds of every table. -/
section Tables

def TablesHold (holds : Long → List Row → Prop) (db : Database) : Prop :=
  ∀ table ∈ db.tables, holds table.1 table.2

def Statement.Maintains (holds : Long → List Row → Prop) : Statement → Prop
  | .createTable indicator => holds indicator []
  | .createRow indicator => ∀ rows, holds indicator rows → holds indicator (rows ++ [Row.blank])
  | .updateLast indicator change => ∀ rows, holds indicator rows → holds indicator (changeLast change rows)
  | .metaCreateRow _ | .metaAddFinishTime _ _ => True

variable {holds : Long → List Row → Prop} {db : Database}

theorem TablesHold.mapTable {indicator : Long} {change : List Row → List Row} (kept : TablesHold holds db)
    (maintains : ∀ rows, holds indicator rows → holds indicator (change rows)) :
    TablesHold holds (db.mapTable indicator change) := by
  intro table member
  obtain ⟨old, there, rfl⟩ := List.mem_map.mp member
  split
  · rename_i here
    rw [← here] at maintains
    exact maintains old.2 (kept old there)
  · exact kept old there

theorem TablesHold.exec {statement : Statement} (kept : TablesHold holds db)
    (maintains : statement.Maintains holds) : TablesHold holds (db.exec statement) := by
  cases statement with
  | createTable indicator =>
      rw [Database.exec, Database.createTable]
      split
      · exact kept
      · intro table member
        rcases List.mem_append.mp member with old | new
        · exact kept table old
        · rw [List.mem_singleton.mp new]
          exact maintains
  | createRow indicator => exact kept.mapTable maintains
  | updateLast indicator change => exact kept.mapTable maintains
  | metaCreateRow row => exact kept
  | metaAddFinishTime indicator time => exact kept

theorem TablesHold.foldl {list : List Statement} (kept : TablesHold holds db)
    (maintains : ∀ statement ∈ list, statement.Maintains holds) :
    TablesHold holds (list.foldl Database.exec db) := by
  induction list generalizing db with
  | nil => exact kept
  | cons statement rest ih =>
      obtain ⟨first, others⟩ := List.forall_mem_cons.mp maintains
      exact ih (kept.exec first) others

end Tables

/-! The same statements on tables with rowids. -/
section Rowids

structure RowidDatabase where
  tables : List (Long × List (Nat × Row))
  metaTable : List (Nat × MetaRow)

namespace RowidDatabase

def empty : RowidDatabase := ⟨[], []⟩

def table (db : RowidDatabase) (indicator : Long) : Option (List (Nat × Row)) :=
  (db.tables.find? fun table => table.1 = indicator).map Prod.snd

def mapTable (db : RowidDatabase) (indicator : Long)
    (change : List (Nat × Row) → List (Nat × Row)) : RowidDatabase :=
  { db with tables := db.tables.map fun table =>
      if table.1 = indicator then (table.1, change table.2) else table }

def exec (db : RowidDatabase) : Statement → RowidDatabase
  | .createTable indicator =>
      if (db.table indicator).isSome then db
      else { db with tables := db.tables ++ [(indicator, [])] }
  | .createRow indicator => db.mapTable indicator fun table => insert table Row.blank
  | .updateLast indicator change => db.mapTable indicator fun table => updateMax table change
  | .metaCreateRow row => { db with metaTable := insert db.metaTable row }
  | .metaAddFinishTime indicator time =>
      { db with metaTable := db.metaTable.map fun entry =>
          if entry.2.indicator = indicator then (entry.1, { entry.2 with finishTime := some time })
          else entry }

def step (db : RowidDatabase) (handling : Handling) : Option RowidDatabase :=
  (statements handling).map fun list => list.foldl exec db

end RowidDatabase

def Database.numbered (db : Database) : RowidDatabase :=
  ⟨db.tables.map fun table => (table.1, number table.2), number db.metaTable⟩

theorem numbered_table (db : Database) (indicator : Long) :
    db.numbered.table indicator = (db.rows indicator).map number := by
  simp only [Database.numbered, RowidDatabase.table, Database.rows, List.find?_map, Option.map_map]
  rfl

theorem numbered_mapTable (db : Database) (indicator : Long) (change : List Row → List Row)
    (rowidChange : List (Nat × Row) → List (Nat × Row))
    (commutes : ∀ rows, rowidChange (number rows) = number (change rows)) :
    (db.mapTable indicator change).numbered = db.numbered.mapTable indicator rowidChange := by
  simp only [Database.numbered, Database.mapTable, RowidDatabase.mapTable, List.map_map]
  congr 1
  apply List.map_congr_left
  intro table _
  by_cases here : table.1 = indicator <;> simp [here, commutes]

/-- Each statement does the same with rowids and without. -/
theorem numbered_exec (db : Database) (statement : Statement) :
    (db.exec statement).numbered = db.numbered.exec statement := by
  cases statement with
  | createTable indicator =>
      simp only [Database.exec, RowidDatabase.exec, Database.createTable, numbered_table,
        Option.isSome_map]
      split
      · rfl
      · simp [Database.numbered, number]
  | createRow indicator =>
      exact numbered_mapTable db indicator (fun rows => rows ++ [Row.blank])
        (fun table => insert table Row.blank) fun rows => insert_number rows Row.blank
  | updateLast indicator change =>
      exact numbered_mapTable db indicator (changeLast change)
        (fun table => updateMax table change) fun rows => updateMax_number rows change
  | metaCreateRow row => simp [Database.exec, RowidDatabase.exec, Database.numbered, insert_number]
  | metaAddFinishTime indicator time =>
      simp only [Database.exec, RowidDatabase.exec, Database.numbered, Database.metaAddFinishTime,
        number_map]
      congr 1
      apply List.map_congr_left
      intro entry _
      by_cases here : entry.2.indicator = indicator <;> simp [here]

theorem numbered_step (db : Database) (handling : Handling) :
    db.numbered.step handling = (handled handling db).map Database.numbered := by
  rw [handled_exec, RowidDatabase.step, Option.map_map]
  congr 1
  funext list
  exact List.foldl_hom Database.numbered fun db statement => (numbered_exec db statement).symm

end Rowids

end Nhi
