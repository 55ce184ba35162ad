import Nhi.SessionTables

/-!
What the rows of a command can lack. The prompt and the directory are stored
together, and so are the command, its exit status, its finish time and its
indicator; the start time has an event of its own, which may not come.
-/

namespace Nhi

open RowidTable RunHistory

structure Row.Begun (row : Row) : Prop where
  command : row.command = none
  prompt : row.pwd.isSome = row.PS1.isSome

/-- What an event does to the table of a session, also where it fails to read
all it asks for, and where the session is not new. -/
inductive TableStep (handling : Handling) (indicator : Long) :
    Option (List Row) → Option (List Row) → Prop where
  | touched (rows : Option (List Row)) (change : Row → Row) : Touches handling change →
      TableStep handling indicator rows (rows.map (changeLast change))
  | opened (rows : Option (List Row)) (change : Row → Row) (row : Row) : Touches handling change → row.Begun →
      TableStep handling indicator rows (some (changeLast change (rows.getD []) ++ [row]))
  | closed (rows : Option (List Row)) (command exitStatus PS1 pwd : Text) :
      handling.completes = some (indicator, command) →
      TableStep handling indicator rows (rows.map fun rows =>
        changeLast (Row.close command exitStatus handling.outside.ending) rows ++ [Row.opened PS1 pwd])

section Step

variable {handling : Handling} {db after : Database}

theorem TableStep.same (rows : Option (List Row)) (indicator : Long) :
    TableStep handling indicator rows rows := by
  have step : TableStep handling indicator rows (rows.map (changeLast id)) :=
    .touched rows id (touches_id handling)
  rwa [funext changeLast_id, Option.map_id_apply'] at step

theorem updated_tableStep (indicator other : Long) {change : Row → Row} (touches : Touches handling change)
    (rows : Option (List Row)) :
    TableStep handling other rows (Statement.onRows other rows (.updateLast indicator change)) := by
  rw [Statement.onRows]
  by_cases here : other = indicator
  · simpa only [here, if_true] using TableStep.touched rows change touches
  · simpa only [here, if_false, Option.map_id_apply'] using TableStep.same rows other

theorem created_tableStep (other : Long) {killEvent : KillEvent}
    (call : handling.call = .handleKillSIGUSR killEvent) (result : handled handling db = some after) :
    TableStep handling other (db.rows other) (after.rows other) := by
  rw [handled_exec] at result
  obtain ⟨list, written, rfl⟩ := Option.map_eq_some_iff.mp result
  obtain ⟨change, touches, creation⟩ := creation_rows handling killEvent other (db.rows other)
  rw [rows_foldl]
  rcases statements_creation call written with rfl | ⟨PS1, pwd, rfl⟩
  · rw [creation]
    split
    · exact .opened _ change Row.blank touches ⟨rfl, rfl⟩
    · exact .touched _ change touches
  · rw [List.foldl_append, creation]
    by_cases here : other = getIndicator handling.opening.now
    · simp only [here, if_true, List.foldl_cons, List.foldl_nil, Statement.onRows, Option.map_some,
        changeLast_concat]
      exact .opened _ change (Row.opened PS1 pwd) touches ⟨rfl, rfl⟩
    · -- only the table of the session has the two updates
      simp only [here, if_false, List.foldl_cons, List.foldl_nil, Statement.onRows, Option.map_id_apply']
      exact .touched _ change touches

theorem handled_tableStep (other : Long) (result : handled handling db = some after) :
    TableStep handling other (db.rows other) (after.rows other) := by
  cases call : handling.call with
  | handleKillSIGUSR killEvent => exact created_tableStep other call result
  | handleKillSIGRTMIN killEvent dataSz =>
      cases line : handling.outside.ending.command with
      | none => simp [handled_exec, statements, call, line] at result
      | some command =>
          have completes := completes_command call line
          obtain ⟨exitStatus, PS1, pwd, rows⟩ := completed_rows completes result
          rw [rows other]
          split
          · rename_i here
            exact .closed _ command exitStatus PS1 pwd (here ▸ completes)
          · exact .same _ _
  | handleChildCreation shellPid =>
      rw [handled_exec, statements, call] at result
      obtain rfl := Option.some.inj result
      have read : handling.outside.time ∈ handling.timesRead := by simp [Handling.timesRead, call]
      rw [rows_foldl]
      exact updated_tableStep _ other (touches_setStartTime read) _
  | handleShellExit indicator =>
      rw [handled_exec, statements, call] at result
      obtain rfl := Option.some.inj result
      rw [rows_foldl]
      exact .same _ _
  | handleWrite indicator output outputLen =>
      rw [handled_exec, statements, call] at result
      obtain rfl := Option.some.inj result
      rw [rows_foldl]
      exact updated_tableStep _ other (touches_appendOutput handling _) _

end Step

/-! What holds of every row. -/
section Rows

def EveryRow (holds : Row → Prop) (db : Database) : Prop :=
  ∀ indicator, ∀ rows ∈ db.rows indicator, ∀ row ∈ rows, holds row

variable {holds : Row → Prop} {handling : Handling} {indicator : Long} {before after : Option (List Row)}

theorem TableStep.every (step : TableStep handling indicator before after)
    (touched : ∀ change, Touches handling change → ∀ row, holds row → holds (change row))
    (begun : ∀ row : Row, row.Begun → holds row)
    (closed : ∀ command exitStatus, handling.completes = some (indicator, command) → ∀ rows ∈ before,
      ∀ last ∈ rows.getLast?, holds last → holds (last.close command exitStatus handling.outside.ending))
    (all : ∀ rows ∈ before, ∀ row ∈ rows, holds row) : ∀ rows ∈ after, ∀ row ∈ rows, holds row := by
  intro rows found
  cases step with
  | touched change touches =>
      obtain ⟨old, there, rfl⟩ := Option.map_eq_some_iff.mp found
      exact forall_changeLast (all old there) fun last _ => touched change touches last
  | opened change row touches fresh =>
      obtain rfl := Option.some.inj found
      rw [List.forall_mem_append, List.forall_mem_singleton]
      refine ⟨forall_changeLast (fun row member => ?_) fun last _ => touched change touches last, begun row fresh⟩
      cases before with
      | none => cases member
      | some old => exact all old rfl row member
  | closed command exitStatus PS1 pwd completes =>
      obtain ⟨old, there, rfl⟩ := Option.map_eq_some_iff.mp found
      rw [List.forall_mem_append, List.forall_mem_singleton]
      exact ⟨forall_changeLast (all old there) (closed command exitStatus completes old there),
        begun _ ⟨rfl, rfl⟩⟩

theorem TableStep.length_le (step : TableStep handling indicator before after) {count : Nat}
    (few : ∀ rows ∈ before, rows.length ≤ count) : ∀ rows ∈ after, rows.length ≤ count + 1 := by
  intro rows found
  cases step with
  | touched change touches =>
      obtain ⟨old, there, rfl⟩ := Option.map_eq_some_iff.mp found
      rw [length_changeLast]
      exact Nat.le_succ_of_le (few old there)
  | opened change row touches fresh =>
      obtain rfl := Option.some.inj found
      rw [List.length_append, length_changeLast, List.length_singleton]
      cases before with
      | none => exact Nat.succ_le_succ (Nat.zero_le _)
      | some old => exact Nat.succ_le_succ (few old rfl)
  | closed command exitStatus PS1 pwd completes =>
      obtain ⟨old, there, rfl⟩ := Option.map_eq_some_iff.mp found
      rw [List.length_append, length_changeLast, List.length_singleton]
      exact Nat.succ_le_succ (few old there)

end Rows

/-- What is stored together is there together. -/
structure Row.Coherent (row : Row) : Prop where
  prompt : row.pwd.isSome = row.PS1.isSome
  exitStatus : row.command.isSome → row.exitStatus.isSome
  finishTime : row.command.isSome → row.finishTime.isSome
  indicator : row.command.isSome → row.indicator.isSome

def Row.Started (row : Row) : Prop :=
  row.PS1.isSome → ∀ command ∈ row.command, command ≠ [] → row.startTime.isSome

/-- A child creation has been handled since the row of the command was begun,
unless there is nothing to show of it. -/
def StartRecorded (_past : List (Database × Handling)) (before : Database) (handling : Handling) : Prop :=
  ∀ completed ∈ handling.completes, completed.2 ≠ [] → ∀ row ∈ before.lastRow completed.1,
    row.PS1.isSome → row.startTime.isSome

instance (past : List (Database × Handling)) (before : Database) (handling : Handling) :
    Decidable (StartRecorded past before handling) :=
  inferInstanceAs (Decidable (∀ completed ∈ handling.completes, completed.2 ≠ [] →
    ∀ row ∈ before.lastRow completed.1, row.PS1.isSome → row.startTime.isSome))

section Kept

variable {past : List (Database × Handling)} {last db after : Database} {handling : Handling} {row : Row}

theorem Row.Begun.coherent (begun : row.Begun) : row.Coherent := by
  have none : ¬ row.command.isSome := by rw [begun.command]; decide
  exact ⟨begun.prompt, fun some => absurd some none, fun some => absurd some none, fun some => absurd some none⟩

theorem Touches.coherent {change : Row → Row} (touches : Touches handling change) (coherent : row.Coherent) :
    (change row).Coherent := by
  constructor
  · rw [touches.pwd, touches.PS1]
    exact coherent.prompt
  · rw [touches.command, touches.exitStatus]
    exact coherent.exitStatus
  · rw [touches.command, touches.finishTime]
    exact coherent.finishTime
  · rw [touches.command, touches.indicator]
    exact coherent.indicator

theorem coherent_of_run (run : Run dbStep Database.empty past last) : EveryRow Row.Coherent last := by
  induction run with
  | start => exact fun indicator rows found => by cases found
  | next earlier taken ih =>
      intro indicator
      exact (handled_tableStep indicator taken).every (fun _ touches _ => touches.coherent)
        (fun _ => Row.Begun.coherent)
        (fun _ _ _ _ _ _ _ coherent => ⟨coherent.prompt, fun _ => rfl, fun _ => rfl, fun _ => rfl⟩) (ih indicator)

theorem Touches.startedRow {change : Row → Row} (touches : Touches handling change) (started : row.Started) :
    (change row).Started := by
  intro prompt command set given
  rw [touches.PS1] at prompt
  rw [touches.command] at set
  obtain ⟨start, found⟩ := Option.isSome_iff_exists.mp (started prompt command set given)
  rw [touches.kept row start found, Option.isSome_some]

/-- Only a command that ends without a start time is without one. -/
theorem started_step_iff (taken : dbStep db handling = some after) (started : EveryRow Row.Started db) :
    EveryRow Row.Started after ↔ StartRecorded past db handling := by
  constructor
  · rintro all ⟨indicator, command⟩ completes given row lastRow prompt
    obtain ⟨exitStatus, PS1, pwd, rows⟩ := completed_rows completes taken
    obtain ⟨old, found, ends⟩ := Option.bind_eq_some_iff.mp lastRow
    have now := rows indicator
    rw [if_pos rfl, found, Option.map_some] at now
    have changed : row.close command exitStatus handling.outside.ending ∈
        changeLast (Row.close command exitStatus handling.outside.ending) old := by
      rw [changeLast, ends]
      exact List.mem_append_right _ List.mem_cons_self
    have closed := all indicator _ now _ (List.mem_append_left _ changed)
    exact closed prompt command rfl given
  · intro recorded indicator
    refine (handled_tableStep indicator taken).every (fun _ touches _ => touches.startedRow)
      (fun row begun prompt command set => ?_) ?_ (started indicator)
    · rw [begun.command] at set
      cases set
    · intro command exitStatus completes rows found last ends _ prompt text set given
      obtain rfl := Option.some.inj set
      exact recorded _ completes given last (Option.bind_eq_some_iff.mpr ⟨rows, found, ends⟩) prompt

end Kept

end Nhi
