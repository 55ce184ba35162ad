import Nhi.Clock
import Nhi.EventHandling

/-!
The life of a session table. It is created with one row; during a command its
last row collects the output and the start time, at the end of a command the
row is completed and the next one begun. Rows in front of the last one are
never touched again.
-/

namespace Nhi

open RowidTable RunHistory

def Handling.timesRead (handling : Handling) : List Long :=
  match handling.call with
  | .handleKillSIGUSR _ => [handling.opening.time]
  | .handleKillSIGRTMIN _ _ => [handling.outside.ending.time]
  | .handleChildCreation _ | .handleShellExit _ => [handling.outside.time]
  | .handleWrite _ _ _ => []

def Handling.nowsRead (handling : Handling) : List Timeval :=
  match handling.call with
  | .handleKillSIGUSR _ => [handling.opening.now]
  | .handleKillSIGRTMIN _ _ => [handling.outside.ending.now]
  | _ => []

/-- The shell's environment, `objdump` and `ps` can be read, and the variables
a handler asks for are there. -/
def Handling.Succeeds (handling : Handling) : Prop :=
  match handling.call with
  | .handleKillSIGUSR _ =>
      handling.closing.environAddress ≠ 0#64 ∧
      (handling.closing.psOutput.bind (fgets 8)).isSome ∧
      handling.closing.PS1.isSome ∧ handling.closing.pwd.isSome
  | .handleKillSIGRTMIN _ _ =>
      handling.outside.ending.command.isSome ∧ handling.outside.ending.exitStatus.isSome ∧
      handling.outside.ending.PS1.isSome ∧ handling.outside.ending.pwd.isSome
  | _ => True

/-- The outside reads succeed, the indicator of a new session is new, and no
clock goes back. -/
structure Regular (past : List Handling) (handling : Handling) : Prop where
  succeeds : handling.Succeeds
  fresh : ∀ indicator, handling.opens = some indicator →
    ∀ earlier ∈ past, earlier.opens ≠ some indicator
  times : ∀ time ∈ handling.timesRead, ∀ earlier ∈ past, ∀ before ∈ earlier.timesRead,
    before.toInt ≤ time.toInt
  nows : ∀ now ∈ handling.nowsRead, now.Valid ∧
    ∀ earlier ∈ past, ∀ before ∈ earlier.nowsRead, before.NotAfter now

instance (handling : Handling) : Decidable handling.Succeeds :=
  match call : handling.call with
  | .handleKillSIGUSR _ =>
      decidable_of_iff (handling.closing.environAddress ≠ 0#64 ∧
          (handling.closing.psOutput.bind (fgets 8)).isSome ∧
          handling.closing.PS1.isSome ∧ handling.closing.pwd.isSome)
        (by simp [Handling.Succeeds, call])
  | .handleKillSIGRTMIN _ _ =>
      decidable_of_iff (handling.outside.ending.command.isSome ∧
          handling.outside.ending.exitStatus.isSome ∧
          handling.outside.ending.PS1.isSome ∧ handling.outside.ending.pwd.isSome)
        (by simp [Handling.Succeeds, call])
  | .handleChildCreation _ | .handleShellExit _ | .handleWrite _ _ _ =>
      .isTrue (by simp [Handling.Succeeds, call])

instance (past : List Handling) (handling : Handling) : Decidable (Regular past handling) :=
  decidable_of_iff (handling.Succeeds ∧
      handling.opens.all (fun indicator => ∀ earlier ∈ past, earlier.opens ≠ some indicator) = true ∧
      (handling.timesRead.all fun time => past.all fun earlier => earlier.timesRead.all fun before =>
        before.toInt ≤ time.toInt) = true ∧
      ∀ now ∈ handling.nowsRead, now.Valid ∧
        ∀ earlier ∈ past, ∀ before ∈ earlier.nowsRead, before.NotAfter now)
    (by
      simp only [Option.all_eq_true, List.all_eq_true, decide_eq_true_eq]
      exact ⟨fun ⟨succeeds, fresh, times, nows⟩ => ⟨succeeds, fresh, times, nows⟩,
        fun regular => ⟨regular.succeeds, regular.fresh, regular.times, regular.nows⟩⟩)

def Handling.completes (handling : Handling) : Option (Long × Text) :=
  match handling.call with
  | .handleKillSIGRTMIN killEvent _ =>
      handling.outside.ending.command.map fun command => (indicatorOf handling.shells killEvent.shellPid, command)
  | _ => none

structure Row.Completed (row : Row) : Prop where
  PS1 : row.PS1.isSome
  pwd : row.pwd.isSome
  command : row.command.isSome
  exitStatus : row.exitStatus.isSome
  finishTime : row.finishTime.isSome
  indicator : row.indicator.isSome

structure Row.Pending (row : Row) : Prop where
  PS1 : row.PS1.isSome
  pwd : row.pwd.isSome
  command : row.command = none
  exitStatus : row.exitStatus = none
  finishTime : row.finishTime = none
  indicator : row.indicator = none

def InOrder (first second : Row) : Prop :=
  (∀ finish ∈ first.finishTime, ∀ start ∈ second.startTime, finish.toInt ≤ start.toInt) ∧
  ∀ before ∈ first.indicator, ∀ after ∈ second.indicator, before.toInt ≤ after.toInt

def Row.Timed (row : Row) : Prop :=
  ∀ start ∈ row.startTime, ∀ finish ∈ row.finishTime, start.toInt ≤ finish.toInt

structure Lifecycle (rows : List Row) : Prop where
  shape : ∃ front last, rows = front ++ [last] ∧ (∀ row ∈ front, row.Completed) ∧ last.Pending
  timed : ∀ row ∈ rows, row.Timed
  ordered : rows.Pairwise InOrder

def StartKept (row now : Row) : Prop :=
  ∀ start, row.startTime = some start → now.startTime = some start

structure Touches (handling : Handling) (change : Row → Row) : Prop where
  PS1 : ∀ row, (change row).PS1 = row.PS1
  pwd : ∀ row, (change row).pwd = row.pwd
  command : ∀ row, (change row).command = row.command
  exitStatus : ∀ row, (change row).exitStatus = row.exitStatus
  finishTime : ∀ row, (change row).finishTime = row.finishTime
  indicator : ∀ row, (change row).indicator = row.indicator
  kept : ∀ row, StartKept row (change row)
  started : ∀ row, ∀ start ∈ (change row).startTime,
    start ∈ row.startTime ∨ start ∈ handling.timesRead

def Row.close (command exitStatus : Text) (ending : CommandEnd) (row : Row) : Row :=
  { row with
    command := some command
    exitStatus := some exitStatus
    finishTime := some ending.time
    indicator := some (getIndicator ending.now) }

def Row.opened (PS1 pwd : Text) : Row := ⟨some PS1, none, [], none, some pwd, none, none, none⟩

/-- What an event can do to the table of one session. -/
inductive TableChange (handling : Handling) (indicator : Long) :
    Option (List Row) → Option (List Row) → Prop where
  | same (rows : Option (List Row)) : TableChange handling indicator rows rows
  | opened (PS1 pwd : Text) : handling.opens = some indicator →
      TableChange handling indicator none (some [Row.opened PS1 pwd])
  | touched (rows : List Row) (change : Row → Row) : Touches handling change →
      TableChange handling indicator (some rows) (some (changeLast change rows))
  | closed (rows : List Row) (command exitStatus PS1 pwd : Text) :
      handling.timesRead = [handling.outside.ending.time] →
      handling.nowsRead = [handling.outside.ending.now] →
      TableChange handling indicator (some rows)
        (some (changeLast (Row.close command exitStatus handling.outside.ending) rows ++
          [Row.opened PS1 pwd]))

section Handlers

theorem touches_id (handling : Handling) : Touches handling id :=
  ⟨fun _ => rfl, fun _ => rfl, fun _ => rfl, fun _ => rfl, fun _ => rfl, fun _ => rfl, fun _ _ => id,
    fun _ _ => Or.inl⟩

theorem touches_appendOutput (handling : Handling) (bytes : Text) :
    Touches handling (Row.appendOutput bytes) :=
  ⟨fun _ => rfl, fun _ => rfl, fun _ => rfl, fun _ => rfl, fun _ => rfl, fun _ => rfl,
    fun _ _ => id, fun _ _ => Or.inl⟩

theorem setStartTime_cases (time : Long) (row : Row) :
    row.setStartTime time = row ∨
      (row.startTime = none ∧ row.setStartTime time = { row with startTime := some time }) := by
  cases set : row.startTime with
  | none => exact Or.inr ⟨rfl, by simp [Row.setStartTime, set]⟩
  | some start => exact Or.inl (by simp [Row.setStartTime, set])

theorem touches_setStartTime {handling : Handling} {time : Long} (read : time ∈ handling.timesRead) :
    Touches handling (Row.setStartTime time) := by
  refine ⟨?_, ?_, ?_, ?_, ?_, ?_, ?_, ?_⟩
  all_goals
    intro row
    rcases setStartTime_cases time row with same | ⟨unset, same⟩
    all_goals rw [same]
  · exact fun _ => id
  · intro start set
    rw [unset] at set
    cases set
  · exact fun _ => Or.inl
  · rintro start ⟨⟩
    exact Or.inr read

theorem creation_rows (handling : Handling) (killEvent : KillEvent) (other : Long) (rows : Option (List Row)) :
    ∃ change, Touches handling change ∧
      (creationStatements handling.opening killEvent).foldl (Statement.onRows other) rows =
        if other = getIndicator handling.opening.now then
          some (changeLast change (rows.getD []) ++ [Row.blank])
        else rows.map (changeLast change) := by
  have created (rows : Option (List Row)) (change : Row → Row) :
      [Statement.createTable (getIndicator handling.opening.now), .createRow (getIndicator handling.opening.now),
          .metaCreateRow ⟨getIndicator handling.opening.now, (cString handling.opening.name
            (decimal (getIndicator handling.opening.now))).toList.take 11, handling.opening.time, none⟩].foldl
          (Statement.onRows other) (rows.map (changeLast change)) =
        if other = getIndicator handling.opening.now then
          some (changeLast change (rows.getD []) ++ [Row.blank])
        else rows.map (changeLast change) := by
    by_cases here : other = getIndicator handling.opening.now
    · cases rows <;> simp [Statement.onRows, here, changeLast]
    · cases rows <;> simp [Statement.onRows, here]
  rw [creationStatements, List.foldl_append]
  by_cases parent : killEvent.parentShellIndicator ≠ 0#64 ∧ other = killEvent.parentShellIndicator
  · refine ⟨_, touches_appendOutput handling (parentLink handling.opening), ?_⟩
    have linked : List.foldl (Statement.onRows other) rows
        [.updateLast killEvent.parentShellIndicator (Row.appendOutput (parentLink handling.opening))] =
          rows.map (changeLast (Row.appendOutput (parentLink handling.opening))) := by
      simp only [List.foldl_cons, List.foldl_nil, Statement.onRows, parent.2, if_true]
    rw [← created, if_pos parent.1, linked]
  · refine ⟨id, touches_id handling, ?_⟩
    rw [← created]
    congr 1
    rw [funext changeLast_id, Option.map_id_apply']
    split
    · rename_i some
      have apart : other ≠ killEvent.parentShellIndicator := fun same => parent ⟨some, same⟩
      simp [Statement.onRows, apart]
    · rfl

variable {handling : Handling} {db after : Database}

theorem completes_command {killEvent : KillEvent} {dataSz : Nat} {command : Text}
    (call : handling.call = .handleKillSIGRTMIN killEvent dataSz)
    (line : handling.outside.ending.command = some command) :
    handling.completes = some (indicatorOf handling.shells killEvent.shellPid, command) := by
  simp only [Handling.completes, call, line, Option.map_some]

theorem completed_rows {indicator : Long} {command : Text}
    (completes : handling.completes = some (indicator, command)) (result : handled handling db = some after) :
    ∃ exitStatus PS1 pwd, ∀ other, after.rows other = if other = indicator then
        (db.rows other).map fun rows =>
          changeLast (Row.close command exitStatus handling.outside.ending) rows ++ [Row.opened PS1 pwd]
      else db.rows other := by
  cases call : handling.call with
  | handleKillSIGRTMIN killEvent dataSz =>
      simp only [Handling.completes, call, Option.map_eq_some_iff] at completes
      obtain ⟨_, line, same⟩ := completes
      obtain ⟨rfl, rfl⟩ := Prod.mk.inj same
      rw [handled_exec] at result
      obtain ⟨list, written, rfl⟩ := Option.map_eq_some_iff.mp result
      obtain ⟨_, exitStatus, PS1, pwd, found, rfl⟩ := statements_completion call written
      obtain rfl := Option.some.inj (line.symm.trans found)
      refine ⟨exitStatus, PS1, pwd, fun other => ?_⟩
      rw [rows_foldl]
      simp only [List.map_cons, List.map_nil, List.cons_append, List.nil_append]
      cases db.rows other with
      | none => simp [Statement.onRows]
      | some rows =>
          by_cases here : other = indicatorOf handling.shells killEvent.shellPid
          · simp only [List.foldl_cons, List.foldl_nil, Statement.onRows, Option.map_some, here, if_true,
              changeLast_changeLast, changeLast_concat]
            rfl
          · simp [Statement.onRows, here]
  | handleKillSIGUSR | handleChildCreation | handleShellExit | handleWrite =>
      simp [Handling.completes, call] at completes

variable (other : Long)

theorem opened_tableChange {killEvent : KillEvent} (call : handling.call = .handleKillSIGUSR killEvent)
    (succeeds : handling.Succeeds)
    (absent : db.rows (getIndicator handling.opening.now) = none)
    (result : handled handling db = some after) :
    TableChange handling other (db.rows other) (after.rows other) := by
  have opens : handling.opens = some (getIndicator handling.opening.now) := by
    simp [Handling.opens, call]
  simp only [Handling.Succeeds, call] at succeeds
  obtain ⟨found, line, prompt, directory⟩ := succeeds
  obtain ⟨PS1, prompt⟩ := Option.isSome_iff_exists.mp prompt
  obtain ⟨pwd, directory⟩ := Option.isSome_iff_exists.mp directory
  rw [handled_exec, statements] at result
  simp only [call, found, Option.isSome_iff_ne_none.mp line, prompt, directory, or_self, if_false,
    Option.bind_some, Option.map_some, Option.some.injEq] at result
  subst after
  obtain ⟨change, touches, creation⟩ := creation_rows handling killEvent other (db.rows other)
  rw [rows_foldl, List.foldl_append, creation]
  by_cases here : other = getIndicator handling.opening.now
  · -- the new table; an update of the parent cannot have made it
    subst other
    rw [if_pos rfl, absent]
    simp only [List.foldl_cons, List.foldl_nil, Statement.onRows, Option.map_some, if_true, changeLast_concat]
    exact .opened PS1 pwd opens
  · simp only [List.foldl_cons, List.foldl_nil, Statement.onRows, here, if_false, Option.map_id_apply']
    cases db.rows other with
    | none => exact .same none
    | some rows => exact .touched rows change touches

theorem closed_tableChange {killEvent : KillEvent} {dataSz : Nat}
    (call : handling.call = .handleKillSIGRTMIN killEvent dataSz) (succeeds : handling.Succeeds)
    (result : handled handling db = some after) :
    TableChange handling other (db.rows other) (after.rows other) := by
  simp only [Handling.Succeeds, call] at succeeds
  obtain ⟨command, line⟩ := Option.isSome_iff_exists.mp succeeds.1
  obtain ⟨exitStatus, PS1, pwd, written⟩ := completed_rows (completes_command call line) result
  rw [written other]
  split
  · cases db.rows other with
    | none => exact .same none
    | some rows =>
        exact .closed rows command exitStatus PS1 pwd (by simp [Handling.timesRead, call])
          (by simp [Handling.nowsRead, call])
  · exact .same _

theorem touched_tableChange (indicator : Long) {change : Row → Row} (touches : Touches handling change)
    (result : statements handling = some [.updateLast indicator change])
    (taken : handled handling db = some after) :
    TableChange handling other (db.rows other) (after.rows other) := by
  rw [handled_exec, result, Option.map_some, Option.some.injEq] at taken
  subst after
  rw [rows_foldl]
  cases db.rows other with
  | none => exact .same _
  | some rows =>
      by_cases here : other = indicator
      · simpa [Statement.onRows, here] using TableChange.touched rows change touches
      · simpa [Statement.onRows, here] using TableChange.same _

theorem handled_tableChange (succeeds : handling.Succeeds)
    (absent : ∀ indicator, handling.opens = some indicator → db.rows indicator = none)
    (result : handled handling db = some after) :
    TableChange handling other (db.rows other) (after.rows other) := by
  cases call : handling.call with
  | handleKillSIGUSR killEvent =>
      have fresh := absent (getIndicator handling.opening.now) (by simp [Handling.opens, call])
      exact opened_tableChange other call succeeds fresh result
  | handleKillSIGRTMIN killEvent dataSz => exact closed_tableChange other call succeeds result
  | handleChildCreation shellPid =>
      have read : handling.outside.time ∈ handling.timesRead := by simp [Handling.timesRead, call]
      exact touched_tableChange other _ (touches_setStartTime read) (by rw [statements, call]) result
  | handleShellExit indicator =>
      rw [handled_exec, statements, call] at result
      obtain rfl := Option.some.inj result
      rw [rows_foldl]
      exact .same _
  | handleWrite indicator output outputLen =>
      exact touched_tableChange other _ (touches_appendOutput handling _) (by rw [statements, call])
        result

end Handlers

/-! The invariant: every time in a table was read in an earlier event. -/
section Invariant

structure Dated (past : List Handling) (row : Row) : Prop where
  start : ∀ time ∈ row.startTime, ∃ earlier ∈ past, time ∈ earlier.timesRead
  finish : ∀ time ∈ row.finishTime, ∃ earlier ∈ past, time ∈ earlier.timesRead
  indicator : ∀ value ∈ row.indicator, ∃ earlier ∈ past, ∃ now ∈ earlier.nowsRead,
    now.Valid ∧ value = getIndicator now

structure TableKept (past : List Handling) (rows : List Row) : Prop where
  lifecycle : Lifecycle rows
  dated : ∀ row ∈ rows, Dated past row

variable {past : List Handling} {handling : Handling}

theorem Dated.later {row : Row} (dated : Dated past row) : Dated (handling :: past) row where
  start time set :=
    have ⟨earlier, member, read⟩ := dated.start time set
    ⟨earlier, List.mem_cons_of_mem _ member, read⟩
  finish time set :=
    have ⟨earlier, member, read⟩ := dated.finish time set
    ⟨earlier, List.mem_cons_of_mem _ member, read⟩
  indicator value set :=
    have ⟨earlier, member, read⟩ := dated.indicator value set
    ⟨earlier, List.mem_cons_of_mem _ member, read⟩

theorem opened_pending (PS1 pwd : Text) : (Row.opened PS1 pwd).Pending :=
  ⟨rfl, rfl, rfl, rfl, rfl, rfl⟩

theorem opened_dated (PS1 pwd : Text) : Dated past (Row.opened PS1 pwd) := ⟨nofun, nofun, nofun⟩

theorem inOrder_opened (row : Row) (PS1 pwd : Text) : InOrder row (Row.opened PS1 pwd) :=
  ⟨fun _ _ _ => nofun, fun _ _ _ => nofun⟩

theorem Row.Pending.timed {row : Row} (pending : row.Pending) : row.Timed := by
  intro start _ finish set
  rw [pending.finishTime] at set
  cases set

theorem kept_concat {front : List Row} {last : Row} (completed : ∀ row ∈ front, row.Completed)
    (timed : ∀ row ∈ front, row.Timed) (ordered : front.Pairwise InOrder)
    (dated : ∀ row ∈ front, Dated past row) (pending : last.Pending)
    (across : ∀ row ∈ front, InOrder row last) (lastDated : Dated past last) :
    TableKept past (front ++ [last]) where
  lifecycle := {
    shape := ⟨front, last, rfl, completed, pending⟩
    timed := List.forall_mem_append.mpr ⟨timed, List.forall_mem_singleton.mpr pending.timed⟩
    ordered := List.pairwise_append.mpr ⟨ordered, List.pairwise_singleton _ _, fun row member =>
      List.forall_mem_singleton.mpr (across row member)⟩ }
  dated := List.forall_mem_append.mpr ⟨dated, List.forall_mem_singleton.mpr lastDated⟩

theorem opened_kept (PS1 pwd : Text) : TableKept past [Row.opened PS1 pwd] :=
  kept_concat (List.forall_mem_nil _) (List.forall_mem_nil _) List.Pairwise.nil
    (List.forall_mem_nil _) (opened_pending PS1 pwd) (List.forall_mem_nil _) (opened_dated PS1 pwd)

section Touched

variable {change : Row → Row} {row last : Row}

theorem Touches.pending (touches : Touches handling change) (pending : row.Pending) :
    (change row).Pending where
  PS1 := by rw [touches.PS1]; exact pending.PS1
  pwd := by rw [touches.pwd]; exact pending.pwd
  command := by rw [touches.command]; exact pending.command
  exitStatus := by rw [touches.exitStatus]; exact pending.exitStatus
  finishTime := by rw [touches.finishTime]; exact pending.finishTime
  indicator := by rw [touches.indicator]; exact pending.indicator

theorem Touches.dated (touches : Touches handling change) (dated : Dated past row) :
    Dated (handling :: past) (change row) where
  start start started := by
    rcases touches.started row start started with old | read
    · exact dated.later.start start old
    · exact ⟨handling, List.mem_cons_self, read⟩
  finish finish finished := by
    rw [touches.finishTime] at finished
    exact dated.later.finish finish finished
  indicator value set := by
    rw [touches.indicator] at set
    exact dated.later.indicator value set

theorem Touches.inOrder (regular : Regular past handling) (touches : Touches handling change)
    (dated : Dated past row) (inOrder : InOrder row last) : InOrder row (change last) := by
  refine ⟨fun finish finished start started => ?_, fun before set after next => ?_⟩
  · rcases touches.started last start started with old | read
    · exact inOrder.1 finish finished start old
    · -- set now, when every time in the table has been read
      obtain ⟨earlier, past, readBefore⟩ := dated.finish finish finished
      exact regular.times start read earlier past finish readBefore
  · rw [touches.indicator] at next
    exact inOrder.2 before set after next

theorem touched_kept {rows : List Row} (regular : Regular past handling) (kept : TableKept past rows)
    (touches : Touches handling change) :
    TableKept (handling :: past) (changeLast change rows) := by
  obtain ⟨⟨⟨front, last, rfl, completed, pending⟩, timed, ordered⟩, dated⟩ := kept
  obtain ⟨frontTimed, _⟩ := List.forall_mem_append.mp timed
  obtain ⟨frontDated, lastDated⟩ := List.forall_mem_append.mp dated
  obtain ⟨frontOrdered, _, across⟩ := List.pairwise_append.mp ordered
  rw [changeLast_concat]
  exact kept_concat completed frontTimed frontOrdered (fun row member => (frontDated row member).later)
    (touches.pending pending)
    (fun row member => touches.inOrder regular (frontDated row member)
      (across row member last List.mem_cons_self))
    (touches.dated (lastDated last List.mem_cons_self))

end Touched

section Closed

variable {row last : Row} {command exitStatus : Text}

theorem Row.Pending.closed (pending : row.Pending) (ending : CommandEnd) :
    (row.close command exitStatus ending).Completed :=
  ⟨pending.PS1, pending.pwd, rfl, rfl, rfl, rfl⟩

theorem closed_timed (regular : Regular past handling) (dated : Dated past row)
    (read : handling.outside.ending.time ∈ handling.timesRead) :
    (row.close command exitStatus handling.outside.ending).Timed := by
  rintro start started finish ⟨⟩
  obtain ⟨earlier, past, readBefore⟩ := dated.start start started
  exact regular.times _ read earlier past start readBefore

theorem closed_dated (regular : Regular past handling) (dated : Dated past row)
    (read : handling.outside.ending.time ∈ handling.timesRead)
    (readNow : handling.outside.ending.now ∈ handling.nowsRead) :
    Dated (handling :: past) (row.close command exitStatus handling.outside.ending) where
  start := dated.later.start
  finish := by
    rintro time ⟨⟩
    exact ⟨handling, List.mem_cons_self, read⟩
  indicator := by
    rintro value ⟨⟩
    exact ⟨handling, List.mem_cons_self, _, readNow, (regular.nows _ readNow).1, rfl⟩

theorem closed_inOrder (regular : Regular past handling) (dated : Dated past row)
    (inOrder : InOrder row last) (readNow : handling.outside.ending.now ∈ handling.nowsRead) :
    InOrder row (last.close command exitStatus handling.outside.ending) := by
  refine ⟨inOrder.1, ?_⟩
  rintro value set other ⟨⟩
  obtain ⟨valid, notBefore⟩ := regular.nows _ readNow
  obtain ⟨earlier, past, now, readBefore, validBefore, rfl⟩ := dated.indicator value set
  exact getIndicator_mono validBefore valid (notBefore earlier past now readBefore)

theorem closed_kept {rows : List Row} (regular : Regular past handling) (kept : TableKept past rows)
    (command exitStatus PS1 pwd : Text)
    (times : handling.timesRead = [handling.outside.ending.time])
    (nows : handling.nowsRead = [handling.outside.ending.now]) :
    TableKept (handling :: past)
      (changeLast (Row.close command exitStatus handling.outside.ending) rows ++
        [Row.opened PS1 pwd]) := by
  obtain ⟨⟨⟨front, last, rfl, completed, pending⟩, timed, ordered⟩, dated⟩ := kept
  obtain ⟨frontTimed, _⟩ := List.forall_mem_append.mp timed
  obtain ⟨frontDated, lastDated⟩ := List.forall_mem_append.mp dated
  obtain ⟨frontOrdered, _, across⟩ := List.pairwise_append.mp ordered
  have read : handling.outside.ending.time ∈ handling.timesRead := times ▸ List.mem_cons_self
  have readNow : handling.outside.ending.now ∈ handling.nowsRead := nows ▸ List.mem_cons_self
  have ending : Dated past last := lastDated last List.mem_cons_self
  rw [changeLast_concat]
  -- the row that ends joins the front, and the new one has no values to put in order
  refine kept_concat ?_ ?_ ?_ ?_ (opened_pending PS1 pwd) (fun row _ => inOrder_opened row PS1 pwd)
    (opened_dated PS1 pwd)
  · exact List.forall_mem_append.mpr ⟨completed, List.forall_mem_singleton.mpr (pending.closed _)⟩
  · exact List.forall_mem_append.mpr
      ⟨frontTimed, List.forall_mem_singleton.mpr (closed_timed regular ending read)⟩
  · refine List.pairwise_append.mpr ⟨frontOrdered, List.pairwise_singleton _ _, fun row member =>
      List.forall_mem_singleton.mpr ?_⟩
    exact closed_inOrder regular (frontDated row member) (across row member last List.mem_cons_self)
      readNow
  · exact List.forall_mem_append.mpr ⟨fun row member => (frontDated row member).later,
      List.forall_mem_singleton.mpr (closed_dated regular ending read readNow)⟩

end Closed

theorem tableChange_kept {indicator : Long} {before after : Option (List Row)}
    (regular : Regular past handling) (change : TableChange handling indicator before after)
    (kept : ∀ rows ∈ before, TableKept past rows) : ∀ rows ∈ after, TableKept (handling :: past) rows := by
  cases change with
  | same rows =>
      intro rows found
      have old := kept rows found
      exact ⟨old.lifecycle, fun row member => (old.dated row member).later⟩
  | opened PS1 pwd _ =>
      rintro rows ⟨⟩
      exact opened_kept PS1 pwd
  | touched rows change touches =>
      rintro rows ⟨⟩
      exact touched_kept regular (kept _ rfl) touches
  | closed rows command exitStatus PS1 pwd times nows =>
      rintro rows ⟨⟩
      exact closed_kept regular (kept _ rfl) command exitStatus PS1 pwd times nows

theorem startKept_refl (row : Row) : StartKept row row := fun _ => id

theorem startKept_trans (first second third : Row) (before : StartKept first second)
    (after : StartKept second third) : StartKept first third :=
  fun start set => after start (before start set)

theorem tableChange_grows {indicator : Long} {before after : Option (List Row)}
    (change : TableChange handling indicator before after) :
    ∀ rows ∈ before, ∃ now ∈ after, Grows StartKept rows now := by
  cases change with
  | same rows => exact fun rows found => ⟨rows, found, Grows.refl startKept_refl rows⟩
  | opened => exact nofun
  | touched rows change touches =>
      rintro rows ⟨⟩
      exact ⟨_, rfl, Grows.changeLast startKept_refl touches.kept _⟩
  | closed rows command exitStatus PS1 pwd _ _ =>
      rintro rows ⟨⟩
      have keeps (row : Row) :
          StartKept row (row.close command exitStatus handling.outside.ending) := fun _ => id
      have closing := Grows.changeLast startKept_refl keeps rows
      exact ⟨_, rfl, closing.trans startKept_trans (Grows.concat startKept_refl _ _)⟩

def Opened (past : List Handling) (db : Database) : Prop :=
  ∀ indicator, (db.rows indicator).isSome → ∃ earlier ∈ past, earlier.opens = some indicator

theorem tableChange_opened {indicator : Long} {before after : Option (List Row)}
    (change : TableChange handling indicator before after) (there : after.isSome) :
    before.isSome ∨ handling.opens = some indicator := by
  cases change with
  | same rows => exact Or.inl there
  | opened PS1 pwd opens => exact Or.inr opens
  | touched => exact Or.inl rfl
  | closed => exact Or.inl rfl

end Invariant

section Run

def DatabaseGrows (earlier later : Database) : Prop :=
  ∀ indicator, ∀ rows ∈ earlier.rows indicator, ∃ now ∈ later.rows indicator, Grows StartKept rows now

structure Lived (past : List (RowidDatabase × Handling)) (last : RowidDatabase) (db : Database) :
    Prop where
  numbered : last = db.numbered
  opened : Opened (past.map Prod.snd) db
  kept : ∀ indicator, ∀ rows ∈ db.rows indicator, TableKept (past.map Prod.snd) rows
  grown : ∀ earlier ∈ visited past last, ∃ old : Database, earlier = old.numbered ∧ DatabaseGrows old db

def Lives (past : List (RowidDatabase × Handling)) (last : RowidDatabase) : Prop :=
  ∃ db, Lived past last db

theorem databaseGrows_refl (db : Database) : DatabaseGrows db db :=
  fun _ rows found => ⟨rows, found, Grows.refl startKept_refl rows⟩

theorem DatabaseGrows.trans {first second third : Database} (before : DatabaseGrows first second)
    (after : DatabaseGrows second third) : DatabaseGrows first third := by
  intro indicator rows found
  obtain ⟨between, foundBetween, grows⟩ := before indicator rows found
  obtain ⟨now, foundNow, further⟩ := after indicator between foundBetween
  exact ⟨now, foundNow, grows.trans startKept_trans further⟩

theorem lives_step {past : List (RowidDatabase × Handling)} {before after : RowidDatabase}
    {handling : Handling} (lives : Lives past before)
    (regular : Regular (past.map Prod.snd) handling) (taken : before.step handling = some after) :
    Lives ((before, handling) :: past) after := by
  obtain ⟨db, rfl, opened, kept, grown⟩ := lives
  rw [numbered_step] at taken
  obtain ⟨now, result, rfl⟩ := Option.map_eq_some_iff.mp taken
  have absent (indicator : Long) (opens : handling.opens = some indicator) :
      db.rows indicator = none := by
    by_contra there
    obtain ⟨earlier, member, also⟩ := opened indicator (Option.isSome_iff_ne_none.mpr there)
    exact regular.fresh indicator opens earlier member also
  have change (indicator : Long) := handled_tableChange indicator regular.succeeds absent result
  have grows : DatabaseGrows db now := fun indicator => tableChange_grows (change indicator)
  refine ⟨now, rfl, ?_, ?_, ?_⟩
  · intro indicator there
    rcases tableChange_opened (change indicator) there with old | opens
    · obtain ⟨earlier, member, also⟩ := opened indicator old
      exact ⟨earlier, List.mem_cons_of_mem _ member, also⟩
    · exact ⟨handling, List.mem_cons_self, opens⟩
  · exact fun indicator => tableChange_kept regular (change indicator) (kept indicator)
  · intro earlier member
    rcases List.mem_cons.mp member with rfl | older
    · exact ⟨now, rfl, databaseGrows_refl now⟩
    · obtain ⟨old, same, before⟩ := grown earlier older
      exact ⟨old, same, before.trans grows⟩

theorem lives_start : Lives [] RowidDatabase.empty := by
  refine ⟨Database.empty, rfl, ?_, ?_, ?_⟩
  · simp [Opened, Database.rows, Database.empty]
  · simp [Database.rows, Database.empty]
  · intro earlier member
    obtain rfl : earlier = RowidDatabase.empty := by simpa [visited] using member
    exact ⟨Database.empty, rfl, databaseGrows_refl _⟩

/-- The rows of a later table: those in front of the last are the same, and a
start time is kept. -/
def Since (earlier later : List (Nat × Row)) : Prop :=
  ∀ rowid row, (rowid, row) ∈ earlier → ∃ now, (rowid, now) ∈ later ∧
    (rowid < maxRowid earlier → now = row) ∧ StartKept row now

theorem grows_since {rows now : List Row} (grows : Grows StartKept rows now) :
    Since (number rows) (number now) := by
  intro rowid row member
  obtain ⟨k, found, rfl⟩ := mem_number.mp member
  obtain ⟨later, foundLater, stays, start⟩ := grows k row found
  rw [maxRowid_number]
  exact ⟨later, mem_number.mpr ⟨k, foundLater, rfl⟩, stays, start⟩

/-- Every session table of a run is numbered from 1 on and has its completed
rows, its pending row and its times in order; and no later event changes a
completed row or a start time. -/
theorem session_tables_lifecycle {past : List (RowidDatabase × Handling)} {last : RowidDatabase}
    (run : Run RowidDatabase.step RowidDatabase.empty past last)
    (regular : Always (fun past _ handling => Regular (past.map Prod.snd) handling) past) :
    (∀ indicator, ∀ table ∈ last.table indicator,
      table.map Prod.fst = List.range' 1 table.length ∧ 1 ≤ table.length ∧
      Lifecycle (table.map Prod.snd)) ∧
    ∀ earlier ∈ visited past last, ∀ indicator, ∀ table ∈ earlier.table indicator,
      ∃ later ∈ last.table indicator, Since table later := by
  have lives : Lives past last :=
    run.invariant lives_start (fun _ _ _ _ _ lives regular taken =>
      lives_step lives regular taken) regular
  obtain ⟨db, rfl, _, kept, grown⟩ := lives
  constructor
  · intro indicator table found
    rw [numbered_table] at found
    obtain ⟨rows, there, rfl⟩ := Option.map_eq_some_iff.mp found
    have lifecycle := (kept indicator rows there).lifecycle
    obtain ⟨front, row, rfl, _⟩ := lifecycle.shape
    refine ⟨?_, ?_, ?_⟩
    · rw [rowids_number, number_length]
    · simp [number_length]
    · rw [rows_number]
      exact lifecycle
  · intro earlier member indicator table found
    obtain ⟨old, rfl, grows⟩ := grown earlier member
    rw [numbered_table] at found
    obtain ⟨rows, there, rfl⟩ := Option.map_eq_some_iff.mp found
    obtain ⟨now, later, further⟩ := grows indicator rows there
    refine ⟨number now, ?_, grows_since further⟩
    rw [numbered_table, later, Option.map_some]
    rfl

end Run

def sampleEnding : CommandEnd :=
  ⟨some [108#8, 115#8], some [48#8], 20#64, ⟨20#64, 0#64⟩, some [], some []⟩

def sampleHandling (call : HandlerCall) (time : Long) : Handling :=
  ⟨call, ⟨⟨1#64, 0#64⟩, 1#64, Vector.replicate 15 0#8, Vector.replicate 16 0#8⟩, sampleClosing,
    ⟨time, sampleEnding⟩, SlotTable.ofEntries [Shell.plain 1#32 10#64]⟩

def sampleCommand : List Handling :=
  [sampleHandling (.handleKillSIGUSR ⟨1#32, SIGUSR1, 0#64⟩) 1#64,
    sampleHandling (.handleChildCreation 1#32) 15#64,
    sampleHandling (.handleWrite 10#64 [255#8, 97#8] 2) 15#64,
    sampleHandling (.handleKillSIGRTMIN ⟨1#32, SIGRTMIN, 0#64⟩ 16) 20#64]

theorem session_tables_command :
    ∃ past last, Run RowidDatabase.step RowidDatabase.empty past last ∧
      ∃ table ∈ last.table 10#64, table.map Prod.fst = [1, 2] ∧ Lifecycle (table.map Prod.snd) := by
  obtain ⟨past, last, run, regular, rowids⟩ := replay_some RowidDatabase.step RowidDatabase.empty
    sampleCommand
    (fun past last => Always (fun past _ handling => Regular (past.map Prod.snd) handling) past ∧
      (last.table 10#64).any (fun table => table.map Prod.fst = [1, 2]) = true) (by decide +kernel)
  obtain ⟨table, found, numbers⟩ := (Option.any_eq_true _ _).mp rowids
  have tables := (session_tables_lifecycle run regular).1 10#64 table found
  exact ⟨past, last, run, table, found, of_decide_eq_true numbers, tables.2.2⟩

end Nhi
