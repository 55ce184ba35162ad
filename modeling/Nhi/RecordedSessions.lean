import Nhi.OutputEvents
import Nhi.SessionTables

/-!
What the daemon is for: a session is a list of commands, each with the events
of its output, and an event of the ring buffer tells something to some of the
sessions. The table of a session is what it has been told, and nothing that is
told to others shows in it.
-/

namespace Nhi

open RowidTable RunHistory

/-- A row together with the events its output was put together from. -/
structure Recorded where
  row : Row
  events : List OutputEvent
  output : row.output = outputBytes events

def Recorded.blank : Recorded := ⟨Row.blank, [], rfl⟩

def Row.begun (PS1 pwd : Text) (row : Row) : Row := { row with PS1 := some PS1, pwd := some pwd }

theorem begun_output (PS1 pwd : Text) (row : Row) : (row.begun PS1 pwd).output = row.output := rfl

theorem close_output (command exitStatus : Text) (ending : CommandEnd) (row : Row) :
    (row.close command exitStatus ending).output = row.output := rfl

theorem setStartTime_output (time : Long) (row : Row) : (row.setStartTime time).output = row.output := by
  rw [Row.setStartTime]
  split <;> rfl

theorem Recorded.append_output (recorded : Recorded) (event : OutputEvent) :
    (recorded.row.appendOutput event.bytes).output = outputBytes (recorded.events ++ [event]) := by
  simp [Row.appendOutput, recorded.output, outputBytes]

def Recorded.change (change : Row → Row) (keeps : ∀ row, (change row).output = row.output) (recorded : Recorded) :
    Recorded where
  row := change recorded.row
  events := recorded.events
  output := (keeps recorded.row).trans recorded.output

def Recorded.append (event : OutputEvent) (recorded : Recorded) : Recorded where
  row := recorded.row.appendOutput event.bytes
  events := recorded.events ++ [event]
  output := recorded.append_output event

/-- The last one is the command that is being typed or run. A session that was
not opened has none. -/
abbrev Session := List Recorded

def Session.table (session : Session) : Option (List Row) :=
  if session = [] then none else some (session.map Recorded.row)

/-- What a session is told. -/
inductive SessionEvent where
  | opened
  | begun (PS1 pwd : Text)
  | output (event : OutputEvent)
  | started (time : Long)
  | ended (command exitStatus : Text) (ending : CommandEnd) (PS1 pwd : Text)

def Session.after (session : Session) : SessionEvent → Session
  | .opened => session ++ [.blank]
  | .begun PS1 pwd => changeLast (Recorded.change (Row.begun PS1 pwd) (begun_output PS1 pwd)) session
  | .output event => changeLast (Recorded.append event) session
  | .started time => changeLast (Recorded.change (Row.setStartTime time) (setStartTime_output time)) session
  | .ended command exitStatus ending PS1 pwd =>
      if session = [] then []
      else changeLast (Recorded.change (Row.close command exitStatus ending) (close_output command exitStatus ending))
        session ++ [Recorded.blank.change (Row.begun PS1 pwd) (begun_output PS1 pwd)]

def writtenEvent (bytes : Text) : OutputEvent :=
  .write (if bytes.head? = some 254#8 then 2#32 else 1#32) bytes.tail

def Closing.tells (closing : Closing) : List SessionEvent :=
  if closing.environAddress = 0#64 ∨ closing.psOutput.bind (fgets 8) = none then []
  else
    match closing.PS1, closing.pwd with
    | some PS1, some pwd => [.begun PS1 pwd]
    | _, _ => []

def CommandEnd.tells (ending : CommandEnd) : List SessionEvent :=
  match ending.command, ending.exitStatus, ending.PS1, ending.pwd with
  | some command, some exitStatus, some PS1, some pwd => [.ended command exitStatus ending PS1 pwd]
  | _, _, _, _ => []

/-- What the handling of an event tells the session with an indicator. -/
def Handling.tells (indicator : Long) (handling : Handling) : List SessionEvent :=
  match handling.call with
  | .handleKillSIGUSR killEvent =>
      (if killEvent.parentShellIndicator ≠ 0#64 ∧ indicator = killEvent.parentShellIndicator then
          [.output (.link (recordedIndicator handling.opening))]
        else []) ++
      if indicator = getIndicator handling.opening.now then .opened :: handling.closing.tells else []
  | .handleKillSIGRTMIN killEvent _ =>
      if indicator = indicatorOf handling.shells killEvent.shellPid then handling.outside.ending.tells else []
  | .handleChildCreation shellPid =>
      if indicator = indicatorOf handling.shells shellPid then [.started handling.outside.time] else []
  | .handleShellExit _ => []
  | .handleWrite written output outputLen =>
      if indicator = written then [.output (writtenEvent (output.take outputLen))] else []

def toldSession (indicator : Long) (handlings : List Handling) : Session :=
  (handlings.flatMap (Handling.tells indicator)).foldl Session.after []

def Handling.Marked (handling : Handling) : Prop :=
  match handling.call with
  | .handleWrite _ output outputLen => (writtenEvent (output.take outputLen)).bytes = output.take outputLen
  | _ => True

/-! What the statements of a handler do to one table. -/
section Table

variable {session : Session} (other indicator : Long)

theorem table_changeLast {change : Row → Row} {told : Recorded → Recorded}
    (shown : ∀ recorded, (told recorded).row = change recorded.row) :
    session.table.map (changeLast change) = Session.table (changeLast told session) := by
  rcases List.eq_nil_or_concat session with rfl | ⟨front, last, rfl⟩
  · rfl
  · simp [Session.table, changeLast_concat, shown]

theorem table_concat (session : Session) (recorded : Recorded) :
    Session.table (session ++ [recorded]) = some (session.map Recorded.row ++ [recorded.row]) := by
  simp [Session.table]

theorem table_update (change : Row → Row) (told : Recorded → Recorded)
    (shown : ∀ recorded, (told recorded).row = change recorded.row) :
    (Statement.updateLast indicator change).onRows other session.table =
      Session.table (if other = indicator then changeLast told session else session) := by
  by_cases here : other = indicator
  · rw [if_pos here, ← table_changeLast shown]
    simp [Statement.onRows, here]
  · simp [Statement.onRows, here]

theorem table_begun (PS1 pwd : Text) :
    [Statement.updateLast indicator (Row.setPS1 PS1), .updateLast indicator (Row.setPwd pwd)].foldl
        (Statement.onRows other) session.table =
      Session.table (if other = indicator then session.after (.begun PS1 pwd) else session) := by
  rw [Session.after, ← table_update other indicator (Row.begun PS1 pwd) _ fun _ => rfl]
  by_cases here : other = indicator
  · cases session.table <;> simp [Statement.onRows, here, changeLast_changeLast]
    rfl
  · simp [Statement.onRows, here]

theorem table_opened (row : MetaRow) :
    [Statement.createTable indicator, .createRow indicator, .metaCreateRow row].foldl
        (Statement.onRows other) session.table =
      Session.table (if other = indicator then session.after .opened else session) := by
  by_cases here : other = indicator
  · rw [if_pos here, Session.after, table_concat]
    simp only [List.foldl_cons, List.foldl_nil, Statement.onRows, here, if_true, Option.map_some, Option.some.injEq]
    rw [Session.table]
    split
    · rename_i none
      rw [none]
      rfl
    · rfl
  · simp [Statement.onRows, here]

theorem table_ended (command exitStatus : Text) (ending : CommandEnd) (PS1 pwd : Text) :
    List.foldl (Statement.onRows other) session.table
        ([Row.setCommand command, Row.setExitStatus exitStatus, Row.setFinishTime ending.time,
            Row.setIndicator (getIndicator ending.now)].map (.updateLast indicator) ++
          .createRow indicator :: [Row.setPS1 PS1, Row.setPwd pwd].map (.updateLast indicator)) =
      Session.table (if other = indicator then session.after (.ended command exitStatus ending PS1 pwd)
        else session) := by
  by_cases here : other = indicator
  · rw [if_pos here]
    rcases List.eq_nil_or_concat session with rfl | ⟨front, last, rfl⟩
    · simp [Session.table, Session.after, Statement.onRows]
    · simp only [List.concat_eq_append, Session.after, table_concat, changeLast_concat, List.append_eq_nil_iff,
        List.cons_ne_self, and_false, if_false, List.map_cons, List.map_nil, List.cons_append, List.nil_append,
        List.foldl_cons, List.foldl_nil, Statement.onRows, here, if_true, Option.map_some]
      simp
      exact ⟨rfl, rfl⟩
  · simp [Statement.onRows, here]

end Table

section Handlings

variable {handling : Handling} {db after : Database} {session : Session}

theorem creation_session (opening : Opening) (killEvent : KillEvent) (other : Long) (session : Session) :
    (creationStatements opening killEvent).foldl (Statement.onRows other) session.table =
      Session.table (((if killEvent.parentShellIndicator ≠ 0#64 ∧ other = killEvent.parentShellIndicator then
          [SessionEvent.output (.link (recordedIndicator opening))] else []) ++
        if other = getIndicator opening.now then [SessionEvent.opened] else []).foldl Session.after session) := by
  have linked : List.foldl (Statement.onRows other) session.table
      (if killEvent.parentShellIndicator ≠ 0#64 then
        [.updateLast killEvent.parentShellIndicator (Row.appendOutput (parentLink opening))] else []) =
      Session.table (List.foldl Session.after session
        (if killEvent.parentShellIndicator ≠ 0#64 ∧ other = killEvent.parentShellIndicator then
          [SessionEvent.output (.link (recordedIndicator opening))] else [])) := by
    by_cases parent : killEvent.parentShellIndicator = 0#64
    · simp [parent]
    · rw [if_pos parent, List.foldl_cons, List.foldl_nil,
        parentLink_bytes, table_update other _ _ (Recorded.append (.link (recordedIndicator opening))) fun _ => rfl]
      by_cases here : other = killEvent.parentShellIndicator <;> simp [parent, here, Session.after]
  rw [creationStatements, List.foldl_append, List.foldl_append, linked, table_opened]
  split <;> rfl

theorem handled_session (marked : handling.Marked) (result : dbStep db handling = some after) {other : Long}
    (same : db.rows other = session.table) :
    after.rows other = Session.table ((handling.tells other).foldl Session.after session) := by
  rw [dbStep, handled_exec] at result
  obtain ⟨list, written, rfl⟩ := Option.map_eq_some_iff.mp result
  rw [rows_foldl, same]
  cases call : handling.call with
  | handleKillSIGUSR killEvent =>
      simp only [statements, call] at written
      simp only [Handling.tells, call, Closing.tells]
      split at written
      · rename_i lost
        obtain rfl := Option.some.inj written
        rw [creation_session, if_pos lost]
      · rename_i there
        simp only [Option.bind_eq_some_iff, Option.map_eq_some_iff] at written
        obtain ⟨PS1, prompt, pwd, directory, rfl⟩ := written
        rw [List.foldl_append, creation_session, table_begun, if_neg there, prompt, directory]
        by_cases here : other = getIndicator handling.opening.now
        · simp only [here, if_true, List.foldl_append, List.foldl_cons, List.foldl_nil]
        · simp only [here, if_false]
  | handleKillSIGRTMIN killEvent dataSz =>
      simp only [statements, call, Option.bind_eq_some_iff, Option.map_eq_some_iff] at written
      obtain ⟨command, line, exitStatus, status, PS1, prompt, pwd, directory, rfl⟩ := written
      have ended := @table_ended session other (indicatorOf handling.shells killEvent.shellPid) command exitStatus
        handling.outside.ending PS1 pwd
      simp only [Handling.tells, call, CommandEnd.tells, line, status, prompt, directory]
      refine ended.trans ?_
      split <;> rfl
  | handleChildCreation shellPid =>
      simp only [statements, call, Option.some.injEq] at written
      obtain rfl := written
      rw [List.foldl_cons, List.foldl_nil, table_update other _ (Row.setStartTime _)
        (Recorded.change (Row.setStartTime _) (setStartTime_output _)) fun _ => rfl]
      simp only [Handling.tells, call]
      split <;> rfl
  | handleShellExit indicator =>
      simp only [statements, call, Option.some.injEq] at written
      obtain rfl := written
      simp only [Handling.tells, call]
      rfl
  | handleWrite indicator output outputLen =>
      simp only [statements, call, Option.some.injEq] at written
      obtain rfl := written
      simp only [Handling.Marked, call] at marked
      rw [List.foldl_cons, List.foldl_nil, ← marked,
        table_update other _ _ (Recorded.append (writtenEvent (output.take outputLen))) fun _ => rfl]
      simp only [Handling.tells, call]
      split <;> rfl

end Handlings

section Runs

variable {past : List (Database × Handling)} {last : Database}

def toldIn (past : List (Database × Handling)) (indicator : Long) : List SessionEvent :=
  (past.map Prod.snd).reverse.flatMap (Handling.tells indicator)

theorem run_session (run : Run dbStep Database.empty past last)
    (marked : ∀ handling ∈ past.map Prod.snd, handling.Marked) (indicator : Long) :
    last.rows indicator = Session.table (toldSession indicator (past.map Prod.snd).reverse) := by
  induction run with
  | start => rfl
  | next earlier taken ih =>
      rw [List.map_cons, List.forall_mem_cons] at marked
      rw [List.map_cons, List.reverse_cons, toldSession, List.flatMap_append, List.foldl_append, List.flatMap_singleton]
      exact handled_session marked.1 taken (ih marked.2)

/-- The table of a session is what the session was told in the run, and in any
other run that tells it the same it is the same table. -/
theorem session_as_told (run : Run dbStep Database.empty past last)
    (marked : ∀ handling ∈ past.map Prod.snd, handling.Marked) (indicator : Long) :
    last.rows indicator = Session.table ((toldIn past indicator).foldl Session.after []) ∧
      ∀ {otherPast : List (Database × Handling)} {other : Database}, Run dbStep Database.empty otherPast other →
        (∀ handling ∈ otherPast.map Prod.snd, handling.Marked) → toldIn otherPast indicator = toldIn past indicator →
        other.rows indicator = last.rows indicator := by
  have here := run_session run marked indicator
  refine ⟨here, fun otherRun otherMarked same => ?_⟩
  have there := run_session otherRun otherMarked indicator
  rw [toldSession] at here there
  rw [here, there]
  exact congrArg (fun told => Session.table (told.foldl Session.after [])) same

instance (handling : Handling) : Decidable handling.Marked :=
  match call : handling.call with
  | .handleWrite _ output outputLen =>
      decidable_of_iff ((writtenEvent (output.take outputLen)).bytes = output.take outputLen)
        (by simp [Handling.Marked, call])
  | .handleKillSIGUSR _ | .handleKillSIGRTMIN _ _ | .handleChildCreation _ | .handleShellExit _ =>
      .isTrue (by simp [Handling.Marked, call])

theorem session_as_told_command :
    ∃ past last, Run dbStep Database.empty past last ∧ (toldIn past 10#64).length = 5 ∧
      last.rows 10#64 = Session.table ((toldIn past 10#64).foldl Session.after []) ∧
      ∀ {otherPast : List (Database × Handling)} {other : Database}, Run dbStep Database.empty otherPast other →
        (∀ handling ∈ otherPast.map Prod.snd, handling.Marked) → toldIn otherPast 10#64 = toldIn past 10#64 →
        other.rows 10#64 = last.rows 10#64 := by
  obtain ⟨past, last, run, marked, five⟩ := replay_some dbStep Database.empty sampleCommand
    (fun past _ => (∀ handling ∈ past.map Prod.snd, handling.Marked) ∧ (toldIn past 10#64).length = 5)
    (by decide +kernel)
  exact ⟨past, last, run, five, session_as_told run marked 10#64⟩

end Runs

end Nhi
