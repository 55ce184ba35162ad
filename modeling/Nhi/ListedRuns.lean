import Nhi.FetchedRuns
import Nhi.SameCommands
import Nhi.SessionClock

/-!
What `nhi log-session` lists after a run. A session's history is read off what
the session was told: a command comes into it at its end, if a process was
started for it since the prompt. The rows that can be scanned are that history,
and the filters of the query are filters of it.
-/

namespace Nhi

open RunHistory RowidTable
open Sql (ascii Phrase)

/-- The command that is being typed or run. -/
structure Prompt where
  pwd : Option Text := none
  startTime : Option Long := none

/-- What there is to scan of a command that ends at the prompt. A command that no
process was started for has no start time, and an empty one is passed over. -/
def Prompt.ended (prompt : Prompt) (command exitStatus : Text) (ending : CommandEnd) : Option Scanned :=
  match prompt.startTime, prompt.pwd with
  | some startTime, some pwd =>
      if command = [] then none
      else some ⟨getIndicator ending.now, startTime, ending.time, exitStatus, pwd, command⟩
  | _, _ => none

/-- The commands that ended, oldest first, and the prompt, if the session was opened. -/
structure History where
  commands : List Scanned := []
  prompt : Option Prompt := none

def History.after (history : History) : SessionEvent → History
  | .opened => ⟨history.commands, some {}⟩
  | .begun _ pwd => ⟨history.commands, history.prompt.map fun prompt => { prompt with pwd := some pwd }⟩
  | .output _ => history
  | .started time =>
      ⟨history.commands, history.prompt.map fun prompt => { prompt with startTime := prompt.startTime.or (some time) }⟩
  | .ended command exitStatus ending _ pwd =>
      match history.prompt with
      | none => history
      | some prompt => ⟨history.commands ++ (prompt.ended command exitStatus ending).toList, some ⟨some pwd, none⟩⟩

def historyIn (past : List (World × Label)) (indicator : Long) : History :=
  ((handlings past).reverse.flatMap (Handling.tells indicator)).foldl History.after {}

def Row.scanned (row : Row) : Option Scanned := if row.scan.command = [] then none else some row.scan

def Scanned.row (scanned : Scanned) : Row :=
  ⟨none, some scanned.command, [], some scanned.exitStatus, some scanned.pwd, some scanned.startTime,
    some scanned.finishTime, some scanned.indicator⟩

/-- What the filters ask of a command. -/
def Scanned.passes (platform : Platform) (commandRegex exitStatus directory : Text) (latest earliest : Option Long)
    (scanned : Scanned) : Bool :=
  meetsFilters exitStatus directory latest earliest scanned.row &&
    (commandRegex = [] || platform.matchString commandRegex scanned.command)

def Session.commands (session : Session) : List Scanned := session.filterMap fun recorded => recorded.row.scanned

structure History.Of (history : History) (session : Session) : Prop where
  commands : session.commands = history.commands
  prompt : (session.getLast?.map fun recorded => ⟨recorded.row.pwd, recorded.row.startTime⟩) = history.prompt
  unclosed : session.Unclosed

section Histories

variable {history : History} {session front : Session} {last : Recorded}

theorem commands_concat (front : Session) (last : Recorded) :
    Session.commands (front ++ [last]) = front.commands ++ last.row.scanned.toList := by
  rw [Session.commands, List.filterMap_append]
  cases scanned : last.row.scanned <;> simp [scanned, Session.commands]

theorem scanned_open {row : Row} (unclosed : row.Open) : row.scanned = none := by
  have unread : row.scan.command = [] := by
    rw [Row.scan, unclosed.indicator]
  rw [Row.scanned, if_pos unread]

theorem scanned_close (row : Row) (command exitStatus : Text) (ending : CommandEnd) :
    (row.close command exitStatus ending).scanned =
      (⟨row.pwd, row.startTime⟩ : Prompt).ended command exitStatus ending := by
  rw [Row.scanned, Row.scan, Prompt.ended, Row.close]
  cases row.startTime with
  | none => simp
  | some startTime => cases row.pwd <;> simp

theorem commands_open (unclosed : last.row.Open) : Session.commands (front ++ [last]) = front.commands := by
  rw [commands_concat, scanned_open unclosed, Option.toList_none, List.append_nil]

theorem open_setStartTime {row : Row} (unclosed : row.Open) (time : Long) : (row.setStartTime time).Open := by
  rw [Row.setStartTime]
  split
  · exact ⟨unclosed.finishTime, unclosed.indicator⟩
  · exact unclosed

theorem prompt_setStartTime (row : Row) (time : Long) :
    (⟨(row.setStartTime time).pwd, (row.setStartTime time).startTime⟩ : Prompt) =
      ⟨row.pwd, row.startTime.or (some time)⟩ := by
  rw [Row.setStartTime]
  cases started : row.startTime <;> simp [started]

theorem of_nil (held : history.Of []) : history = {} := by
  obtain ⟨commands, prompt⟩ := history
  obtain rfl : [] = commands := held.commands
  obtain rfl : none = prompt := held.prompt
  rfl

theorem of_concat (held : history.Of (front ++ [last])) :
    last.row.Open ∧ history = ⟨front.commands, some ⟨last.row.pwd, last.row.startTime⟩⟩ := by
  obtain ⟨commands, prompt⟩ := history
  have waits := unclosed_concat.mp held.unclosed
  have prompted := held.prompt
  rw [List.getLast?_concat] at prompted
  exact ⟨waits, congr (congrArg History.mk (held.commands.symm.trans (commands_open waits))) prompted.symm⟩

theorem concat_of (front : Session) (last : Recorded) (unclosed : last.row.Open) :
    (⟨front.commands, some ⟨last.row.pwd, last.row.startTime⟩⟩ : History).Of (front ++ [last]) where
  commands := commands_open unclosed
  prompt := by
    rw [List.getLast?_concat]
    rfl
  unclosed := unclosed_concat.mpr unclosed

theorem of_after (held : history.Of session) (event : SessionEvent) :
    (history.after event).Of (session.after event) := by
  have blank : Recorded.blank.row.Open := ⟨rfl, rfl⟩
  rcases List.eq_nil_or_concat session with rfl | ⟨front, last, rfl⟩
  · obtain rfl := of_nil held
    cases event with
    | opened => exact concat_of [] _ blank
    | begun | output | started | ended => exact held
  rw [List.concat_eq_append] at held ⊢
  obtain ⟨waits, rfl⟩ := of_concat held
  cases event with
  | opened =>
      have all := concat_of (front ++ [last]) _ blank
      rwa [commands_open waits] at all
  | begun PS1 pwd =>
      rw [Session.after, changeLast_concat]
      exact concat_of front (last.change (Row.begun PS1 pwd) _) ⟨waits.finishTime, waits.indicator⟩
  | output event =>
      rw [Session.after, changeLast_concat]
      exact concat_of front (last.append event) ⟨waits.finishTime, waits.indicator⟩
  | started time =>
      have started := concat_of front (last.change _ (setStartTime_output time))
        (open_setStartTime waits time)
      rw [Session.after, changeLast_concat]
      rwa [Recorded.change, prompt_setStartTime] at started
  | ended command exitStatus ending PS1 pwd =>
      -- the row that is closed is scanned, and a blank one comes behind it
      have closed := concat_of (front ++ [last.change _ (close_output command exitStatus ending)])
        (Recorded.blank.change _ (begun_output PS1 pwd)) ⟨rfl, rfl⟩
      rw [commands_concat, Recorded.change, scanned_close] at closed
      rw [Session.after, if_neg (List.append_ne_nil_of_right_ne_nil _ (List.cons_ne_nil _ _)), changeLast_concat]
      exact closed

theorem of_foldl (held : history.Of session) (events : List SessionEvent) :
    (events.foldl History.after history).Of (events.foldl Session.after session) := by
  induction events generalizing history session with
  | nil => exact held
  | cons event rest ih => exact ih (of_after held event)

theorem history_commands (past : List (World × Label)) (indicator : Long) :
    ((recorded past indicator).map Recorded.row).filterMap Row.scanned = (historyIn past indicator).commands := by
  have none : ({} : History).Of [] := ⟨rfl, rfl, fun _ member => absurd member (Option.not_mem_none _)⟩
  have all := (of_foldl none ((handlings past).reverse.flatMap (Handling.tells indicator))).commands
  rw [List.filterMap_map]
  exact all

end Histories

/-! The rows that the programs select. -/
section Filters

variable {platform : Platform} {commandRegex exitStatus directory : Text} {latest earliest : Option Long}

theorem scanned_some {row : Row} {scanned : Scanned} (read : row.scanned = some scanned) :
    row.exitStatus = some scanned.exitStatus ∧ row.pwd = some scanned.pwd ∧
      row.startTime = some scanned.startTime := by
  rw [Row.scanned] at read
  split at read
  · cases read
  · rename_i given
    obtain rfl := Option.some.inj read
    obtain ⟨_, _, _, exitStatus, pwd, startTime, finishTime, indicator⟩ := row
    -- the command is scanned only behind the others
    cases indicator with
    | none => exact absurd rfl given
    | some =>
        cases startTime with
        | none => exact absurd rfl given
        | some =>
            cases finishTime with
            | none => exact absurd rfl given
            | some =>
                cases exitStatus with
                | none => exact absurd rfl given
                | some =>
                    cases pwd with
                    | none => exact absurd rfl given
                    | some => exact ⟨rfl, rfl, rfl⟩

theorem meets_scanned {row : Row} {scanned : Scanned} (read : row.scanned = some scanned) :
    meetsFilters exitStatus directory latest earliest row =
      meetsFilters exitStatus directory latest earliest scanned.row := by
  obtain ⟨ended, placed, started⟩ := scanned_some read
  rw [meetsFilters, exitTest, directoryTest, beforeTest, afterTest, ended, placed, started]
  rfl

theorem listed_scanned (row : Row) :
    row.listed platform commandRegex =
      row.scanned.filter fun scanned => commandRegex = [] || platform.matchString commandRegex scanned.command := by
  rw [Row.listed, Row.scanned]
  by_cases empty : row.scan.command = []
  · simp [empty]
  · by_cases every : commandRegex = []
    · simp [empty, every, Option.filter_some]
    · cases matched : platform.matchString commandRegex row.scan.command <;>
        simp [empty, every, matched, Option.filter_some]

theorem listed_filter (rows : List Row) :
    (rows.filter (meetsFilters exitStatus directory latest earliest)).filterMap (Row.listed platform commandRegex) =
      (rows.filterMap Row.scanned).filter
        (Scanned.passes platform commandRegex exitStatus directory latest earliest) := by
  rw [List.filterMap_filter, List.filter_filterMap]
  refine List.filterMap_congr fun row _ => ?_
  rw [listed_scanned]
  cases read : row.scanned with
  | none => simp
  | some scanned =>
      rw [meets_scanned read]
      cases passed : meetsFilters exitStatus directory latest earliest scanned.row <;>
        simp [Scanned.passes, passed, Option.filter_some]

theorem content_selects_dated (localTime : LocalTime) {db : RowidDatabase} {indicator : Long}
    {table : List (Nat × Row)} (found : db.table indicator = some table) (plainExit : Plain exitStatus)
    (plainDirectory : Plain directory) (latest earliest : Option Civil) :
    selectSession db contentColumns (contentQuery (decimal indicator)
        (Sql.joined (filterConditions localTime exitStatus directory latest earliest))) =
      .rows (Sql.matching (fun _ row => meetsFilters exitStatus directory (latest.map localTime)
        (earliest.map localTime) row) table).reverse := by
  have read := contentQuery_select localTime plainExit plainDirectory latest earliest indicator
  have every : Sql.conditionTest sessionSchema db.rowids (([] : List Phrase).map Phrase.comparison) =
    some fun _ _ => true := rfl
  have tested := clausePhrases_meet localTime db every plainExit plainDirectory latest earliest
  refine (selectSession_ordered found read rfl tested).trans ?_
  simp

end Filters

def reported (message text : Text) : Except Text (Text × Nat) :=
  if text = [] then .error message else .ok (text, text.length)

section Runs

variable {past : List (World × Label)} {world : World} (platform : Platform) (timeString : Long → Text)
  (commandRegex : Text) (long : Bool) (localTime : LocalTime) (unread : Text → Except Text (List Row))
  {exitStatus directory before after : Text} {latest earliest : Option Civil}

theorem opened_table (run : Run step World.start past world) (idle : world.daemon = .idle) {indicator : Long}
    (opened : indicator ∈ openedIn past) :
    world.db.numbered.table indicator = some (number ((recorded past indicator).map Recorded.row)) := by
  rw [numbered_table, idle_table run idle, Session.table, if_neg ((recorded_nonempty past indicator).mpr opened),
    Option.map_some]

/-- After a run `nhi log-session` lists of a session the commands of its history
that pass the filters, the last one first. -/
theorem commands_listed (run : Run step World.start past world) (idle : world.daemon = .idle) {indicator : Long}
    (opened : indicator ∈ openedIn past) (plainExit : Plain exitStatus) (plainDirectory : Plain directory)
    (untilThen : Moment (ascii "before") before latest) (since : Moment (ascii "after") after earliest) :
    logSessionRequest platform timeString commandRegex long localTime unread world.db.numbered (decimal indicator)
        exitStatus directory before after =
      reported (ascii "no commands found") (((historyIn past indicator).commands.filter
        (Scanned.passes platform commandRegex exitStatus directory (latest.map localTime)
          (earliest.map localTime))).reverse.flatMap (contentEntry timeString long)) := by
  have written : logSessionQuery localTime (decimal indicator) exitStatus directory before after =
      .ok (contentQuery (decimal indicator) (Sql.joined (filterConditions localTime exitStatus directory latest earliest))) := by
    rw [logSessionQuery, logSessionWhere_joined, untilThen.read, since.read]
    rfl
  have selected := content_selects_dated localTime (opened_table run idle opened) plainExit plainDirectory latest earliest
  simp only [logSessionRequest, written, selected, bind, Except.bind]
  rw [getContentStrAndLen_listed, List.map_reverse, matching_rows, List.filterMap_reverse, listed_filter,
    history_commands, reported]
  simp only [List.length_eq_zero_iff]

theorem commands_listed_child :
    ∃ past world, Run step World.start past world ∧ (recorded past 16000000000#64).length = 3 ∧
      (historyIn past 16000000000#64).commands.length = 1 ∧
      logSessionRequest samplePlatform (fun _ => []) [] true (fun _ => 0#64) (fun _ => .error []) world.db.numbered
          (decimal 16000000000#64) [] (ascii "/") [] (ascii "2020-09-13 12:26:45") =
        reported (ascii "no commands found") (((historyIn past 16000000000#64).commands.filter
          (Scanned.passes samplePlatform [] [] (ascii "/") none (some 0#64))).reverse.flatMap
            (contentEntry (fun _ => []) true)) := by
  obtain ⟨past, world, run, idle, opened, three, one⟩ := replay_some step World.start
    (registration 1#32 ++ [.fork 1#32 2#32 true, .take sampleOutside, .exit 2#32 true,
      .kill 1#32 SIGRTMIN nhidHash true, .take promptOutside, .kill 1#32 SIGRTMIN nhidHash true, .take promptOutside])
    (fun past world => world.daemon = .idle ∧ 16000000000#64 ∈ openedIn past ∧
      (recorded past 16000000000#64).length = 3 ∧ (historyIn past 16000000000#64).commands.length = 1) (by decide +kernel)
  have since : Moment (ascii "after") (ascii "2020-09-13 12:26:45") (some ⟨2020, 9, 13, 12, 26, 45⟩) :=
    .given _ _ (by decide) rfl
  have directory : Plain (ascii "/") := by decide
  have shown := commands_listed samplePlatform (fun _ => []) [] true (fun _ => 0#64) (fun _ => .error []) run idle
    opened plain_nil directory .omitted since
  exact ⟨past, world, run, three, one, shown⟩

end Runs

end Nhi
