import Nhi.SameCommands

/-!
pkg/log/log.go: `getContentStrAndLen`, and the sessions whose header it writes.
The row that waits for its command has a directory already, so a query without
an exit status may select it like a command.
-/

namespace Nhi

open Sql (ascii)

/-- What is written to the content: the header of a session, or a command. -/
inductive LogEntry where
  | head (session : Nat × MetaRow)
  | command (scanned : Scanned)

section Content

-- `time.Unix(..).String()` is left open, and so is what SQLite does with a text
-- that is not a plain query
variable (platform : Platform) (timeString : Long → Text) (unread : Text → Except Text (List Row))
  (db : RowidDatabase) (exitStatus directory commandRegex : Text) (long : Bool)

def finishTimeLocal (finishTime : Long) : Text := if finishTime = 0#64 then ascii "-" else timeString finishTime

/-- `rows.Scan` leaves a finish time that is null at zero. -/
def sessionHead (session : MetaRow) : Text :=
  [27#8] ++ ascii "[33m" ++ ascii "Session name: " ++ session.name ++ [27#8] ++ ascii "[0m" ++ [10#8] ++
  ascii "Start time:  " ++ timeString session.startTime ++ [10#8] ++
  ascii "Finish time: " ++ finishTimeLocal timeString (session.finishTime.getD 0#64) ++ [10#8, 10#8]

def commandEntry (scanned : Scanned) : Text :=
  [27#8] ++ ascii "[33m" ++ ascii "  indicator " ++ decimal scanned.indicator ++ [27#8] ++ ascii "[0m" ++ [10#8] ++
  ascii "  Start time:  " ++ timeString scanned.startTime ++ [10#8] ++
  ascii "  Finish time: " ++ finishTimeLocal timeString scanned.finishTime ++ [10#8] ++
  ascii "  Exit status: " ++ scanned.exitStatus ++ [10#8] ++
  [10#8] ++ ascii "      " ++ scanned.command ++ [10#8, 10#8]

def LogEntry.text : LogEntry → Text
  | .head session => sessionHead timeString session.2
  | .command scanned => commandEntry timeString scanned

/-- An iteration over the rows in long mode; the flag is `contentHeadWritten`. -/
def addLongRow (session : Nat × MetaRow) (state : List LogEntry × Bool) (row : Row) : List LogEntry × Bool :=
  let (content, contentHeadWritten) :=
    if state.2 = false ∧ commandRegex = [] then (state.1 ++ [.head session], true) else state
  let scanned := row.scan
  if scanned.command ≠ [] ∧ (commandRegex = [] ∨ platform.matchString commandRegex scanned.command) then
    let content := if contentHeadWritten then content else content ++ [.head session]
    (content ++ [.command scanned], true)
  else (content, contentHeadWritten)

/-- The loop of short mode, which ends at the first row that matches. -/
def addFirstMatch (session : Nat × MetaRow) (content : List LogEntry) : List Row → List LogEntry
  | [] => content
  | row :: rest =>
      if platform.matchString commandRegex row.scan.command then content ++ [.head session]
      else addFirstMatch session content rest

def addLogRows (session : Nat × MetaRow) (content : List LogEntry) (rows : List Row) : List LogEntry :=
  if long then (rows.foldl (addLongRow platform commandRegex session) (content, false)).1
  else if commandRegex = [] then (if rows = [] then content else content ++ [.head session])
  else addFirstMatch platform commandRegex session content rows

def contentRows (session : Nat × MetaRow) : Except Text (List Row) :=
  let text := contentQuery (decimal session.2.indicator) (getContentWhere exitStatus directory)
  match selectSession db contentColumns text with
  | .rows rows => .ok (rows.map Prod.snd)
  | .noSuchTable => .error (ascii "no such table: " ++ decimal session.2.indicator)
  | .unread => unread text

def addLogSession (content : List LogEntry) (session : Nat × MetaRow) : Except Text (List LogEntry) :=
  if session.2.name = [] ∨ session.2.name = ascii "meta" then .ok content
  else (contentRows unread db exitStatus directory session).map
    (addLogRows platform commandRegex long session content)

def logEntries (sessions : List (Nat × MetaRow)) : Except Text (List LogEntry) :=
  sessions.foldlM (addLogSession platform unread db exitStatus directory commandRegex long) []

def contentOf (content : List LogEntry) : Except Text (Text × Nat) :=
  let contentStr := content.flatMap (LogEntry.text timeString)
  let contentStrLen := contentStr.length
  if contentStrLen = 0 then .error (ascii "no sessions found") else .ok (contentStr, contentStrLen)

def logContentStrAndLen (sessions : List (Nat × MetaRow)) : Except Text (Text × Nat) := do
  let content ← logEntries platform unread db exitStatus directory commandRegex long sessions
  contentOf timeString content

/-! `Log` up to the content. -/

def metaColumns : List Text := [ascii "indicator", ascii "name", ascii "start_time", ascii "finish_time"]

def logQuery (clause : Text) : Text :=
  if clause = [] then ascii "SELECT indicator, name, start_time, finish_time FROM meta ORDER BY rowid DESC;"
  else ascii "SELECT indicator, name, start_time, finish_time FROM meta WHERE " ++ clause ++
    ascii " ORDER BY rowid DESC;"

def logRequest (localTime : LocalTime) (unreadMeta : Text → Except Text (List (Nat × MetaRow)))
    (before after : Text) : Except Text (Text × Nat) := do
  let clause ← logWhere localTime before after
  let sessions ← match selectMeta db metaColumns (logQuery clause) with
    | .rows rows => .ok rows
    | .noSuchTable => .error (ascii "no such table: meta")
    | .unread => unreadMeta (logQuery clause)
  logContentStrAndLen platform timeString unread db exitStatus directory commandRegex long sessions

theorem text_nonempty (entry : LogEntry) : entry.text timeString ≠ [] := by
  cases entry with
  | head session =>
      unfold LogEntry.text sessionHead
      exact List.append_ne_nil_of_right_ne_nil _ (List.cons_ne_nil _ _)
  | command scanned =>
      unfold LogEntry.text commandEntry
      exact List.append_ne_nil_of_right_ne_nil _ (List.cons_ne_nil _ _)

theorem logContentStrAndLen_entries {sessions : List (Nat × MetaRow)} {content : List LogEntry}
    (written : logEntries platform unread db exitStatus directory commandRegex long sessions = .ok content) :
    logContentStrAndLen platform timeString unread db exitStatus directory commandRegex long sessions =
      if content = [] then .error (ascii "no sessions found")
      else .ok (content.flatMap (LogEntry.text timeString), (content.flatMap (LogEntry.text timeString)).length) := by
  have nothing : (content.flatMap (LogEntry.text timeString)).length = 0 ↔ content = [] := by
    rw [List.length_eq_zero_iff, List.flatMap_eq_nil_iff]
    cases content with
    | nil => simp
    | cons entry rest =>
        refine iff_of_false (fun none => ?_) (List.cons_ne_nil _ _)
        exact text_nonempty timeString entry (none entry List.mem_cons_self)
  rw [logContentStrAndLen, written]
  simp only [bind, Except.bind, contentOf, nothing]

theorem logRequest_undated (localTime : LocalTime) (unreadMeta : Text → Except Text (List (Nat × MetaRow))) :
    logRequest platform timeString unread db exitStatus directory commandRegex long localTime unreadMeta [] [] =
      logContentStrAndLen platform timeString unread db exitStatus directory commandRegex long
        db.metaTable.reverse := by
  have read : Sql.parseText (logQuery []) = some (.select ⟨metaColumns, ascii "meta", [], true, none⟩) := by
    decide +kernel
  have selected : selectMeta db metaColumns (logQuery []) = .rows db.metaTable.reverse := by
    have all : Sql.matching (fun _ _ => true) db.metaTable = db.metaTable := List.filter_true _
    have known : metaColumns.all fun column => (Sql.columnOf metaSchema column).isSome := rfl
    have here : RowidDatabase.isMeta (ascii "meta") = true := rfl
    simp [selectMeta, read, here, Sql.Select.rows, known, Sql.conditionTest, all]
  simp only [logRequest, logWhere, selected, bind, Except.bind, pure, Except.pure, ne_eq, not_true_eq_false,
    if_false]

end Content

/-! What there is to say about a session. -/
section Statement

variable (platform : Platform) (timeString : Long → Text) (unread : Text → Except Text (List Row))
  (db : RowidDatabase) (exitStatus directory commandRegex : Text) (long : Bool)

structure Row.Whole (row : Row) : Prop extends Row.Completed row where
  startTime : row.startTime.isSome
  given : row.command ≠ some []

structure Row.Waiting (row : Row) : Prop where
  PS1 : row.PS1.isSome
  pwd : row.pwd.isSome
  command : row.command = none
  exitStatus : row.exitStatus = none
  finishTime : row.finishTime = none

structure LoggedSession (session : Nat × MetaRow) (front : List (Nat × Row)) (last : Nat × Row) : Prop where
  named : session.2.name ≠ []
  other : session.2.name ≠ ascii "meta"
  found : db.table session.2.indicator = some (front ++ [last])
  whole : ∀ entry ∈ front, entry.2.Whole
  waiting : last.2.Waiting

def Row.Satisfies (row : Row) : Prop :=
  exitTest exitStatus row = true ∧ directoryTest directory row = true ∧
    (commandRegex = [] ∨ ∃ command ∈ row.command, platform.matchString commandRegex command = true)

def Satisfied (front : List (Nat × Row)) : Prop :=
  ∃ entry ∈ front, entry.2.Satisfies platform exitStatus directory commandRegex

/-- The waiting row passes as an empty command: no exit status is asked of it,
it has the directory, and the regex matches the empty text where that is looked at. -/
def Row.PassesAsCommand (row : Row) : Prop :=
  exitStatus = [] ∧ directoryTest directory row = true ∧
    (commandRegex = [] ∨ (long = false ∧ platform.matchString commandRegex [] = true))

def LogEntry.isHead (rowid : Nat) : LogEntry → Bool
  | .head session => session.1 = rowid
  | .command _ => false

/-- How often the header of a session is in the output. With an error there is none. -/
def headCount (sessions : List (Nat × MetaRow)) (session : Nat × MetaRow) : Nat :=
  match logEntries platform unread db exitStatus directory commandRegex long sessions with
  | .ok content => content.countP (LogEntry.isHead session.1)
  | .error _ => 0

/-- The header of a session is there once if a completed command of it satisfies
the filters, and not at all otherwise. -/
def HeadersExact (sessions : List (Nat × MetaRow)) : Prop :=
  ∀ session ∈ sessions, ∀ front last, LoggedSession db session front last →
    (Satisfied platform exitStatus directory commandRegex front →
      headCount platform unread db exitStatus directory commandRegex long sessions session = 1) ∧
    (¬ Satisfied platform exitStatus directory commandRegex front →
      headCount platform unread db exitStatus directory commandRegex long sessions session = 0)

/-- Every waiting row that passes as a command comes with a command that
satisfies the filters. -/
def Covered (sessions : List (Nat × MetaRow)) : Prop :=
  ∀ session ∈ sessions, ∀ front last, LoggedSession db session front last →
    last.2.PassesAsCommand platform exitStatus directory commandRegex long →
      Satisfied platform exitStatus directory commandRegex front

end Statement

/-! What the two modes write for the rows of a query. -/
section Rows

variable (platform : Platform) (commandRegex : Text) (long : Bool)

def Row.headed (row : Row) : Bool :=
  commandRegex = [] ||
    if long then (row.listed platform commandRegex).isSome else platform.matchString commandRegex row.scan.command

def sessionEntries (session : Nat × MetaRow) (rows : List Row) : List LogEntry :=
  (if rows.any (Row.headed platform commandRegex long) then [.head session] else []) ++
    if long then (rows.filterMap (Row.listed platform commandRegex)).map .command else []

theorem addLongRow_listed (session : Nat × MetaRow) (content : List LogEntry) (written : Bool) (row : Row) :
    addLongRow platform commandRegex session (content, written) row =
      (content ++ (if written = false ∧ row.headed platform commandRegex true then [.head session] else []) ++
          (row.listed platform commandRegex).toList.map .command,
        written || row.headed platform commandRegex true) := by
  rw [addLongRow, Row.headed, Row.listed]
  by_cases empty : row.scan.command = []
  · by_cases every : commandRegex = []
    · cases written <;> simp [empty, every]
    · cases written <;> simp [empty, every]
  · by_cases every : commandRegex = []
    · cases written <;> simp [empty, every]
    · cases matched : platform.matchString commandRegex row.scan.command <;> cases written <;>
        simp [empty, every, matched]

theorem addLongRows_listed (session : Nat × MetaRow) (content : List LogEntry) (written : Bool) (rows : List Row) :
    (rows.foldl (addLongRow platform commandRegex session) (content, written)).1 =
      content ++ (if written = false ∧ rows.any (Row.headed platform commandRegex true) then [.head session]
          else []) ++
        (rows.filterMap (Row.listed platform commandRegex)).map .command := by
  induction rows generalizing content written with
  | nil => simp
  | cons row rest ih =>
      rw [List.foldl_cons, addLongRow_listed, ih, List.any_cons]
      cases headed : row.headed platform commandRegex true with
      | true => cases listed : row.listed platform commandRegex <;> cases written <;> simp [listed]
      | false =>
          -- a row without the header is not listed
          have unlisted : row.listed platform commandRegex = none := by
            rw [Row.headed] at headed
            simpa using (Bool.or_eq_false_iff.mp headed).2
          simp [unlisted]

theorem addFirstMatch_any (session : Nat × MetaRow) (content : List LogEntry) (rows : List Row) :
    addFirstMatch platform commandRegex session content rows =
      content ++ if rows.any (fun row => platform.matchString commandRegex row.scan.command) then [.head session]
        else [] := by
  induction rows with
  | nil => exact (List.append_nil _).symm
  | cons row rest ih =>
      rw [addFirstMatch, List.any_cons, ih]
      cases platform.matchString commandRegex row.scan.command <;> simp

theorem addLogRows_entries (session : Nat × MetaRow) (content : List LogEntry) (rows : List Row) :
    addLogRows platform commandRegex long session content rows =
      content ++ sessionEntries platform commandRegex long session rows := by
  rw [addLogRows, sessionEntries]
  cases long with
  | true => simp [addLongRows_listed]
  | false =>
      by_cases every : commandRegex = []
      · cases rows <;> simp [every, Row.headed]
      · simp [every, addFirstMatch_any, Row.headed]

end Rows

/-! The whole content. -/
section Sessions

variable (platform : Platform) (unread : Text → Except Text (List Row)) {db : RowidDatabase}
  (exitStatus directory commandRegex : Text) (long : Bool) {session : Nat × MetaRow}
  {front : List (Nat × Row)} {last : Nat × Row} {sessions : List (Nat × MetaRow)}

/-- A statement without an answer ends the call; else the header of a session is
written for a row of its answer exactly when a command satisfies the filters. -/
def AnsweredAlike (db : RowidDatabase) (sessions : List (Nat × MetaRow)) : Prop :=
  ((∃ session ∈ sessions, ∃ message, contentRows unread db exitStatus directory session = .error message) ∧
    ∀ session ∈ sessions, ∀ front last, LoggedSession db session front last →
      ¬ Satisfied platform exitStatus directory commandRegex front) ∨
  ∀ session ∈ sessions, ∀ front last, LoggedSession db session front last →
    ∃ rows, contentRows unread db exitStatus directory session = .ok rows ∧
      (rows.any (Row.headed platform commandRegex long) = true ↔
        Satisfied platform exitStatus directory commandRegex front)

theorem addLogSession_answer (logged : LoggedSession db session front last) (content : List LogEntry) :
    addLogSession platform unread db exitStatus directory commandRegex long content session =
      (contentRows unread db exitStatus directory session).map fun rows =>
        content ++ sessionEntries platform commandRegex long session rows := by
  rw [addLogSession, if_neg (not_or.mpr ⟨logged.named, logged.other⟩)]
  congr 1
  funext rows
  exact addLogRows_entries platform commandRegex long session content rows

theorem logEntries_answered (logged : ∀ session ∈ sessions, ∃ front last, LoggedSession db session front last)
    {rows : Nat × MetaRow → List Row}
    (answered : ∀ session ∈ sessions, contentRows unread db exitStatus directory session = .ok (rows session)) :
    logEntries platform unread db exitStatus directory commandRegex long sessions =
      .ok (sessions.flatMap fun session => sessionEntries platform commandRegex long session (rows session)) := by
  have loop (content : List LogEntry) :
      sessions.foldlM (addLogSession platform unread db exitStatus directory commandRegex long) content =
        .ok (content ++ sessions.flatMap fun session =>
          sessionEntries platform commandRegex long session (rows session)) := by
    induction sessions generalizing content with
    | nil => exact congrArg Except.ok (List.append_nil _).symm
    | cons session rest ih =>
        obtain ⟨⟨front, last, here⟩, others⟩ := List.forall_mem_cons.mp logged
        obtain ⟨answer, answers⟩ := List.forall_mem_cons.mp answered
        rw [List.foldlM_cons, addLogSession_answer platform unread exitStatus directory commandRegex long here,
          answer, List.flatMap_cons, ← List.append_assoc]
        exact ih others answers _
  rw [logEntries, loop, List.nil_append]

theorem logEntries_refused (logged : ∀ session ∈ sessions, ∃ front last, LoggedSession db session front last)
    (refused : ∃ session ∈ sessions, ∃ message, contentRows unread db exitStatus directory session = .error message) :
    ∃ message, logEntries platform unread db exitStatus directory commandRegex long sessions = .error message := by
  have loop (content : List LogEntry) : ∃ message,
      sessions.foldlM (addLogSession platform unread db exitStatus directory commandRegex long) content =
        .error message := by
    induction sessions generalizing content with
    | nil =>
        obtain ⟨_, none, _⟩ := refused
        cases none
    | cons session rest ih =>
        obtain ⟨⟨front, last, here⟩, others⟩ := List.forall_mem_cons.mp logged
        rw [List.foldlM_cons, addLogSession_answer platform unread exitStatus directory commandRegex long here]
        cases answer : contentRows unread db exitStatus directory session with
        | error message => exact ⟨message, rfl⟩
        | ok rows =>
            -- the statement without an answer is a later one
            refine ih others ?_ _
            obtain ⟨other, member, message, same⟩ := refused
            rcases List.mem_cons.mp member with rfl | later
            · rw [answer] at same
              cases same
            · exact ⟨other, later, message, same⟩
  exact loop []

theorem countP_sessionEntries (rowid : Nat) (session : Nat × MetaRow) (rows : List Row) :
    (sessionEntries platform commandRegex long session rows).countP (LogEntry.isHead rowid) =
      if session.1 = rowid ∧ rows.any (Row.headed platform commandRegex long) then 1 else 0 := by
  have commands (scanned : List Scanned) : (scanned.map LogEntry.command).countP (LogEntry.isHead rowid) = 0 := by
    rw [List.countP_eq_zero]
    intro entry member
    obtain ⟨one, _, rfl⟩ := List.mem_map.mp member
    exact Bool.false_ne_true
  have body : (if long then (rows.filterMap (Row.listed platform commandRegex)).map LogEntry.command
      else []).countP (LogEntry.isHead rowid) = 0 := by
    split
    · exact commands _
    · rfl
  rw [sessionEntries, List.countP_append, body, Nat.add_zero]
  by_cases headed : rows.any (Row.headed platform commandRegex long)
  · simp [headed, LogEntry.isHead, List.countP_cons]
  · simp [headed]

theorem countP_heads (distinct : (sessions.map Prod.fst).Nodup)
    (member : session ∈ sessions) (rows : Nat × MetaRow → List Row) :
    (sessions.flatMap fun session => sessionEntries platform commandRegex long session (rows session)).countP
        (LogEntry.isHead session.1) =
      if (rows session).any (Row.headed platform commandRegex long) then 1 else 0 := by
  have none {others : List (Nat × MetaRow)} (apart : ∀ other ∈ others, other.1 ≠ session.1) :
      (others.flatMap fun session => sessionEntries platform commandRegex long session (rows session)).countP
        (LogEntry.isHead session.1) = 0 := by
    induction others with
    | nil => rfl
    | cons other rest ih =>
        obtain ⟨here, later⟩ := List.forall_mem_cons.mp apart
        rw [List.flatMap_cons, List.countP_append, countP_sessionEntries, if_neg (fun both => here both.1), ih later]
  obtain ⟨before, after, rfl⟩ := List.append_of_mem member
  rw [List.map_append, List.map_cons, List.nodup_append] at distinct
  obtain ⟨_, behind, between⟩ := distinct
  have first : ∀ other ∈ before, other.1 ≠ session.1 := fun other inside =>
    between _ (List.mem_map_of_mem inside) _ List.mem_cons_self
  have second : ∀ other ∈ after, other.1 ≠ session.1 := fun other inside same =>
    (List.nodup_cons.mp behind).1 (same ▸ List.mem_map_of_mem inside)
  rw [List.flatMap_append, List.flatMap_cons, List.countP_append, List.countP_append, none first, none second,
    countP_sessionEntries, Nat.zero_add, Nat.add_zero]
  simp

theorem headed_whole {row : Row} (whole : row.Whole) :
    row.headed platform commandRegex long = true ↔
      commandRegex = [] ∨ ∃ command ∈ row.command, platform.matchString commandRegex command = true := by
  obtain ⟨command, set⟩ := Option.isSome_iff_exists.mp whole.command
  obtain ⟨indicator, numbered⟩ := Option.isSome_iff_exists.mp whole.indicator
  obtain ⟨startTime, started⟩ := Option.isSome_iff_exists.mp whole.startTime
  obtain ⟨finishTime, finished⟩ := Option.isSome_iff_exists.mp whole.finishTime
  obtain ⟨exitStatus, ended⟩ := Option.isSome_iff_exists.mp whole.exitStatus
  obtain ⟨pwd, placed⟩ := Option.isSome_iff_exists.mp whole.pwd
  have scanned : row.scan.command = command := by
    simp [Row.scan, numbered, started, finished, ended, placed, set]
  have given : command ≠ [] := fun empty => whole.given (set.trans (congrArg some empty))
  rw [Row.headed, Row.listed, scanned, if_neg given]
  by_cases every : commandRegex = []
  · simp [every]
  · cases matched : platform.matchString commandRegex command <;> cases long <;> simp [every, set, matched]

theorem headed_waiting {row : Row} (waiting : row.Waiting) :
    row.headed platform commandRegex long = true ↔
      commandRegex = [] ∨ (long = false ∧ platform.matchString commandRegex [] = true) := by
  have scanned : row.scan.command = [] := by
    rw [Row.scan, waiting.finishTime]
    cases row.indicator <;> cases row.startTime <;> rfl
  rw [Row.headed, Row.listed, scanned, if_pos rfl]
  cases long <;> simp

theorem meetsBoth_waiting {row : Row} (waiting : row.Waiting) :
    meetsBoth exitStatus directory row = true ↔ exitStatus = [] ∧ directoryTest directory row = true := by
  have exits : exitTest exitStatus row = true ↔ exitStatus = [] := by
    rw [exitTest, waiting.exitStatus]
    split_ifs with omitted
    · exact iff_of_true rfl omitted
    · exact iff_of_false Bool.false_ne_true omitted
    · exact iff_of_false (by simp) omitted
  rw [meetsBoth, Bool.and_eq_true, exits]

def loggedRows (db : RowidDatabase) (session : Nat × MetaRow) : List Row :=
  ((((db.table session.2.indicator).getD []).map Prod.snd).filter (meetsBoth exitStatus directory)).reverse

theorem contentRows_plain (logged : LoggedSession db session front last) (plainExit : Plain exitStatus)
    (plainDirectory : Plain directory) :
    contentRows unread db exitStatus directory session = .ok (loggedRows exitStatus directory db session) := by
  have localTime : LocalTime := fun _ => 0#64
  have selected := content_selects localTime logged.found plainExit plainDirectory
  rw [← getContentWhere_joined] at selected
  simp only [contentRows, selected, loggedRows, logged.found, Option.getD_some, List.filter_map, List.map_reverse]
  rfl

theorem loggedRows_headed (logged : LoggedSession db session front last) :
    (loggedRows exitStatus directory db session).any (Row.headed platform commandRegex long) = true ↔
      Satisfied platform exitStatus directory commandRegex front ∨
        last.2.PassesAsCommand platform exitStatus directory commandRegex long := by
  have commands : (∃ entry ∈ front, meetsBoth exitStatus directory entry.2 = true ∧
      entry.2.headed platform commandRegex long = true) ↔
        Satisfied platform exitStatus directory commandRegex front := by
    refine exists_congr fun entry => and_congr_right fun member => ?_
    rw [headed_whole platform commandRegex long (logged.whole entry member), meetsBoth, Bool.and_eq_true, and_assoc,
      Row.Satisfies]
  have waits : (meetsBoth exitStatus directory last.2 = true ∧ last.2.headed platform commandRegex long = true) ↔
      last.2.PassesAsCommand platform exitStatus directory commandRegex long := by
    rw [headed_waiting platform commandRegex long logged.waiting, meetsBoth_waiting exitStatus directory
      logged.waiting, and_assoc, Row.PassesAsCommand]
  rw [← commands, ← waits, loggedRows, logged.found, Option.getD_some, List.any_reverse, List.any_filter,
    List.map_append, List.any_append, Bool.or_eq_true]
  simp

section Answers

variable (logged : ∀ session ∈ sessions, ∃ front last, LoggedSession db session front last)

include logged

theorem headCount_refused
    (refused : ∃ session ∈ sessions, ∃ message, contentRows unread db exitStatus directory session = .error message)
    (session : Nat × MetaRow) :
    headCount platform unread db exitStatus directory commandRegex long sessions session = 0 := by
  obtain ⟨message, failed⟩ := logEntries_refused platform unread exitStatus directory commandRegex long logged refused
  rw [headCount, failed]

theorem headCount_answered (distinct : (sessions.map Prod.fst).Nodup) {rows : Nat × MetaRow → List Row}
    (answered : ∀ session ∈ sessions, contentRows unread db exitStatus directory session = .ok (rows session))
    {session : Nat × MetaRow} (member : session ∈ sessions) :
    headCount platform unread db exitStatus directory commandRegex long sessions session =
      if (rows session).any (Row.headed platform commandRegex long) then 1 else 0 := by
  rw [headCount, logEntries_answered platform unread exitStatus directory commandRegex long logged answered]
  exact countP_heads platform commandRegex long distinct member rows

theorem headersExact_refused
    (refused : ∃ session ∈ sessions, ∃ message,
      contentRows unread db exitStatus directory session = .error message) :
    HeadersExact platform unread db exitStatus directory commandRegex long sessions ↔
      ∀ session ∈ sessions, ∀ front last, LoggedSession db session front last →
        ¬ Satisfied platform exitStatus directory commandRegex front := by
  have none := headCount_refused platform unread exitStatus directory commandRegex long logged refused
  constructor
  · intro exact session member front last here some
    have one := (exact session member front last here).1 some
    rw [none session] at one
    cases one
  · intro missing session member front last here
    exact ⟨fun some => absurd some (missing session member front last here), fun _ => none session⟩

theorem headersExact_answered (distinct : (sessions.map Prod.fst).Nodup) {rows : Nat × MetaRow → List Row}
    (answered : ∀ session ∈ sessions, contentRows unread db exitStatus directory session = .ok (rows session)) :
    HeadersExact platform unread db exitStatus directory commandRegex long sessions ↔
      ∀ session ∈ sessions, ∀ front last, LoggedSession db session front last →
        ((rows session).any (Row.headed platform commandRegex long) = true ↔
          Satisfied platform exitStatus directory commandRegex front) := by
  refine forall_congr' fun session => forall_congr' fun member => forall_congr' fun front =>
    forall_congr' fun last => forall_congr' fun here => ?_
  rw [headCount_answered platform unread exitStatus directory commandRegex long logged distinct answered member]
  constructor
  · rintro ⟨once, never⟩
    refine ⟨fun headed => ?_, fun some => by simpa using once some⟩
    by_contra missing
    simpa [headed] using never missing
  · exact fun headed => ⟨fun some => if_pos (headed.mpr some), fun missing => if_neg (mt headed.mp missing)⟩

theorem headersExact_answers (distinct : (sessions.map Prod.fst).Nodup) :
    HeadersExact platform unread db exitStatus directory commandRegex long sessions ↔
      AnsweredAlike platform unread exitStatus directory commandRegex long db sessions := by
  by_cases refused : ∃ session ∈ sessions, ∃ message,
      contentRows unread db exitStatus directory session = .error message
  · rw [headersExact_refused platform unread exitStatus directory commandRegex long logged refused, AnsweredAlike,
      and_iff_right refused]
    refine (or_iff_left fun answered => ?_).symm
    obtain ⟨other, inside, message, error⟩ := refused
    obtain ⟨others, waits, there⟩ := logged other inside
    obtain ⟨rows, ok, _⟩ := answered other inside others waits there
    rw [ok] at error
    cases error
  · have answers : ∀ session ∈ sessions, contentRows unread db exitStatus directory session =
        .ok ((contentRows unread db exitStatus directory session).toOption.getD []) := by
      intro session member
      cases answer : contentRows unread db exitStatus directory session with
      | error message => exact absurd ⟨session, member, message, answer⟩ refused
      | ok rows => rfl
    rw [headersExact_answered platform unread exitStatus directory commandRegex long logged distinct answers,
      AnsweredAlike, or_iff_right fun both => refused both.1]
    refine forall_congr' fun session => forall_congr' fun member => forall_congr' fun front =>
      forall_congr' fun last => forall_congr' fun here => ?_
    constructor
    · exact fun headed => ⟨_, answers session member, headed⟩
    · rintro ⟨rows, same, headed⟩
      rw [same]
      exact headed

end Answers

theorem headersExact_plain (logged : ∀ session ∈ sessions, ∃ front last, LoggedSession db session front last)
    (distinct : (sessions.map Prod.fst).Nodup) (plainExit : Plain exitStatus) (plainDirectory : Plain directory) :
    HeadersExact platform unread db exitStatus directory commandRegex long sessions ↔
      Covered platform db exitStatus directory commandRegex long sessions := by
  have answer {session : Nat × MetaRow} {front : List (Nat × Row)} {last : Nat × Row}
      (here : LoggedSession db session front last) :=
    contentRows_plain unread exitStatus directory here plainExit plainDirectory
  rw [headersExact_answers platform unread exitStatus directory commandRegex long logged distinct, AnsweredAlike,
    or_iff_right]
  · refine forall_congr' fun session => forall_congr' fun member => forall_congr' fun front =>
      forall_congr' fun last => forall_congr' fun here => ?_
    have headed := loggedRows_headed platform exitStatus directory commandRegex long here
    constructor
    · rintro ⟨rows, same, exact⟩ passes
      obtain rfl := Except.ok.inj ((answer here).symm.trans same)
      exact exact.mp (headed.mpr (Or.inr passes))
    · exact fun covered => ⟨_, answer here, headed.trans (or_iff_left_of_imp covered)⟩
  · rintro ⟨⟨session, member, message, error⟩, _⟩
    obtain ⟨front, last, here⟩ := logged session member
    rw [answer here] at error
    cases error

/-- In all modes and for all filters the headers are exact when the waiting rows
are covered, and only then; with a quote in a value, when SQLite's answers to
what is spelled instead have the rows to write them for. -/
theorem headersExact_iff (logged : ∀ session ∈ sessions, ∃ front last, LoggedSession db session front last)
    (distinct : (sessions.map Prod.fst).Nodup) :
    HeadersExact platform unread db exitStatus directory commandRegex long sessions ↔
      (Plain exitStatus ∧ Plain directory → Covered platform db exitStatus directory commandRegex long sessions) ∧
      (¬ (Plain exitStatus ∧ Plain directory) →
        AnsweredAlike platform unread exitStatus directory commandRegex long db sessions) := by
  by_cases plain : Plain exitStatus ∧ Plain directory
  · rw [headersExact_plain platform unread exitStatus directory commandRegex long logged distinct plain.1 plain.2]
    simp [plain]
  · rw [headersExact_answers platform unread exitStatus directory commandRegex long logged distinct]
    simp [plain]

end Sessions

section Samples

def movedSession : RowidDatabase :=
  ⟨[(10#64, [(1, completedRow (ascii "0") (ascii "ls")), (2, Row.opened (ascii "$ ") (ascii "/tmp"))])],
    [(1, ⟨10#64, ascii "work", 1#64, none⟩)]⟩

theorem movedSession_logged :
    LoggedSession movedSession (1, ⟨10#64, ascii "work", 1#64, none⟩) [(1, completedRow (ascii "0") (ascii "ls"))]
      (2, Row.opened (ascii "$ ") (ascii "/tmp")) where
  named := List.cons_ne_nil _ _
  other := by decide
  found := rfl
  whole := List.forall_mem_singleton.mpr ⟨⟨rfl, rfl, rfl, rfl, rfl, rfl⟩, rfl, by decide⟩
  waiting := ⟨rfl, rfl, rfl, rfl, rfl⟩

theorem movedSession_sessions :
    ∀ session ∈ movedSession.metaTable, ∃ front last, LoggedSession movedSession session front last :=
  List.forall_mem_singleton.mpr ⟨_, _, movedSession_logged⟩

theorem headersExact_root :
    HeadersExact samplePlatform (fun _ => .ok []) movedSession [] (ascii "/") [] false movedSession.metaTable := by
  refine (headersExact_iff samplePlatform _ [] _ [] false movedSession_sessions (List.nodup_singleton _)).mpr
    ⟨fun _ => ?_, fun quoted => absurd ⟨plain_nil, by decide⟩ quoted⟩
  refine List.forall_mem_singleton.mpr fun front last here _ => ?_
  have rows : front ++ [last] = [_] ++ [_] := Option.some.inj (here.found.symm.trans movedSession_logged.found)
  obtain ⟨rfl, _⟩ := List.append_inj' rows rfl
  exact ⟨_, List.mem_singleton.mpr rfl, by decide, by decide, Or.inl rfl⟩

def emptyCommands : Platform := { samplePlatform with matchString := fun _ command => command = [] }

/-- The header is written though no command was run in `/tmp`, and though none is empty. -/
theorem movedSession_headed :
    ¬ HeadersExact samplePlatform (fun _ => .ok []) movedSession [] (ascii "/tmp") [] false movedSession.metaTable ∧
    ¬ HeadersExact samplePlatform (fun _ => .ok []) movedSession [] (ascii "/tmp") [] true movedSession.metaTable ∧
    ¬ HeadersExact emptyCommands (fun _ => .ok []) movedSession [] [] (ascii "^$") false movedSession.metaTable := by
  have inside := List.mem_singleton.mpr (rfl : (1, (⟨10#64, ascii "work", 1#64, none⟩ : MetaRow)) = _)
  have elsewhere : ¬ Satisfied samplePlatform [] (ascii "/tmp") [] [(1, completedRow (ascii "0") (ascii "ls"))] := by
    rintro ⟨entry, member, _, directory, _⟩
    obtain rfl := List.mem_singleton.mp member
    exact absurd directory (by decide)
  refine ⟨fun exact => elsewhere ?_, fun exact => elsewhere ?_, fun exact => ?_⟩
  · exact (headersExact_plain _ _ _ _ _ _ movedSession_sessions (List.nodup_singleton _) plain_nil (by decide)).mp exact
      _ inside _ _ movedSession_logged ⟨rfl, by decide, Or.inl rfl⟩
  · exact (headersExact_plain _ _ _ _ _ _ movedSession_sessions (List.nodup_singleton _) plain_nil (by decide)).mp exact
      _ inside _ _ movedSession_logged ⟨rfl, by decide, Or.inl rfl⟩
  · obtain ⟨entry, member, _, _, matched⟩ := (headersExact_plain _ _ _ _ _ _ movedSession_sessions
      (List.nodup_singleton _) plain_nil plain_nil).mp exact _ inside _ _ movedSession_logged
        ⟨rfl, by decide, Or.inr ⟨rfl, rfl⟩⟩
    obtain rfl := List.mem_singleton.mp member
    rcases matched with none | ⟨command, set, empty⟩
    · cases none
    · obtain rfl : ascii "ls" = command := Option.some.inj set
      exact absurd empty (by decide)

end Samples

end Nhi
