import Nhi.CompletedRows
import Nhi.LinkedSessions
import Nhi.ListedCommands

/-!
`fetch` and `log-session` on one session. They select the same rows, the one in
the order of the rowids and the other in reverse, but `log-session` scans the
start time in front of the command.
-/

namespace Nhi

open RunHistory RowidTable
open Sql (ascii Phrase)

section Statement

variable (platform : Platform) (localTime : LocalTime) (db : Database) (indicator : Long)
  (exitStatus directory : Text)

/-- The commands that `Fetch` prints of the session itself, however deep the
calls for its links may go from some depth on. -/
def Prints (options : Options) (commands : List Text) : Prop :=
  ∃ text rows, requestQuery localTime (decimal indicator) ⟨ascii ":", exitStatus, directory, [], []⟩ = .ok text ∧
    selectSession db.numbered fetchColumns text = .rows rows ∧
    ∃ least, ∀ depth, least ≤ depth →
      printedCommands platform (nestedFetch platform db depth options) options
        (rows.map fun entry => entry.2.selected) = commands

def Lists (commandRegex : Text) (commands : List Text) : Prop :=
  ∃ text rows, logSessionQuery localTime (decimal indicator) exitStatus directory [] [] = .ok text ∧
    selectSession db.numbered contentColumns text = .rows rows ∧
    listedCommands platform commandRegex (rows.map Prod.snd) = commands

variable {platform localTime db indicator exitStatus directory} {commands : List Text}

theorem prints_request {options : Options} (unread : Text → Except Text (List SelectedRow))
    (prints : Prints platform localTime db indicator exitStatus directory options commands) :
    ∃ least, ∀ depth, least ≤ depth → ∃ fetched, ∃ printed : List PrintedRow,
      fetchRequest platform localTime unread (nestedFetch platform db depth options) options db.numbered
        (decimal indicator) ⟨ascii ":", exitStatus, directory, [], []⟩ = .ok fetched ∧
      fetched.actions = printed.flatMap PrintedRow.actions ∧ printed.map PrintedRow.command = commands := by
  obtain ⟨text, rows, written, selected, least, settled⟩ := prints
  refine ⟨least, fun depth deep => ?_⟩
  obtain ⟨printed, actions, printedSame⟩ := printRows_printedCommands platform
    (nestedFetch platform db depth options) options (rows.map fun entry => entry.2.selected)
  refine ⟨_, printed, ?_, actions, printedSame.trans (settled depth deep)⟩
  simp only [fetchRequest, written, selected, bind, Except.bind, pure, Except.pure]

theorem lists_request {commandRegex : Text} (timeString : Long → Text) (long : Bool)
    (unread : Text → Except Text (List Row))
    (lists : Lists platform localTime db indicator exitStatus directory commandRegex commands) :
    ∃ scanned : List Scanned, scanned.map Scanned.command = commands ∧
      logSessionRequest platform timeString commandRegex long localTime unread db.numbered (decimal indicator)
          exitStatus directory [] [] =
        let contentStr := scanned.flatMap (contentEntry timeString long)
        if contentStr.length = 0 then .error (ascii "no commands found")
        else .ok (contentStr, contentStr.length) := by
  obtain ⟨text, rows, written, selected, listed⟩ := lists
  refine ⟨_, listed, ?_⟩
  rw [← getContentStrAndLen_listed]
  simp only [logSessionRequest, written, selected, bind, Except.bind]

end Statement

def SameCommands (platform : Platform) (localTime : LocalTime) (fetchChildShells stderrInRed : Bool)
    (db : Database) : Prop :=
  ∀ indicator, (db.rows indicator).isSome → ∀ exitStatus directory, Plain exitStatus → Plain directory →
    ∀ commandRegex, ∃ listed, Lists platform localTime db indicator exitStatus directory commandRegex listed ∧
      Prints platform localTime db indicator exitStatus directory ⟨commandRegex, fetchChildShells, stderrInRed⟩
        listed.reverse

/-- What is asked of a step for reasons that are not those of the two row loops:
no captured byte is a link marker, links are whole and to later sessions where
they are followed, and the default range of `fetch` has room for another row. -/
def Readable (fetchChildShells : Bool) (past : List (Database × Handling)) (before : Database)
    (handling : Handling) : Prop :=
  NoMarker past before handling ∧ (fetchChildShells = true → LinksWhole past before handling) ∧
    ∀ table ∈ before.tables, table.2.length < 999999999

instance (fetchChildShells : Bool) (past : List (Database × Handling)) (before : Database)
    (handling : Handling) : Decidable (Readable fetchChildShells past before handling) :=
  inferInstanceAs (Decidable (_ ∧ _ ∧ _))

/-! The rows that both select. -/
section Selected

variable (localTime : LocalTime) {db : Database} {indicator : Long} {rows : List Row}
  {exitStatus directory : Text}

def meetsBoth (exitStatus directory : Text) (row : Row) : Bool :=
  exitTest exitStatus row && directoryTest directory row

theorem matching_rows (test : Row → Bool) (rows : List Row) :
    (Sql.matching (fun _ row => test row) (number rows)).map Prod.snd = rows.filter test := by
  conv_rhs => rw [← rows_number rows, List.filter_map]
  rfl

theorem fetch_selects (found : db.rows indicator = some rows) (few : rows.length ≤ 999999999)
    (plainExit : Plain exitStatus) (plainDirectory : Plain directory) :
    ∃ text, requestQuery localTime (decimal indicator) ⟨ascii ":", exitStatus, directory, [], []⟩ = .ok text ∧
      selectSession db.numbered fetchColumns text =
        .rows (Sql.matching (fun _ row => meetsBoth exitStatus directory row) (number rows)) := by
  have table : db.numbered.table indicator = some (number rows) := by rw [numbered_table, found, Option.map_some]
  have whole : Endpoint billion [] none := .omitted
  obtain ⟨text, written, selected⟩ := request_rows localTime table whole whole false plainExit plainDirectory
    .omitted .omitted
  refine ⟨text, written, selected.trans (congrArg Answer.rows (List.filter_congr fun entry member => ?_))⟩
  obtain ⟨k, inside, rowid⟩ := mem_number.mp (show (entry.1, entry.2) ∈ number rows from member)
  have below := (List.getElem?_eq_some_iff.mp inside).1
  -- the range `:` ends where indicators begin
  have within : rangeTest (number rows) none none entry.1 entry.2 = true := by
    simp [rangeTest, startTest, stopTest, billion, rowid]
    omega
  simp [within, meetsBoth, meetsFilters, beforeTest, afterTest]

theorem content_selects {db : RowidDatabase} {table : List (Nat × Row)} (found : db.table indicator = some table)
    (plainExit : Plain exitStatus) (plainDirectory : Plain directory) :
    selectSession db contentColumns (contentQuery (decimal indicator)
        (Sql.joined (filterConditions localTime exitStatus directory none none))) =
      .rows (Sql.matching (fun _ row => meetsBoth exitStatus directory row) table).reverse := by
  have read := contentQuery_select localTime plainExit plainDirectory none none indicator
  have every : Sql.conditionTest sessionSchema db.rowids (([] : List Phrase).map Phrase.comparison) =
    some fun _ _ => true := rfl
  have tested := clausePhrases_meet localTime db every plainExit plainDirectory none none
  refine (selectSession_ordered found read rfl tested).trans ?_
  simp [meetsBoth, meetsFilters, beforeTest, afterTest]

theorem log_selects (found : db.rows indicator = some rows) (plainExit : Plain exitStatus)
    (plainDirectory : Plain directory) :
    ∃ text, logSessionQuery localTime (decimal indicator) exitStatus directory [] [] = .ok text ∧
      selectSession db.numbered contentColumns text =
        .rows (Sql.matching (fun _ row => meetsBoth exitStatus directory row) (number rows)).reverse := by
  have table : db.numbered.table indicator = some (number rows) := by rw [numbered_table, found, Option.map_some]
  refine ⟨_, ?_, content_selects localTime table plainExit plainDirectory⟩
  rw [logSessionQuery, logSessionWhere_joined]
  rfl

end Selected

/-! A row in the two loops. -/
section Loops

variable {platform : Platform} {options : Options} {row : Row} {commandRegex : Text}

/-- The nulls that `log-session` can meet are the start time and the directory. -/
theorem scan_command (coherent : row.Coherent) :
    row.scan.command = if row.startTime.isSome ∧ row.PS1.isSome then row.command.getD [] else [] := by
  cases set : row.command with
  | none =>
      rw [Row.scan]
      repeat' split
      all_goals simp [set]
  | some command =>
      have some : row.command.isSome := by rw [set, Option.isSome_some]
      obtain ⟨indicator, found⟩ := Option.isSome_iff_exists.mp (coherent.indicator some)
      obtain ⟨finishTime, finished⟩ := Option.isSome_iff_exists.mp (coherent.finishTime some)
      obtain ⟨exitStatus, ended⟩ := Option.isSome_iff_exists.mp (coherent.exitStatus some)
      rw [← coherent.prompt]
      cases started : row.startTime <;> cases directory : row.pwd <;>
        simp [Row.scan, found, started, finished, ended, directory, set]

theorem listed_command (platform : Platform) (options : Options) (coherent : row.Coherent) :
    (row.listed platform options.commandRegex).map Scanned.command =
      if row.startTime.isSome then (row.selected.shown platform options).map Prod.snd else none := by
  have scanned := scan_command coherent
  rw [Row.listed, SelectedRow.shown, Row.selected]
  cases started : row.startTime with
  | none =>
      simp only [started, Option.isSome_none, Bool.false_eq_true, false_and, if_false] at scanned
      simp [scanned]
  | some startTime =>
      cases prompt : row.PS1 with
      | none =>
          simp only [prompt, Option.isSome_none, Bool.false_eq_true, and_false, if_false] at scanned
          simp [scanned]
      | some PS1 =>
          simp only [started, prompt, Option.isSome_some, and_self, if_true] at scanned
          cases set : row.command with
          | none => simp [scanned, set]
          | some command =>
              rw [scanned, set, Option.getD_some, Option.bind_some, Option.bind_some, if_pos Option.isSome_some]
              split_ifs
              · rfl
              · rfl
              · rw [Option.map_some, scanned, set]
                rfl

end Loops

theorem filterMap_if_iff {α β : Type} (first : α → Option β) (condition : α → Bool) (list : List α) :
    list.filterMap first = list.filterMap (fun item => if condition item then first item else none) ↔
      ∀ item ∈ list, (first item).isSome → condition item = true := by
  induction list with
  | nil => exact iff_of_true rfl (List.forall_mem_nil _)
  | cons item rest ih =>
      rw [List.forall_mem_cons, ← ih]
      cases there : first item with
      | none => simp [there]
      | some value =>
          cases holds : condition item with
          | true => simp [there, holds]
          | false =>
              -- one more value on the left
              have part : (rest.filterMap fun item => if condition item then first item else none).Sublist
                  (rest.filterMap first) := by
                rw [← List.filterMap_filter]
                exact List.filter_sublist.filterMap first
              simp only [there, holds, Option.isSome_some, forall_const, Bool.false_eq_true, false_and, iff_false,
                List.filterMap_cons, if_false]
              intro same
              have longer := part.length_le
              rw [← same, List.length_cons] at longer
              omega

/-! One state. -/
section State

variable {platform : Platform} {localTime : LocalTime} {db : Database} {indicator : Long} {rows : List Row}
  {exitStatus directory commandRegex : Text} {options : Options}

def RowsFinish (platform : Platform) (db : Database) (options : Options) : Prop :=
  ∃ least, ∀ depth, least ≤ depth → ∀ indicator, ∀ rows ∈ db.rows indicator, ∀ row ∈ rows,
    (printRow platform (nestedFetch platform db depth options) options row.selected).finish = .ok

theorem prints_shown (localTime : LocalTime) (found : db.rows indicator = some rows)
    (few : rows.length ≤ 999999999) (finish : RowsFinish platform db options) (plainExit : Plain exitStatus)
    (plainDirectory : Plain directory) :
    Prints platform localTime db indicator exitStatus directory options
      ((rows.filter (meetsBoth exitStatus directory)).filterMap fun row =>
        (row.selected.shown platform options).map Prod.snd) := by
  obtain ⟨text, written, selected⟩ := fetch_selects localTime found few plainExit plainDirectory
  obtain ⟨least, finish⟩ := finish
  refine ⟨text, _, written, selected, least, fun depth deep => ?_⟩
  have same : (Sql.matching (fun _ row => meetsBoth exitStatus directory row) (number rows)).map
      (fun entry => entry.2.selected) = (rows.filter (meetsBoth exitStatus directory)).map Row.selected := by
    rw [← matching_rows, List.map_map]
    rfl
  rw [same, printedCommands_ok, List.filterMap_map]
  · rfl
  · intro row member
    obtain ⟨stored, inside, rfl⟩ := List.mem_map.mp member
    exact finish depth deep indicator rows found stored (List.mem_of_mem_filter inside)

theorem lists_listed (platform : Platform) (localTime : LocalTime) (commandRegex : Text)
    (found : db.rows indicator = some rows) (plainExit : Plain exitStatus) (plainDirectory : Plain directory) :
    Lists platform localTime db indicator exitStatus directory commandRegex
      ((rows.filter (meetsBoth exitStatus directory)).filterMap fun row =>
        (row.listed platform commandRegex).map Scanned.command).reverse := by
  obtain ⟨text, written, selected⟩ := log_selects localTime found plainExit plainDirectory
  refine ⟨text, _, written, selected, ?_⟩
  rw [listedCommands, List.map_reverse, matching_rows, List.filterMap_reverse, List.map_reverse,
    List.map_filterMap]

theorem Prints.unique {first second : List Text}
    (prints : Prints platform localTime db indicator exitStatus directory options first)
    (also : Prints platform localTime db indicator exitStatus directory options second) : first = second := by
  obtain ⟨text, rows, written, selected, least, commands⟩ := prints
  obtain ⟨text', rows', written', selected', least', commands'⟩ := also
  obtain rfl := Except.ok.inj (written.symm.trans written')
  obtain rfl := Answer.rows.inj (selected.symm.trans selected')
  rw [← commands (max least least') (Nat.le_max_left ..), commands' (max least least') (Nat.le_max_right ..)]

theorem Lists.unique {first second : List Text}
    (lists : Lists platform localTime db indicator exitStatus directory commandRegex first)
    (also : Lists platform localTime db indicator exitStatus directory commandRegex second) : first = second := by
  obtain ⟨text, rows, written, selected, rfl⟩ := lists
  obtain ⟨text', rows', written', selected', rfl⟩ := also
  obtain rfl := Except.ok.inj (written.symm.trans written')
  obtain rfl := Answer.rows.inj (selected.symm.trans selected')
  rfl

/-- Of one request: the commands are the same exactly when every row that is
shown has its start time. -/
theorem agree_iff (found : db.rows indicator = some rows) (few : rows.length ≤ 999999999)
    (coherent : ∀ row ∈ rows, row.Coherent) (finish : RowsFinish platform db options)
    (plainExit : Plain exitStatus) (plainDirectory : Plain directory) :
    (∃ listed, Lists platform localTime db indicator exitStatus directory options.commandRegex listed ∧
      Prints platform localTime db indicator exitStatus directory options listed.reverse) ↔
        ∀ row ∈ rows.filter (meetsBoth exitStatus directory),
          (row.selected.shown platform options).isSome → row.startTime.isSome := by
  have prints := prints_shown localTime found few finish plainExit plainDirectory
  have lists := lists_listed platform localTime options.commandRegex found plainExit plainDirectory
  have same : (rows.filter (meetsBoth exitStatus directory)).filterMap
      (fun row => (row.listed platform options.commandRegex).map Scanned.command) =
        (rows.filter (meetsBoth exitStatus directory)).filterMap fun row =>
          if row.startTime.isSome then (row.selected.shown platform options).map Prod.snd else none := by
    refine List.filterMap_congr fun row member => ?_
    exact listed_command platform options (coherent row (List.mem_of_mem_filter member))
  rw [same] at lists
  have condition := filterMap_if_iff (fun row : Row => (row.selected.shown platform options).map Prod.snd)
    (fun row => row.startTime.isSome) (rows.filter (meetsBoth exitStatus directory))
  simp only [Option.isSome_map] at condition
  rw [← condition]
  constructor
  · rintro ⟨listed, listing, printing⟩
    obtain rfl := lists.unique listing
    rw [List.reverse_reverse] at printing
    exact prints.unique printing
  · intro equal
    refine ⟨_, lists, ?_⟩
    rw [List.reverse_reverse, ← equal]
    exact prints

theorem sameCommands_iff_started (platform : Platform) (localTime : LocalTime)
    {fetchChildShells stderrInRed : Bool}
    (few : ∀ indicator, ∀ rows ∈ db.rows indicator, rows.length ≤ 999999999)
    (coherent : EveryRow Row.Coherent db)
    (finish : ∀ commandRegex, RowsFinish platform db ⟨commandRegex, fetchChildShells, stderrInRed⟩) :
    SameCommands platform localTime fetchChildShells stderrInRed db ↔ EveryRow Row.Started db := by
  constructor
  · intro same indicator rows found row member prompt command set given
    have agree := same indicator (Option.isSome_of_mem found) [] [] plain_nil plain_nil []
    refine (agree_iff found (few indicator rows found) (coherent indicator rows found) (finish []) plain_nil
      plain_nil).mp agree row (List.mem_filter.mpr ⟨member, rfl⟩) ?_
    obtain ⟨PS1, there⟩ := Option.isSome_iff_exists.mp prompt
    simp [SelectedRow.shown, Row.selected, there, Option.mem_def.mp set, given]
  · intro started indicator there exitStatus directory plainExit plainDirectory commandRegex
    obtain ⟨rows, found⟩ := Option.isSome_iff_exists.mp there
    refine (agree_iff found (few indicator rows found) (coherent indicator rows found) (finish commandRegex)
      plainExit plainDirectory).mpr fun row member shown => ?_
    obtain ⟨texts, shown⟩ := Option.isSome_iff_exists.mp shown
    simp only [SelectedRow.shown, Row.selected, Option.bind_eq_some_iff] at shown
    obtain ⟨PS1, prompt, command, set, last⟩ := shown
    refine started indicator rows found row (List.mem_of_mem_filter member) (Option.isSome_of_mem prompt) command
      set ?_
    rintro rfl
    cases last

end State

/-! All states of a run. -/
section Run

variable {past : List (Database × Handling)} {last : Database} {fetchChildShells : Bool}

theorem few_of_run (run : Run dbStep Database.empty past last)
    (readable : Always (Readable fetchChildShells) past) :
    ∀ indicator, ∀ rows ∈ last.rows indicator, rows.length ≤ 999999999 := by
  cases run with
  | start => exact fun indicator rows found => by cases found
  | next earlier taken =>
      intro indicator
      refine (handled_tableStep indicator taken).length_le fun rows found => ?_
      obtain ⟨table, first, rfl⟩ := Option.map_eq_some_iff.mp found
      exact Nat.le_of_lt_succ (readable.1.2.2 table (List.mem_of_find?_eq_some first))

theorem rowsFinish_of_run (platform : Platform) (run : Run dbStep Database.empty past last)
    (readable : Always (Readable fetchChildShells) past) {options : Options}
    (same : options.fetchChildShells = fetchChildShells) : RowsFinish platform last options := by
  have plain : Always NoMarker past := run.always_imp (fun _ _ _ _ _ condition => condition.1) readable
  by_cases fetches : options.fetchChildShells = true
  · have whole : Always LinksWhole past :=
      run.always_imp (fun _ _ _ _ _ condition => condition.2.1 (same.symm.trans fetches)) readable
    have leads := leads_of_run run plain whole
    refine ⟨last.tables.length + 1, fun depth deep indicator rows found row member => ?_⟩
    obtain ⟨table, first, rfl⟩ := Option.map_eq_some_iff.mp found
    refine printRow_linked platform (· = .ok) rfl (fun _ child leading => ?_)
      (leads table (List.mem_of_find?_eq_some first) row member)
    obtain ⟨other, rfl, there, _⟩ := leading
    have below : laterSessions last other ≤ last.tables.length := List.countP_le_length
    exact fetch_succeeds platform leads there (by omega)
  · refine ⟨0, fun depth _ indicator rows found row member => ?_⟩
    exact printRow_linked platform (· = .ok) rfl (fun fetch => absurd fetch fetches)
      ((links_of_run run plain).rows found row member)

/-- `fetch` and `log-session` show the same commands in every state of a run
exactly when every command the run completes has got its start time. -/
theorem same_commands_iff (platform : Platform) (localTime : LocalTime) (stderrInRed : Bool)
    (run : Run dbStep Database.empty past last) (readable : Always (Readable fetchChildShells) past) :
    Throughout (fun _ db => SameCommands platform localTime fetchChildShells stderrInRed db) past last ↔
      Always StartRecorded past := by
  have state {past : List (Database × Handling)} {last : Database} (run : Run dbStep Database.empty past last)
      (readable : Always (Readable fetchChildShells) past) :
      SameCommands platform localTime fetchChildShells stderrInRed last ↔ EveryRow Row.Started last :=
    sameCommands_iff_started platform localTime (few_of_run run readable) (coherent_of_run run)
      fun _ => rowsFinish_of_run platform run readable rfl
  induction run with
  | start =>
      refine iff_of_true ?_ trivial
      exact (state .start trivial).mpr fun indicator rows found => by cases found
  | next earlier taken ih =>
      have before := ih readable.2
      refine (and_congr (state (earlier.next taken) readable) before).trans (and_congr_left fun recorded => ?_)
      exact started_step_iff taken ((state earlier readable.2).mp (before.mpr recorded).last)

end Run

section Samples

def builtinHandling (call : HandlerCall) : Handling :=
  ⟨call, ⟨⟨1635274049#64, 0#64⟩, 1635274049#64, Vector.replicate 15 0#8, Vector.replicate 16 0#8⟩, sampleClosing,
    ⟨1635274050#64, ⟨some (ascii "cd"), some (ascii "0"), 1635274051#64, ⟨1635274051#64, 0#64⟩, some [], some []⟩⟩,
    SlotTable.ofEntries [Shell.plain 1#32 16352740490#64]⟩

def builtinRow (startTime : Option Long) : Row :=
  ⟨some [], some (ascii "cd"), [], some (ascii "0"), some [], startTime, some 1635274051#64, some 16352740510#64⟩

theorem same_commands_started :
    ∃ past last, Run dbStep Database.empty past last ∧
      last.rows 16352740490#64 = some [builtinRow (some 1635274050#64), Row.opened [] []] ∧
      Throughout (fun _ db => SameCommands samplePlatform (fun _ => 0#64) true false db) past last := by
  obtain ⟨past, last, run, readable, recorded, rows⟩ := replay_some dbStep Database.empty
    ([.handleKillSIGUSR ⟨1#32, SIGUSR1, 0#64⟩, .handleChildCreation 1#32,
      .handleKillSIGRTMIN ⟨1#32, SIGRTMIN, 0#64⟩ 16].map builtinHandling)
    (fun past last => Always (Readable true) past ∧ Always StartRecorded past ∧
      last.rows 16352740490#64 = some [builtinRow (some 1635274050#64), Row.opened [] []]) (by decide +kernel)
  exact ⟨past, last, run, rows, (same_commands_iff samplePlatform (fun _ => 0#64) false run readable).mpr recorded⟩

/-- A builtin makes no child process: `fetch` prints it, `log-session` has no commands. -/
theorem builtin_not_listed :
    ∃ past last, Run dbStep Database.empty past last ∧ Always (Readable true) past ∧
      Prints samplePlatform (fun _ => 0#64) last 16352740490#64 [] [] ⟨[], true, false⟩ [ascii "cd"] ∧
      Lists samplePlatform (fun _ => 0#64) last 16352740490#64 [] [] [] [] ∧
      ¬ SameCommands samplePlatform (fun _ => 0#64) true false last := by
  obtain ⟨past, last, run, readable, rows⟩ := replay_some dbStep Database.empty
    ([.handleKillSIGUSR ⟨1#32, SIGUSR1, 0#64⟩, .handleKillSIGRTMIN ⟨1#32, SIGRTMIN, 0#64⟩ 16].map builtinHandling)
    (fun past last => Always (Readable true) past ∧
      last.rows 16352740490#64 = some [builtinRow none, Row.opened [] []]) (by decide +kernel)
  have finish : RowsFinish samplePlatform last ⟨[], true, false⟩ :=
    rowsFinish_of_run samplePlatform run readable rfl
  have prints : Prints samplePlatform (fun _ => 0#64) last 16352740490#64 [] [] ⟨[], true, false⟩ [ascii "cd"] :=
    prints_shown _ rows (few_of_run run readable _ _ rows) finish plain_nil plain_nil
  have lists : Lists samplePlatform (fun _ => 0#64) last 16352740490#64 [] [] [] [] :=
    lists_listed _ _ _ rows plain_nil plain_nil
  refine ⟨past, last, run, readable, prints, lists, fun same => ?_⟩
  obtain ⟨listed, listing, printing⟩ := same 16352740490#64 (Option.isSome_of_mem rows) [] [] plain_nil plain_nil []
  rw [← lists.unique listing] at printing
  exact absurd (prints.unique printing) (by decide)

end Samples

end Nhi
