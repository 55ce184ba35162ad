import Nhi.ListedRuns
import Nhi.LoggedSessions
import Nhi.SessionNames

/-!
What `nhi log` shows after a run: of the sessions that were announced within
the dates, the last one first, the header and, in long mode, the commands of the
history that pass the filters.
-/

namespace Nhi

open RunHistory RowidTable Simulation
open Sql (ascii Phrase)

/-! `meta` as what the handlers were told. -/
section Sessions

variable {past : List (World × Label)} {world : World}

def Opening.metaRow (opening : Opening) : MetaRow :=
  ⟨getIndicator opening.now, createdName (getIndicator opening.now) opening.name, opening.time, none⟩

/-- What is in `meta` after the handling of an event. -/
def Handling.enters (rows : List MetaRow) (handling : Handling) : List MetaRow :=
  match handling.call with
  | .handleKillSIGUSR _ => rows ++ [handling.opening.metaRow]
  | .handleShellExit indicator =>
      rows.map fun row => if row.indicator = indicator then { row with finishTime := some handling.outside.time } else row
  | .handleKillSIGRTMIN _ _ | .handleChildCreation _ | .handleWrite _ _ _ => rows

def sessionsIn (past : List (World × Label)) : List MetaRow := (handlings past).reverse.foldl Handling.enters []

def Statement.onMeta (rows : List MetaRow) : Statement → List MetaRow
  | .metaCreateRow row => rows ++ [row]
  | .metaAddFinishTime indicator time =>
      rows.map fun row => if row.indicator = indicator then { row with finishTime := some time } else row
  | .createTable _ | .createRow _ | .updateLast _ _ => rows

theorem meta_exec (db : Database) (statement : Statement) :
    (db.exec statement).metaTable = statement.onMeta db.metaTable := by
  cases statement with
  | createTable indicator =>
      rw [Database.exec, Database.createTable]
      split <;> rfl
  | createRow | updateLast | metaCreateRow | metaAddFinishTime => rfl

theorem meta_foldl (db : Database) (list : List Statement) :
    (list.foldl Database.exec db).metaTable = list.foldl Statement.onMeta db.metaTable :=
  (List.foldl_hom Database.metaTable fun db statement => (meta_exec db statement).symm).symm

theorem creation_meta (opening : Opening) (killEvent : KillEvent) (rows : List MetaRow) :
    (creationStatements opening killEvent).foldl Statement.onMeta rows =
      rows ++ [opening.metaRow] := by
  rw [creationStatements]
  split <;> rfl

theorem handled_meta {db after : Database} {handling : Handling} (result : dbStep db handling = some after) :
    after.metaTable = handling.enters db.metaTable := by
  rw [dbStep, handled_exec] at result
  obtain ⟨list, written, rfl⟩ := Option.map_eq_some_iff.mp result
  rw [meta_foldl]
  cases call : handling.call with
  | handleKillSIGUSR killEvent =>
      rw [Handling.enters, call]
      rcases statements_creation call written with rfl | ⟨PS1, pwd, rfl⟩
      · exact creation_meta _ _ _
      · rw [List.foldl_append, creation_meta]
        rfl
  | handleKillSIGRTMIN killEvent dataSz =>
      obtain ⟨command, exitStatus, PS1, pwd, _, rfl⟩ := statements_completion call written
      rw [Handling.enters, call]
      rfl
  | handleChildCreation | handleShellExit | handleWrite =>
      rw [statements, call] at written
      obtain rfl := Option.some.inj written
      rw [Handling.enters, call]
      rfl

theorem metaTable_run {past : List (Database × Handling)} {last : Database}
    (run : Run dbStep Database.empty past last) :
    last.metaTable = (past.map Prod.snd).reverse.foldl Handling.enters [] := by
  induction run with
  | start => rfl
  | next earlier taken ih =>
      rw [List.map_cons, List.reverse_cons, List.foldl_concat, ← ih]
      exact handled_meta taken

theorem idle_meta (run : Run step World.start past world) (idle : world.daemon = .idle) :
    world.db.metaTable = sessionsIn past := by
  obtain ⟨dbPast, db, dbRun, same, stored, _⟩ := stored_run run (by simp [idle])
  rw [Stored, idle] at stored
  obtain rfl : world.db = db := stored
  rw [metaTable_run dbRun, same, sessionsIn]

theorem enters_row {handling : Handling} {rows : List MetaRow} {row : MetaRow}
    (member : row ∈ handling.enters rows) :
    (∃ old ∈ rows, old.indicator = row.indicator ∧ old.name = row.name) ∨
      handling.opens = some row.indicator ∧ row.name = createdName row.indicator handling.opening.name := by
  rw [Handling.enters] at member
  cases call : handling.call with
  | handleKillSIGUSR killEvent =>
      rw [call] at member
      rcases List.mem_append.mp member with old | new
      · exact Or.inl ⟨row, old, rfl, rfl⟩
      · obtain rfl := List.mem_singleton.mp new
        exact Or.inr ⟨by rw [Handling.opens, call, Opening.metaRow], by rw [Opening.metaRow]⟩
  | handleShellExit indicator =>
      rw [call] at member
      obtain ⟨old, there, rfl⟩ := List.mem_map.mp member
      refine Or.inl ⟨old, there, ?_⟩
      split <;> exact ⟨rfl, rfl⟩
  | handleKillSIGRTMIN | handleChildCreation | handleWrite =>
      rw [call] at member
      exact Or.inl ⟨row, member, rfl, rfl⟩

theorem enters_created (list : List Handling) (rows : List MetaRow) :
    ∀ row ∈ list.foldl Handling.enters rows,
      (∃ old ∈ rows, old.indicator = row.indicator ∧ old.name = row.name) ∨
        ∃ handling ∈ list, handling.opens = some row.indicator ∧
          row.name = createdName row.indicator handling.opening.name := by
  induction list generalizing rows with
  | nil => exact fun row member => Or.inl ⟨row, member, rfl, rfl⟩
  | cons handling rest ih =>
      intro row member
      rcases ih _ row member with ⟨old, inside, indicator, name⟩ | ⟨other, later, created⟩
      · rcases enters_row inside with ⟨older, there, same⟩ | ⟨opens, named⟩
        · exact Or.inl ⟨older, there, same.1.trans indicator, same.2.trans name⟩
        · exact Or.inr ⟨handling, List.mem_cons_self, indicator ▸ opens, name ▸ indicator ▸ named⟩
      · exact Or.inr ⟨other, List.mem_cons_of_mem _ later, created⟩

/-- Names begin with a digit or a sign. -/
theorem createdName_apart (indicator : Long) (stack : Vector Byte 16) :
    createdName indicator stack ≠ [] ∧ createdName indicator stack ≠ ascii "meta" := by
  have given : decimal indicator ≠ [] := by
    rw [decimal_eq]
    split
    · exact List.cons_ne_nil _ _
    · exact mt List.map_eq_nil_iff.mp Nat.toDigits_ne_nil
  obtain ⟨first, rest, shape⟩ := List.exists_cons_of_ne_nil given
  obtain ⟨more, name⟩ : ∃ more, createdName indicator stack = first :: more := by
    rw [createdName, cString_toList, shape]
    exact ⟨_, rfl⟩
  rw [name]
  refine ⟨List.cons_ne_nil _ _, fun same => ?_⟩
  have letter : first = 109#8 := (List.cons.inj same).1
  rcases mem_decimal (shape ▸ List.mem_cons_self : first ∈ decimal indicator) with rfl | ⟨_, high⟩
  · exact absurd letter (by decide)
  · rw [letter] at high
    exact absurd high (by decide)

theorem sessionsIn_created {row : MetaRow} (member : row ∈ sessionsIn past) :
    row.indicator ∈ openedIn past ∧ row.name ≠ [] ∧ row.name ≠ ascii "meta" := by
  rcases enters_created (handlings past).reverse [] row member with ⟨_, none, _⟩ | ⟨handling, there, opens, name⟩
  · cases none
  · refine ⟨List.mem_filterMap.mpr ⟨handling, List.mem_reverse.mp there, opens⟩, ?_⟩
    rw [name]
    exact createdName_apart row.indicator handling.opening.name

end Sessions

/-! The query of `log`. -/
section Query

variable (localTime : LocalTime)

def MetaRow.within (latest earliest : Option Long) (row : MetaRow) : Bool :=
  latest.all (fun seconds => row.startTime.toInt < seconds.toInt) &&
    earliest.all fun seconds => seconds.toInt < row.startTime.toInt

theorem logWhere_dates (before after : Text) :
    logWhere localTime before after = logSessionWhere localTime [] [] before after := by
  have first (condition : Text) : also [] condition = condition := if_pos rfl
  simp only [logWhere, logSessionWhere, ne_eq, not_true_eq_false, if_false, first]

def logHead : Text := ascii "SELECT indicator, name, start_time, finish_time FROM meta"

theorem run_logHead :
    Sql.run ⟨[], .start⟩ logHead =
      ⟨(Sql.keyword "select" :: (Sql.columnTokens metaColumns ++ [Sql.keyword "from"])).reverse,
        .word (ascii "meta")⟩ := by
  have first : Sql.run ⟨[], .start⟩ (ascii "SELECT indicator, name, ") =
      ⟨[.symbol .comma, .word (ascii "name"), .symbol .comma, .word (ascii "indicator"), Sql.keyword "select"],
        .start⟩ := rfl
  have second (before : List Sql.Token) : Sql.run ⟨before, .start⟩ (ascii "start_time, finish_time FROM meta") =
      ⟨[Sql.keyword "from", .word (ascii "finish_time"), .symbol .comma, .word (ascii "start_time")] ++ before,
        .word (ascii "meta")⟩ := rfl
  have text : logHead = ascii "SELECT indicator, name, " ++ ascii "start_time, finish_time FROM meta" := rfl
  rw [text, Sql.run_append, first, second]
  rfl

theorem logQuery_select (latest earliest : Option Civil) :
    Sql.parseText (logQuery (Sql.joined (filterConditions localTime [] [] latest earliest))) =
      some (.select ⟨metaColumns, ascii "meta", (clausePhrases localTime [] plain_nil plain_nil latest
        earliest).map Phrase.comparison, true, none⟩) := by
  have texts := clausePhrases_texts localTime plain_nil plain_nil latest earliest []
  rw [if_pos rfl, List.map_nil, List.nil_append] at texts
  generalize clausePhrases localTime [] plain_nil plain_nil latest earliest = phrases at texts
  have empty := joined_nil_iff (filterConditions_nonempty localTime [] [] latest earliest)
  rw [← texts, List.map_eq_nil_iff, Sql.joined_phrases] at empty
  have text : logQuery (Sql.conjoin phrases) = logHead ++ Sql.whereText phrases ++ Sql.Tail.newestFirst.text := by
    rw [logQuery, Sql.whereText]
    by_cases given : phrases = []
    · rw [if_pos (empty.mpr given), if_pos given]
      rfl
    · have space : ascii "SELECT indicator, name, start_time, finish_time FROM meta WHERE " =
          logHead ++ ascii " WHERE " := rfl
      rw [if_neg (mt empty.mp given), if_neg given, space]
      simp only [List.append_assoc]
      rfl
  rw [← texts, Sql.joined_phrases, text]
  exact Sql.parseText_unquoted (by simp [metaColumns]) run_logHead phrases Sql.Tail.newestFirst

theorem test_startTime {rowids : Text → Option (List Nat)} (operator : Sql.Operator) (seconds : Long) :
    Sql.Comparison.test metaSchema rowids ⟨ascii "start_time", operator, .text (decimal seconds)⟩ =
      some fun _ row => decide (operator.Holds row.startTime.toInt seconds.toInt) := by
  have column : Sql.columnOf metaSchema (ascii "start_time") =
      some ⟨.integer, fun _ row => .integer row.startTime.toInt⟩ := rfl
  refine (test_quoted seconds column rfl).trans ?_
  congr 1
  funext rowid row
  rw [decide_eq_decide]
  exact Sql.compare_integer

theorem dates_within {rowids : Text → Option (List Nat)} (latest earliest : Option Civil) :
    Sql.conditionTest metaSchema rowids ((clausePhrases localTime [] plain_nil plain_nil latest earliest).map
        Phrase.comparison) =
      some fun _ row => row.within (latest.map localTime) (earliest.map localTime) := by
  have befores : Sql.conditionTest metaSchema rowids
      ((latest.map fun civil => beforePhrase (localTime civil)).toList.map Phrase.comparison) =
        some fun _ row => row.within (latest.map localTime) none := by
    cases latest with
    | none => rfl
    | some civil =>
        refine (Sql.conditionTest_singleton (test_startTime .less (localTime civil))).trans ?_
        congr 1
        funext rowid row
        rw [Bool.eq_iff_iff, decide_eq_true_eq]
        simp [MetaRow.within, Sql.Operator.Holds]
  have afters : Sql.conditionTest metaSchema rowids
      ((earliest.map fun civil => afterPhrase (localTime civil)).toList.map Phrase.comparison) =
        some fun _ row => row.within none (earliest.map localTime) := by
    cases earliest with
    | none => rfl
    | some civil => exact Sql.conditionTest_singleton (test_startTime .greater (localTime civil))
  rw [clausePhrases, if_pos rfl, if_pos rfl, List.nil_append, List.nil_append, List.map_append,
    Sql.conditionTest_append befores afters]
  simp [MetaRow.within]

theorem sessions_selected (db : RowidDatabase) (latest earliest : Option Civil) :
    selectMeta db metaColumns (logQuery (Sql.joined (filterConditions localTime [] [] latest earliest))) =
      .rows (Sql.matching (fun _ row => row.within (latest.map localTime) (earliest.map localTime))
        db.metaTable).reverse := by
  have known : metaColumns.all fun column => (Sql.columnOf metaSchema column).isSome := rfl
  have here : RowidDatabase.isMeta (ascii "meta") = true := rfl
  simp [selectMeta, logQuery_select, here, Sql.Select.rows, known, dates_within]

end Query

section Report

variable (platform : Platform) (timeString : Long → Text) (unread : Text → Except Text (List Row))
  {exitStatus directory : Text} (commandRegex : Text) (long : Bool)

theorem logEntries_rows {db : RowidDatabase} {sessions : List (Nat × MetaRow)} {rows : Nat × MetaRow → List Row}
    (named : ∀ session ∈ sessions, session.2.name ≠ [] ∧ session.2.name ≠ ascii "meta")
    (answered : ∀ session ∈ sessions, contentRows unread db exitStatus directory session = .ok (rows session)) :
    logEntries platform unread db exitStatus directory commandRegex long sessions =
      .ok (sessions.flatMap fun session => sessionEntries platform commandRegex long session (rows session)) := by
  have loop (content : List LogEntry) :
      sessions.foldlM (addLogSession platform unread db exitStatus directory commandRegex long) content =
        .ok (content ++ sessions.flatMap fun session =>
          sessionEntries platform commandRegex long session (rows session)) := by
    induction sessions generalizing content with
    | nil => exact congrArg Except.ok (List.append_nil _).symm
    | cons session rest ih =>
        obtain ⟨name, names⟩ := List.forall_mem_cons.mp named
        obtain ⟨answer, answers⟩ := List.forall_mem_cons.mp answered
        have added : addLogSession platform unread db exitStatus directory commandRegex long content session =
            .ok (content ++ sessionEntries platform commandRegex long session (rows session)) := by
          rw [addLogSession, if_neg (not_or.mpr name), answer, ← addLogRows_entries]
          rfl
        rw [List.foldlM_cons, added, List.flatMap_cons, ← List.append_assoc]
        exact ih names answers _
  rw [logEntries, loop, List.nil_append]

/-- A row passes for which the header of the session is written; it may be that of
the prompt. -/
def headed (past : List (World × Label)) (exitStatus directory commandRegex : Text) (indicator : Long) : Bool :=
  (recorded past indicator).any fun recorded =>
    meetsFilters exitStatus directory none none recorded.row && recorded.row.headed platform commandRegex long

/-- What is shown of a session. -/
def sessionReport (past : List (World × Label)) (exitStatus directory commandRegex : Text) (row : MetaRow) : Text :=
  (if headed platform long past exitStatus directory commandRegex row.indicator then sessionHead timeString row else []) ++
    if long then ((historyIn past row.indicator).commands.filter
        (Scanned.passes platform commandRegex exitStatus directory none none)).reverse.flatMap (commandEntry timeString)
      else []

variable {past : List (World × Label)} {world : World} (localTime : LocalTime)
  (unreadMeta : Text → Except Text (List (Nat × MetaRow))) {before after : Text} {latest earliest : Option Civil}

def selectedRows (past : List (World × Label)) (exitStatus directory : Text) (session : Nat × MetaRow) : List Row :=
  (((recorded past session.2.indicator).map Recorded.row).filter (meetsFilters exitStatus directory none none)).reverse

theorem entries_report (past : List (World × Label)) (session : Nat × MetaRow) :
    (sessionEntries platform commandRegex long session (selectedRows past exitStatus directory session)).flatMap
        (LogEntry.text timeString) =
      sessionReport platform timeString long past exitStatus directory commandRegex session.2 := by
  have heads : (selectedRows past exitStatus directory session).any (Row.headed platform commandRegex long) =
      headed platform long past exitStatus directory commandRegex session.2.indicator := by
    rw [selectedRows, List.any_reverse, List.any_filter, List.any_map]
    rfl
  rw [sessionEntries, sessionReport, heads, List.flatMap_append, selectedRows, List.filterMap_reverse, listed_filter,
    history_commands]
  congr 1
  · split
    · exact List.append_nil _
    · rfl
  · cases long with
    | false => rfl
    | true => exact List.flatMap_map _ _ _

theorem contentRows_selected (localTime : LocalTime) (run : Run step World.start past world)
    (idle : world.daemon = .idle)
    (plainExit : Plain exitStatus) (plainDirectory : Plain directory) {session : Nat × MetaRow}
    (opened : session.2.indicator ∈ openedIn past) :
    contentRows unread world.db.numbered exitStatus directory session =
      .ok (selectedRows past exitStatus directory session) := by
  have selected := content_selects_dated localTime (opened_table run idle opened) plainExit plainDirectory none none
  rw [← getContentWhere_joined] at selected
  simp only [contentRows, selected, List.map_reverse, Option.map_none, matching_rows]
  rfl

/-- After a run `nhi log` shows the sessions that were announced within the dates,
the last one first, each with the commands of its history that pass. -/
theorem sessions_logged (run : Run step World.start past world) (idle : world.daemon = .idle)
    (plainExit : Plain exitStatus) (plainDirectory : Plain directory)
    (untilThen : Moment (ascii "before") before latest) (since : Moment (ascii "after") after earliest) :
    logRequest platform timeString unread world.db.numbered exitStatus directory commandRegex long localTime unreadMeta
        before after =
      reported (ascii "no sessions found") (((sessionsIn past).filter (MetaRow.within (latest.map localTime)
        (earliest.map localTime))).reverse.flatMap
          (sessionReport platform timeString long past exitStatus directory commandRegex)) := by
  have written : logWhere localTime before after =
      .ok (Sql.joined (filterConditions localTime [] [] latest earliest)) := by
    rw [logWhere_dates, logSessionWhere_joined, untilThen.read, since.read]
    rfl
  have selected := sessions_selected localTime world.db.numbered latest earliest
  generalize chosen : (Sql.matching (fun _ row => row.within (latest.map localTime) (earliest.map localTime))
    world.db.numbered.metaTable).reverse = sessions at selected
  have shown : sessions.map Prod.snd =
      ((sessionsIn past).filter (MetaRow.within (latest.map localTime) (earliest.map localTime))).reverse := by
    rw [← chosen, ← idle_meta run idle, List.map_reverse]
    conv_rhs => rw [← rows_number world.db.metaTable, List.filter_map]
    rfl
  have created (session : Nat × MetaRow) (member : session ∈ sessions) : session.2 ∈ sessionsIn past := by
    have inside : session.2 ∈ sessions.map Prod.snd := List.mem_map_of_mem member
    rw [shown, List.mem_reverse] at inside
    exact (List.mem_filter.mp inside).1
  have entries := logEntries_rows platform unread commandRegex long
    (fun session member => (sessionsIn_created (created session member)).2)
    (fun session member => contentRows_selected unread localTime run idle plainExit plainDirectory
      (sessionsIn_created (created session member)).1)
  have content : (sessions.flatMap fun session => sessionEntries platform commandRegex long session
        (selectedRows past exitStatus directory session)).flatMap (LogEntry.text timeString) =
      (sessions.map Prod.snd).flatMap
        (sessionReport platform timeString long past exitStatus directory commandRegex) := by
    rw [List.flatMap_assoc, List.flatMap_map]
    exact List.flatMap_congr fun session _ => entries_report platform timeString commandRegex long past session
  simp only [logRequest, written, selected, bind, Except.bind]
  rw [logContentStrAndLen, entries, ← shown, reported, ← content]
  simp only [bind, Except.bind, contentOf, List.length_eq_zero_iff]

theorem sessions_logged_later :
    ∃ past world, Run step World.start past world ∧
      (sessionsIn past).map MetaRow.startTime = [1600000000#64, 1600000001#64] ∧
      logRequest samplePlatform (fun _ => []) (fun _ => .error []) world.db.numbered [] (ascii "/") [] true
          (fun _ => 1600000000#64) (fun _ => .error []) [] (ascii "2020-09-13 12:26:40") =
        reported (ascii "no sessions found") (((sessionsIn past).filter
          (MetaRow.within none (some 1600000000#64))).reverse.flatMap
            (sessionReport samplePlatform (fun _ => []) true past [] (ascii "/") [])) := by
  obtain ⟨past, world, run, idle, two⟩ := replay_some step World.start
    (registration 1#32 ++ [.fork 1#32 2#32 true, .take sampleOutside, .exit 2#32 true,
      .kill 1#32 SIGRTMIN nhidHash true, .take promptOutside, .kill 3#32 SIGUSR1 nhidHash true, .take sampleOutside,
      .create { sampleOpening with now := ⟨1600000001#64, 0#64⟩, time := 1600000001#64 }, .scan,
      .register sampleClosing])
    (fun past world => world.daemon = .idle ∧
      (sessionsIn past).map MetaRow.startTime = [1600000000#64, 1600000001#64]) (by decide +kernel)
  have since : Moment (ascii "after") (ascii "2020-09-13 12:26:40") (some ⟨2020, 9, 13, 12, 26, 40⟩) :=
    .given _ _ (by decide) rfl
  have directory : Plain (ascii "/") := by decide
  have shown := sessions_logged samplePlatform (fun _ => []) (fun _ => .error []) [] true (fun _ => 1600000000#64)
    (fun _ => .error []) run idle plain_nil directory .omitted since
  exact ⟨past, world, run, two, shown⟩

end Report

end Nhi
