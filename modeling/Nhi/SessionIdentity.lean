import Nhi.Clock
import Nhi.EventHandling

/-!
What tells two sessions apart. The name of a session is the time of its
announcement in tenths of a second, and neither `create_table` nor
`meta_create_row` looks for a session of that name.
-/

namespace Nhi

open RunHistory

def Handling.now (handling : Handling) : Option Timeval :=
  match handling.call with
  | .handleKillSIGUSR _ => some handling.opening.now
  | _ => none

def openedSessions : List (Database × Handling) → List Long
  | [] => []
  | (_, handling) :: past => openedSessions past ++ handling.opens.toList

/-- The creation of a session makes one table, which was not there, with one
empty row. -/
structure AddsSession (before : Database) (opening : Opening) (killEvent : KillEvent) : Prop where
  absent : getIndicator opening.now ∉ before.tables.map Prod.fst
  added : (createSession opening killEvent before).tables.map Prod.fst =
    before.tables.map Prod.fst ++ [getIndicator opening.now]
  empty : (createSession opening killEvent before).rows (getIndicator opening.now) = some [Row.blank]

def CreatesOwn (_past : List (Database × Handling)) (before : Database) (handling : Handling) :
    Prop :=
  ∀ killEvent, handling.call = .handleKillSIGUSR killEvent →
    AddsSession before handling.opening killEvent

def MetaDistinct (_past : List (Database × Handling)) (db : Database) : Prop :=
  (db.metaTable.map MetaRow.indicator).Nodup

/-- No earlier announcement was handled in the same tenth of a second. -/
def OwnTenth (past : List (Database × Handling)) (_before : Database) (handling : Handling) : Prop :=
  ∀ now ∈ handling.now, ∀ earlier ∈ past, ∀ before ∈ earlier.2.now, before.tenths ≠ now.tenths

def ReadsClock (_past : List (Database × Handling)) (_before : Database) (handling : Handling) :
    Prop := ∀ now ∈ handling.now, now.Valid

def ClockForward (past : List (Database × Handling)) (_before : Database) (handling : Handling) :
    Prop := ∀ now ∈ handling.now, ∀ earlier ∈ past, ∀ before ∈ earlier.2.now, before.NotAfter now

instance (past : List (Database × Handling)) (before : Database) (handling : Handling) :
    Decidable (OwnTenth past before handling) :=
  inferInstanceAs (Decidable (∀ now ∈ handling.now, ∀ earlier ∈ past, ∀ before ∈ earlier.2.now,
    before.tenths ≠ now.tenths))

instance (past : List (Database × Handling)) (before : Database) (handling : Handling) :
    Decidable (ReadsClock past before handling) :=
  inferInstanceAs (Decidable (∀ now ∈ handling.now, now.Valid))

instance (past : List (Database × Handling)) (before : Database) (handling : Handling) :
    Decidable (ClockForward past before handling) :=
  inferInstanceAs (Decidable (∀ now ∈ handling.now, ∀ earlier ∈ past, ∀ before ∈ earlier.2.now,
    before.NotAfter now))

theorem opens_iff {handling : Handling} {indicator : Long} :
    handling.opens = some indicator ↔ ∃ now ∈ handling.now, indicator = getIndicator now := by
  cases call : handling.call <;> simp [Handling.opens, Handling.now, call, eq_comm]

/-! What the statements of an event add. -/
section Statements

def Statement.creates : Statement → Option Long
  | .createTable indicator => some indicator
  | _ => none

def Statement.enters : Statement → Option Long
  | .metaCreateRow row => some row.indicator
  | _ => none

theorem exec_meta (db : Database) (statement : Statement) :
    (db.exec statement).metaTable.map MetaRow.indicator =
      db.metaTable.map MetaRow.indicator ++ statement.enters.toList := by
  cases statement with
  | createTable indicator =>
      simp only [Database.exec, Database.createTable]
      split <;> simp [Statement.enters]
  | createRow indicator => simp [Database.exec, Database.createRow, Database.mapTable, Statement.enters]
  | updateLast indicator change =>
      simp [Database.exec, Database.updateLast_metaTable, Statement.enters]
  | metaCreateRow row => simp [Database.exec, Statement.enters]
  | metaAddFinishTime indicator time =>
      have named (row : MetaRow) : (if row.indicator = indicator then
          { row with finishTime := some time } else row).indicator = row.indicator := by
        split <;> rfl
      simp [Database.exec, Database.metaAddFinishTime, Statement.enters, Function.comp_def, named]

theorem foldl_meta (list : List Statement) (db : Database) :
    (list.foldl Database.exec db).metaTable.map MetaRow.indicator =
      db.metaTable.map MetaRow.indicator ++ list.filterMap Statement.enters := by
  induction list generalizing db with
  | nil => simp
  | cons statement rest ih =>
      rw [List.foldl_cons, ih, exec_meta, List.append_assoc]
      cases enters : statement.enters <;> simp [enters]

theorem onRows_isSome {other : Long} {rows : Option (List Row)} {statement : Statement} :
    (Statement.onRows other rows statement).isSome ↔
      rows.isSome ∨ statement.creates = some other := by
  cases statement with
  | createTable indicator =>
      by_cases here : other = indicator <;> simp [Statement.onRows, Statement.creates, here, Ne.symm]
  | createRow | updateLast | metaCreateRow | metaAddFinishTime =>
      simp [Statement.onRows, Statement.creates]

theorem foldl_isSome (list : List Statement) {other : Long} (rows : Option (List Row)) :
    (list.foldl (Statement.onRows other) rows).isSome ↔
      rows.isSome ∨ ∃ statement ∈ list, statement.creates = some other := by
  induction list generalizing rows with
  | nil => simp
  | cons statement rest ih =>
      rw [List.foldl_cons, ih, onRows_isSome, List.exists_mem_cons_iff, or_assoc]

theorem creation_added (opening : Opening) (killEvent : KillEvent) :
    (creationStatements opening killEvent).filterMap Statement.enters = [getIndicator opening.now] ∧
      (creationStatements opening killEvent).filterMap Statement.creates =
        [getIndicator opening.now] := by
  rw [creationStatements]
  split <;> exact ⟨rfl, rfl⟩

theorem statements_added {handling : Handling} {list : List Statement}
    (result : statements handling = some list) :
    list.filterMap Statement.enters = handling.opens.toList ∧
      list.filterMap Statement.creates = handling.opens.toList := by
  cases call : handling.call with
  | handleKillSIGUSR killEvent =>
      obtain ⟨enters, creates⟩ := creation_added handling.opening killEvent
      simp only [Handling.opens, call]
      rcases statements_creation call result with rfl | ⟨PS1, pwd, rfl⟩
      · exact ⟨enters, creates⟩
      · rw [List.filterMap_append, enters, List.filterMap_append, creates]
        exact ⟨rfl, rfl⟩
  | handleKillSIGRTMIN killEvent dataSz =>
      obtain ⟨_, _, _, _, _, rfl⟩ := statements_completion call result
      simp only [Handling.opens, call]
      exact ⟨rfl, rfl⟩
  | handleChildCreation | handleShellExit | handleWrite =>
      simp only [statements, call, Option.some.injEq] at result
      subst list
      simp only [Handling.opens, call]
      exact ⟨rfl, rfl⟩

end Statements

theorem mem_tables {db : Database} {indicator : Long} :
    indicator ∈ db.tables.map Prod.fst ↔ (db.rows indicator).isSome := by
  simp [Database.rows]

section Run

variable {past : List (Database × Handling)} {last : Database}

theorem meta_opened (run : Run dbStep Database.empty past last) :
    last.metaTable.map MetaRow.indicator = openedSessions past := by
  induction run with
  | start => rfl
  | next earlier taken ih =>
      rename_i past before after handling
      rw [dbStep, handled_exec] at taken
      obtain ⟨list, result, rfl⟩ := Option.map_eq_some_iff.mp taken
      rw [foldl_meta, ih, (statements_added result).1, openedSessions]

theorem tables_opened (run : Run dbStep Database.empty past last) (indicator : Long) :
    indicator ∈ last.tables.map Prod.fst ↔ indicator ∈ openedSessions past := by
  rw [mem_tables]
  induction run with
  | start => simp [Database.rows, Database.empty, openedSessions]
  | next earlier taken ih =>
      rename_i past before after handling
      rw [dbStep, handled_exec] at taken
      obtain ⟨list, result, rfl⟩ := Option.map_eq_some_iff.mp taken
      have creates : (∃ statement ∈ list, statement.creates = some indicator) ↔
          indicator ∈ handling.opens.toList := by
        rw [← (statements_added result).2, List.mem_filterMap]
      rw [rows_foldl, foldl_isSome, ih, creates, openedSessions, List.mem_append]

theorem mem_openedSessions {indicator : Long} :
    indicator ∈ openedSessions past ↔ ∃ earlier ∈ past, earlier.2.opens = some indicator := by
  induction past with
  | nil => simp [openedSessions]
  | cons taken past ih =>
      rw [openedSessions, List.mem_append, ih, List.exists_mem_cons_iff, or_comm, Option.mem_toList]

/-- The name of a new session is free when it has a tenth of a second of its own. -/
theorem unopened_iff {handling : Handling} (clock : Always ReadsClock past) {now : Timeval}
    (valid : now.Valid) (reads : handling.now = some now) :
    getIndicator now ∉ openedSessions past ↔ OwnTenth past last handling := by
  have read : ∀ earlier ∈ past, ∀ before ∈ earlier.2.now, before.Valid := clock.mem
  rw [mem_openedSessions, OwnTenth, reads]
  constructor
  · rintro unopened now ⟨⟩ earlier member before readBefore same
    have equal := (getIndicator_eq_iff (read earlier member before readBefore) valid).mpr same
    exact unopened ⟨earlier, member, opens_iff.mpr ⟨before, readBefore, equal.symm⟩⟩
  · rintro own ⟨earlier, member, opens⟩
    obtain ⟨before, readBefore, equal⟩ := opens_iff.mp opens
    refine own now rfl earlier member before readBefore ?_
    exact (getIndicator_eq_iff (read earlier member before readBefore) valid).mp equal.symm

end Run

theorem names_mapTable (db : Database) (indicator : Long) (change : List Row → List Row) :
    (db.mapTable indicator change).tables.map Prod.fst = db.tables.map Prod.fst := by
  simp only [Database.mapTable, List.map_map]
  apply List.map_congr_left
  intro table _
  simp only [Function.comp_apply]
  split <;> rfl

theorem names_exec {db : Database} {statement : Statement}
    (absent : ∀ indicator, statement.creates = some indicator → db.rows indicator = none) :
    (db.exec statement).tables.map Prod.fst =
      db.tables.map Prod.fst ++ statement.creates.toList := by
  cases statement with
  | createTable indicator =>
      simp [Database.exec, Database.createTable, absent indicator rfl, Statement.creates]
  | createRow indicator =>
      exact (names_mapTable db indicator _).trans (List.append_nil _).symm
  | updateLast indicator change =>
      exact (names_mapTable db indicator _).trans (List.append_nil _).symm
  | metaCreateRow row => exact (List.append_nil _).symm
  | metaAddFinishTime indicator time => exact (List.append_nil _).symm

theorem names_foldl {list : List Statement} (db : Database)
    (old : ∀ statement ∈ list, statement.creates = none) :
    (list.foldl Database.exec db).tables.map Prod.fst = db.tables.map Prod.fst := by
  induction list generalizing db with
  | nil => rfl
  | cons statement rest ih =>
      obtain ⟨none, others⟩ := List.forall_mem_cons.mp old
      rw [List.foldl_cons, ih _ others, names_exec (by simp [none]), none]
      exact List.append_nil _

theorem names_creation {db : Database} {linked : List Statement} {indicator : Long} (row : MetaRow)
    (old : ∀ statement ∈ linked, statement.creates = none)
    (absent : indicator ∉ db.tables.map Prod.fst) :
    (List.foldl Database.exec db
      (linked ++ [.createTable indicator, .createRow indicator, .metaCreateRow row])).tables.map
        Prod.fst = db.tables.map Prod.fst ++ [indicator] := by
  have names := names_foldl db old
  have free : (linked.foldl Database.exec db).rows indicator = none := by
    rw [← names, mem_tables] at absent
    simpa using absent
  have create : ∀ other, (Statement.createTable indicator).creates = some other →
      (linked.foldl Database.exec db).rows other = none := by
    rintro other ⟨⟩
    exact free
  rw [List.foldl_append, List.foldl_cons, names_foldl _ (by simp [Statement.creates]),
    names_exec create, names]
  rfl

theorem addsSession_iff {before : Database} {opening : Opening} {killEvent : KillEvent} :
    AddsSession before opening killEvent ↔
      getIndicator opening.now ∉ before.tables.map Prod.fst := by
  constructor
  · exact fun adds => adds.absent
  · intro absent
    have free : before.rows (getIndicator opening.now) = none := by
      simpa [mem_tables] using absent
    refine ⟨absent, ?_, ?_⟩
    · rw [createSession_exec, creationStatements]
      refine names_creation _ (fun statement member => ?_) absent
      split at member
      · obtain rfl := List.mem_singleton.mp member
        rfl
      · cases member
    · rw [createSession_exec, rows_foldl, free, creationStatements, List.foldl_append]
      split <;> simp [Statement.onRows]

section Identity

variable {past : List (Database × Handling)} {last : Database}

theorem createsOwn_iff (run : Run dbStep Database.empty past last)
    (clock : Always ReadsClock past) {handling : Handling} (reads : ReadsClock past last handling) :
    CreatesOwn past last handling ↔ OwnTenth past last handling := by
  cases call : handling.call with
  | handleKillSIGUSR killEvent =>
      have now : handling.now = some handling.opening.now := by rw [Handling.now, call]
      rw [← unopened_iff clock (reads _ now) now, ← tables_opened run, ← addsSession_iff]
      constructor
      · exact fun creates => creates killEvent call
      · rintro adds other same
        obtain rfl := HandlerCall.handleKillSIGUSR.inj (call.symm.trans same)
        exact adds
  | handleKillSIGRTMIN | handleChildCreation | handleShellExit | handleWrite =>
      simp [CreatesOwn, OwnTenth, Handling.now, call]

theorem opened_nodup_iff (clock : Always ReadsClock past) {handling : Handling}
    (reads : ReadsClock past last handling) (distinct : (openedSessions past).Nodup) :
    (openedSessions past ++ handling.opens.toList).Nodup ↔ OwnTenth past last handling := by
  cases now : handling.now with
  | none =>
      have silent : handling.opens = none := by
        refine Option.eq_none_iff_forall_ne_some.mpr fun indicator opens => ?_
        obtain ⟨reading, read, _⟩ := opens_iff.mp opens
        rw [now] at read
        cases read
      simp [silent, distinct, OwnTenth, now]
  | some reading =>
      have opens : handling.opens = some (getIndicator reading) := opens_iff.mpr ⟨reading, now, rfl⟩
      rw [← unopened_iff clock (reads reading now) now, opens, Option.toList_some,
        ← List.concat_eq_append, List.nodup_concat]
      exact and_iff_left distinct

/-- The indicators in `meta` are distinct at all times, and every creation adds
a table of its own, in the runs where no two announcements are handled in the
same tenth of a second. -/
theorem sessions_apart_iff (run : Run dbStep Database.empty past last)
    (clock : Always ReadsClock past) :
    Throughout MetaDistinct past last ∧ Always CreatesOwn past ↔ Always OwnTenth past := by
  induction run with
  | start => simp [Throughout, MetaDistinct, Always, Database.empty]
  | next earlier taken ih =>
      rename_i past before after handling
      have same := meta_opened (earlier.next taken)
      rw [Throughout, Always, Always, and_and_and_comm, ih clock.2, createsOwn_iff earlier clock.2 clock.1,
        and_congr_left_iff]
      intro own
      -- the steps before were all as they should be, so what is in meta is distinct
      have distinct : (openedSessions past).Nodup := by
        rw [← meta_opened earlier]
        exact ((ih clock.2).mpr own).1.last
      rw [MetaDistinct, same, openedSessions, opened_nodup_iff clock.2 clock.1 distinct, and_self]

end Identity

def announcement (tgid : BitVec 32) (usec : Long) : Handling :=
  let time : Long := 1640995200#64
  ⟨.handleKillSIGUSR ⟨tgid, SIGUSR1, 0#64⟩,
    ⟨⟨time, usec⟩, time, Vector.replicate 15 0#8, Vector.replicate 16 0#8⟩, sampleClosing,
    ⟨time, ⟨none, none, time, ⟨time, usec⟩, none, none⟩⟩, SlotTable.ofEntries []⟩

theorem sessions_apart_two :
    ∃ past last, Run dbStep Database.empty past last ∧ Throughout MetaDistinct past last ∧
      Always CreatesOwn past ∧ last.metaTable.length = 2 := by
  obtain ⟨past, last, run, ⟨clock, own⟩, two⟩ := replay_some dbStep Database.empty
    [announcement 1#32 0#64, announcement 2#32 100000#64]
    (fun past last => (Always ReadsClock past ∧ Always OwnTenth past) ∧ last.metaTable.length = 2)
    (by decide +kernel)
  obtain ⟨distinct, creates⟩ := (sessions_apart_iff run clock).mpr own
  exact ⟨past, last, run, distinct, creates, two⟩

/-- The first and the last microsecond of a tenth of a second: two sessions of
one name, and one table with the rows of both. -/
theorem sessions_share_table :
    ∃ past last, Run dbStep Database.empty past last ∧ Always ReadsClock past ∧
      Always ClockForward past ∧ ¬ Throughout MetaDistinct past last ∧
      last.metaTable.map MetaRow.indicator = [16409952000#64, 16409952000#64] ∧
      last.tables.map (fun table => (table.1, table.2.length)) = [(16409952000#64, 2)] := by
  obtain ⟨past, last, run, clock, forward, entered, tables⟩ := replay_some dbStep Database.empty
    [announcement 1#32 0#64, announcement 2#32 99999#64]
    (fun past last => Always ReadsClock past ∧ Always ClockForward past ∧
      last.metaTable.map MetaRow.indicator = [16409952000#64, 16409952000#64] ∧
      last.tables.map (fun table => (table.1, table.2.length)) = [(16409952000#64, 2)])
    (by decide +kernel)
  refine ⟨past, last, run, clock, forward, fun distinct => ?_, entered, tables⟩
  have apart : (last.metaTable.map MetaRow.indicator).Nodup := distinct.last
  rw [entered] at apart
  simp at apart

end Nhi
