import Nhi.DatabaseChanges
import Nhi.FetchTermination
import Nhi.Remove
import Nhi.Rename
import Nhi.Simulation

/-!
`nhi remove` and `nhi rename` on the database the daemon writes. Each of their
statements comes between any two steps of the system, be it in the middle of an
announcement, but never at the same time as one of the daemon's: that would find
the database locked and be lost. The daemon goes on for a session that was removed,
without bringing it back, and stores of the others what it would have stored alone.
-/

namespace Nhi

open RunHistory Simulation
open Sql (ascii)

/-- The `UPDATE` of `Rename`. -/
def Database.rename (db : Database) (indicator : Long) (newName : Text) : Database :=
  { db with metaTable := db.metaTable.map fun row =>
      if row.indicator = indicator then { row with name := newName } else row }

inductive UserStatement where
  | dropTable (indicator : Long)
  | metaDelete (indicator : Long)
  | rename (indicator : Long) (newName : Text)

namespace UserStatement

def indicator : UserStatement → Long
  | .dropTable indicator | .metaDelete indicator | .rename indicator _ => indicator

def drops : UserStatement → Option Long
  | .dropTable indicator => some indicator
  | .metaDelete _ | .rename _ _ => none

def exec (db : Database) : UserStatement → Database
  | .dropTable indicator => db.dropTable indicator
  | .metaDelete indicator => db.metaDelete indicator
  | .rename indicator newName => db.rename indicator newName

def onRow (row : MetaRow) : UserStatement → Option MetaRow
  | .dropTable _ => some row
  | .metaDelete indicator => if row.indicator = indicator then none else some row
  | .rename indicator newName => some (if row.indicator = indicator then { row with name := newName } else row)

end UserStatement

inductive SharedLabel where
  | system (label : Label)
  | user (statement : UserStatement)

def sharedStep (world : World) : SharedLabel → Option World
  | .system label => step world label
  | .user statement => some (world.changed statement.exec)

def SharedLabel.label : SharedLabel → Option Label
  | .system label => some label
  | .user _ => none

def SharedLabel.statement : SharedLabel → Option UserStatement
  | .system _ => none
  | .user statement => some statement

def statementsIn (past : List (World × SharedLabel)) : List UserStatement :=
  past.filterMap fun taken => taken.2.statement

def edits (statements : List UserStatement) (db : Database) : Database :=
  statements.foldr (fun statement db => statement.exec db) db

def edited (statements : List UserStatement) (row : MetaRow) : Option MetaRow :=
  statements.foldr (fun statement left => left.bind statement.onRow) (some row)

/-- A session is created with an indicator that no statement was about. -/
def NewToUsers (past : List (World × SharedLabel)) (_before : World) : SharedLabel → Prop
  | .system label => CreatesOnly (· ∉ (statementsIn past).map UserStatement.indicator) label
  | .user _ => True

instance (past : List (World × SharedLabel)) (before : World) (label : SharedLabel) :
    Decidable (NewToUsers past before label) :=
  match label with
  | .system label =>
      inferInstanceAs (Decidable (CreatesOnly (· ∉ (statementsIn past).map UserStatement.indicator) label))
  | .user _ => .isTrue trivial

section Statements

theorem rows_dropTable (db : Database) (indicator other : Long) :
    (db.dropTable indicator).rows other = if other = indicator then none else db.rows other := by
  simp only [Database.rows, Database.dropTable, List.find?_filter]
  split
  · rename_i here
    rw [Option.map_eq_none_iff, List.find?_eq_none]
    simp [here]
  · rename_i apart
    congr 2
    funext table
    by_cases here : table.1 = other
    · simp [here, apart]
    · simp [here]

theorem carries_dropTable (indicator : Long) :
    Carries (·.dropTable indicator) (fun _ => True) (· ≠ indicator) where
  known := fun _ _ => trivial
  mapTable := by
    intro db other _ rows
    have key (table : Long × List Row) :
        (if table.1 = other then (table.1, rows table.2) else table).1 = table.1 := by split <;> rfl
    simp only [Database.mapTable, Database.dropTable, List.filter_map, Function.comp_def, key]
  createTable := by
    intro db other apart
    rw [Database.createTable, Database.createTable, rows_dropTable, if_neg apart]
    split
    · rfl
    · simp [Database.dropTable, apart]
  metaCreateRow := fun _ _ _ => rfl
  metaAddFinishTime := fun _ _ _ _ => rfl

/-- A change of `meta` alone, which leaves a fresh row at the end and does not look at finish times. -/
theorem carries_metaTable {change : List MetaRow → List MetaRow} {fresh : Long → Prop}
    (opens : ∀ (metaTable : List MetaRow) (row : MetaRow), fresh row.indicator →
      change metaTable ++ [row] = change (metaTable ++ [row]))
    (ends : ∀ (metaTable : List MetaRow) (other time : Long),
      (change metaTable).map (fun row =>
          if row.indicator = other then { row with finishTime := some time } else row) =
        change (metaTable.map fun row =>
          if row.indicator = other then { row with finishTime := some time } else row)) :
    Carries (fun db => { db with metaTable := change db.metaTable }) (fun _ => True) fresh where
  known := fun _ _ => trivial
  mapTable := fun _ _ _ _ => rfl
  createTable := by
    intro db indicator _
    have same : { db with metaTable := change db.metaTable }.rows indicator = db.rows indicator := rfl
    rw [Database.createTable, Database.createTable, same]
    split <;> rfl
  metaCreateRow := fun db row own => congrArg (Database.mk db.tables) (opens db.metaTable row own)
  metaAddFinishTime := fun db other _ time => congrArg (Database.mk db.tables) (ends db.metaTable other time)

theorem carries_metaDelete (indicator : Long) :
    Carries (·.metaDelete indicator) (fun _ => True) (· ≠ indicator) := by
  apply carries_metaTable
  · intro metaTable row apart
    simp [apart]
  · intro metaTable other time
    have key (row : MetaRow) :
        (if row.indicator = other then { row with finishTime := some time } else row).indicator =
          row.indicator := by
      split <;> rfl
    simp only [List.filter_map, Function.comp_def, key]

theorem carries_rename (indicator : Long) (newName : Text) :
    Carries (·.rename indicator newName) (fun _ => True) (· ≠ indicator) := by
  apply carries_metaTable
  · intro metaTable row apart
    simp [apart]
  · intro metaTable other time
    simp only [List.map_map]
    apply List.map_congr_left
    rintro ⟨own, name, startTime, finishTime⟩ _
    by_cases named : own = indicator
    · subst named
      by_cases ended : own = other <;> simp [ended]
    · by_cases ended : own = other
      · subst ended
        simp [named]
      · simp [named, ended]

theorem carries_exec (statement : UserStatement) :
    Carries (statement.exec ·) (fun _ => True) (· ≠ statement.indicator) := by
  cases statement with
  | dropTable indicator => exact carries_dropTable indicator
  | metaDelete indicator => exact carries_metaDelete indicator
  | rename indicator newName => exact carries_rename indicator newName

theorem carries_edits (statements : List UserStatement) :
    Carries (edits statements) (fun _ => True) (· ∉ statements.map UserStatement.indicator) := by
  induction statements with
  | nil => exact carries_id _ _ fun _ _ => trivial
  | cons statement earlier ih =>
      have fresh : (· ∉ (statement :: earlier).map UserStatement.indicator) = fun indicator =>
          indicator ≠ statement.indicator ∧ indicator ∉ earlier.map UserStatement.indicator := by
        funext indicator
        simp
      rw [fresh]
      exact carries_comp (carries_exec statement) ih

theorem rows_edits (statements : List UserStatement) (db : Database) (indicator : Long) :
    (edits statements db).rows indicator =
      if indicator ∈ statements.filterMap UserStatement.drops then none else db.rows indicator := by
  induction statements with
  | nil => rfl
  | cons statement earlier ih =>
      cases statement with
      | dropTable other =>
          have dropped : (edits (.dropTable other :: earlier) db).rows indicator =
              ((edits earlier db).dropTable other).rows indicator := rfl
          have names : (UserStatement.dropTable other :: earlier).filterMap UserStatement.drops =
              other :: earlier.filterMap UserStatement.drops := rfl
          rw [dropped, rows_dropTable, ih, names]
          by_cases here : indicator = other <;> simp [here]
      | metaDelete | rename =>
          rw [List.filterMap_cons_none rfl]
          exact ih

theorem meta_statement (db : Database) (statement : UserStatement) :
    (statement.exec db).metaTable = db.metaTable.filterMap statement.onRow := by
  cases statement with
  | dropTable indicator => exact (List.filterMap_some).symm
  | metaDelete indicator =>
      rw [UserStatement.exec, Database.metaDelete, ← List.filterMap_eq_filter]
      refine List.filterMap_congr fun row _ => ?_
      by_cases here : row.indicator = indicator <;> simp [UserStatement.onRow, Option.guard, here]
  | rename indicator newName => exact (congrFun List.filterMap_eq_map db.metaTable).symm

theorem meta_edits (statements : List UserStatement) (db : Database) :
    (edits statements db).metaTable = db.metaTable.filterMap (edited statements) := by
  induction statements with
  | nil => exact (List.filterMap_some).symm
  | cons statement earlier ih =>
      have last : (edits (statement :: earlier) db).metaTable =
          (statement.exec (edits earlier db)).metaTable := rfl
      rw [last, meta_statement, ih, List.filterMap_filterMap]
      rfl

end Statements

/-! What the two commands execute is such statements. -/
section Commands

def RowidDatabase.unnumbered (db : RowidDatabase) : Database :=
  ⟨db.tables.map fun table => (table.1, table.2.map Prod.snd), db.metaTable.map Prod.snd⟩

def removal (indicators : List Long) : List UserStatement :=
  (indicators.flatMap fun indicator => [.dropTable indicator, .metaDelete indicator]).reverse

theorem unnumbered_dropTable (db : RowidDatabase) (indicator : Long) :
    (db.dropTable indicator).unnumbered = db.unnumbered.dropTable indicator := by
  simp only [RowidDatabase.unnumbered, RowidDatabase.dropTable, Database.dropTable, List.filter_map,
    Function.comp_def]

theorem unnumbered_delete (db : RowidDatabase) (indicator : Long) :
    (db.deleteWhere (withIndicator indicator)).unnumbered = db.unnumbered.metaDelete indicator := by
  simp only [RowidDatabase.unnumbered, RowidDatabase.deleteWhere, Database.metaDelete, List.filter_map,
    Function.comp_def, withIndicator, decide_not]

theorem unnumbered_rename (db : RowidDatabase) (indicator : Long) (newName : Text) :
    (db.renameWhere (withIndicator indicator) newName).unnumbered = db.unnumbered.rename indicator newName := by
  have metaTable : (db.renameWhere (withIndicator indicator) newName).metaTable.map Prod.snd =
      (db.unnumbered.rename indicator newName).metaTable := by
    rw [renameWhere_relabel, List.map_map, Database.rename, RowidDatabase.unnumbered, List.map_map]
    apply List.map_congr_left
    intro row _
    simp only [Function.comp_apply, relabel]
    split <;> rfl
  rw [RowidDatabase.unnumbered, metaTable]
  rfl

theorem removal_edits (db : RowidDatabase) (indicators : List Long) :
    (indicators.foldl removeSession db).unnumbered = edits (removal indicators) db.unnumbered := by
  rw [edits, removal, List.foldr_reverse]
  induction indicators generalizing db with
  | nil => rfl
  | cons indicator rest ih =>
      have session : (removeSession db indicator).unnumbered =
          (db.unnumbered.dropTable indicator).metaDelete indicator := by
        rw [removeSession_without, withoutSession, unnumbered_delete, unnumbered_dropTable]
      rw [List.foldl_cons, ih, session]
      rfl

theorem remove_edits {db after : RowidDatabase} {startEndRange : Text}
    (removed : remove db startEndRange = .ok after) :
    ∃ indicators, removeSelect db startEndRange = .ok indicators ∧
      after.unnumbered = edits (removal indicators) db.unnumbered := by
  rw [remove] at removed
  cases selected : removeSelect db startEndRange with
  | error message =>
      rw [selected] at removed
      cases removed
  | ok indicators =>
      rw [selected] at removed
      cases removed
      exact ⟨indicators, rfl, removal_edits db indicators⟩

theorem rename_edits (engine : Engine) (db : RowidDatabase) {session newName : Text}
    (plainSession : Plain session) (plainName : Plain newName) :
    ∃ statements, (statements = [] ∨
        statements = [UserStatement.rename (foundIndicator (lookedUp db.metaTable session)) newName]) ∧
      (rename engine db session newName).1.unnumbered = edits statements db.unnumbered := by
  by_cases refused : newName = ascii "meta" ∨ Used db newName
  · obtain ⟨_, kept⟩ := rename_refused engine db plainSession plainName refused
    exact ⟨[], Or.inl rfl, by rw [kept]; rfl⟩
  · obtain ⟨other, free⟩ := not_or.mp refused
    refine ⟨_, Or.inr rfl, ?_⟩
    rw [rename_free engine db plainSession plainName other free, unnumbered_rename]
    rfl

end Commands

/-- With statements of `nhi remove` and `nhi rename` between its steps, in any order,
the system does what it does without them: the kernel programs and the daemon see
nothing of it, a session that was not removed is stored as it would be, a removed
one does not come back, and names stay as they were given. -/
theorem users_apart {past : List (World × SharedLabel)} {world : World}
    (run : Run sharedStep World.start past world) (new : Always NewToUsers past) :
    ∃ alonePast alone, Run step World.start alonePast alone ∧
      (alonePast.map Prod.snd = past.filterMap fun taken => taken.2.label) ∧
      world.maps = alone.maps ∧ world.ring = alone.ring ∧ world.daemon = alone.daemon ∧
      (∀ indicator, world.db.rows indicator =
        if indicator ∈ (statementsIn past).filterMap UserStatement.drops then none else alone.db.rows indicator) ∧
      world.db.metaTable = alone.db.metaTable.filterMap (edited (statementsIn past)) := by
  have apart : ∃ alonePast alone, Run step World.start alonePast alone ∧
      (alonePast.map Prod.snd = past.filterMap fun taken => taken.2.label) ∧
      world = alone.changed (edits (statementsIn past)) := by
    induction run with
    | start => exact ⟨[], World.start, .start, rfl, rfl⟩
    | next earlier taken ih =>
        rename_i past before after label
        obtain ⟨alonePast, alone, aloneRun, same, rfl⟩ := ih new.2
        cases label with
        | system label =>
            have unread : Confined (fun _ => True) alone :=
              ⟨fun _ _ => trivial, fun _ _ _ _ => trivial, fun _ _ => trivial, fun _ _ _ => trivial⟩
            rw [sharedStep, carries_step (carries_edits (statementsIn past)) trivial unread new.1,
              Option.map_eq_some_iff] at taken
            obtain ⟨next, moved, rfl⟩ := taken
            exact ⟨(alone, label) :: alonePast, next, aloneRun.next moved,
              by simp [same, SharedLabel.label], rfl⟩
        | user statement =>
            obtain rfl := Option.some.inj taken
            exact ⟨alonePast, alone, aloneRun, same, rfl⟩
  obtain ⟨alonePast, alone, aloneRun, same, rfl⟩ := apart
  exact ⟨alonePast, alone, aloneRun, same, rfl, rfl, rfl, rows_edits _ alone.db, meta_edits _ alone.db⟩

theorem users_apart_removed :
    ∃ past world, Run sharedStep World.start past world ∧ (statementsIn past).length = 3 ∧
      world.db.tables.length = 1 ∧
      ∃ alonePast alone, Run step World.start alonePast alone ∧
        (alonePast.map Prod.snd = past.filterMap fun taken => taken.2.label) ∧
        world.maps = alone.maps ∧ world.ring = alone.ring ∧ world.daemon = alone.daemon ∧
        (∀ indicator, world.db.rows indicator =
          if indicator ∈ (statementsIn past).filterMap UserStatement.drops then none else alone.db.rows indicator) ∧
        world.db.metaTable = alone.db.metaTable.filterMap (edited (statementsIn past)) := by
  obtain ⟨past, world, run, new, three, one⟩ := replay_some sharedStep World.start
    [.system (.kill 1#32 SIGUSR1 nhidHash true), .system (.take sampleOutside), .system (.create sampleOpening),
      .user (.dropTable 16000000000#64), .user (.metaDelete 16000000000#64), .system .scan,
      .system (.register sampleClosing), .system (.kill 2#32 SIGUSR1 nhidHash true), .system (.take sampleOutside),
      .system (.create { sampleOpening with now := ⟨1600000001#64, 0#64⟩ }), .system .scan,
      .user (.rename 16000000010#64 [119#8]), .system (.register sampleClosing)]
    (fun past world => Always NewToUsers past ∧ (statementsIn past).length = 3 ∧ world.db.tables.length = 1)
    (by decide +kernel)
  exact ⟨past, world, run, three, one, users_apart run new⟩

end Nhi
