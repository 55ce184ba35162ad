import Nhi.DatabaseChanges

/-!
The daemon is started again whenever it ends, be it in the middle of a handler,
over the database it left. The statements of a handler are committed one by one,
so any number of them may be there. The kernel programs then begin with empty
tables, so what the daemon stores from then on is what it would store in an empty
database, behind what is there already.
-/

namespace Nhi

open SlotTable RunHistory

namespace Database

def names (db : Database) : List Long := db.tables.map Prod.fst ++ db.metaTable.map MetaRow.indicator

/-- Two databases as one, the sessions of the older one first. -/
def append (old new : Database) : Database :=
  ⟨old.tables ++ new.tables, old.metaTable ++ new.metaTable⟩

@[simp] theorem append_empty (old : Database) : old.append empty = old := by
  simp [append, empty]

@[simp] theorem names_mapTable (db : Database) (indicator : Long) (change : List Row → List Row) :
    (db.mapTable indicator change).names = db.names := by
  have same : (db.mapTable indicator change).tables.map Prod.fst = db.tables.map Prod.fst := by
    rw [mapTable, List.map_map]
    apply List.map_congr_left
    intro table _
    simp only [Function.comp_apply]
    split <;> rfl
  rw [names, names, same]
  rfl

@[simp] theorem names_updateLast (db : Database) (indicator : Long) (change : Row → Row) :
    (db.updateLast indicator change).names = db.names := names_mapTable db indicator _

@[simp] theorem names_metaAddFinishTime (db : Database) (indicator time : Long) :
    (db.metaAddFinishTime indicator time).names = db.names := by
  have same : (db.metaAddFinishTime indicator time).metaTable.map MetaRow.indicator =
      db.metaTable.map MetaRow.indicator := by
    rw [metaAddFinishTime, List.map_map]
    apply List.map_congr_left
    intro row _
    simp only [Function.comp_apply]
    split <;> rfl
  rw [names, names, same]
  rfl

section Append

variable {old new : Database} {indicator : Long}

theorem find_absent {db : Database} (apart : indicator ∉ db.names) :
    db.tables.find? (fun table => table.1 = indicator) = none := by
  rw [List.find?_eq_none]
  intro table member here
  exact apart (List.mem_append_left _ (of_decide_eq_true here ▸ List.mem_map_of_mem member))

theorem append_rows (apart : indicator ∉ old.names) : (old.append new).rows indicator = new.rows indicator := by
  rw [rows, append, List.find?_append, find_absent apart, Option.none_or, ← rows]

theorem append_rows_old (apart : indicator ∉ new.names) :
    (old.append new).rows indicator = old.rows indicator := by
  rw [rows, append, List.find?_append, find_absent apart, Option.or_none, ← rows]

theorem map_apart {α : Type} {list : List α} {name : α → Long} (change : α → α)
    (apart : indicator ∉ list.map name) :
    (list.map fun item => if name item = indicator then change item else item) = list := by
  refine (List.map_congr_left fun item member => ?_).trans (List.map_id list)
  exact if_neg fun (here : name item = indicator) => apart (here ▸ List.mem_map_of_mem member)

theorem carries_append (old : Database) : Carries old.append (· ∉ old.names) (· ∉ old.names) where
  known := fun _ => id
  mapTable := by
    intro new indicator apart change
    have same := map_apart (fun table => (table.1, change table.2)) (mt (List.mem_append_left _) apart)
    simp [mapTable, append, same]
  createTable := by
    intro new indicator apart
    rw [createTable, createTable, append_rows apart]
    split
    · rfl
    · simp [append]
  metaCreateRow := fun _ _ _ => by simp [append]
  metaAddFinishTime := by
    intro new indicator apart time
    have same := map_apart (fun row : MetaRow => { row with finishTime := some time })
      (mt (List.mem_append_right _) apart)
    simp [metaAddFinishTime, append, same]

end Append

end Database

section Commits

variable {allowed fresh : Long → Prop}

/-- A statement brings in no name but a fresh one. -/
theorem exec_names {db : Database} {statement : Statement} (within : statement.Within allowed fresh)
    (named : ∀ indicator ∈ db.names, fresh indicator) : ∀ indicator ∈ (db.exec statement).names, fresh indicator := by
  cases statement with
  | createTable created =>
      rw [Database.exec, Database.createTable]
      split
      · exact named
      · intro indicator member
        simp only [Database.names, List.map_append, List.map_singleton, List.mem_append, List.mem_singleton] at member
        rcases member with (old | rfl) | listed
        · exact named indicator (List.mem_append_left _ old)
        · exact within
        · exact named indicator (List.mem_append_right _ listed)
  | createRow | updateLast | metaAddFinishTime => simpa [Database.exec, Database.createRow] using named
  | metaCreateRow row =>
      intro indicator member
      simp only [Database.exec, Database.names, List.map_append, List.map_singleton, List.mem_append,
        List.mem_singleton] at member
      rcases member with table | old | rfl
      · exact named indicator (List.mem_append_left _ table)
      · exact named indicator (List.mem_append_right _ old)
      · exact within

theorem foldl_names {list : List Statement} {db : Database}
    (within : ∀ statement ∈ list, statement.Within allowed fresh)
    (named : ∀ indicator ∈ db.names, fresh indicator) :
    ∀ indicator ∈ (list.foldl Database.exec db).names, fresh indicator := by
  induction list generalizing db with
  | nil => exact named
  | cons statement rest ih =>
      obtain ⟨first, others⟩ := List.forall_mem_cons.mp within
      exact ih others (exec_names first named)

end Commits

def World.launch (db : Database) : World := { World.start with db := db }

abbrev NewSession (db : Database) (_past : List (World × Label)) (_before : World) : Label → Prop :=
  CreatesOnly fun indicator => indicator ∉ db.names ∧ indicator ≠ 0#64

/-- The database when the daemon ends in a step that has committed so many of its
statements. -/
def World.left (world : World) (label : Label) (count : Nat) : Database :=
  ((world.commits label).take count).foldl Database.exec world.db

/-- The steps of a life, newest first, and the one it ends in, with so many of the
statements of that step committed. -/
structure Life where
  steps : List Label
  last : Label
  committed : Nat

/-- The daemon started again and again, its lives newest first. -/
inductive Restarted : List Life → Database → Prop where
  | none : Restarted [] Database.empty
  | again {lives : List Life} {db : Database} {past : List (World × Label)} {world : World} (last : Label)
      (committed : Nat) : Restarted lives db → Run step (World.launch db) past world →
      Always (NewSession db) past → NewSession db past world last →
      Restarted (⟨past.map Prod.snd, last, committed⟩ :: lives) (world.left last committed)

/-- What a life leaves of an empty database. -/
def Alone (life : Life) (db : Database) : Prop :=
  ∃ past world, Run step World.start past world ∧ past.map Prod.snd = life.steps ∧
    world.left life.last life.committed = db

section Lives

variable {old db : Database} {past : List (World × Label)} {world : World} {lives : List Life}

theorem creates_apart {before : World} {label : Label} (fresh : NewSession old past before label) :
    CreatesOnly (· ∉ old.names) label := by
  cases label with
  | create opening => exact fresh.1
  | kill | fork | exit | write | take | scan | register => trivial

theorem confined_start {allowed : Long → Prop} (zero : allowed 0#64) : Confined allowed World.start where
  slots := by
    intro shell member
    obtain rfl := List.eq_of_mem_replicate member
    exact zero
  waiting := fun _ member => absurd member List.not_mem_nil
  inHand := fun _ member => absurd member List.not_mem_nil
  session := nofun

/-- A life over a database is one over an empty database, put behind it. -/
theorem life_behind (zero : 0#64 ∉ old.names) (run : Run step (World.launch old) past world)
    (fresh : Always (NewSession old) past) :
    ∃ twinPast twin, Run step World.start twinPast twin ∧ twinPast.map Prod.snd = past.map Prod.snd ∧
      world = twin.changed old.append ∧ Confined (· ∉ old.names) twin ∧
      ∀ indicator ∈ twin.db.names, indicator ∉ old.names ∧ indicator ≠ 0#64 := by
  induction run with
  | start =>
      exact ⟨[], World.start, .start, rfl, by simp [World.changed, World.launch, World.start], confined_start zero,
        by simp [World.start, Database.empty, Database.names]⟩
  | next earlier taken ih =>
      rename_i past before after label
      obtain ⟨twinPast, twin, twinRun, same, rfl, confined, named⟩ := ih fresh.2
      have apart := creates_apart fresh.1
      rw [carries_step (Database.carries_append old) zero confined apart, Option.map_eq_some_iff] at taken
      obtain ⟨next, moved, rfl⟩ := taken
      refine ⟨(twin, label) :: twinPast, next, twinRun.next moved, by simp [same], rfl,
        confined_step zero confined apart moved, ?_⟩
      rw [step_commits moved]
      exact foldl_names (commits_within zero (fun _ => And.left) confined fresh.1) named

/-- And so is what it leaves. -/
theorem left_behind (zero : 0#64 ∉ old.names) (run : Run step (World.launch old) past world)
    (fresh : Always (NewSession old) past) {last : Label} (newest : NewSession old past world last)
    (committed : Nat) :
    ∃ own, Alone ⟨past.map Prod.snd, last, committed⟩ own ∧ world.left last committed = old.append own ∧
      ∀ indicator ∈ own.names, indicator ∉ old.names ∧ indicator ≠ 0#64 := by
  obtain ⟨twinPast, twin, twinRun, same, rfl, confined, named⟩ := life_behind zero run fresh
  have within : ∀ statement ∈ (twin.commits last).take committed,
      statement.Within (· ∉ old.names) (fun indicator => indicator ∉ old.names ∧ indicator ≠ 0#64) :=
    fun statement member =>
      commits_within zero (fun _ => And.left) confined newest statement (List.mem_of_mem_take member)
  have known : ∀ statement ∈ (twin.commits last).take committed,
      statement.Within (· ∉ old.names) (· ∉ old.names) :=
    fun statement member => (within statement member).mono fun _ => And.left
  exact ⟨twin.left last committed, ⟨twinPast, twin, twinRun, same, rfl⟩,
    (Database.carries_append old).foldl known, foldl_names within named⟩

/-- However often the daemon ends, between two statements of a handler or elsewhere,
and is started again, with clocks that give no session twice, the database is that
of its lives, each over an empty database of its own, one behind the other; and
what is stored of a session is what the life that created it has stored. -/
theorem lives_add_up (all : Restarted lives db) :
    ∃ parts : List Database, List.Forall₂ Alone lives parts ∧
      db = parts.foldr (fun part old => old.append part) Database.empty ∧
      ∀ part ∈ parts, ∀ indicator ∈ part.names, db.rows indicator = part.rows indicator := by
  have stored : 0#64 ∉ db.names ∧ ∃ parts : List Database, List.Forall₂ Alone lives parts ∧
      db = parts.foldr (fun part old => old.append part) Database.empty ∧
      ∀ part ∈ parts, ∀ indicator ∈ part.names, indicator ∈ db.names ∧ db.rows indicator = part.rows indicator := by
    induction all with
    | none => exact ⟨List.not_mem_nil, [], .nil, rfl, fun _ member => absurd member List.not_mem_nil⟩
    | again last committed earlier run fresh newest ih =>
        rename_i lives old past world
        obtain ⟨zero, parts, alone, whole, own⟩ := ih
        obtain ⟨new, life, same, named⟩ := left_behind zero run fresh newest committed
        have joined (indicator : Long) :
            indicator ∈ (old.append new).names ↔ indicator ∈ old.names ∨ indicator ∈ new.names := by
          simp only [Database.names, Database.append, List.map_append, List.mem_append]
          tauto
        rw [same]
        refine ⟨?_, new :: parts, .cons life alone, by rw [whole]; rfl, ?_⟩
        · intro inside
          exact ((joined 0#64).mp inside).elim zero fun inNew => (named _ inNew).2 rfl
        · intro part member indicator inPart
          rcases List.mem_cons.mp member with rfl | older
          · exact ⟨(joined indicator).mpr (Or.inr inPart),
              Database.append_rows (named indicator inPart).1⟩
          · obtain ⟨inOld, rows⟩ := own part older indicator inPart
            have apart : indicator ∉ new.names := fun inNew => (named indicator inNew).1 inOld
            exact ⟨(joined indicator).mpr (Or.inl inOld), (Database.append_rows_old apart).trans rows⟩
  obtain ⟨_, parts, alone, whole, own⟩ := stored
  exact ⟨parts, alone, whole, fun part member indicator inPart => (own part member indicator inPart).2⟩

def brokenLife : List Label :=
  registration 1#32 ++ [.kill 1#32 SIGRTMIN nhidHash true, .take sampleOutside]

def brokenDatabase : Database := ((replay step [] World.start brokenLife).map fun life => life.2.db).getD .empty

theorem lives_add_up_broken :
    ∃ lives db, Restarted lives db ∧ lives.length = 2 ∧ db.tables.map Prod.fst = [16000000000#64, 16000000010#64] ∧
      db.metaTable.length = 1 ∧ ∃ parts : List Database, List.Forall₂ Alone lives parts ∧
        db = parts.foldr (fun part old => old.append part) Database.empty ∧
        ∀ part ∈ parts, ∀ indicator ∈ part.names, db.rows indicator = part.rows indicator := by
  obtain ⟨first, broken, run, fresh, stored⟩ := replay_some step (World.launch Database.empty) brokenLife
    (fun past world => Always (NewSession Database.empty) past ∧ world.left .scan 0 = brokenDatabase)
    (by decide +kernel)
  have once : Restarted [⟨first.map Prod.snd, .scan, 0⟩] brokenDatabase :=
    stored ▸ .again .scan 0 .none run fresh trivial
  -- of the creation only the table is there, and not the row of `meta`
  obtain ⟨second, world, again, later, newest, tables, one⟩ := replay_some step (World.launch brokenDatabase)
    [.kill 1#32 SIGUSR1 nhidHash true, .take sampleOutside]
    (fun past world => Always (NewSession brokenDatabase) past ∧
      NewSession brokenDatabase past world (.create { sampleOpening with now := ⟨1600000001#64, 0#64⟩ }) ∧
      (world.left (.create { sampleOpening with now := ⟨1600000001#64, 0#64⟩ }) 1).tables.map Prod.fst =
        [16000000000#64, 16000000010#64] ∧
      (world.left (.create { sampleOpening with now := ⟨1600000001#64, 0#64⟩ }) 1).metaTable.length = 1)
    (by decide +kernel)
  have twice := once.again _ 1 again later newest
  exact ⟨_, _, twice, rfl, tables, one, lives_add_up twice⟩

end Lives

end Nhi
