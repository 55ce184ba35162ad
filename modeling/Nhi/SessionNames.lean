import Nhi.Remove
import Nhi.Rename
import Nhi.RunHistory

/-!
The names of sessions over runs of the two programs that give them. The daemon
names a session by its indicator without a look at `meta`; `Rename` refuses a
name that is there, but not one that a later session will be created with.
-/

namespace Nhi

open RunHistory
open Sql (ascii)

def createdName (indicator : Long) (stack : Vector Byte 16) : Text :=
  (cString stack (decimal indicator)).toList.take 11

inductive NameStep where
  | create (indicator time : Long) (stack : Vector Byte 16)
  | rename (session newName : Text)
  | remove (startEndRange : Text)

def nameStep (engine : Engine) (db : RowidDatabase) : NameStep → Option RowidDatabase
  | .create indicator time stack =>
      some (((db.exec (.createTable indicator)).exec (.createRow indicator)).exec
        (.metaCreateRow ⟨indicator, createdName indicator stack, time, none⟩))
  | .rename session newName => some (rename engine db session newName).1
  | .remove startEndRange =>
      match remove db startEndRange with
      | .ok after => some after
      | .error _ => some db

def metaNames (db : RowidDatabase) : List Text := db.metaTable.map fun entry => entry.2.name

def metaIndicators (db : RowidDatabase) : List Long := db.metaTable.map fun entry => entry.2.indicator

def UniqueNames (_past : List (RowidDatabase × NameStep)) (db : RowidDatabase) : Prop := (metaNames db).Nodup

def NameStep.created : NameStep → Option Long
  | .create indicator _ _ => some indicator
  | .rename _ _ | .remove _ => none

def createdIn (past : List (RowidDatabase × NameStep)) : List Long :=
  past.filterMap fun taken => taken.2.created

def NewIndicator (past : List (RowidDatabase × NameStep)) (_before : RowidDatabase) (step : NameStep) : Prop :=
  ∀ indicator ∈ step.created, indicator ∉ createdIn past

def PlainRename (_past : List (RowidDatabase × NameStep)) (_before : RowidDatabase) : NameStep → Prop
  | .rename session newName => Plain session ∧ Plain newName
  | .create _ _ _ | .remove _ => True

/-- No session has the name that a new one is created with. -/
def FreeName (_past : List (RowidDatabase × NameStep)) (before : RowidDatabase) : NameStep → Prop
  | .create indicator _ stack => createdName indicator stack ∉ metaNames before
  | .rename _ _ | .remove _ => True

/-! What each step does to `meta`. -/
section Steps

variable (engine : Engine) (db : RowidDatabase)

theorem create_metaTable (indicator time : Long) (stack : Vector Byte 16) :
    ∃ after, nameStep engine db (.create indicator time stack) = some after ∧
      metaNames after = metaNames db ++ [createdName indicator stack] ∧
      metaIndicators after = metaIndicators db ++ [indicator] := by
  have kept : ((db.exec (.createTable indicator)).exec (.createRow indicator)).metaTable = db.metaTable := by
    rw [RowidDatabase.exec, RowidDatabase.exec]
    split <;> rfl
  refine ⟨_, rfl, ?_⟩
  generalize (db.exec (.createTable indicator)).exec (.createRow indicator) = opened at kept
  simp [RowidDatabase.exec, RowidTable.insert, metaNames, metaIndicators, kept]

theorem rename_metaTable {session newName : Text} (plainSession : Plain session) (plainName : Plain newName) :
    (rename engine db session newName).1 = db ∨
      newName ∉ metaNames db ∧ ∃ indicator, (rename engine db session newName).1.metaTable =
        db.metaTable.map (relabel indicator newName) := by
  by_cases refused : newName = ascii "meta" ∨ Used db newName
  · obtain ⟨message, same⟩ := rename_refused engine db plainSession plainName refused
    exact Or.inl (congrArg Prod.fst same)
  · obtain ⟨other, free⟩ := not_or.mp refused
    right
    rw [rename_free engine db plainSession plainName other free]
    refine ⟨fun used => ?_, _, renameWhere_relabel _ _ _⟩
    obtain ⟨entry, member, same⟩ := List.mem_map.mp used
    exact free ⟨entry, member, same⟩

theorem remove_metaTable (startEndRange : Text) :
    ∃ after, nameStep engine db (.remove startEndRange) = some after ∧
      after.metaTable.Sublist db.metaTable := by
  rw [nameStep, remove]
  cases selected : removeSelect db startEndRange with
  | error message => exact ⟨db, rfl, List.Sublist.refl _⟩
  | ok indicators =>
      refine ⟨_, rfl, ?_⟩
      rw [removeSessions_metaTable]
      exact List.filter_sublist

variable {db}

theorem relabel_indicators (indicator : Long) (newName : Text) :
    (db.metaTable.map (relabel indicator newName)).map (fun entry => entry.2.indicator) = metaIndicators db := by
  rw [List.map_map]
  apply List.map_congr_left
  intro entry _
  rw [Function.comp_apply, relabel]
  split <;> rfl

theorem relabel_unique {indicator : Long} {newName : Text} (unique : (metaNames db).Nodup)
    (distinct : (metaIndicators db).Nodup) (free : newName ∉ metaNames db) :
    ((db.metaTable.map (relabel indicator newName)).map fun entry => entry.2.name).Nodup := by
  have unused (entry : Nat × MetaRow) (member : entry ∈ db.metaTable) : entry.2.name ≠ newName :=
    fun same => free (List.mem_map.mpr ⟨entry, member, same⟩)
  rw [List.map_map]
  refine List.Nodup.map_on ?_ (List.Nodup.of_map _ unique)
  intro first member second member' same
  rw [Function.comp_apply, Function.comp_apply, relabel, relabel] at same
  split_ifs at same with one two two
  · exact List.inj_on_of_nodup_map distinct member member' (one.trans two.symm)
  · exact absurd same.symm (unused second member')
  · exact absurd same (unused first member)
  · exact List.inj_on_of_nodup_map unique member member' same

end Steps

/-! Runs. -/
section Runs

variable {engine : Engine} {past : List (RowidDatabase × NameStep)} {before after : RowidDatabase}
  {step : NameStep}

/-- Every row is of a session that was created, and no two are of the same. -/
structure Listed (past : List (RowidDatabase × NameStep)) (db : RowidDatabase) : Prop where
  distinct : (metaIndicators db).Nodup
  created : ∀ indicator ∈ metaIndicators db, indicator ∈ createdIn past

theorem Listed.next (listed : Listed past before) (new : NewIndicator past before step)
    (plain : PlainRename past before step) (taken : nameStep engine before step = some after) :
    Listed ((before, step) :: past) after := by
  cases step with
  | create indicator time stack =>
      obtain ⟨_, result, _, added⟩ := create_metaTable engine before indicator time stack
      obtain rfl := Option.some.inj (result.symm.trans taken)
      have absent : indicator ∉ metaIndicators before :=
        fun inside => new indicator rfl (listed.created indicator inside)
      constructor
      · rw [added, List.nodup_append_comm, List.singleton_append]
        exact List.nodup_cons.mpr ⟨absent, listed.distinct⟩
      · intro other inside
        rw [added] at inside
        rcases List.mem_append.mp inside with old | last
        · exact List.mem_cons_of_mem _ (listed.created other old)
        · rw [List.mem_singleton.mp last]
          exact List.mem_cons_self
  | rename session newName =>
      obtain rfl := Option.some.inj taken
      rcases rename_metaTable engine before plain.1 plain.2 with same | ⟨_, indicator, changed⟩
      · rw [same]
        exact ⟨listed.distinct, listed.created⟩
      · have kept : metaIndicators (rename engine before session newName).1 = metaIndicators before := by
          rw [metaIndicators, changed, relabel_indicators]
        exact ⟨kept ▸ listed.distinct, kept ▸ listed.created⟩
  | remove startEndRange =>
      obtain ⟨_, result, fewer⟩ := remove_metaTable engine before startEndRange
      obtain rfl := Option.some.inj (result.symm.trans taken)
      have sublist := fewer.map fun entry => entry.2.indicator
      exact ⟨sublist.nodup listed.distinct, fun indicator inside => listed.created indicator (sublist.mem inside)⟩

theorem names_step_iff (listed : Listed past before) (unique : (metaNames before).Nodup)
    (plain : PlainRename past before step) (taken : nameStep engine before step = some after) :
    (metaNames after).Nodup ↔ FreeName past before step := by
  cases step with
  | create indicator time stack =>
      obtain ⟨_, result, added, _⟩ := create_metaTable engine before indicator time stack
      obtain rfl := Option.some.inj (result.symm.trans taken)
      rw [added, List.nodup_append_comm, List.singleton_append, List.nodup_cons]
      exact and_iff_left unique
  | rename session newName =>
      obtain rfl := Option.some.inj taken
      refine iff_of_true ?_ trivial
      rcases rename_metaTable engine before plain.1 plain.2 with same | ⟨free, indicator, changed⟩
      · rw [same]
        exact unique
      · rw [metaNames, changed]
        exact relabel_unique unique listed.distinct free
  | remove startEndRange =>
      obtain ⟨_, result, fewer⟩ := remove_metaTable engine before startEndRange
      obtain rfl := Option.some.inj (result.symm.trans taken)
      have sublist := fewer.map fun entry => entry.2.name
      exact iff_of_true (sublist.nodup unique) trivial

theorem run_listed {last : RowidDatabase} (run : Run (nameStep engine) .empty past last)
    (new : Always NewIndicator past) (plain : Always PlainRename past) : Listed past last :=
  run.invariant ⟨List.nodup_nil, List.forall_mem_nil _⟩
    (fun _ _ _ _ _ listed here taken => listed.next here.1 here.2 taken) (new.and plain)

end Runs

/-- The names stay unique throughout a run exactly when no session is created
with a name that another has at that time. -/
theorem names_unique_iff (engine : Engine) {past : List (RowidDatabase × NameStep)} {last : RowidDatabase}
    (run : Run (nameStep engine) .empty past last) (new : Always NewIndicator past)
    (plain : Always PlainRename past) :
    Throughout UniqueNames past last ↔ Always FreeName past := by
  induction run with
  | start => exact iff_of_true List.nodup_nil trivial
  | next earlier taken ih =>
      rw [Throughout, Always, ih new.2 plain.2]
      apply and_congr_left
      intro free
      have unique := ((ih new.2 plain.2).mpr free).last
      exact names_step_iff (run_listed earlier new.2 plain.2) unique plain.1 taken

/-! A session is renamed, and another is created. -/
section Samples

def zeros : Vector Byte 16 := Vector.replicate 16 0#8

def oneNamed (name : Text) : RowidDatabase :=
  ⟨[(16352740490#64, [(1, Row.blank)])], [(1, ⟨16352740490#64, name, 1#64, none⟩)]⟩

theorem step_created (engine : Engine) :
    nameStep engine .empty (.create 16352740490#64 1#64 zeros) = some (oneNamed (ascii "16352740490")) := rfl

theorem step_renamed (engine : Engine) {newName : Text} (plain : Plain newName)
    (other : newName ≠ ascii "meta") (free : newName ≠ ascii "16352740490") :
    nameStep engine (oneNamed (ascii "16352740490")) (.rename (ascii "16352740490") newName) =
      some (oneNamed newName) := by
  have plainSession : Plain (ascii "16352740490") := by decide
  have unused : ¬ Used (oneNamed (ascii "16352740490")) newName := by
    rintro ⟨entry, member, same⟩
    obtain rfl := List.mem_singleton.mp member
    exact free same.symm
  have session : foundIndicator (lookedUp (oneNamed (ascii "16352740490")).metaTable (ascii "16352740490")) =
    16352740490#64 := by decide
  rw [nameStep, rename_free engine _ plainSession plain other unused, session]
  rfl

def threeSteps (newName : Text) : List (RowidDatabase × NameStep) :=
  [(oneNamed newName, .create 16352740550#64 2#64 zeros),
    (oneNamed (ascii "16352740490"), .rename (ascii "16352740490") newName),
    (.empty, .create 16352740490#64 1#64 zeros)]

theorem threeSteps_new (newName : Text) : Always NewIndicator (threeSteps newName) := by
  have apart : 16352740550#64 ∉ [16352740490#64] := by decide
  refine ⟨?_, nofun, ?_, trivial⟩
  · rintro indicator ⟨⟩
    exact apart
  · rintro indicator ⟨⟩
    exact List.not_mem_nil

theorem threeSteps_plain {newName : Text} (plain : Plain newName) : Always PlainRename (threeSteps newName) :=
  ⟨trivial, ⟨by decide, plain⟩, trivial, trivial⟩

theorem threeSteps_run (engine : Engine) {newName : Text} (plain : Plain newName)
    (other : newName ≠ ascii "meta") (free : newName ≠ ascii "16352740490") :
    ∃ last, Run (nameStep engine) .empty (threeSteps newName) last ∧
      metaNames last = [newName, ascii "16352740550"] := by
  have created := Run.start.next (step_created engine)
  have renamed := created.next (step_renamed engine plain other free)
  exact ⟨_, renamed.next rfl, rfl⟩

theorem names_unique_work :
    ∃ past last, Run (nameStep silent) .empty past last ∧ past.length = 3 ∧ Throughout UniqueNames past last := by
  have plain : Plain (ascii "work") := by decide
  obtain ⟨last, run, _⟩ := threeSteps_run silent plain (by decide) (by decide)
  have free : Always FreeName (threeSteps (ascii "work")) := by
    refine ⟨?_, trivial, List.not_mem_nil, trivial⟩
    unfold FreeName
    decide
  exact ⟨_, last, run, rfl,
    (names_unique_iff silent run (threeSteps_new _) (threeSteps_plain plain)).mpr free⟩

theorem names_unique_number :
    ∃ past last, Run (nameStep silent) .empty past last ∧ Always NewIndicator past ∧ Always PlainRename past ∧
      ¬ UniqueNames past last := by
  have plain : Plain (ascii "16352740550") := by decide
  obtain ⟨last, run, found⟩ := threeSteps_run silent plain (by decide) (by decide)
  refine ⟨_, last, run, threeSteps_new _, threeSteps_plain plain, ?_⟩
  rw [UniqueNames, found]
  decide

end Samples

end Nhi
