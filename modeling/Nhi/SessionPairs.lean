import Nhi.Remove
import Nhi.RunHistory

/-!
A session is a table and a row of `meta`. The daemon writes the table first, and
a removal deletes it first; any number of removals run next to the daemon and to
each other, a statement at a time. Every DROP and every DELETE may fail, and
`Remove` returns nil all the same.
-/

namespace Nhi

open RunHistory
open Sql (ascii)

/-- A removal under way: the sessions it is through with, those it still has to
remove, and whether the first of these had its DROP. -/
structure Remover where
  removed : List Long
  rest : List Long
  dropped : Bool
  deriving DecidableEq

def Remover.result (remover : Remover) : Option (Except Text Unit) :=
  if remover.rest = [] then some (.ok ()) else none

/-- The daemon may be in the middle of creating a session; the flag says that
the first row is there. -/
structure PairState where
  db : RowidDatabase
  creating : Option (Long × Bool)
  removers : List Remover

inductive PairStep where
  | createTable (indicator : Long)
  | createRow
  | metaCreateRow (time : Long) (stack : Vector Byte 16)
  | select (startEndRange : Text)
  | drop (remover : Nat) (succeeds : Bool)
  | delete (remover : Nat) (succeeds : Bool)

namespace PairState

def quiet (db : RowidDatabase) : PairState := ⟨db, none, []⟩

def step (state : PairState) : PairStep → Option PairState
  | .createTable indicator =>
      match state.creating with
      | none =>
          some { state with db := state.db.exec (.createTable indicator), creating := some (indicator, false) }
      | some _ => none
  | .createRow =>
      match state.creating with
      | some (indicator, false) =>
          some { state with db := state.db.exec (.createRow indicator), creating := some (indicator, true) }
      | some (_, true) | none => none
  | .metaCreateRow time stack =>
      match state.creating with
      | some (indicator, true) =>
          let name := (cString stack (decimal indicator)).toList.take 11
          some { state with
            db := state.db.exec (.metaCreateRow ⟨indicator, name, time, none⟩)
            creating := none }
      | some (_, false) | none => none
  | .select startEndRange =>
      match removeSelect state.db startEndRange with
      | .ok indicators => some { state with removers := state.removers ++ [⟨[], indicators, false⟩] }
      -- it has returned the error
      | .error _ => some state
  | .drop number succeeds =>
      match state.removers[number]? with
      | some ⟨removed, indicator :: rest, false⟩ =>
          let db := if succeeds then execIgnored state.db (dropText (decimal indicator)) else state.db
          some { state with
            db := db
            removers := state.removers.set number ⟨removed, indicator :: rest, true⟩ }
      | some ⟨_, _ :: _, true⟩ | some ⟨_, [], _⟩ | none => none
  | .delete number succeeds =>
      match state.removers[number]? with
      | some ⟨removed, indicator :: rest, true⟩ =>
          let db := if succeeds then execIgnored state.db (deleteText (decimal indicator)) else state.db
          some { state with
            db := db
            removers := state.removers.set number ⟨removed ++ [indicator], rest, false⟩ }
      | some ⟨_, _ :: _, false⟩ | some ⟨_, [], _⟩ | none => none

def Finished (state : PairState) : Prop :=
  state.creating = none ∧ ∀ remover ∈ state.removers, remover.rest = []

end PairState

/-- A session is there as a whole or not at all when everyone has finished, and
a removal without an error leaves nothing of its sessions. -/
structure Together (state : PairState) : Prop where
  pair : state.Finished → ∀ indicator, (state.db.table indicator).isSome ↔ state.db.listed indicator = true
  reported : ∀ remover ∈ state.removers, remover.result = some (.ok ()) →
    ∀ indicator ∈ remover.removed, state.db.table indicator = none ∧ state.db.listed indicator = false

/-- A new session is new, and a statement that fails would have had no effect. -/
def Harmless (state : PairState) : PairStep → Prop
  | .createTable indicator => state.db.table indicator = none ∧ state.db.listed indicator = false ∧
      ∀ remover ∈ state.removers, indicator ∉ remover.removed ++ remover.rest
  | .drop number false => ∀ remover ∈ state.removers[number]?, ∀ indicator ∈ remover.rest.head?,
      state.db.table indicator = none
  | .delete number false => ∀ remover ∈ state.removers[number]?, ∀ indicator ∈ remover.rest.head?,
      state.db.listed indicator = false
  | .createRow | .metaCreateRow _ _ | .select _ | .drop _ true | .delete _ true => True

/-! The tables and the rows of `meta` under the statements of the daemon. -/
section Creation

variable (db : RowidDatabase) (indicator other : Long)

theorem table_mapTable (change : List (Nat × Row) → List (Nat × Row)) :
    (db.mapTable indicator change).table other =
      (db.table other).map fun table => if other = indicator then change table else table :=
  Database.contents_changed db.tables indicator other change

theorem createTable_there {db : RowidDatabase} {indicator : Long} (new : db.table indicator = none) (other : Long) :
    ((db.exec (.createTable indicator)).table other).isSome ↔
      (db.table other).isSome ∨ other = indicator := by
  rw [RowidDatabase.exec, new, Option.isSome_none, if_neg (by simp)]
  simp only [RowidDatabase.table, List.find?_append, Option.isSome_map, Option.isSome_or, Bool.or_eq_true]
  apply or_congr_right
  by_cases here : indicator = other
  · simp [here]
  · simp [here, Ne.symm here]

theorem createTable_listed : (db.exec (.createTable indicator)).listed other = db.listed other := by
  rw [RowidDatabase.exec]
  split <;> rfl

theorem createRow_there :
    ((db.exec (.createRow indicator)).table other).isSome = (db.table other).isSome := by
  rw [RowidDatabase.exec, table_mapTable, Option.isSome_map]

theorem metaCreateRow_listed (row : MetaRow) :
    (db.exec (.metaCreateRow row)).listed other =
      (db.listed other || decide (row.indicator = other)) := by
  rw [RowidDatabase.exec, RowidDatabase.listed, RowidTable.insert, List.any_append]
  simp [RowidDatabase.listed]

end Creation

/-! What a step of a removal does. -/
section Steps

variable {state after : PairState} {number : Nat} {succeeds : Bool}

theorem drop_taken (taken : state.step (.drop number succeeds) = some after)
    (harmless : Harmless state (.drop number succeeds)) :
    ∃ removed indicator rest, state.removers[number]? = some ⟨removed, indicator :: rest, false⟩ ∧
      after = { state with
        db := state.db.dropTable indicator
        removers := state.removers.set number ⟨removed, indicator :: rest, true⟩ } := by
  rw [PairState.step] at taken
  split at taken
  · rename_i removed indicator rest here
    refine ⟨removed, indicator, rest, here, ?_⟩
    cases succeeds with
    | true => rw [← Option.some.inj taken, if_pos rfl, execIgnored_drop]
    | false =>
        rw [← Option.some.inj taken, if_neg (by simp), dropTable_absent _ _ (harmless _ here _ rfl)]
  · cases taken
  · cases taken
  · cases taken

theorem delete_taken (taken : state.step (.delete number succeeds) = some after)
    (harmless : Harmless state (.delete number succeeds)) :
    ∃ removed indicator rest, state.removers[number]? = some ⟨removed, indicator :: rest, true⟩ ∧
      after = { state with
        db := state.db.deleteWhere (withIndicator indicator)
        removers := state.removers.set number ⟨removed ++ [indicator], rest, false⟩ } := by
  rw [PairState.step] at taken
  split at taken
  · rename_i removed indicator rest here
    refine ⟨removed, indicator, rest, here, ?_⟩
    cases succeeds with
    | true => rw [← Option.some.inj taken, if_pos rfl, execIgnored_delete]
    | false =>
        rw [← Option.some.inj taken, if_neg (by simp), deleteWhere_unlisted _ _ (harmless _ here _ rfl)]
  · cases taken
  · cases taken
  · cases taken

theorem mem_set_other {removers : List Remover} {old new remover : Remover}
    (here : removers[number]? = some old) (member : remover ∈ removers) (other : remover ≠ old) :
    remover ∈ removers.set number new := by
  obtain ⟨place, found⟩ := List.mem_iff_getElem?.mp member
  have apart : number ≠ place := by
    rintro rfl
    exact other (Option.some.inj (found.symm.trans here))
  exact List.mem_iff_getElem?.mpr ⟨place, by rw [List.getElem?_set_ne apart, found]⟩

theorem mem_set_new {removers : List Remover} {old : Remover} (new : Remover)
    (here : removers[number]? = some old) : new ∈ removers.set number new :=
  List.mem_set (List.getElem?_eq_some_iff.mp here).1 new

end Steps

/-! The invariant: a row of `meta` without its table is about to be deleted, and
a table without its row is about to get it. -/
section Invariant

structure Paired (state : PairState) : Prop where
  tabled : ∀ indicator, state.db.listed indicator = true → (state.db.table indicator).isSome ∨
    ∃ remover ∈ state.removers, remover.dropped = true ∧ remover.rest.head? = some indicator
  entered : ∀ indicator, (state.db.table indicator).isSome → state.db.listed indicator = true ∨
    ∃ stage, state.creating = some (indicator, stage)
  dropped : ∀ remover ∈ state.removers, remover.dropped = true →
    ∀ indicator ∈ remover.rest.head?, state.db.table indicator = none
  removed : ∀ remover ∈ state.removers, ∀ indicator ∈ remover.removed,
    state.db.table indicator = none ∧ state.db.listed indicator = false
  created : ∀ indicator stage, state.creating = some (indicator, stage) →
    (state.db.table indicator).isSome ∧ state.db.listed indicator = false ∧
      ∀ remover ∈ state.removers, indicator ∉ remover.removed ++ remover.rest

variable {state after : PairState}

theorem Paired.together (paired : Paired state) : Together state := by
  constructor
  · rintro ⟨idle, through⟩ indicator
    constructor
    · intro there
      rcases paired.entered indicator there with listed | ⟨stage, creating⟩
      · exact listed
      · rw [idle] at creating
        cases creating
    · intro listed
      rcases paired.tabled indicator listed with there | ⟨remover, member, _, head⟩
      · exact there
      · rw [through remover member] at head
        cases head
  · exact fun remover member _ => paired.removed remover member

theorem Paired.createTable (paired : Paired state) {indicator : Long}
    (taken : state.step (.createTable indicator) = some after)
    (new : Harmless state (.createTable indicator)) : Paired after := by
  obtain ⟨absent, unlisted, unchosen⟩ := new
  rw [PairState.step] at taken
  split at taken
  · rename_i idle
    obtain rfl := Option.some.inj taken
    have there := createTable_there absent
    have gone (other : Long) (before : state.db.table other = none) (apart : other ≠ indicator) :
        (state.db.exec (.createTable indicator)).table other = none := by
      rw [← Option.not_isSome_iff_eq_none, there, before]
      simpa using apart
    constructor
    case tabled =>
      intro other listed
      rw [createTable_listed] at listed
      exact (paired.tabled other listed).imp_left fun before => (there other).mpr (Or.inl before)
    case entered =>
      intro other now
      rw [createTable_listed]
      rcases (there other).mp now with before | rfl
      · refine (paired.entered other before).imp_right ?_
        rintro ⟨stage, creating⟩
        rw [idle] at creating
        cases creating
      · exact Or.inr ⟨false, rfl⟩
    case dropped =>
      intro remover member dropping other head
      refine gone other (paired.dropped remover member dropping other head) ?_
      rintro rfl
      exact unchosen remover member (List.mem_append_right _ (List.mem_of_head? head))
    case removed =>
      intro remover member other done
      obtain ⟨before, also⟩ := paired.removed remover member other done
      refine ⟨gone other before ?_, by rw [createTable_listed, also]⟩
      rintro rfl
      exact unchosen remover member (List.mem_append_left _ done)
    case created =>
      intro other stage creating
      obtain ⟨rfl, _⟩ := Prod.mk.inj (Option.some.inj creating)
      exact ⟨(there indicator).mpr (Or.inr rfl), by rw [createTable_listed, unlisted], unchosen⟩
  · cases taken

theorem Paired.createRow (paired : Paired state) (taken : state.step .createRow = some after) :
    Paired after := by
  rw [PairState.step] at taken
  split at taken
  · rename_i indicator creating
    obtain rfl := Option.some.inj taken
    have there (other : Long) := createRow_there state.db indicator other
    have gone (other : Long) (before : state.db.table other = none) :
        (state.db.exec (.createRow indicator)).table other = none := by
      rw [← Option.not_isSome_iff_eq_none, there, before]
      simp
    constructor
    case tabled =>
      exact fun other listed => by rw [there]; exact paired.tabled other listed
    case entered =>
      intro other now
      rw [there] at now
      refine (paired.entered other now).imp_right ?_
      rintro ⟨stage, same⟩
      rw [creating] at same
      obtain ⟨rfl, _⟩ := Prod.mk.inj (Option.some.inj same)
      exact ⟨true, rfl⟩
    case dropped =>
      exact fun remover member dropping other head =>
        gone other (paired.dropped remover member dropping other head)
    case removed =>
      intro remover member other done
      obtain ⟨before, also⟩ := paired.removed remover member other done
      exact ⟨gone other before, also⟩
    case created =>
      intro other stage same
      obtain ⟨rfl, _⟩ := Prod.mk.inj (Option.some.inj same)
      rw [there]
      exact paired.created indicator false creating
  · cases taken
  · cases taken

theorem Paired.metaCreateRow (paired : Paired state) {time : Long} {stack : Vector Byte 16}
    (taken : state.step (.metaCreateRow time stack) = some after) : Paired after := by
  rw [PairState.step] at taken
  split at taken
  · rename_i indicator creating
    obtain rfl := Option.some.inj taken
    obtain ⟨there, unlisted, unchosen⟩ := paired.created indicator true creating
    constructor
    case tabled =>
      intro other listed
      rw [metaCreateRow_listed, Bool.or_eq_true, decide_eq_true_eq] at listed
      rcases listed with before | rfl
      · exact paired.tabled other before
      · exact Or.inl there
    case entered =>
      intro other now
      rw [metaCreateRow_listed]
      rcases paired.entered other now with before | ⟨stage, same⟩
      · exact Or.inl (by rw [before, Bool.true_or])
      · rw [creating] at same
        obtain ⟨rfl, _⟩ := Prod.mk.inj (Option.some.inj same)
        exact Or.inl (by simp)
    case dropped =>
      exact paired.dropped
    case removed =>
      intro remover member other done
      obtain ⟨before, also⟩ := paired.removed remover member other done
      refine ⟨before, ?_⟩
      have apart : indicator ≠ other := by
        rintro rfl
        exact unchosen remover member (List.mem_append_left _ done)
      rw [metaCreateRow_listed, also, Bool.false_or, decide_eq_false apart]
    case created =>
      intro other stage same
      cases same
  · cases taken
  · cases taken

theorem Paired.select (paired : Paired state) {startEndRange : Text}
    (taken : state.step (.select startEndRange) = some after) : Paired after := by
  rw [PairState.step] at taken
  split at taken
  · rename_i indicators selected
    obtain rfl := Option.some.inj taken
    have listed := removeSelect_listed state.db selected
    have started {remover : Remover} (member : remover ∈ state.removers ++ [⟨[], indicators, false⟩]) :
        remover ∈ state.removers ∨ remover = ⟨[], indicators, false⟩ := by simpa using member
    constructor
    case tabled =>
      intro other also
      refine (paired.tabled other also).imp_right ?_
      exact fun ⟨remover, member, rests⟩ => ⟨remover, List.mem_append_left _ member, rests⟩
    case entered =>
      exact paired.entered
    case dropped =>
      intro remover member dropping
      rcases started member with before | rfl
      · exact paired.dropped remover before dropping
      · cases dropping
    case removed =>
      intro remover member
      rcases started member with before | rfl
      · exact paired.removed remover before
      · exact fun other none => absurd none List.not_mem_nil
    case created =>
      intro other stage creating
      obtain ⟨there, unlisted, unchosen⟩ := paired.created other stage creating
      refine ⟨there, unlisted, ?_⟩
      intro remover member
      rcases started member with before | rfl
      · exact unchosen remover before
      · intro chosen
        have also := listed other chosen
        rw [unlisted] at also
        cases also
  · obtain rfl := Option.some.inj taken
    exact paired

theorem Paired.drop (paired : Paired state) {number : Nat} {succeeds : Bool}
    (taken : state.step (.drop number succeeds) = some after)
    (harmless : Harmless state (.drop number succeeds)) : Paired after := by
  obtain ⟨removed, indicator, rest, here, rfl⟩ := drop_taken taken harmless
  have old := List.mem_of_getElem? here
  have gone (other : Long) (before : state.db.table other = none) :
      (state.db.dropTable indicator).table other = none := by
    rw [table_dropTable, before, ite_self]
  constructor
  case tabled =>
    intro other listed
    by_cases same : other = indicator
    · subst same
      exact Or.inr ⟨_, mem_set_new _ here, rfl, rfl⟩
    · rcases paired.tabled other listed with there | ⟨remover, member, dropping, head⟩
      · left
        rw [table_dropTable, if_neg same]
        exact there
      · refine Or.inr ⟨remover, mem_set_other here member ?_, dropping, head⟩
        rintro rfl
        cases dropping
  case entered =>
    intro other there
    rw [table_dropTable] at there
    split at there
    · cases there
    · exact paired.entered other there
  case dropped =>
    intro remover member dropping other head
    rcases List.mem_or_eq_of_mem_set member with before | rfl
    · exact gone other (paired.dropped remover before dropping other head)
    · obtain rfl := Option.some.inj head
      rw [table_dropTable, if_pos rfl]
  case removed =>
    intro remover member other done
    rcases List.mem_or_eq_of_mem_set member with before | rfl
    · obtain ⟨absent, unlisted⟩ := paired.removed remover before other done
      exact ⟨gone other absent, unlisted⟩
    · obtain ⟨absent, unlisted⟩ := paired.removed _ old other done
      exact ⟨gone other absent, unlisted⟩
  case created =>
    intro other stage creating
    obtain ⟨there, unlisted, unchosen⟩ := paired.created other stage creating
    have apart : other ≠ indicator := by
      rintro rfl
      exact unchosen _ old (List.mem_append_right _ List.mem_cons_self)
    refine ⟨by rw [table_dropTable, if_neg apart]; exact there, unlisted, ?_⟩
    intro remover member
    rcases List.mem_or_eq_of_mem_set member with before | rfl
    · exact unchosen remover before
    · have kept := unchosen _ old
      exact kept

theorem Paired.delete (paired : Paired state) {number : Nat} {succeeds : Bool}
    (taken : state.step (.delete number succeeds) = some after)
    (harmless : Harmless state (.delete number succeeds)) : Paired after := by
  obtain ⟨removed, indicator, rest, here, rfl⟩ := delete_taken taken harmless
  have old := List.mem_of_getElem? here
  -- the table is gone since the statement before
  have absent : state.db.table indicator = none := paired.dropped _ old rfl indicator rfl
  have unlisted (other : Long) (before : state.db.listed other = false) :
      (state.db.deleteWhere (withIndicator indicator)).listed other = false := by
    rw [listed_deleteWhere, before, ite_self]
  constructor
  case tabled =>
    intro other listed
    rw [listed_deleteWhere] at listed
    split at listed
    · cases listed
    · rename_i apart
      rcases paired.tabled other listed with there | ⟨remover, member, dropping, head⟩
      · exact Or.inl there
      · refine Or.inr ⟨remover, mem_set_other here member ?_, dropping, head⟩
        rintro rfl
        exact apart (Option.some.inj head).symm
  case entered =>
    intro other there
    rcases paired.entered other there with listed | creating
    · left
      have apart : other ≠ indicator := by
        rintro rfl
        have gone : (state.db.table other).isSome := there
        rw [absent] at gone
        cases gone
      rw [listed_deleteWhere, if_neg apart, listed]
    · exact Or.inr creating
  case dropped =>
    intro remover member dropping
    rcases List.mem_or_eq_of_mem_set member with before | rfl
    · exact paired.dropped remover before dropping
    · cases dropping
  case removed =>
    intro remover member other done
    rcases List.mem_or_eq_of_mem_set member with before | rfl
    · obtain ⟨gone, before⟩ := paired.removed remover before other done
      exact ⟨gone, unlisted other before⟩
    · rcases List.mem_append.mp done with before | last
      · obtain ⟨gone, before⟩ := paired.removed _ old other before
        exact ⟨gone, unlisted other before⟩
      · obtain rfl := List.mem_singleton.mp last
        exact ⟨absent, by rw [listed_deleteWhere, if_pos rfl]⟩
  case created =>
    intro other stage creating
    obtain ⟨there, before, unchosen⟩ := paired.created other stage creating
    refine ⟨there, unlisted other before, ?_⟩
    intro remover member
    rcases List.mem_or_eq_of_mem_set member with before | rfl
    · exact unchosen remover before
    · simpa using unchosen _ old

theorem Paired.step (paired : Paired state) {label : PairStep}
    (taken : state.step label = some after) (harmless : Harmless state label) : Paired after := by
  cases label with
  | createTable indicator => exact paired.createTable taken harmless
  | createRow => exact paired.createRow taken
  | metaCreateRow time stack => exact paired.metaCreateRow taken
  | select startEndRange => exact paired.select taken
  | drop number succeeds => exact paired.drop taken harmless
  | delete number succeeds => exact paired.delete taken harmless

end Invariant

/-- In a run whose failing statements had nothing to do, tables and rows of
`meta` live and die together. -/
theorem sessions_together {db : RowidDatabase}
    (whole : ∀ indicator, (db.table indicator).isSome ↔ db.listed indicator = true)
    {past : List (PairState × PairStep)} {last : PairState}
    (run : Run PairState.step (PairState.quiet db) past last)
    (harmless : Always (fun _ state label => Harmless state label) past) :
    ∀ state ∈ visited past last, Together state := by
  have start : Paired (PairState.quiet db) :=
    ⟨fun indicator listed => Or.inl ((whole indicator).mpr listed),
      fun indicator there => Or.inl ((whole indicator).mp there),
      List.forall_mem_nil _, List.forall_mem_nil _, fun _ _ none => by cases none⟩
  have all : ∀ state ∈ visited past last, Paired state := by
    induction run with
    | start => simpa [visited] using start
    | next earlier taken ih =>
        have kept := ih harmless.2
        have now := (kept _ List.mem_cons_self).step taken harmless.1
        intro state member
        rcases List.mem_cons.mp member with rfl | before
        · exact now
        · exact kept state before
  exact fun state member => (all state member).together

theorem empty_whole (indicator : Long) :
    (RowidDatabase.empty.table indicator).isSome ↔ RowidDatabase.empty.listed indicator = true := by
  simp [RowidDatabase.table, RowidDatabase.empty, RowidDatabase.listed]

/-! Two runs that begin with the creation of session 10. -/
section Samples

variable {state : PairState} {number : Nat} {removed rest : List Long} {indicator : Long}

theorem step_select {startEndRange : Text} {indicators : List Long}
    (selected : removeSelect state.db startEndRange = .ok indicators) :
    state.step (.select startEndRange) =
      some { state with removers := state.removers ++ [⟨[], indicators, false⟩] } := by
  rw [PairState.step, selected]

theorem step_drop (here : state.removers[number]? = some ⟨removed, indicator :: rest, false⟩) :
    state.step (.drop number true) = some { state with
      db := state.db.dropTable indicator
      removers := state.removers.set number ⟨removed, indicator :: rest, true⟩ } := by
  rw [PairState.step, here, ← execIgnored_drop]
  rfl

theorem step_delete (here : state.removers[number]? = some ⟨removed, indicator :: rest, true⟩) :
    state.step (.delete number true) = some { state with
      db := state.db.deleteWhere (withIndicator indicator)
      removers := state.removers.set number ⟨removed ++ [indicator], rest, false⟩ } := by
  rw [PairState.step, here, ← execIgnored_delete]
  rfl

def oneSession : RowidDatabase :=
  ⟨[(10#64, [(1, Row.blank)])], [(1, ⟨10#64, ascii "10" ++ List.replicate 9 0#8, 1#64, none⟩)]⟩

theorem session_created :
    ∃ past, Run PairState.step (PairState.quiet .empty) past (PairState.quiet oneSession) ∧
      Always (fun _ state label => Harmless state label) past := by
  have table : (PairState.quiet .empty).step (.createTable 10#64) =
    some ⟨⟨[(10#64, [])], []⟩, some (10#64, false), []⟩ := rfl
  have row : PairState.step ⟨⟨[(10#64, [])], []⟩, some (10#64, false), []⟩ .createRow =
    some ⟨⟨[(10#64, [(1, Row.blank)])], []⟩, some (10#64, true), []⟩ := rfl
  have entry : PairState.step ⟨⟨[(10#64, [(1, Row.blank)])], []⟩, some (10#64, true), []⟩
    (.metaCreateRow 1#64 (Vector.replicate 16 0#8)) = some (PairState.quiet oneSession) := rfl
  exact ⟨_, ((Run.start.next table).next row).next entry, trivial, trivial,
    ⟨rfl, rfl, List.forall_mem_nil _⟩, trivial⟩

theorem oneSession_selected : removeSelect oneSession (ascii "0:") = .ok [10#64] := by
  have slice : getSliceStartEndRange (ascii "0:") billion = .ok (ascii "0", itoa (billion - 1)) := rfl
  have first : atoi (ascii "0") = some 0 := by decide
  rw [removeSelect_range oneSession slice first billion_spelled.read]
  rfl

theorem sessions_together_two :
    ∃ past last, Run PairState.step (PairState.quiet .empty) past last ∧ last.Finished ∧
      last.db.listed 10#64 = false ∧ last.db.listed 20#64 = true ∧
      ∀ state ∈ visited past last, Together state := by
  obtain ⟨past, created, harmless⟩ := session_created
  let opened := oneSession.exec (.createTable 20#64)
  let rowed := (opened.dropTable 10#64).exec (.createRow 20#64)
  have select : PairState.step (.quiet oneSession) (.select (ascii "0:")) =
    some ⟨oneSession, none, [⟨[], [10#64], false⟩]⟩ := step_select oneSession_selected
  have table : PairState.step ⟨oneSession, none, [⟨[], [10#64], false⟩]⟩ (.createTable 20#64) =
    some ⟨opened, some (20#64, false), [⟨[], [10#64], false⟩]⟩ := rfl
  have drop : PairState.step ⟨opened, some (20#64, false), [⟨[], [10#64], false⟩]⟩ (.drop 0 true) =
    some ⟨opened.dropTable 10#64, some (20#64, false), [⟨[], [10#64], true⟩]⟩ := step_drop rfl
  have row : PairState.step ⟨opened.dropTable 10#64, some (20#64, false), [⟨[], [10#64], true⟩]⟩ .createRow =
    some ⟨rowed, some (20#64, true), [⟨[], [10#64], true⟩]⟩ := rfl
  have delete : PairState.step ⟨rowed, some (20#64, true), [⟨[], [10#64], true⟩]⟩ (.delete 0 true) =
    some ⟨rowed.deleteWhere (withIndicator 10#64), some (20#64, true), [⟨[] ++ [10#64], [], false⟩]⟩ :=
      step_delete rfl
  have entry : PairState.step ⟨rowed.deleteWhere (withIndicator 10#64), some (20#64, true), [⟨[10#64], [], false⟩]⟩
    (.metaCreateRow 2#64 (Vector.replicate 16 0#8)) = some ⟨_, none, [⟨[10#64], [], false⟩]⟩ := rfl
  have run := (((((created.next select).next table).next drop).next row).next delete).next entry
  refine ⟨_, _, run, ⟨rfl, by decide⟩, rfl, rfl, ?_⟩
  exact sessions_together empty_whole run
    ⟨trivial, trivial, trivial, trivial, ⟨rfl, rfl, by decide⟩, trivial, harmless⟩

/-- The DROP succeeds, the DELETE fails, and `Remove` returns nil. -/
theorem sessions_apart_busy :
    ∃ past last, Run PairState.step (PairState.quiet .empty) past last ∧ ¬ Together last := by
  obtain ⟨past, created, _⟩ := session_created
  have select : PairState.step (.quiet oneSession) (.select (ascii "0:")) =
    some ⟨oneSession, none, [⟨[], [10#64], false⟩]⟩ := step_select oneSession_selected
  have drop : PairState.step ⟨oneSession, none, [⟨[], [10#64], false⟩]⟩ (.drop 0 true) =
    some ⟨oneSession.dropTable 10#64, none, [⟨[], [10#64], true⟩]⟩ := step_drop rfl
  have failed : PairState.step ⟨oneSession.dropTable 10#64, none, [⟨[], [10#64], true⟩]⟩ (.delete 0 false) =
    some ⟨oneSession.dropTable 10#64, none, [⟨[10#64], [], false⟩]⟩ := rfl
  refine ⟨_, _, ((created.next select).next drop).next failed, fun together => ?_⟩
  have there := (together.pair ⟨rfl, by decide⟩ 10#64).mpr rfl
  cases there

end Samples

end Nhi
