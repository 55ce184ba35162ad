import Nhi.SessionIdentity
import Nhi.StoredRows

/-!
Runs in which no session is removed. A link then leads to a later session that
is there, and a nested call of `Fetch` has nothing to fail on.
-/

namespace Nhi

open RunHistory

def storeSteps (past : List (Database × Handling)) : List (Database × StoreStep) :=
  past.map fun taken => (taken.1, .handle taken.2)

def LinksWhole (past : List (Database × Handling)) (before : Database) (handling : Handling) : Prop :=
  Ascending (storeSteps past) before (.handle handling) ∧
    ∀ indicator ∈ handling.opens, (decimal indicator).length = 11

def NoMarker (past : List (Database × Handling)) (before : Database) (handling : Handling) : Prop :=
  NoLinkMarker (storeSteps past) before (.handle handling)

instance (past : List (Database × Handling)) (before : Database) (handling : Handling) :
    Decidable (LinksWhole past before handling) :=
  decidable_of_iff (Ascending (storeSteps past) before (.handle handling) ∧
      handling.opens.all (fun indicator => (decimal indicator).length = 11) = true)
    (by simp [LinksWhole, Option.all_eq_true])

instance (past : List (Database × Handling)) (before : Database) (handling : Handling) :
    Decidable (NoMarker past before handling) :=
  inferInstanceAs (Decidable (NoLinkMarker (storeSteps past) before (.handle handling)))

section Linked

variable {target other : Text → Prop} {text : Text}

theorem Linked.mono (linked : Linked target text) (implies : ∀ child, target child → other child) :
    Linked other text := by
  induction linked with
  | nil => exact .nil
  | byte apart _ ih => exact .byte apart ih
  | link eleven reaches _ ih => exact .link eleven (implies _ reaches) ih

theorem Linked.both (linked : Linked target text) (also : Linked other text) :
    Linked (fun child => target child ∧ other child) text := by
  induction linked with
  | nil => exact .nil
  | byte apart _ ih =>
      cases also with
      | byte _ others => exact .byte apart (ih others)
      | link => exact absurd rfl apart
  | @link child rest eleven reaches _ ih =>
      generalize same : 253#8 :: (child ++ rest) = whole at also
      cases also with
      | nil => cases same
      | byte apart _ => exact absurd (List.cons.inj same).1.symm apart
      | link also reachesOther others =>
          obtain ⟨rfl, rfl⟩ := List.append_inj (List.cons.inj same).2 (eleven.trans also.symm)
          exact .link eleven ⟨reaches, reachesOther⟩ (ih others)

end Linked

section Outputs

variable {past : List (Database × Handling)} {before after last : Database} {handling : Handling}

theorem outputs_linked {target : Text → Prop} (kept : RowsHold (fun row => Linked target row.output) before)
    (recorded : handling.opens.isSome → target (recordedIndicator handling.opening))
    (plain : NoMarker past before handling) (taken : dbStep before handling = some after) :
    RowsHold (fun row => Linked target row.output) after := by
  rw [dbStep, handled_exec] at taken
  obtain ⟨list, result, rfl⟩ := Option.map_eq_some_iff.mp taken
  refine kept.foldl (statements_outputs .nil (fun opens text linked => ?_) (fun bytes written text linked => ?_)
    result)
  · rw [parentLink_bytes, OutputEvent.bytes, ← List.append_nil (recordedIndicator handling.opening)]
    exact linked.append (.link (recordedIndicator_length handling.opening) (recorded opens) .nil)
  · exact linked.append (.of_plain (plain bytes written))

theorem links_of_run (run : Run dbStep Database.empty past last) (plain : Always NoMarker past) :
    RowsHold (fun row => Linked (fun _ => True) row.output) last := by
  induction run with
  | start => exact fun table member => by cases member
  | next earlier taken ih => exact outputs_linked (ih plain.2) (fun _ => trivial) plain.1 taken

theorem names_of_run (run : Run dbStep Database.empty past last) (plain : Always NoMarker past)
    (whole : Always LinksWhole past) :
    RowsHold (fun row => Linked (fun child => ∃ other ∈ openedSessions past, decimal other = child)
      row.output) last := by
  induction run with
  | start => exact fun table member => by cases member
  | next earlier taken ih =>
      rename_i past before after handling
      have more : ∀ child, (∃ other ∈ openedSessions past, decimal other = child) →
          ∃ other ∈ openedSessions ((before, handling) :: past), decimal other = child := by
        rintro child ⟨other, opened, same⟩
        exact ⟨other, List.mem_append_left _ opened, same⟩
      refine outputs_linked (fun table member row inside => (ih plain.2 whole.2 table member row inside).mono more)
        (fun opens => ?_) plain.1 taken
      obtain ⟨indicator, opens⟩ := Option.isSome_iff_exists.mp opens
      obtain ⟨_, _, own⟩ := Handling.opens_call opens
      refine ⟨indicator, ?_, ?_⟩
      · rw [openedSessions, opens]
        exact List.mem_append_right _ List.mem_cons_self
      · rw [own, recordedIndicator_digits (own ▸ whole.1.2 indicator opens)]

theorem storeSteps_run (run : Run dbStep Database.empty past last) :
    Run storeStep Database.empty (storeSteps past) last := by
  induction run with
  | start => exact .start
  | next earlier taken ih => exact ih.next taken

def Leads (db : Database) (parent : Long) (child : Text) : Prop :=
  ∃ other, decimal other = child ∧ (db.rows other).isSome ∧ parent.toInt < other.toInt

theorem storeSteps_safe (run : Run dbStep Database.empty past last) (plain : Always NoMarker past)
    (whole : Always LinksWhole past) : Always LinkSafe (storeSteps past) := by
  induction run with
  | start => trivial
  | next earlier taken ih =>
      rename_i past before after handling
      exact ⟨⟨whole.1.1, fun indicator opens => decimal_eleven (whole.1.2 indicator opens), plain.1⟩,
        ih plain.2 whole.2⟩

theorem leads_of_run (run : Run dbStep Database.empty past last) (plain : Always NoMarker past)
    (whole : Always LinksWhole past) :
    ∀ table ∈ last.tables, ∀ row ∈ table.2, Linked (Leads last table.1) row.output := by
  have within := within_run (storeSteps_run run) (storeSteps_safe run plain whole)
  have named := names_of_run run plain whole
  intro table member row inside
  refine ((within.2 table member row inside).both (named table member row inside)).mono ?_
  rintro child ⟨later, other, opened, same⟩
  exact ⟨other, same, mem_tables.mp ((tables_opened run other).mpr opened), later.2 other same⟩

end Outputs

section Nested

variable {db : Database}

/-- A session that is there is shown without an error, and so are those below it. -/
theorem fetch_succeeds (platform : Platform)
    (leads : ∀ table ∈ db.tables, ∀ row ∈ table.2, Linked (Leads db table.1) row.output) {depth : Nat}
    {indicator : Long} {condition : Nat → Row → Bool} {options : Options}
    (there : (db.rows indicator).isSome) (deep : laterSessions db indicator < depth) :
    (fetch platform db depth (decimal indicator) condition options).finish = .ok := by
  induction depth generalizing indicator condition options with
  | zero => exact absurd deep (Nat.not_lt_zero _)
  | succ depth ih =>
      obtain ⟨rows, found⟩ := Option.isSome_iff_exists.mp there
      have selected := query_decimal platform db indicator condition
      obtain ⟨table, first, rfl⟩ := Option.map_eq_some_iff.mp found
      have member := List.mem_of_find?_eq_some first
      obtain rfl : table.1 = indicator := by simpa using List.find?_some first
      rw [found, Option.map_some] at selected
      rw [fetch_selected selected]
      refine printRows_linked platform (· = .ok) rfl (fun _ child (leading : Leads db table.1 child) => ?_)
        fun row inside => ?_
      · obtain ⟨other, rfl, present, later⟩ := leading
        obtain ⟨further, again, _⟩ := Option.map_eq_some_iff.mp (Option.eq_some_of_isSome present)
        obtain rfl : further.1 = other := by simpa using List.find?_some again
        have fewer := laterSessions_lt (List.mem_of_find?_eq_some again) later
        exact ih present (by omega)
      · obtain ⟨entry, chosen, rfl⟩ := List.mem_map.mp inside
        obtain ⟨k, place, _⟩ := RowidTable.mem_number.mp (List.mem_of_mem_filter chosen)
        exact leads table member entry.2 (List.mem_of_getElem? place)

end Nested

end Nhi
