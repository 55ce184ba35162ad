import Nhi.PythonSlice
import Nhi.Remove

/-!
A range of sessions is a slice as long as both of its endpoints lie within the
list. An index before the first session, or an end at or behind the end of the
list, has no rowid to compare with, and then nothing is removed.
-/

namespace Nhi

open Sql (ascii)

section Places

theorem sessionPlace_eq (rowids : List Nat) (value : Int) :
    sessionPlace rowids value =
      if -(rowids.length : Int) ≤ value ∧ value < rowids.length then
        rowids[PythonSlice.place rowids.length value]?
      else none := by
  rw [sessionPlace]
  split_ifs with negative inside inside
  · rw [List.getElem?_reverse (by omega), PythonSlice.place, if_pos negative]
    congr 1
    omega
  · rw [List.getElem?_eq_none_iff, List.length_reverse]
    omega
  · rw [PythonSlice.place, if_neg negative]
    congr 1
    omega
  · rw [List.getElem?_eq_none_iff]
    omega

variable {table : List (Nat × MetaRow)} (increasing : (table.map Prod.fst).Pairwise (· < ·))

include increasing

/-- Rowids are compared as their places are. -/
theorem place_le_iff {k place : Nat} {entry : Nat × MetaRow} {rowid : Nat}
    (here : table[k]? = some entry) (there : (table.map Prod.fst)[place]? = some rowid) :
    (rowid ≤ entry.1 ↔ place ≤ k) ∧ (entry.1 < rowid ↔ k < place) := by
  have found : (table.map Prod.fst)[k]? = some entry.1 := by rw [List.getElem?_map, here, Option.map_some]
  obtain ⟨inside, same⟩ := List.getElem?_eq_some_iff.mp there
  obtain ⟨inside', same'⟩ := List.getElem?_eq_some_iff.mp found
  have ordered := List.pairwise_iff_getElem.mp increasing
  rcases Nat.lt_trichotomy place k with below | rfl | above
  · have less := ordered place k inside inside' below
    rw [same, same'] at less
    omega
  · rw [same] at same'
    omega
  · have less := ordered k place inside' inside above
    rw [same, same'] at less
    omega

end Places

/-! The rows a range selects. -/
section Slices

variable {db : RowidDatabase} {start stop : Text} {startValue stopValue : Option Int}

def Placed (count : Nat) (startValue stopValue : Option Int) : Prop :=
  (-(count : Int) ≤ startValue.getD 0 ∧ startValue.getD 0 < count) ∧
    ∀ stop ∈ stopValue, -(count : Int) ≤ stop ∧ stop < count

theorem metaRowids_length (db : RowidDatabase) : (metaRowids db).length = db.metaTable.length :=
  List.length_map _

theorem sessionPlace_inside (increasing : (metaRowids db).Pairwise (· < ·)) {value : Int}
    (inside : -(db.metaTable.length : Int) ≤ value ∧ value < db.metaTable.length)
    {k : Nat} {entry : Nat × MetaRow} (here : db.metaTable[k]? = some entry) :
    ∃ rowid, sessionPlace (metaRowids db) value = some rowid ∧
      (rowid ≤ entry.1 ↔ PythonSlice.place db.metaTable.length value ≤ k) ∧
      (entry.1 < rowid ↔ k < PythonSlice.place db.metaTable.length value) := by
  have bound : PythonSlice.place db.metaTable.length value < (metaRowids db).length := by
    rw [metaRowids_length, PythonSlice.place]
    split <;> omega
  refine ⟨(metaRowids db)[PythonSlice.place db.metaTable.length value], ?_, ?_⟩
  · rw [sessionPlace_eq, metaRowids_length, if_pos inside, List.getElem?_eq_getElem bound]
  · exact place_le_iff increasing here (List.getElem?_eq_getElem bound)

theorem sessionPlace_outside {value : Int}
    (outside : ¬ (-(db.metaTable.length : Int) ≤ value ∧ value < db.metaTable.length)) :
    sessionPlace (metaRowids db) value = none := by
  rw [sessionPlace_eq, metaRowids_length, if_neg outside]

theorem Endpoint.below {bound : Int} (positive : 0 < bound) {text : Text} {value : Option Int}
    (endpoint : Endpoint bound text value) : value.getD 0 < bound := by
  cases endpoint with
  | omitted => exact positive
  | given _ _ _ below => exact below

theorem first_place (count : Nat) (startValue : Option Int) :
    PythonSlice.first count startValue = PythonSlice.place count (startValue.getD 0) := by
  cases startValue with
  | none => simp [PythonSlice.first, PythonSlice.place]
  | some value => rfl

theorem fromTest_place (increasing : (metaRowids db).Pairwise (· < ·))
    (starts : Endpoint (billion - 1) start startValue)
    (inside : -(db.metaTable.length : Int) ≤ startValue.getD 0 ∧ startValue.getD 0 < db.metaTable.length)
    {k : Nat} {entry : Nat × MetaRow} (here : db.metaTable[k]? = some entry) :
    fromTest (metaRowids db) (startValue.getD 0) entry.1 entry.2 = true ↔
      PythonSlice.first db.metaTable.length startValue ≤ k := by
  have small : startValue.getD 0 < billion := lt_trans (starts.below (by decide)) (by decide)
  obtain ⟨rowid, found, least, _⟩ := sessionPlace_inside increasing inside here
  rw [fromTest, if_pos small, found, Option.any_some, decide_eq_true_eq, least, first_place]

theorem belowTest_place (increasing : (metaRowids db).Pairwise (· < ·))
    (small : ∀ rowid ∈ metaRowids db, (rowid : Int) < billion - 1)
    (stops : Endpoint (billion - 1) stop stopValue)
    (inside : ∀ stop ∈ stopValue, -(db.metaTable.length : Int) ≤ stop ∧ stop < db.metaTable.length)
    {k : Nat} {entry : Nat × MetaRow} (here : db.metaTable[k]? = some entry) :
    belowTest (metaRowids db) (stopValue.getD (billion - 1)) entry.1 entry.2 = true ↔
      k < PythonSlice.last db.metaTable.length stopValue := by
  cases stops with
  | omitted =>
      -- every rowid is below the number that takes the place of the end
      have bound := small entry.1 (List.mem_map_of_mem (List.mem_of_getElem? here))
      have within := (List.getElem?_eq_some_iff.mp here).1
      simp [belowTest, PythonSlice.last, bound, within]
  | given _ value _ below =>
      have apart : value ≠ billion - 1 := ne_of_lt below
      have limit : value < billion := lt_trans below (by decide)
      obtain ⟨rowid, found, _, less⟩ := sessionPlace_inside increasing (inside value rfl) here
      rw [Option.getD_some, belowTest, if_neg apart, if_pos limit, found, Option.any_some,
        decide_eq_true_eq, less]
      rfl

theorem sessionRange_slice (increasing : (metaRowids db).Pairwise (· < ·))
    (small : ∀ rowid ∈ metaRowids db, (rowid : Int) < billion - 1)
    (starts : Endpoint (billion - 1) start startValue) (stops : Endpoint (billion - 1) stop stopValue)
    (placed : Placed db.metaTable.length startValue stopValue) :
    sessionRange db (startValue.getD 0) (stopValue.getD (billion - 1)) =
      PythonSlice.slice db.metaTable startValue stopValue := by
  apply PythonSlice.filter_places
  intro k entry here
  rw [Bool.and_eq_true, fromTest_place increasing starts placed.1 here,
    belowTest_place increasing small stops placed.2 here]

theorem sessionRange_outside (starts : Endpoint (billion - 1) start startValue)
    (stops : Endpoint (billion - 1) stop stopValue)
    (outside : ¬ Placed db.metaTable.length startValue stopValue) :
    sessionRange db (startValue.getD 0) (stopValue.getD (billion - 1)) = [] := by
  rw [sessionRange, List.filter_eq_nil_iff]
  intro entry _
  rw [Bool.and_eq_true]
  rintro ⟨least, less⟩
  apply outside
  constructor
  · by_contra beyond
    have small : startValue.getD 0 < billion := lt_trans (starts.below (by decide)) (by decide)
    rw [fromTest, if_pos small, sessionPlace_outside beyond] at least
    cases least
  · intro value given
    by_contra beyond
    cases stops with
    | omitted => cases given
    | given _ number _ below =>
        obtain rfl : value = number := (Option.some.inj given).symm
        have apart : value ≠ billion - 1 := ne_of_lt below
        have limit : value < billion := lt_trans below (by decide)
        rw [Option.getD_some, belowTest, if_neg apart, if_pos limit, sessionPlace_outside beyond] at less
        cases less

theorem remove_range (starts : Endpoint (billion - 1) start startValue)
    (stops : Endpoint (billion - 1) stop stopValue) (braced : Bool) :
    remove db (rangeText braced start stop) =
      .ok (((sessionRange db (startValue.getD 0) (stopValue.getD (billion - 1))).map fun entry =>
        entry.2.indicator).foldl removeSession db) := by
  have range := slice_rangeText starts stops braced billion
  have zero : atoi (ascii "0") = some 0 := by decide
  have first := starts.border_read zero
  have last := stops.border_read billion_spelled.read
  rw [remove, removeSelect_range db range first last]
  rfl

/-- The sessions of a slice are gone, and nothing else. -/
structure SliceRemoved (startValue stopValue : Option Int) (before after : RowidDatabase) : Prop where
  metaTable : after.metaTable = before.metaTable.filter fun entry =>
    entry ∉ PythonSlice.slice before.metaTable startValue stopValue
  tables : after.tables = before.tables.filter fun table =>
    table.1 ∉ (PythonSlice.slice before.metaTable startValue stopValue).map fun entry => entry.2.indicator

theorem removeSessions_slice (distinct : (db.metaTable.map fun entry => entry.2.indicator).Nodup)
    {gone : List (Nat × MetaRow)} (among : ∀ entry ∈ gone, entry ∈ db.metaTable) :
    ((gone.map fun entry => entry.2.indicator).foldl removeSession db).metaTable =
        db.metaTable.filter (fun entry => entry ∉ gone) ∧
      ((gone.map fun entry => entry.2.indicator).foldl removeSession db).tables =
        db.tables.filter fun table => table.1 ∉ gone.map fun entry => entry.2.indicator := by
  rw [removeSessions_metaTable, removeSessions_tables]
  constructor
  · apply List.filter_congr
    intro entry member
    rw [decide_eq_decide, List.mem_map]
    apply not_congr
    constructor
    · rintro ⟨other, chosen, same⟩
      rwa [← List.inj_on_of_nodup_map distinct (among other chosen) member same]
    · exact fun chosen => ⟨entry, chosen, rfl⟩
  · rfl

/-- The start is not before the first session, and the end not at or behind the
end of the list. -/
def WithinBorders (count : Nat) (startValue stopValue : Option Int) : Prop :=
  -(count : Int) ≤ startValue.getD 0 ∧ ∀ stop ∈ stopValue, stop < count

theorem placed_iff {count : Nat} (nonempty : PythonSlice.first count startValue <
      PythonSlice.last count stopValue) :
    Placed count startValue stopValue ↔ WithinBorders count startValue stopValue := by
  constructor
  · exact fun placed => ⟨placed.1.1, fun stop given => (placed.2 stop given).2⟩
  · rintro ⟨low, high⟩
    have limit := lt_of_lt_of_le nonempty (PythonSlice.last_le count stopValue)
    rw [first_place, PythonSlice.place] at nonempty limit
    refine ⟨⟨low, ?_⟩, ?_⟩
    · split_ifs at limit <;> omega
    · rintro stop given
      refine ⟨?_, high stop given⟩
      rw [given] at nonempty
      simp only [PythonSlice.last, PythonSlice.place, Option.map_some, Option.getD_some] at nonempty
      split_ifs at nonempty <;> omega

end Slices

/-- `Remove` removes the slice exactly when the slice is empty or the range lies
within the list, but for an end that is left out. -/
theorem remove_slice_iff {db : RowidDatabase} (increasing : (metaRowids db).Pairwise (· < ·))
    (small : ∀ rowid ∈ metaRowids db, (rowid : Int) < billion - 1)
    (distinct : (db.metaTable.map fun entry => entry.2.indicator).Nodup)
    {start stop : Text} {startValue stopValue : Option Int}
    (starts : Endpoint (billion - 1) start startValue) (stops : Endpoint (billion - 1) stop stopValue)
    (braced : Bool) :
    ∃ after, remove db (rangeText braced start stop) = .ok after ∧
      (SliceRemoved startValue stopValue db after ↔
        PythonSlice.slice db.metaTable startValue stopValue = [] ∨
          WithinBorders db.metaTable.length startValue stopValue) := by
  refine ⟨_, remove_range starts stops braced, ?_⟩
  have within (nonempty : PythonSlice.slice db.metaTable startValue stopValue ≠ []) :=
    placed_iff (Nat.lt_of_not_le (mt PythonSlice.slice_eq_nil_iff.mpr nonempty))
  by_cases placed : Placed db.metaTable.length startValue stopValue
  · rw [sessionRange_slice increasing small starts stops placed]
    have among (entry : Nat × MetaRow) (chosen : entry ∈ PythonSlice.slice db.metaTable startValue stopValue) :
        entry ∈ db.metaTable := List.mem_of_mem_take (List.mem_of_mem_drop chosen)
    have removed := removeSessions_slice distinct among
    refine ⟨fun _ => ?_, fun _ => ⟨removed.1, removed.2⟩⟩
    by_cases empty : PythonSlice.slice db.metaTable startValue stopValue = []
    · exact Or.inl empty
    · exact Or.inr ((within empty).mp placed)
  · -- nothing is selected
    rw [sessionRange_outside starts stops placed]
    constructor
    · intro removed
      left
      rw [List.eq_nil_iff_forall_not_mem]
      intro entry chosen
      have stays : entry ∈ db.metaTable := List.mem_of_mem_take (List.mem_of_mem_drop chosen)
      have kept := removed.metaTable
      rw [List.map_nil, List.foldl_nil] at kept
      rw [kept] at stays
      exact of_decide_eq_true (List.mem_filter.mp stays).2 chosen
    · intro holds
      have empty : PythonSlice.slice db.metaTable startValue stopValue = [] := by
        by_contra nonempty
        exact placed ((within nonempty).mpr (holds.resolve_left nonempty))
      exact ⟨by simp [empty], by simp [empty]⟩

def threeSessions : RowidDatabase :=
  ⟨[(10#64, []), (20#64, []), (30#64, [])],
    [(2, ⟨10#64, ascii "10", 1#64, none⟩), (3, ⟨20#64, ascii "work", 2#64, none⟩),
      (7, ⟨30#64, ascii "30", 3#64, none⟩)]⟩

theorem remove_slice_middle :
    ∃ after, remove threeSessions (rangeText true (ascii "-2") []) = .ok after ∧
      SliceRemoved (some (-2)) none threeSessions after := by
  have increasing : (metaRowids threeSessions).Pairwise (· < ·) := by decide
  obtain ⟨after, removed, exact⟩ := remove_slice_iff increasing (by decide) (by decide)
    (.given (ascii "-2") (-2) (by decide) (by decide)) .omitted true
  exact ⟨after, removed, exact.mpr (Or.inr ⟨by decide, nofun⟩)⟩

theorem remove_slice_whole :
    ∃ after, remove threeSessions (rangeText true (ascii "0") (ascii "3")) = .ok after ∧
      ¬ SliceRemoved (some 0) (some 3) threeSessions after := by
  refine ⟨_, remove_range (.given (ascii "0") 0 (by decide) (by decide))
    (.given (ascii "3") 3 (by decide) (by decide)) true, ?_⟩
  intro removed
  exact absurd removed.metaTable (by decide)

end Nhi
