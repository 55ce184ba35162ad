import Mathlib.Data.List.Perm.Basic
import Mathlib.Data.List.Nodup
import Mathlib.Data.Nat.Find
import Nhi.BoundedLoop

/-!
Fixed arrays of slots, each slot in use or free. A slot is free when its key is
the key of the blank entry. Three loops walk such an array: a search for a key
that stops at the first free slot, the choice of the first free slot, and a
sweep that takes an entry out by moving the last used one into its place. The
sweep acts only when it meets a free slot.

The abstract side is the list of used entries. While the used slots form a
prefix (`Compact`) the loops are exactly lookup, append and removal on it.
-/

class Slot (α : Type) (κ : outParam Type) where
  key : α → κ
  blank : α

def Slot.Used {α κ : Type} [Slot α κ] (entry : α) : Prop :=
  Slot.key entry ≠ Slot.key (Slot.blank : α)

instance {α κ : Type} [DecidableEq κ] [Slot α κ] (entry : α) : Decidable (Slot.Used entry) :=
  inferInstanceAs (Decidable (_ ≠ _))

structure SlotTable (α : Type) (n : Nat) where
  slots : List α
  size : slots.length = n
  deriving DecidableEq

namespace SlotTable

open BoundedLoop Slot

variable {α κ : Type} {n : Nat}

def lookup (table : SlotTable α n) (index : Nat) : Option α := table.slots[index]?

/-- An index past the end changes nothing. -/
def update (table : SlotTable α n) (index : Nat) (entry : α) : SlotTable α n :=
  ⟨table.slots.set index entry, by simp [table.size]⟩

theorem lookup_lt {table : SlotTable α n} {index : Nat} {entry : α}
    (found : table.lookup index = some entry) : index < n := by
  have inside := (List.getElem?_eq_some_iff.mp found).1
  rwa [table.size] at inside

theorem lookup_some (table : SlotTable α n) (index : Nat) (inside : index < n) :
    ∃ entry, table.lookup index = some entry := by
  have bound : index < table.slots.length := by rwa [table.size]
  exact ⟨table.slots[index], List.getElem?_eq_getElem bound⟩

theorem lookup_none (table : SlotTable α n) {index : Nat} (outside : n ≤ index) :
    table.lookup index = none :=
  List.getElem?_eq_none (by rwa [table.size])

theorem lookup_mem {table : SlotTable α n} {index : Nat} {entry : α}
    (found : table.lookup index = some entry) : entry ∈ table.slots :=
  List.mem_of_getElem? found

theorem lookup_update_self (table : SlotTable α n) (index : Nat) (entry : α)
    (inside : index < n) : (table.update index entry).lookup index = some entry := by
  simp [lookup, update, table.size, inside]

theorem lookup_update_other (table : SlotTable α n) (index other : Nat) (entry : α)
    (different : index ≠ other) :
    (table.update index entry).lookup other = table.lookup other := by
  simp [lookup, update, different]

theorem update_outside (table : SlotTable α n) {index : Nat} (entry : α) (outside : n ≤ index) :
    table.update index entry = table := by
  have same : table.slots.set index entry = table.slots :=
    List.set_eq_of_length_le (by rwa [table.size])
  simp only [update, same]

theorem update_update (table : SlotTable α n) (index : Nat) (first second : α) :
    (table.update index first).update index second = table.update index second := by
  simp [update]

theorem update_found {table : SlotTable α n} {index : Nat} {entry : α}
    (found : table.lookup index = some entry) : table.update index entry = table := by
  obtain ⟨inside, here⟩ := List.getElem?_eq_some_iff.mp found
  cases table
  simp [update, ← here]

theorem mem_update {table : SlotTable α n} {index : Nat} {entry other : α}
    (member : other ∈ (table.update index entry).slots) :
    other = entry ∨ other ∈ table.slots :=
  (List.mem_or_eq_of_mem_set member).symm

variable [Slot α κ]

def UsedAt (table : SlotTable α n) (index : Nat) : Prop :=
  ∃ entry, table.lookup index = some entry ∧ Used entry

def Compact (table : SlotTable α n) : Prop :=
  ∀ i j, i < j → table.UsedAt j → table.UsedAt i

def Full (table : SlotTable α n) : Prop := ∀ i < n, table.UsedAt i

def empty : SlotTable α n := ⟨List.replicate n blank, by simp⟩

theorem usedAt_lt {table : SlotTable α n} {index : Nat} (used : table.UsedAt index) :
    index < n := by
  obtain ⟨entry, found, _⟩ := used
  exact lookup_lt found

theorem not_usedAt {table : SlotTable α n} {index : Nat} {entry : α}
    (found : table.lookup index = some entry) (free : ¬ Used entry) :
    ¬ table.UsedAt index := by
  rintro ⟨other, again, used⟩
  rw [found, Option.some.injEq] at again
  exact free (again ▸ used)

theorem empty_not_usedAt (index : Nat) : ¬ (empty : SlotTable α n).UsedAt index := by
  rintro ⟨entry, found, used⟩
  have blankEntry := (List.mem_replicate.mp (lookup_mem found)).2
  exact used (congrArg key blankEntry)

theorem empty_compact : (empty : SlotTable α n).Compact :=
  fun _ j _ used => absurd used (empty_not_usedAt j)

variable [DecidableEq κ]

instance (table : SlotTable α n) (index : Nat) : Decidable (table.UsedAt index) :=
  decidable_of_iff ((table.lookup index).any fun entry => Used entry) (by simp [UsedAt, Option.any_eq_true])

instance (table : SlotTable α n) : Decidable table.Full :=
  decidable_of_iff (∀ entry ∈ table.slots, Used entry)
    (by
      constructor
      · intro all i inside
        obtain ⟨entry, found⟩ := table.lookup_some i inside
        exact ⟨entry, found, all entry (lookup_mem found)⟩
      · intro full entry member
        obtain ⟨i, inside, rfl⟩ := List.mem_iff_getElem.mp member
        obtain ⟨other, found, used⟩ := full i (by simpa [table.size] using inside)
        rw [lookup, List.getElem?_eq_getElem inside, Option.some.injEq] at found
        exact found ▸ used)

/-- The abstract contents: the used entries in slot order. -/
def entries (table : SlotTable α n) : List α := table.slots.filter (fun entry => Used entry)

def Holds (table : SlotTable α n) (wanted : κ) : Prop :=
  ∃ entry ∈ table.entries, key entry = wanted

instance (table : SlotTable α n) (wanted : κ) : Decidable (table.Holds wanted) :=
  inferInstanceAs (Decidable (∃ entry ∈ table.entries, key entry = wanted))

@[simp] theorem empty_entries : (empty : SlotTable α n).entries = [] := by
  simp [entries, empty, Used]

theorem mem_entries {table : SlotTable α n} {entry : α} :
    entry ∈ table.entries ↔ entry ∈ table.slots ∧ Used entry := by
  simp [entries]

theorem mem_entries_of_lookup {table : SlotTable α n} {index : Nat} {entry : α}
    (found : table.lookup index = some entry) (used : Used entry) : entry ∈ table.entries :=
  mem_entries.mpr ⟨lookup_mem found, used⟩

theorem lookup_of_mem_entries {table : SlotTable α n} {entry : α}
    (member : entry ∈ table.entries) : ∃ index, table.lookup index = some entry :=
  List.mem_iff_getElem?.mp (mem_entries.mp member).1

theorem mem_entries_update {table : SlotTable α n} {index : Nat} {entry other : α}
    (member : other ∈ (table.update index entry).entries) :
    other = entry ∨ other ∈ table.entries := by
  obtain ⟨inSlots, used⟩ := mem_entries.mp member
  rcases mem_update inSlots with new | old
  · exact Or.inl new
  · exact Or.inr (mem_entries.mpr ⟨old, used⟩)

omit [DecidableEq κ] in
theorem usedAt_keys {table : SlotTable α n} {index : Nat} :
    table.UsedAt index ↔
      ∃ k, (table.slots.map key)[index]? = some k ∧ k ≠ key (blank : α) := by
  simp [UsedAt, lookup, Used]

theorem entries_keys (table : SlotTable α n) :
    table.entries.map key = (table.slots.map key).filter (fun k => k ≠ key (blank : α)) := by
  rw [entries, List.filter_map]
  rfl

theorem holds_keys {first second : SlotTable α n}
    (same : first.slots.map key = second.slots.map key) (wanted : κ) :
    first.Holds wanted ↔ second.Holds wanted := by
  have listed (table : SlotTable α n) : table.Holds wanted ↔ wanted ∈ table.entries.map key := by
    simp [Holds]
  rw [listed, listed, entries_keys, entries_keys, same]

omit [DecidableEq κ] in
theorem compact_keys {first second : SlotTable α n}
    (same : first.slots.map key = second.slots.map key) : first.Compact ↔ second.Compact := by
  simp only [Compact, usedAt_keys, same]

omit [DecidableEq κ] in
theorem update_keys {table : SlotTable α n} {index : Nat} {entry other : α}
    (found : table.lookup index = some entry) (same : key other = key entry) :
    (table.update index other).slots.map key = table.slots.map key := by
  have inside := (List.getElem?_eq_some_iff.mp found).1
  have here := (List.getElem?_eq_some_iff.mp found).2
  apply List.ext_getElem
  · simp [update]
  · intro j _ _
    by_cases at_index : index = j
    · subst at_index
      simp [update, same, here]
    · simp [update, at_index]

theorem compact_of_split {table : SlotTable α n} {front : List α} (back : List α)
    (split : table.slots = front ++ back) (used : ∀ entry ∈ front, Used entry)
    (free : ∀ entry ∈ back, ¬ Used entry) :
    table.Compact ∧ table.entries = front := by
  constructor
  · rintro i j before ⟨entry, found, usedEntry⟩
    rw [lookup, split] at found
    have inFront : j < front.length := by
      by_contra beyond
      rw [List.getElem?_append_right (by omega)] at found
      exact free entry (List.mem_of_getElem? found) usedEntry
    have inside : i < front.length := by omega
    refine ⟨front[i], ?_, used _ (List.getElem_mem inside)⟩
    rw [lookup, split, List.getElem?_append_left inside, List.getElem?_eq_getElem inside]
  · have frontKept : front.filter (fun entry => Used entry) = front :=
      List.filter_eq_self.mpr (by simpa using used)
    have backDropped : back.filter (fun entry => Used entry) = [] :=
      List.filter_eq_nil_iff.mpr (by simpa using free)
    rw [entries, split, List.filter_append, frontKept, backDropped, List.append_nil]

theorem split_at {table : SlotTable α n} {free : Nat} (below : ∀ j < free, table.UsedAt j) :
    ∃ front back, table.slots = front ++ back ∧ front.length = free ∧
      (∀ entry ∈ front, Used entry) ∧
      table.entries = front ++ back.filter (fun entry => Used entry) := by
  have inside : free ≤ n := by
    rcases Nat.eq_zero_or_pos free with zero | positive
    · omega
    · have := usedAt_lt (below (free - 1) (by omega))
      omega
  have used : ∀ entry ∈ table.slots.take free, Used entry := by
    intro entry member
    obtain ⟨i, bound, same⟩ := List.mem_take_iff_getElem.mp member
    obtain ⟨other, found, usedOther⟩ := below i (by omega)
    rw [lookup, List.getElem?_eq_getElem (by omega), Option.some.injEq, same] at found
    exact found ▸ usedOther
  have kept : (table.slots.take free).filter (fun entry => Used entry) = table.slots.take free :=
    List.filter_eq_self.mpr (by simpa using used)
  refine ⟨table.slots.take free, table.slots.drop free, (List.take_append_drop _ _).symm, ?_, used, ?_⟩
  · simp [table.size, inside]
  · rw [entries, ← kept, ← List.filter_append, List.take_append_drop]

theorem Compact.split {table : SlotTable α n} (compact : table.Compact) :
    ∃ back, table.slots = table.entries ++ back ∧ ∀ entry ∈ back, ¬ Used entry := by
  classical
  -- the first index that is not in use, which may be the bound itself
  have someFree : ∃ i, ¬ table.UsedAt i :=
    ⟨n, fun used => Nat.lt_irrefl n (usedAt_lt used)⟩
  have atFree : ¬ table.UsedAt (Nat.find someFree) := Nat.find_spec someFree
  obtain ⟨front, back, split, length, frontUsed, _⟩ :=
    split_at fun j before => not_not.mp (Nat.find_min someFree before)
  have backFree : ∀ entry ∈ back, ¬ Used entry := by
    intro entry member used
    obtain ⟨i, inside, same⟩ := List.mem_iff_getElem.mp member
    have usedHere : table.UsedAt (Nat.find someFree + i) :=
      ⟨entry, by simp [lookup, split, ← length, same, inside], used⟩
    rcases Nat.eq_zero_or_pos i with first | later
    · exact atFree (by simpa [first] using usedHere)
    · exact atFree (compact _ _ (by omega) usedHere)
  refine ⟨back, ?_, backFree⟩
  rwa [(compact_of_split _ split frontUsed backFree).2]

theorem entries_length_le (table : SlotTable α n) : table.entries.length ≤ n := by
  have bound := List.length_filter_le (fun entry => decide (Used entry)) table.slots
  rwa [table.size] at bound

theorem Compact.usedAt_iff {table : SlotTable α n} (compact : table.Compact) (index : Nat) :
    table.UsedAt index ↔ index < table.entries.length := by
  obtain ⟨back, split, free⟩ := compact.split
  constructor
  · rintro ⟨entry, found, used⟩
    by_contra beyond
    rw [lookup, split, List.getElem?_append_right (by omega)] at found
    exact free entry (List.mem_of_getElem? found) used
  · intro inside
    refine ⟨table.entries[index], ?_, (mem_entries.mp (List.getElem_mem inside)).2⟩
    rw [lookup, split, List.getElem?_append_left inside, List.getElem?_eq_getElem inside]

theorem Compact.full_iff {table : SlotTable α n} (compact : table.Compact) :
    table.Full ↔ table.entries.length = n := by
  have limit := table.entries_length_le
  constructor
  · intro full
    by_contra short
    have used := (compact.usedAt_iff table.entries.length).mp (full _ (by omega))
    omega
  · intro all i inside
    exact (compact.usedAt_iff i).mpr (by omega)

def ofEntries (contents : List α) : SlotTable α n :=
  ⟨(contents ++ List.replicate (n - contents.length) blank).take n, by simp; omega⟩

theorem ofEntries_entries (contents : List α) (fits : contents.length ≤ n)
    (used : ∀ entry ∈ contents, Used entry) :
    (ofEntries contents : SlotTable α n).Compact ∧
      (ofEntries contents : SlotTable α n).entries = contents := by
  apply compact_of_split (List.replicate (n - contents.length) blank)
  · exact List.take_of_length_le (by simp; omega)
  · exact used
  · intro entry member usedEntry
    exact usedEntry (congrArg key (List.mem_replicate.mp member).2)

theorem distinct_iff {table : SlotTable α n} : (table.entries.map key).Nodup ↔
    ∀ i j, i < j → ∀ first second, table.lookup i = some first → table.lookup j = some second →
      Used first → key first ≠ key second := by
  rw [List.Nodup, List.pairwise_map, entries, List.pairwise_filter, List.pairwise_iff_getElem]
  constructor
  · intro apart i j before first second foundFirst foundSecond used same
    obtain ⟨insideFirst, rfl⟩ := List.getElem?_eq_some_iff.mp foundFirst
    obtain ⟨insideSecond, rfl⟩ := List.getElem?_eq_some_iff.mp foundSecond
    have alsoUsed : Used table.slots[j] := fun free => used (same.trans free)
    exact apart i j insideFirst insideSecond before (by simpa using used) (by simpa using alsoUsed)
      same
  · intro apart i j insideFirst insideSecond before used _
    exact apart i j before _ _ (List.getElem?_eq_getElem insideFirst)
      (List.getElem?_eq_getElem insideSecond) (by simpa using used)

theorem update_distinct_iff {table : SlotTable α n} {index : Nat} {entry : α}
    (distinct : (table.entries.map key).Nodup) (inside : index < n) (used : Used entry) :
    ((table.update index entry).entries.map key).Nodup ↔
      ∀ i ≠ index, ∀ other, table.lookup i = some other → key other ≠ key entry := by
  have here := lookup_update_self table index entry inside
  rw [distinct_iff] at distinct ⊢
  constructor
  · intro apart i different other found same
    have still : (table.update index entry).lookup i = some other := by
      rw [lookup_update_other table index i entry different.symm, found]
    rcases Nat.lt_or_gt_of_ne different with before | after
    · exact apart i index before other entry still here (fun free => used (same.symm.trans free)) same
    · exact apart index i after entry other here still used same.symm
  · intro apart i j before first second foundFirst foundSecond usedFirst
    by_cases first_here : i = index
    · subst first_here
      rw [here, Option.some.injEq] at foundFirst
      rw [lookup_update_other table i j entry (by omega)] at foundSecond
      exact foundFirst ▸ (apart j (by omega) second foundSecond).symm
    · rw [lookup_update_other table index i entry (Ne.symm first_here)] at foundFirst
      by_cases second_here : j = index
      · subst second_here
        rw [here, Option.some.injEq] at foundSecond
        exact foundSecond ▸ apart i first_here first foundFirst
      · rw [lookup_update_other table index j entry (Ne.symm second_here)] at foundSecond
        exact distinct i j before first second foundFirst foundSecond usedFirst

/-- An entry for the key comes before every free slot. -/
def Ahead (table : SlotTable α n) (wanted : κ) : Prop :=
  ∃ i entry, table.lookup i = some entry ∧ key entry = wanted ∧ ∀ j ≤ i, table.UsedAt j

/-! The search: the two tests of a pass, in the order of the source loops. -/
section Search

inductive Search (α : Type) where
  | found (index : Nat) (entry : α)
  | free (index : Nat)
  | bound

def Search.ofLoop : Outcome Nat (Search α) → Search α
  | .ret result => result
  | .done _ => .bound

def searchBody (table : SlotTable α n) (wanted : κ) (index : Nat) : PassEnd Nat (Search α) :=
  match table.lookup index with
  | some entry =>
      if ¬ Used entry then .ret (.free index)
      else if key entry = wanted then .ret (.found index entry)
      else .next (index + 1)
  | none => .next (index + 1)

def search (table : SlotTable α n) (wanted : κ) : Search α :=
  .ofLoop (forLoop (table.searchBody wanted) n 0)

/-- Every slot before `index` is used by another key. -/
def Passed (table : SlotTable α n) (wanted : κ) (index : Nat) : Prop :=
  ∀ j < index, ∃ entry, table.lookup j = some entry ∧ Used entry ∧ key entry ≠ wanted

def SearchSpec (table : SlotTable α n) (wanted : κ) : Search α → Prop
  | .found index entry => table.lookup index = some entry ∧ Used entry ∧
      key entry = wanted ∧ table.Passed wanted index
  | .free index => index < n ∧ ¬ table.UsedAt index ∧ table.Passed wanted index
  | .bound => table.Passed wanted n

omit [DecidableEq κ] in
theorem Passed.succ {table : SlotTable α n} {wanted : κ} {index : Nat} {entry : α}
    (passed : table.Passed wanted index) (found : table.lookup index = some entry)
    (used : Used entry) (different : key entry ≠ wanted) :
    table.Passed wanted (index + 1) := by
  intro j before
  rcases Nat.lt_succ_iff_lt_or_eq.mp before with earlier | here
  · exact passed j earlier
  · subst here
    exact ⟨entry, found, used, different⟩

theorem search_spec (table : SlotTable α n) (wanted : κ) :
    table.SearchSpec wanted (table.search wanted) := by
  unfold search
  refine forLoop_rule (table.searchBody wanted)
    (fun k index => index = k ∧ table.Passed wanted k)
    (fun outcome => table.SearchSpec wanted (.ofLoop outcome))
    n ?_ (fun _ holds => holds.2) 0 ⟨rfl, fun j before => absurd before (Nat.not_lt_zero j)⟩
  rintro k inside index ⟨rfl, passed⟩
  obtain ⟨entry, found⟩ := table.lookup_some index inside
  simp only [searchBody, found]
  by_cases used : Used entry
  · by_cases same : key entry = wanted
    · simpa [used, same, Search.ofLoop, SearchSpec, found] using passed
    · simpa [used, same] using passed.succ found used same
  · simpa [used, Search.ofLoop, SearchSpec, inside] using ⟨not_usedAt found used, passed⟩

theorem search_found {table : SlotTable α n} {wanted : κ} {index : Nat} {entry : α}
    (result : table.search wanted = .found index entry) :
    table.lookup index = some entry ∧ entry ∈ table.entries ∧ key entry = wanted := by
  have spec := table.search_spec wanted
  rw [result] at spec
  exact ⟨spec.1, mem_entries_of_lookup spec.1 spec.2.1, spec.2.2.1⟩

theorem search_found_iff {table : SlotTable α n} {wanted : κ} :
    (∃ i entry, table.search wanted = .found i entry) ↔ table.Ahead wanted := by
  have spec := table.search_spec wanted
  constructor
  · rintro ⟨i, entry, result⟩
    obtain ⟨found, used, same, passed⟩ : table.SearchSpec wanted (.found i entry) := result ▸ spec
    refine ⟨i, entry, found, same, fun j upTo => ?_⟩
    rcases Nat.lt_or_eq_of_le upTo with before | rfl
    · obtain ⟨other, foundJ, usedJ, _⟩ := passed j before
      exact ⟨other, foundJ, usedJ⟩
    · exact ⟨entry, found, used⟩
  · rintro ⟨i, entry, found, same, below⟩
    have notPassed {stop : Nat} (beyond : i < stop) : ¬ table.Passed wanted stop := by
      intro passed
      obtain ⟨other, again, _, different⟩ := passed i beyond
      rw [found, Option.some.injEq] at again
      exact different (again ▸ same)
    cases result : table.search wanted with
    | found j other => exact ⟨j, other, rfl⟩
    | bound =>
        rw [result] at spec
        exact absurd spec (notPassed (lookup_lt found))
    | free j =>
        rw [result] at spec
        rcases Nat.lt_or_ge i j with before | after
        · exact absurd spec.2.2 (notPassed before)
        · exact absurd (below j after) spec.2.1

theorem search_eq_found {table : SlotTable α n} {wanted : κ} {index : Nat} {entry : α}
    (found : table.lookup index = some entry) (used : Used entry) (same : key entry = wanted)
    (passed : table.Passed wanted index) : table.search wanted = .found index entry := by
  have inside := lookup_lt found
  have notPassed (stop : Nat) (beyond : index < stop) : ¬ table.Passed wanted stop := by
    intro later
    obtain ⟨other, again, _, different⟩ := later index beyond
    rw [found, Option.some.injEq] at again
    exact different (again ▸ same)
  have spec := table.search_spec wanted
  cases result : table.search wanted with
  | found j other =>
      obtain ⟨again, _, key, earlier⟩ : table.SearchSpec wanted (.found j other) := result ▸ spec
      have position : j = index := by
        by_contra different
        rcases Nat.lt_or_gt_of_ne different with before | after
        · obtain ⟨third, foundJ, _, differs⟩ := passed j before
          rw [again, Option.some.injEq] at foundJ
          exact differs (foundJ ▸ key)
        · exact notPassed j after earlier
      subst position
      rw [found, Option.some.injEq] at again
      rw [again]
  | free j =>
      obtain ⟨_, notUsed, earlier⟩ : table.SearchSpec wanted (.free j) := result ▸ spec
      exfalso
      rcases Nat.lt_trichotomy j index with before | here | after
      · obtain ⟨other, again, usedJ, _⟩ := passed j before
        exact notUsed ⟨other, again, usedJ⟩
      · exact notUsed (here ▸ ⟨entry, found, used⟩)
      · exact notPassed j after earlier
  | bound =>
      have full : table.SearchSpec wanted .bound := result ▸ spec
      exact absurd full (notPassed n inside)

theorem search_update {table : SlotTable α n} {wanted : κ} {index : Nat} {entry other : α}
    (result : table.search wanted = .found index entry) (same : key other = key entry) :
    (table.update index other).search wanted = .found index other := by
  obtain ⟨found, used, wantedKey, passed⟩ : table.SearchSpec wanted (.found index entry) :=
    result ▸ table.search_spec wanted
  refine search_eq_found (lookup_update_self table index other (lookup_lt found))
    (fun blankKey => used (same.symm.trans blankKey)) (same.trans wantedKey) ?_
  intro j before
  rw [lookup_update_other table index j other (by omega)]
  exact passed j before

theorem search_bound {table : SlotTable α n} {wanted : κ}
    (result : table.search wanted = .bound) : table.Full ∧ ¬ table.Holds wanted := by
  have spec : table.Passed wanted n := by
    have spec := table.search_spec wanted
    rwa [result] at spec
  constructor
  · intro i inside
    obtain ⟨entry, found, used, _⟩ := spec i inside
    exact ⟨entry, found, used⟩
  · rintro ⟨entry, member, same⟩
    obtain ⟨i, found⟩ := lookup_of_mem_entries member
    obtain ⟨other, again, _, different⟩ := spec i (lookup_lt found)
    rw [found, Option.some.injEq] at again
    exact different (again ▸ same)

theorem search_free {table : SlotTable α n} {wanted : κ} {index : Nat}
    (result : table.search wanted = .free index) : index < n ∧ ¬ table.UsedAt index := by
  have spec := table.search_spec wanted
  rw [result] at spec
  exact ⟨spec.1, spec.2.1⟩

theorem search_first {table : SlotTable α n} (nonempty : 0 < n) (free : ¬ table.UsedAt 0)
    (wanted : κ) : ∃ index, table.search wanted = .free index := by
  have passed {index : Nat} (positive : 0 < index) : ¬ table.Passed wanted index := by
    intro earlier
    obtain ⟨entry, found, used, _⟩ := earlier 0 positive
    exact free ⟨entry, found, used⟩
  have spec := table.search_spec wanted
  cases result : table.search wanted with
  | free index => exact ⟨index, rfl⟩
  | bound =>
      rw [result] at spec
      exact absurd spec (passed nonempty)
  | found index entry =>
      rw [result] at spec
      obtain ⟨found, used, _, earlier⟩ := spec
      rcases Nat.eq_zero_or_pos index with rfl | positive
      · exact absurd ⟨entry, found, used⟩ free
      · exact absurd earlier (passed positive)

theorem search_full {table : SlotTable α n} {wanted : κ} (full : table.Full)
    (absent : ¬ table.Holds wanted) : table.search wanted = .bound := by
  cases result : table.search wanted with
  | bound => rfl
  | free index => exact absurd (full index (search_free result).1) (search_free result).2
  | found index entry =>
      obtain ⟨_, member, same⟩ := search_found result
      exact absurd ⟨entry, member, same⟩ absent

theorem Compact.search_free {table : SlotTable α n} {wanted : κ} {index : Nat}
    (compact : table.Compact) (result : table.search wanted = .free index) :
    ¬ table.Holds wanted := by
  have spec := table.search_spec wanted
  rw [result] at spec
  rintro ⟨entry, member, same⟩
  obtain ⟨i, found⟩ := lookup_of_mem_entries member
  have usedHere : table.UsedAt i := ⟨entry, found, (mem_entries.mp member).2⟩
  rcases Nat.lt_or_ge i index with before | after
  · obtain ⟨other, again, _, different⟩ := spec.2.2 i before
    rw [found, Option.some.injEq] at again
    exact different (again ▸ same)
  · rcases Nat.eq_or_lt_of_le after with here | later
    · exact spec.2.1 (here ▸ usedHere)
    · exact spec.2.1 (compact index i later usedHere)

theorem Compact.search_holds {table : SlotTable α n} {wanted : κ}
    (compact : table.Compact) (held : table.Holds wanted) :
    ∃ index entry, table.search wanted = .found index entry := by
  cases result : table.search wanted with
  | found index entry => exact ⟨index, entry, rfl⟩
  | free index => exact absurd held (compact.search_free result)
  | bound => exact absurd held (search_bound result).2

end Search

/-! Choosing the first free slot, and what writing a used entry does. -/
section Insert

def firstFreeBody (table : SlotTable α n) (index : Nat) : PassEnd Nat Nat :=
  match table.lookup index with
  | some entry => if ¬ Used entry then .ret index else .next (index + 1)
  | none => .next (index + 1)

def firstFree (table : SlotTable α n) : Option Nat :=
  match forLoop table.firstFreeBody n 0 with
  | .ret index => some index
  | .done _ => none

def FirstFreeSpec (table : SlotTable α n) : Option Nat → Prop
  | some index => index < n ∧ ¬ table.UsedAt index ∧ ∀ j < index, table.UsedAt j
  | none => table.Full

theorem firstFree_spec (table : SlotTable α n) : table.FirstFreeSpec table.firstFree := by
  unfold firstFree
  refine forLoop_rule table.firstFreeBody
    (fun k index => index = k ∧ ∀ j < k, table.UsedAt j)
    (fun outcome => table.FirstFreeSpec
      (match outcome with | .ret index => some index | .done _ => none))
    n ?_ (fun _ holds => holds.2) 0 ⟨rfl, fun j before => absurd before (Nat.not_lt_zero j)⟩
  rintro k inside index ⟨rfl, passed⟩
  obtain ⟨entry, found⟩ := table.lookup_some index inside
  simp only [firstFreeBody, found]
  by_cases used : Used entry
  · have upTo : ∀ j < index + 1, table.UsedAt j := by
      intro j before
      rcases Nat.lt_succ_iff_lt_or_eq.mp before with earlier | here
      · exact passed j earlier
      · exact here ▸ ⟨entry, found, used⟩
    simpa [used] using upTo
  · simpa [used, FirstFreeSpec, inside] using ⟨not_usedAt found used, passed⟩

theorem firstFree_some {table : SlotTable α n} {index : Nat}
    (chosen : table.firstFree = some index) :
    index < n ∧ ¬ table.UsedAt index ∧ ∀ j < index, table.UsedAt j := by
  have spec := table.firstFree_spec
  rwa [chosen] at spec

theorem firstFree_none {table : SlotTable α n} :
    table.firstFree = none ↔ table.Full := by
  have spec := table.firstFree_spec
  cases chosen : table.firstFree with
  | none => simpa [chosen, FirstFreeSpec] using spec
  | some index =>
      rw [chosen] at spec
      simpa using fun full => spec.2.1 (full index spec.1)

omit [DecidableEq κ] in
theorem usedAt_update {table : SlotTable α n} {index : Nat} {entry : α}
    (used : Used entry) (j : Nat) :
    (table.update index entry).UsedAt j ↔ table.UsedAt j ∨ (j = index ∧ index < n) := by
  by_cases here : j = index
  · subst here
    constructor
    · exact fun usedHere => Or.inr ⟨rfl, usedAt_lt usedHere⟩
    · rintro (usedHere | ⟨_, inside⟩)
      · exact ⟨entry, table.lookup_update_self j entry (usedAt_lt usedHere), used⟩
      · exact ⟨entry, table.lookup_update_self j entry inside, used⟩
  · simp [UsedAt, table.lookup_update_other index j entry (Ne.symm here), here]

omit [DecidableEq κ] in
theorem update_compact_iff {table : SlotTable α n} {index : Nat} {entry : α}
    (compact : table.Compact) (used : Used entry) :
    (table.update index entry).Compact ↔
      (index < n → ∀ j < index, table.UsedAt j) := by
  constructor
  · intro after inside j before
    have usedAfter := after j index before ((usedAt_update used index).mpr (Or.inr ⟨rfl, inside⟩))
    rcases (usedAt_update used j).mp usedAfter with old | ⟨same, _⟩
    · exact old
    · omega
  · intro below i j before usedAfter
    apply (usedAt_update used i).mpr
    rcases (usedAt_update used j).mp usedAfter with old | ⟨same, inside⟩
    · exact Or.inl (compact i j before old)
    · exact Or.inl (below inside i (by omega))

theorem Compact.first_free {table : SlotTable α n} {free : Nat} (compact : table.Compact)
    (notUsed : ¬ table.UsedAt free) (below : ∀ j < free, table.UsedAt j) :
    free = table.entries.length := by
  have notInside := mt (compact.usedAt_iff free).mpr notUsed
  by_contra different
  have used := (compact.usedAt_iff table.entries.length).mp (below _ (by omega))
  omega

theorem Compact.firstFree_eq {table : SlotTable α n} {index : Nat}
    (compact : table.Compact) (chosen : table.firstFree = some index) :
    index = table.entries.length := by
  obtain ⟨_, free, below⟩ := firstFree_some chosen
  exact compact.first_free free below

theorem Compact.insert_entries {table : SlotTable α n} {index : Nat} {entry : α}
    (compact : table.Compact) (chosen : table.firstFree = some index) (used : Used entry) :
    (table.update index entry).Compact ∧
      (table.update index entry).entries = table.entries ++ [entry] := by
  obtain ⟨inside, _, _⟩ := firstFree_some chosen
  have position := compact.firstFree_eq chosen
  obtain ⟨back, split, free⟩ := compact.split
  cases back with
  | nil =>
      have total := congrArg List.length split
      simp only [table.size, List.append_nil] at total
      omega
  | cons first rest =>
      apply compact_of_split rest
      · simp [update, split, position]
      · intro other member
        rcases List.mem_append.mp member with old | new
        · exact (mem_entries.mp old).2
        · exact List.mem_singleton.mp new ▸ used
      · exact fun other member => free other (List.mem_cons_of_mem first member)

theorem Compact.insert_holds {table : SlotTable α n} {index : Nat} {entry : α}
    (compact : table.Compact) (chosen : table.firstFree = some index) (used : Used entry)
    (wanted : κ) : (table.update index entry).Holds wanted ↔ table.Holds wanted ∨ key entry = wanted := by
  simp only [Holds, (compact.insert_entries chosen used).2, List.mem_append, List.mem_singleton,
    or_and_right, exists_or, exists_eq_left]

end Insert

/-! The sweep: the match is tested before the free slot, and the last match seen
is the one taken out. -/
section Sweep

inductive Sweep (α : Type) (n : Nat) where
  | removed (taken : α) (after : SlotTable α n)
  | missed
  | bound (hit : Option α)

/-- The last match the loop saw, whether or not it was taken out. -/
def Sweep.hit : Sweep α n → Option α
  | .removed taken _ => some taken
  | .missed => none
  | .bound hit => hit

/-- The entry at `last` is copied over the one at `hit`, then its slot is blanked. -/
def takeOut (table : SlotTable α n) (hit last : Nat) : SlotTable α n :=
  match table.lookup last with
  | some entry => (table.update hit entry).update last blank
  | none => table.update last blank

def sweepBody (table : SlotTable α n) (wanted : κ) :
    Nat × Option (Nat × α) → PassEnd (Nat × Option (Nat × α)) (Sweep α n)
  | (index, hit) =>
      match table.lookup index with
      | some entry =>
          -- a later match replaces an earlier one
          if key entry = wanted then .next (index + 1, some (index, entry))
          else if ¬ Used entry then
            match hit with
            | some (slot, taken) => .ret (.removed taken (table.takeOut slot (index - 1)))
            | none => .ret .missed
          else .next (index + 1, hit)
      | none => .next (index + 1, hit)

def Sweep.ofLoop : Outcome (Nat × Option (Nat × α)) (Sweep α n) → Sweep α n
  | .ret result => result
  | .done (_, hit) => .bound (hit.map Prod.snd)

def sweep (table : SlotTable α n) (wanted : κ) : Sweep α n :=
  .ofLoop (forLoop (table.sweepBody wanted) n (0, none))

/-- `hit` is the last match below `index`, if there is one. -/
def LastHit (table : SlotTable α n) (wanted : κ) (index : Nat) : Option (Nat × α) → Prop
  | some (slot, taken) => slot < index ∧ table.lookup slot = some taken ∧ key taken = wanted ∧
      ∀ j, slot < j → j < index → ∀ entry, table.lookup j = some entry → key entry ≠ wanted
  | none => ∀ j < index, ∀ entry, table.lookup j = some entry → key entry ≠ wanted

def SweepSpec (table : SlotTable α n) (wanted : κ) : Sweep α n → Prop
  | .removed taken after => ∃ slot free, table.LastHit wanted free (some (slot, taken)) ∧
      free < n ∧ ¬ table.UsedAt free ∧ (∀ j < free, table.UsedAt j) ∧
      after = table.takeOut slot (free - 1)
  | .missed => ∃ free < n, ¬ table.UsedAt free ∧ (∀ j < free, table.UsedAt j) ∧
      table.LastHit wanted free none
  | .bound hit => table.Full ∧ ∃ last, hit = last.map Prod.snd ∧ table.LastHit wanted n last

omit [DecidableEq κ] in
theorem LastHit.miss {table : SlotTable α n} {wanted : κ} {index : Nat} {entry : α}
    {hit : Option (Nat × α)} (last : table.LastHit wanted index hit)
    (found : table.lookup index = some entry) (different : key entry ≠ wanted) :
    table.LastHit wanted (index + 1) hit := by
  have here : ∀ j, j = index → ∀ other, table.lookup j = some other → key other ≠ wanted := by
    rintro j rfl other again
    rw [found, Option.some.injEq] at again
    exact again ▸ different
  cases hit with
  | none =>
      intro j before
      rcases Nat.lt_succ_iff_lt_or_eq.mp before with earlier | same
      · exact last j earlier
      · exact here j same
  | some pair =>
      refine ⟨Nat.lt_succ_of_lt last.1, last.2.1, last.2.2.1, fun j above before => ?_⟩
      rcases Nat.lt_succ_iff_lt_or_eq.mp before with earlier | same
      · exact last.2.2.2 j above earlier
      · exact here j same

omit [DecidableEq κ] in
theorem lastHit_here {table : SlotTable α n} {wanted : κ} {index : Nat} {entry : α}
    (found : table.lookup index = some entry) (same : key entry = wanted) :
    table.LastHit wanted (index + 1) (some (index, entry)) :=
  ⟨Nat.lt_succ_self index, found, same, fun j above before => absurd above (by omega)⟩

theorem sweep_spec (table : SlotTable α n) (wanted : κ)
    (nonblank : wanted ≠ key (blank : α)) :
    table.SweepSpec wanted (table.sweep wanted) := by
  unfold sweep
  refine forLoop_rule (table.sweepBody wanted)
    (fun k state => state.1 = k ∧ (∀ j < k, table.UsedAt j) ∧ table.LastHit wanted k state.2)
    (fun outcome => table.SweepSpec wanted (.ofLoop outcome))
    n ?_ ?_ (0, none)
    ⟨rfl, fun j before => absurd before (Nat.not_lt_zero j),
      fun j before => absurd before (Nat.not_lt_zero j)⟩
  · rintro k inside ⟨index, hit⟩ ⟨rfl, below, last⟩
    obtain ⟨entry, found⟩ := table.lookup_some index inside
    have usedUpTo (used : Used entry) : ∀ j < index + 1, table.UsedAt j := by
      intro j before
      rcases Nat.lt_succ_iff_lt_or_eq.mp before with earlier | here
      · exact below j earlier
      · exact here ▸ ⟨entry, found, used⟩
    simp only [sweepBody, found]
    by_cases same : key entry = wanted
    · have used : Used entry := fun free => nonblank (same.symm.trans free)
      have further : (∀ j < index + 1, table.UsedAt j) ∧
          table.LastHit wanted (index + 1) (some (index, entry)) :=
        ⟨usedUpTo used, lastHit_here found same⟩
      simpa [same] using further
    · by_cases used : Used entry
      · have further : (∀ j < index + 1, table.UsedAt j) ∧ table.LastHit wanted (index + 1) hit :=
          ⟨usedUpTo used, last.miss found same⟩
        simpa [same, used] using further
      · -- the first free slot: everything below it is used, so `hit` is final
        have free := not_usedAt found used
        cases hit with
        | none => simpa [same, used] using ⟨index, inside, free, below, last⟩
        | some pair =>
            simpa [same, used] using
              ⟨pair.1, index, last, inside, free, below, rfl⟩
  · rintro ⟨index, hit⟩ ⟨_, below, last⟩
    exact ⟨below, hit, rfl, last⟩

/-- Swept for the key of a free slot, every free slot is a match and none is
ever met as the end of the used ones. -/
theorem sweep_blank (table : SlotTable α n) :
    ∃ hit, table.sweep (key (blank : α)) = .bound hit := by
  unfold sweep
  refine forLoop_rule (table.sweepBody (key (blank : α))) (fun k state => state.1 = k)
    (fun outcome => ∃ hit, Sweep.ofLoop outcome = .bound hit)
    n ?_ (fun state _ => ⟨_, rfl⟩) (0, none) rfl
  rintro k inside ⟨index, hit⟩ rfl
  obtain ⟨entry, found⟩ := table.lookup_some index inside
  by_cases free : key entry = key (blank : α)
  · simp [sweepBody, found, free]
  · simp [sweepBody, found, free, Used]

omit [DecidableEq κ] in
theorem takeOut_slots {table : SlotTable α n} {front back : List α} {last : α} {slot : Nat}
    (split : table.slots = front ++ last :: back) (inside : slot ≤ front.length) :
    (table.takeOut slot front.length).slots =
      (front.set slot last) ++ blank :: back := by
  have found : table.lookup front.length = some last := by simp [lookup, split]
  have copied : (table.update slot last).slots = front.set slot last ++ last :: back := by
    rcases Nat.eq_or_lt_of_le inside with same | below
    · subst same
      simp [update, split, List.set_eq_of_length_le]
    · simp [update, split, below]
  simp only [takeOut, found]
  change (table.update slot last).slots.set front.length blank = _
  simp [copied]

theorem set_perm_eraseIdx (front : List α) (last : α) (slot : Nat)
    (inside : slot ≤ front.length) :
    (front.set slot last).Perm ((front ++ [last]).eraseIdx slot) := by
  rcases Nat.eq_or_lt_of_le inside with same | below
  · subst same
    rw [List.set_eq_of_length_le (Nat.le_refl _), List.eraseIdx_append_of_length_le (Nat.le_refl _)]
    simp
  · rw [List.eraseIdx_append_of_lt_length below, List.set_eq_take_append_cons_drop,
      if_pos below, List.eraseIdx_eq_take_drop_succ]
    have moved : (last :: front.drop (slot + 1)).Perm (front.drop (slot + 1) ++ [last]) :=
      (List.perm_append_singleton last _).symm
    simpa only [List.append_assoc] using moved.append_left (front.take slot)

omit [DecidableEq κ] in
theorem usedAt_takeOut {table : SlotTable α n} {slot free : Nat} (reached : slot < free)
    (below : ∀ j < free, table.UsedAt j) (j : Nat) :
    (table.takeOut slot (free - 1)).UsedAt j ↔ j ≠ free - 1 ∧ table.UsedAt j := by
  obtain ⟨last, found, used⟩ := below (free - 1) (by omega)
  simp only [takeOut, found]
  by_cases here : j = free - 1
  · subst here
    have inside : free - 1 < n := lookup_lt found
    have blanked := (table.update slot last).lookup_update_self (free - 1) blank inside
    exact iff_of_false (not_usedAt blanked (by simp [Used])) (fun both => both.1 rfl)
  · have copied : (table.update slot last).UsedAt j ↔ _ := usedAt_update used j
    rw [UsedAt, lookup_update_other _ _ _ _ (Ne.symm here), ← UsedAt, copied]
    constructor
    · rintro (old | ⟨rfl, _⟩)
      · exact ⟨here, old⟩
      · exact ⟨here, below j reached⟩
    · exact fun both => Or.inl both.2

theorem takeOut_entries {table : SlotTable α n} {slot free : Nat} (reached : slot < free)
    (below : ∀ j < free, table.UsedAt j) :
    (table.takeOut slot (free - 1)).entries.Perm (table.entries.eraseIdx slot) := by
  obtain ⟨reached', back, split, length, used, contents⟩ := split_at below
  obtain ⟨front, last, rfl⟩ : ∃ front last, reached' = front ++ [last] :=
    ⟨_, _, (List.dropLast_append_getLast (List.ne_nil_of_length_pos (by omega))).symm⟩
  have position : free - 1 = front.length := by simp [← length]
  have slots : (table.takeOut slot front.length).slots = front.set slot last ++ blank :: back :=
    takeOut_slots (by simpa using split) (by omega)
  have kept : (front.set slot last).filter (fun entry => Used entry) = front.set slot last := by
    apply List.filter_eq_self.mpr
    intro entry member
    rcases List.mem_or_eq_of_mem_set member with old | new
    · simpa using used entry (by simp [old])
    · simpa using used entry (by simp [new])
  have dropped : ¬ Used (blank : α) := fun used => used rfl
  have after : (table.takeOut slot front.length).entries =
      front.set slot last ++ back.filter (fun entry => Used entry) := by
    rw [entries, slots, List.filter_append, kept, List.filter_cons_of_neg (by simpa using dropped)]
  rw [position, after, contents, List.eraseIdx_append_of_lt_length (by omega)]
  exact (set_perm_eraseIdx front last slot (by omega)).append_right _

theorem sweep_removed_spec {table after : SlotTable α n} {wanted : κ} {taken : α}
    (result : table.sweep wanted = .removed taken after) :
    wanted ≠ key (blank : α) ∧ table.SweepSpec wanted (.removed taken after) := by
  have nonblank : wanted ≠ key (blank : α) := by
    rintro rfl
    obtain ⟨hit, same⟩ := table.sweep_blank
    rw [same] at result
    cases result
  exact ⟨nonblank, result ▸ table.sweep_spec wanted nonblank⟩

theorem sweep_removed_taken {table after : SlotTable α n} {wanted : κ} {taken : α}
    (result : table.sweep wanted = .removed taken after) :
    taken ∈ table.entries ∧ key taken = wanted := by
  obtain ⟨nonblank, slot, free, last, _⟩ := sweep_removed_spec result
  have used : Used taken := fun same => nonblank (last.2.2.1.symm.trans same)
  exact ⟨mem_entries_of_lookup last.2.1 used, last.2.2.1⟩

theorem sweep_removed_slots {table after : SlotTable α n} {wanted : κ} {taken : α}
    (result : table.sweep wanted = .removed taken after) :
    ∀ entry ∈ after.slots, entry = blank ∨ entry ∈ table.slots := by
  obtain ⟨_, slot, free, _, _, _, _, rfl⟩ := sweep_removed_spec result
  intro entry inSlots
  rw [takeOut] at inSlots
  cases found : table.lookup (free - 1) with
  | none =>
      rw [found] at inSlots
      exact mem_update inSlots
  | some moved =>
      rw [found] at inSlots
      rcases mem_update inSlots with same | inner
      · exact Or.inl same
      · rcases mem_update inner with same | old
        · exact Or.inr (same ▸ lookup_mem found)
        · exact Or.inr old

theorem sweep_removed_subset {table after : SlotTable α n} {wanted : κ} {taken : α}
    (result : table.sweep wanted = .removed taken after) :
    ∀ entry ∈ after.entries, entry ∈ table.entries := by
  intro entry member
  obtain ⟨inSlots, used⟩ := mem_entries.mp member
  have notBlank : entry ≠ blank := fun same => used (congrArg key same)
  exact mem_entries.mpr ⟨(sweep_removed_slots result entry inSlots).resolve_left notBlank, used⟩

theorem lookup_entries {table : SlotTable α n} {slot : Nat} {entry : α}
    (used : ∀ j < slot + 1, table.UsedAt j) (found : table.lookup slot = some entry) :
    table.entries[slot]? = some entry := by
  obtain ⟨front, back, split, length, _, contents⟩ := split_at used
  rw [lookup, split, List.getElem?_append_left (by omega)] at found
  rw [contents, List.getElem?_append_left (by omega), found]

/-- A sweep that meets a free slot is a removal from the entries. -/
theorem sweep_removed_entries {table after : SlotTable α n} {wanted : κ} {taken : α}
    (result : table.sweep wanted = .removed taken after) :
    ∃ slot, table.entries[slot]? = some taken ∧ after.entries.Perm (table.entries.eraseIdx slot) := by
  obtain ⟨_, slot, free, last, _, _, below, rfl⟩ := sweep_removed_spec result
  have used : ∀ j < slot + 1, table.UsedAt j := fun j before => below j (by have := last.1; omega)
  exact ⟨slot, lookup_entries used last.2.1, takeOut_entries last.1 below⟩

theorem Compact.sweep_removed {table after : SlotTable α n} {wanted : κ} {taken : α}
    (compact : table.Compact) (result : table.sweep wanted = .removed taken after) :
    after.Compact := by
  obtain ⟨_, slot, free, last, _, notUsed, below, rfl⟩ := sweep_removed_spec result
  intro i j before usedAfter
  obtain ⟨other, used⟩ := (usedAt_takeOut last.1 below j).mp usedAfter
  apply (usedAt_takeOut last.1 below i).mpr
  refine ⟨?_, compact i j before used⟩
  rintro rfl
  rcases Nat.eq_or_lt_of_le (show free ≤ j by omega) with here | later
  · exact notUsed (here ▸ used)
  · exact notUsed (compact free j later used)

theorem sweep_removed_not_full {table after : SlotTable α n} {wanted : κ} {taken : α}
    (result : table.sweep wanted = .removed taken after) : ¬ table.Full := by
  obtain ⟨_, slot, free, _, inside, notUsed, _⟩ := sweep_removed_spec result
  exact fun full => notUsed (full free inside)

theorem sweep_bound {table : SlotTable α n} {wanted : κ} {hit : Option α}
    (nonblank : wanted ≠ key (blank : α)) (result : table.sweep wanted = .bound hit) :
    table.Full ∧ (∀ taken, hit = some taken → taken ∈ table.entries ∧ key taken = wanted) ∧
      (hit = none → ¬ table.Holds wanted) := by
  have spec := table.sweep_spec wanted nonblank
  rw [result] at spec
  obtain ⟨full, last, rfl, lastHit⟩ := spec
  refine ⟨full, ?_, ?_⟩
  · intro taken same
    obtain ⟨pair, rfl, rfl⟩ := Option.map_eq_some_iff.mp same
    have used : Used pair.2 := fun blankKey => nonblank (lastHit.2.2.1.symm.trans blankKey)
    exact ⟨mem_entries_of_lookup lastHit.2.1 used, lastHit.2.2.1⟩
  · rintro none ⟨entry, member, same⟩
    obtain rfl := Option.map_eq_none_iff.mp none
    obtain ⟨j, found⟩ := lookup_of_mem_entries member
    exact lastHit j (lookup_lt found) entry found same

theorem sweep_hit {table : SlotTable α n} {wanted : κ} {taken : α} (nonblank : wanted ≠ key (blank : α))
    (hit : (table.sweep wanted).hit = some taken) : taken ∈ table.entries ∧ key taken = wanted := by
  cases result : table.sweep wanted with
  | removed last after =>
      rw [result] at hit
      obtain rfl := Option.some.inj hit
      exact sweep_removed_taken result
  | missed =>
      rw [result] at hit
      cases hit
  | bound last =>
      rw [result] at hit
      exact (sweep_bound nonblank result).2.1 taken hit

theorem sweep_removed_distinct {table after : SlotTable α n} {wanted : κ} {taken : α}
    (distinct : (table.entries.map key).Nodup) (result : table.sweep wanted = .removed taken after) :
    (after.entries.map key).Nodup := by
  obtain ⟨slot, _, moved⟩ := sweep_removed_entries result
  have kept := (List.eraseIdx_sublist table.entries slot).map key
  exact (moved.map key).nodup_iff.mpr (distinct.sublist kept)

theorem sweep_removed_iff {table : SlotTable α n} {wanted : κ} :
    (∃ taken after, table.sweep wanted = .removed taken after) ↔
      table.Ahead wanted ∧ ¬ table.Full := by
  constructor
  · rintro ⟨taken, after, result⟩
    obtain ⟨_, slot, free, last, _, _, below, _⟩ := sweep_removed_spec result
    exact ⟨⟨slot, taken, last.2.1, last.2.2.1, fun j upTo => below j (by have := last.1; omega)⟩,
      sweep_removed_not_full result⟩
  · rintro ⟨⟨i, entry, found, same, below⟩, room⟩
    have nonblank : wanted ≠ key (blank : α) := by
      rintro rfl
      exact not_usedAt found (not_not_intro same) (below i (Nat.le_refl i))
    have spec := table.sweep_spec wanted nonblank
    cases result : table.sweep wanted with
    | removed taken after => exact ⟨taken, after, rfl⟩
    | missed =>
        rw [result] at spec
        obtain ⟨free, _, notUsed, _, last⟩ := spec
        rcases Nat.lt_or_ge i free with before | behind
        · exact absurd same (last i before entry found)
        · exact absurd (below free behind) notUsed
    | bound hit => exact absurd (sweep_bound nonblank result).1 room

/-- No free slot comes before an entry for the key. -/
def Reaches (table : SlotTable α n) (wanted : κ) : Prop :=
  ∀ i entry, table.lookup i = some entry → Used entry → key entry = wanted →
    ∀ j < i, table.UsedAt j

instance (table : SlotTable α n) (wanted : κ) : Decidable (table.Reaches wanted) :=
  decidable_of_iff
    (∀ i < n, ((table.lookup i).any fun entry => Used entry ∧ key entry = wanted) →
      ∀ j < i, table.UsedAt j)
    (by
      constructor
      · intro below i entry found used same
        exact below i (lookup_lt found) (by simp [found, used, same])
      · intro reaches i _ matched
        obtain ⟨entry, found, both⟩ := (Option.any_eq_true _ _).mp matched
        obtain ⟨used, same⟩ := of_decide_eq_true both
        exact reaches i entry found used same)

omit [DecidableEq κ] in
theorem Compact.reaches {table : SlotTable α n} (compact : table.Compact) (wanted : κ) :
    table.Reaches wanted :=
  fun i entry found used _ j before => compact j i before ⟨entry, found, used⟩

omit [DecidableEq κ] in
theorem Ahead.used {table : SlotTable α n} {wanted : κ} (ahead : table.Ahead wanted) :
    ∃ i entry, table.lookup i = some entry ∧ key entry = wanted ∧ Used entry ∧
      ∀ j ≤ i, table.UsedAt j := by
  obtain ⟨i, entry, found, same, below⟩ := ahead
  obtain ⟨other, again, used⟩ := below i (Nat.le_refl i)
  rw [found, Option.some.injEq] at again
  exact ⟨i, entry, found, same, again ▸ used, below⟩

theorem ahead_iff {table : SlotTable α n} {wanted : κ}
    (distinct : (table.entries.map key).Nodup) :
    table.Ahead wanted ↔ table.Holds wanted ∧ table.Reaches wanted := by
  constructor
  · intro ahead
    obtain ⟨i, entry, found, same, used, below⟩ := ahead.used
    refine ⟨⟨entry, mem_entries_of_lookup found used, same⟩, ?_⟩
    intro k other foundK usedK sameK j before
    rcases Nat.lt_trichotomy i k with less | rfl | more
    · exact absurd (same.trans sameK.symm)
        (distinct_iff.mp distinct i k less entry other found foundK used)
    · exact below j (by omega)
    · exact below j (by omega)
  · rintro ⟨⟨entry, member, same⟩, reaches⟩
    obtain ⟨i, found⟩ := lookup_of_mem_entries member
    have used := (mem_entries.mp member).2
    refine ⟨i, entry, found, same, fun j upTo => ?_⟩
    rcases Nat.lt_or_eq_of_le upTo with before | rfl
    · exact reaches i entry found used same j before
    · exact ⟨entry, found, used⟩

theorem Compact.ahead_iff {table : SlotTable α n} {wanted : κ} (compact : table.Compact)
    (distinct : (table.entries.map key).Nodup) : table.Ahead wanted ↔ table.Holds wanted := by
  rw [SlotTable.ahead_iff distinct]
  exact and_iff_left (compact.reaches wanted)

theorem Reaches.sweep_missed {table : SlotTable α n} {wanted : κ}
    (reaches : table.Reaches wanted) (nonblank : wanted ≠ key (blank : α))
    (result : table.sweep wanted = .missed) : ¬ table.Holds wanted := by
  have spec := table.sweep_spec wanted nonblank
  rw [result] at spec
  obtain ⟨free, _, notUsed, _, last⟩ := spec
  rintro ⟨entry, member, same⟩
  obtain ⟨i, found⟩ := lookup_of_mem_entries member
  have used := (mem_entries.mp member).2
  rcases Nat.lt_trichotomy i free with before | here | behind
  · exact last i before entry found same
  · exact notUsed (here ▸ ⟨entry, found, used⟩)
  · exact notUsed (reaches i entry found used same free behind)

theorem Reaches.sweep_holds {table : SlotTable α n} {wanted : κ} (reaches : table.Reaches wanted)
    (held : table.Holds wanted) (room : ¬ table.Full) :
    ∃ taken after, table.sweep wanted = .removed taken after := by
  have nonblank : wanted ≠ key (blank : α) := by
    rintro rfl
    obtain ⟨entry, member, same⟩ := held
    exact (mem_entries.mp member).2 same
  cases result : table.sweep wanted with
  | removed taken after => exact ⟨taken, after, rfl⟩
  | missed => exact absurd held (reaches.sweep_missed nonblank result)
  | bound hit => exact absurd (sweep_bound nonblank result).1 room

theorem eraseIdx_distinct {contents : List α} {slot : Nat} {taken : α} {wanted : κ}
    (distinct : (contents.map key).Nodup) (found : contents[slot]? = some taken)
    (same : key taken = wanted) :
    contents.eraseIdx slot = contents.filter (fun entry => key entry ≠ wanted) := by
  subst same
  induction contents generalizing slot with
  | nil => simp at found
  | cons first rest ih =>
      obtain ⟨fresh, distinctRest⟩ := List.nodup_cons.mp distinct
      cases slot with
      | zero =>
          obtain rfl : first = taken := by simpa using found
          have kept : rest.filter (fun entry => key entry ≠ key first) = rest := by
            apply List.filter_eq_self.mpr
            intro entry member
            have different : key entry ≠ key first :=
              fun same => fresh (same ▸ List.mem_map_of_mem member)
            simpa using different
          simpa using kept.symm
      | succ slot =>
          have later : rest[slot]? = some taken := by simpa using found
          have different : key first ≠ key taken :=
            fun same => fresh (same ▸ List.mem_map_of_mem (List.mem_of_getElem? later))
          simp [different, ih distinctRest later]

theorem sweep_exact {table after : SlotTable α n} {wanted : κ} {taken : α}
    (distinct : (table.entries.map key).Nodup)
    (result : table.sweep wanted = .removed taken after) :
    after.entries.Perm (table.entries.filter (fun entry => key entry ≠ wanted)) := by
  obtain ⟨slot, found, moved⟩ := sweep_removed_entries result
  exact eraseIdx_distinct distinct found (sweep_removed_taken result).2 ▸ moved

theorem eq_of_countP {contents : List α} {wanted : κ}
    (unique : contents.countP (fun entry => key entry = wanted) ≤ 1) {slot : Nat} {taken : α}
    (found : contents[slot]? = some taken) (same : key taken = wanted) :
    ∀ entry, entry ∈ contents.eraseIdx slot → key entry ≠ wanted := by
  obtain ⟨inside, rfl⟩ := List.getElem?_eq_some_iff.mp found
  have moved := (List.getElem_cons_eraseIdx_perm inside).countP_eq fun entry => key entry = wanted
  rw [List.countP_cons_of_pos (by simpa using same)] at moved
  have none : (contents.eraseIdx slot).countP (fun entry => key entry = wanted) = 0 := by omega
  intro entry member
  simpa using List.countP_eq_zero.mp none entry member

/-- A key that occurs once is gone after the sweep, and nothing else is. -/
theorem sweep_unique {table after : SlotTable α n} {wanted : κ} {taken : α}
    (unique : table.entries.countP (fun entry => key entry = wanted) ≤ 1)
    (result : table.sweep wanted = .removed taken after) :
    (∀ entry, entry ∈ after.entries ↔ entry ∈ table.entries ∧ key entry ≠ wanted) ∧
      ∀ entry ∈ table.entries, key entry = wanted → entry = taken := by
  obtain ⟨slot, found, moved⟩ := sweep_removed_entries result
  have absent := eq_of_countP unique found (sweep_removed_taken result).2
  obtain ⟨inside, here⟩ := List.getElem?_eq_some_iff.mp found
  have whole (entry : α) :
      entry ∈ table.entries ↔ entry = taken ∨ entry ∈ table.entries.eraseIdx slot := by
    rw [← here, ← List.mem_cons]
    exact (List.getElem_cons_eraseIdx_perm inside).mem_iff.symm
  constructor
  · intro entry
    rw [moved.mem_iff]
    constructor
    · exact fun member => ⟨(whole entry).mpr (Or.inr member), absent entry member⟩
    · rintro ⟨member, different⟩
      apply ((whole entry).mp member).resolve_left
      rintro rfl
      exact different (sweep_removed_taken result).2
  · intro entry member same
    exact ((whole entry).mp member).resolve_right fun later => absent entry later same

/-- The table a sweep leaves behind. -/
def without (table : SlotTable α n) (wanted : κ) : SlotTable α n :=
  match table.sweep wanted with
  | .removed _ after => after
  | _ => table

theorem without_subset (table : SlotTable α n) (wanted : κ) :
    ∀ entry ∈ (table.without wanted).entries, entry ∈ table.entries := by
  intro entry member
  unfold without at member
  cases result : table.sweep wanted with
  | removed taken after => exact sweep_removed_subset result entry (by simpa [result] using member)
  | missed => simpa [result] using member
  | bound hit => simpa [result] using member

theorem without_kept {table : SlotTable α n} {wanted : κ}
    (kept : ∀ taken after, table.sweep wanted ≠ .removed taken after) :
    table.without wanted = table := by
  unfold without
  cases result : table.sweep wanted with
  | removed taken after => exact absurd result (kept taken after)
  | missed => rfl
  | bound hit => rfl

theorem without_eq_iff {table : SlotTable α n} {wanted : κ} :
    table.without wanted = table ↔ ¬ (table.Ahead wanted ∧ ¬ table.Full) := by
  rw [← sweep_removed_iff]
  constructor
  · rintro same ⟨taken, after, result⟩
    obtain ⟨slot, found, moved⟩ := sweep_removed_entries result
    obtain rfl : after = table := by simpa only [without, result] using same
    have inside : slot < after.entries.length := (List.getElem?_eq_some_iff.mp found).1
    have shorter := moved.length_eq
    rw [List.length_eraseIdx_of_lt inside] at shorter
    omega
  · exact fun kept => without_kept fun taken after result => kept ⟨taken, after, result⟩

theorem without_full {table : SlotTable α n} (full : table.Full) (wanted : κ) :
    table.without wanted = table :=
  without_kept fun _ _ result => sweep_removed_not_full result full

theorem without_absent {table : SlotTable α n} {wanted : κ} (absent : ¬ table.Holds wanted) :
    table.without wanted = table := by
  apply without_kept
  intro taken after result
  have found := sweep_removed_taken result
  exact absent ⟨taken, found.1, found.2⟩

theorem Compact.without {table : SlotTable α n} (compact : table.Compact) (wanted : κ) :
    (table.without wanted).Compact := by
  unfold SlotTable.without
  cases result : table.sweep wanted with
  | removed taken after => exact compact.sweep_removed result
  | missed => exact compact
  | bound hit => exact compact

theorem without_distinct {table : SlotTable α n} (distinct : (table.entries.map key).Nodup)
    (wanted : κ) : ((table.without wanted).entries.map key).Nodup := by
  unfold without
  cases result : table.sweep wanted with
  | removed taken after => exact sweep_removed_distinct distinct result
  | missed => exact distinct
  | bound hit => exact distinct

theorem without_gone_iff {table : SlotTable α n} (distinct : (table.entries.map key).Nodup)
    (wanted : κ) : ¬ (table.without wanted).Holds wanted ↔
      (table.Holds wanted → table.Reaches wanted ∧ ¬ table.Full) := by
  by_cases removes : ∃ taken after, table.sweep wanted = .removed taken after
  · obtain ⟨ahead, room⟩ := sweep_removed_iff.mp removes
    obtain ⟨taken, after, result⟩ := removes
    refine iff_of_true ?_ fun _ => ⟨((ahead_iff distinct).mp ahead).2, room⟩
    rintro ⟨entry, member, same⟩
    simp only [without, result] at member
    have left := (sweep_exact distinct result).mem_iff.mp member
    exact absurd same (by simpa using (List.mem_filter.mp left).2)
  · have kept : table.without wanted = table :=
      without_kept fun taken after result => removes ⟨taken, after, result⟩
    rw [kept]
    constructor
    · exact fun absent held => absurd held absent
    · intro found held
      obtain ⟨reaches, room⟩ := found held
      exact removes (sweep_removed_iff.mpr ⟨(ahead_iff distinct).mpr ⟨held, reaches⟩, room⟩)

theorem entries_without_iff {table : SlotTable α n} {wanted : κ} :
    table.entries.Perm (table.entries.filter (fun entry => key entry ≠ wanted)) ↔
      ¬ table.Holds wanted := by
  constructor
  · rintro exact ⟨entry, member, same⟩
    simpa [same] using (exact.mem_iff (a := entry)).mp member
  · intro absent
    have kept : table.entries.filter (fun entry => key entry ≠ wanted) = table.entries :=
      List.filter_eq_self.mpr fun entry member => by
        simpa using fun same => absent ⟨entry, member, same⟩
    rw [kept]

/-- The sweep takes out exactly the wanted key unless it cannot find the end of
the used slots. -/
theorem Compact.without_exact_iff {table : SlotTable α n} (compact : table.Compact)
    (distinct : (table.entries.map key).Nodup) (wanted : κ) :
    (table.without wanted).entries.Perm
        (table.entries.filter (fun entry => key entry ≠ wanted)) ↔
      (table.Holds wanted → ¬ table.Full) := by
  constructor
  · intro exact held full
    rw [without_full full] at exact
    exact entries_without_iff.mp exact held
  · intro room
    by_cases held : table.Holds wanted
    · obtain ⟨taken, after, result⟩ := (compact.reaches wanted).sweep_holds held (room held)
      have exact := sweep_exact distinct result
      simpa only [SlotTable.without, result] using exact
    · rw [without_absent held]
      exact entries_without_iff.mpr held

theorem Compact.without_holds {table : SlotTable α n} (compact : table.Compact)
    (distinct : (table.entries.map key).Nodup) (wanted other : κ) :
    (table.without wanted).Holds other ↔
      table.Holds other ∧ (other = wanted → table.Full) := by
  by_cases room : table.Full
  · rw [without_full room]
    exact (and_iff_left fun _ => room).symm
  · have exact := (compact.without_exact_iff distinct wanted).mpr fun _ => room
    simp only [Holds, exact.mem_iff, List.mem_filter, decide_eq_true_eq]
    constructor
    · rintro ⟨entry, ⟨member, different⟩, rfl⟩
      exact ⟨⟨entry, member, rfl⟩, fun same => absurd same different⟩
    · rintro ⟨⟨entry, member, rfl⟩, full⟩
      exact ⟨entry, ⟨member, fun same => room (full same)⟩, rfl⟩

end Sweep

end SlotTable
