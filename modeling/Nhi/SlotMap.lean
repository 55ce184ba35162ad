import Nhi.SlotTable
import Mathlib.Logic.Function.Basic

/-!
A table of slots as a finite map from keys to entries. On a table whose used
slots are a prefix and whose keys are distinct, the searches read the map, and
the three ways to write a slot change it at one key.
-/

namespace SlotTable

open Slot

variable {α κ : Type} {n : Nat} [Slot α κ] [DecidableEq κ]

/-- The map a table stands for. -/
def asMap (table : SlotTable α n) (wanted : κ) : Option α :=
  table.entries.find? fun entry => key entry = wanted

def Search.entry : Search α → Option α
  | .found _ entry => some entry
  | .free _ | .bound => none

@[simp] theorem asMap_empty : (empty : SlotTable α n).asMap = fun _ => none := by
  funext wanted
  simp [asMap]

variable {table : SlotTable α n} {wanted : κ} {entry : α}

theorem asMap_some (found : table.asMap wanted = some entry) : entry ∈ table.entries ∧ key entry = wanted :=
  ⟨List.mem_of_find?_eq_some found, by simpa using List.find?_some found⟩

theorem asMap_none : table.asMap wanted = none ↔ ¬ table.Holds wanted := by
  simp [asMap, Holds]

theorem asMap_blank : table.asMap (key (blank : α)) = none := by
  rw [asMap_none]
  rintro ⟨entry, member, same⟩
  exact (mem_entries.mp member).2 same

variable (distinct : (table.entries.map key).Nodup)

include distinct

theorem asMap_of_mem (member : entry ∈ table.entries) : table.asMap (key entry) = some entry := by
  cases found : table.asMap (key entry) with
  | none => exact absurd ⟨entry, member, rfl⟩ (asMap_none.mp found)
  | some other =>
      obtain ⟨listed, same⟩ := asMap_some found
      rw [List.inj_on_of_nodup_map distinct listed member same]

theorem asMap_eq_some : table.asMap wanted = some entry ↔ entry ∈ table.entries ∧ key entry = wanted := by
  refine ⟨asMap_some, ?_⟩
  rintro ⟨member, rfl⟩
  exact asMap_of_mem distinct member

/-! Reading. -/
section Reading

theorem Compact.search_asMap (compact : table.Compact) (wanted : κ) :
    (table.search wanted).entry = table.asMap wanted := by
  cases result : table.search wanted with
  | found index entry =>
      obtain ⟨_, member, same⟩ := search_found result
      exact ((asMap_eq_some distinct).mpr ⟨member, same⟩).symm
  | free index => exact (asMap_none.mpr (compact.search_free result)).symm
  | bound => exact (asMap_none.mpr (search_bound result).2).symm

theorem Compact.sweep_asMap (compact : table.Compact) (nonblank : wanted ≠ key (blank : α)) :
    (table.sweep wanted).hit = table.asMap wanted := by
  cases hit : (table.sweep wanted).hit with
  | some taken =>
      obtain ⟨member, same⟩ := sweep_hit nonblank hit
      exact ((asMap_eq_some distinct).mpr ⟨member, same⟩).symm
  | none =>
      refine (asMap_none.mpr ?_).symm
      cases result : table.sweep wanted with
      | removed taken after =>
          rw [result] at hit
          cases hit
      | missed => exact (compact.reaches wanted).sweep_missed nonblank result
      | bound last =>
          rw [result] at hit
          exact (sweep_bound nonblank result).2.2 hit

end Reading

/-! Writing. -/
section Writing

omit distinct in
theorem Compact.asMap_insert (compact : table.Compact) {index : Nat} (chosen : table.firstFree = some index)
    (used : Used entry) (absent : ¬ table.Holds (key entry)) :
    (table.update index entry).asMap = Function.update table.asMap (key entry) (some entry) := by
  funext wanted
  rw [asMap, (compact.insert_entries chosen used).2, List.find?_append, ← asMap]
  by_cases here : wanted = key entry
  · rw [here, Function.update_self, asMap_none.mpr absent]
    simp
  · rw [Function.update_of_ne here]
    simp [Ne.symm here]

theorem Compact.asMap_without (compact : table.Compact) (room : table.Holds wanted → ¬ table.Full) :
    (table.without wanted).asMap = Function.update table.asMap wanted none := by
  have left := (compact.without_exact_iff distinct wanted).mpr room
  funext other
  apply Option.ext
  intro entry
  rw [asMap_eq_some (without_distinct distinct wanted), left.mem_iff, List.mem_filter, decide_eq_true_eq]
  by_cases here : other = wanted
  · subst here
    rw [Function.update_self]
    constructor
    · rintro ⟨⟨_, different⟩, same⟩
      exact absurd same different
    · exact nofun
  · rw [Function.update_of_ne here, asMap_eq_some distinct]
    constructor
    · rintro ⟨⟨member, _⟩, same⟩
      exact ⟨member, same⟩
    · rintro ⟨member, same⟩
      exact ⟨⟨member, fun stays => here (same.symm.trans stays)⟩, same⟩

theorem asMap_replace {index : Nat} {old : α} (found : table.lookup index = some old) (used : Used old)
    (same : key entry = key old) :
    (table.update index entry).asMap = Function.update table.asMap (key old) (some entry) := by
  have still : Used entry := fun free => used (same.symm.trans free)
  have inside := lookup_lt found
  have keys : (table.update index entry).slots.map key = table.slots.map key := update_keys found same
  have kept : ((table.update index entry).entries.map key).Nodup := by
    rw [entries_keys, keys, ← entries_keys]
    exact distinct
  have member : entry ∈ (table.update index entry).entries :=
    mem_entries_of_lookup (lookup_update_self table index entry inside) still
  have oldMember : old ∈ table.entries := mem_entries_of_lookup found used
  funext wanted
  by_cases here : wanted = key old
  · rw [here, Function.update_self, ← same]
    exact asMap_of_mem kept member
  · rw [Function.update_of_ne here]
    apply Option.ext
    intro other
    rw [asMap_eq_some kept, asMap_eq_some distinct]
    refine and_congr_left fun named => ⟨fun inTable => ?_, fun inTable => ?_⟩
    · rcases mem_entries_update inTable with rfl | earlier
      · exact absurd (named.symm.trans same) here
      · exact earlier
    · obtain ⟨j, there⟩ := lookup_of_mem_entries inTable
      have apart : index ≠ j := by
        rintro rfl
        rw [found, Option.some.injEq] at there
        exact here (there ▸ named.symm)
      exact mem_entries_of_lookup ((lookup_update_other table index j entry apart).trans there)
        (mem_entries.mp inTable).2

end Writing

end SlotTable
