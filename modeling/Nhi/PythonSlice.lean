import Mathlib.Data.List.Basic

/-!
Slices of a list as Python has them: an endpoint can be left out, a negative
one counts from the end, and one beyond either end stops there.
-/

namespace PythonSlice

variable {α : Type}

/-- Where an endpoint lies in a list of some length. -/
def place (length : Nat) (index : Int) : Nat :=
  if index < 0 then (length + index).toNat else min index.toNat length

def first (length : Nat) (start : Option Int) : Nat := (start.map (place length)).getD 0

def last (length : Nat) (stop : Option Int) : Nat := (stop.map (place length)).getD length

def slice (items : List α) (start stop : Option Int) : List α :=
  (items.take (last items.length stop)).drop (first items.length start)

theorem place_le (length : Nat) (index : Int) : place length index ≤ length := by
  rw [place]
  split <;> omega

theorem last_le (length : Nat) (stop : Option Int) : last length stop ≤ length := by
  cases stop with
  | none => exact Nat.le_refl _
  | some index => exact place_le length index

theorem slice_length (items : List α) (start stop : Option Int) :
    (slice items start stop).length = last items.length stop - first items.length start := by
  rw [slice, List.length_drop, List.length_take, Nat.min_eq_left (last_le _ _)]

theorem slice_eq_nil_iff {items : List α} {start stop : Option Int} :
    slice items start stop = [] ↔ last items.length stop ≤ first items.length start := by
  rw [← List.length_eq_zero_iff, slice_length]
  omega

theorem filter_zipIdx (items : List α) (begun low high : Nat) :
    ((items.zipIdx begun).filter fun entry => low ≤ entry.2 && entry.2 < high).map Prod.fst =
      (items.take (high - begun)).drop (low - begun) := by
  induction items generalizing begun with
  | nil => simp
  | cons item rest ih =>
      rw [List.zipIdx_cons, List.filter_cons]
      by_cases inside : low ≤ begun ∧ begun < high
      · obtain ⟨next, same⟩ : ∃ next, high - begun = next + 1 := ⟨high - begun - 1, by omega⟩
        have front : low - begun = 0 := by omega
        have later : low - (begun + 1) = 0 := by omega
        have rests : high - (begun + 1) = next := by omega
        simp [inside, ih, same, front, later, rests]
      · have outside : (decide (low ≤ begun) && decide (begun < high)) = false := by simpa using inside
        rw [outside, if_neg (by simp), ih]
        rcases Nat.lt_or_ge begun high with below | above
        · obtain ⟨next, same⟩ : ∃ next, high - begun = next + 1 := ⟨high - begun - 1, by omega⟩
          obtain ⟨skip, more⟩ : ∃ skip, low - begun = skip + 1 := ⟨low - begun - 1, by omega⟩
          have rests : high - (begun + 1) = next := by omega
          have skips : low - (begun + 1) = skip := by omega
          rw [same, more, rests, skips, List.take_succ_cons, List.drop_succ_cons]
        · have none : high - begun = 0 := by omega
          have still : high - (begun + 1) = 0 := by omega
          simp [none, still]

theorem filter_places {items : List α} {test : α → Bool} {low high : Nat}
    (between : ∀ k item, items[k]? = some item → (test item = true ↔ low ≤ k ∧ k < high)) :
    items.filter test = (items.take high).drop low := by
  have placed : items.zipIdx.filter (test ∘ Prod.fst) =
      items.zipIdx.filter fun entry => low ≤ entry.2 && entry.2 < high := by
    apply List.filter_congr
    rintro ⟨item, k⟩ member
    have found : items[k]? = some item := by
      simpa using List.mem_zipIdx_iff_getElem?.mp member
    rw [Function.comp_apply, Bool.eq_iff_iff, between k item found]
    simp
  have front := filter_zipIdx items 0 low high
  rw [← placed, ← List.filter_map, List.zipIdx_map_fst] at front
  exact front

end PythonSlice
