import Mathlib.Data.List.Induction

/-!
Tables whose rows carry a number given by the table itself: a new row gets one
more than the greatest number there is, and only the row with the greatest
number is ever changed. Such a table is a list of rows numbered from 1 on, and
its history is append-only in front of the last row.
-/

namespace RowidTable

variable {ρ : Type}

def maxRowid (table : List (Nat × ρ)) : Nat :=
  table.foldr (fun entry most => max entry.1 most) 0

def insert (table : List (Nat × ρ)) (row : ρ) : List (Nat × ρ) :=
  table ++ [(maxRowid table + 1, row)]

def updateMax (table : List (Nat × ρ)) (change : ρ → ρ) : List (Nat × ρ) :=
  table.map fun entry => if entry.1 = maxRowid table then (entry.1, change entry.2) else entry

def number (rows : List ρ) : List (Nat × ρ) := (rows.zipIdx 1).map Prod.swap

def changeLast (change : ρ → ρ) (rows : List ρ) : List ρ :=
  rows.dropLast ++ (rows.getLast?.map change).toList

section Number

theorem number_concat (front : List ρ) (last : ρ) :
    number (front ++ [last]) = number front ++ [(front.length + 1, last)] := by
  simp [number, List.zipIdx_append, Nat.add_comm]

theorem number_map (change : ρ → ρ) (rows : List ρ) :
    number (rows.map change) = (number rows).map fun entry => (entry.1, change entry.2) := by
  rw [number, List.zipIdx_map, number, List.map_map, List.map_map]
  rfl

theorem maxRowid_concat (table : List (Nat × ρ)) (last : Nat × ρ) :
    maxRowid (table ++ [last]) = max (maxRowid table) last.1 := by
  induction table with
  | nil => simp [maxRowid]
  | cons first rest ih =>
      simp only [maxRowid, List.cons_append, List.foldr_cons] at ih ⊢
      rw [ih, Nat.max_assoc]

theorem maxRowid_number (rows : List ρ) : maxRowid (number rows) = rows.length := by
  induction rows using List.reverseRecOn with
  | nil => rfl
  | append_singleton front last ih =>
      rw [number_concat, maxRowid_concat, ih, List.length_append, List.length_singleton]
      exact Nat.max_eq_right (Nat.le_succ _)

theorem getElem?_number (rows : List ρ) (k : Nat) :
    (number rows)[k]? = rows[k]?.map fun row => (k + 1, row) := by
  simp [number, Function.comp_def, Nat.add_comm]

theorem mem_number {rows : List ρ} {rowid : Nat} {row : ρ} :
    (rowid, row) ∈ number rows ↔ ∃ k, rows[k]? = some row ∧ rowid = k + 1 := by
  rw [List.mem_iff_getElem?]
  constructor
  · rintro ⟨k, found⟩
    rw [getElem?_number] at found
    obtain ⟨other, here, same⟩ := Option.map_eq_some_iff.mp found
    obtain ⟨rfl, rfl⟩ := Prod.mk.inj same
    exact ⟨k, here, rfl⟩
  · rintro ⟨k, here, rfl⟩
    exact ⟨k, by rw [getElem?_number, here, Option.map_some]⟩

theorem insert_number (rows : List ρ) (row : ρ) :
    insert (number rows) row = number (rows ++ [row]) := by
  rw [insert, maxRowid_number, number_concat]

theorem number_length (rows : List ρ) : (number rows).length = rows.length := by
  simp [number]

theorem rows_number (rows : List ρ) : (number rows).map Prod.snd = rows := by
  rw [number, List.map_map]
  exact List.zipIdx_map_fst 1 rows

theorem rowids_number (rows : List ρ) : (number rows).map Prod.fst = List.range' 1 rows.length := by
  rw [number, List.map_map]
  exact List.zipIdx_map_snd 1 rows

end Number

section ChangeLast

theorem changeLast_concat (change : ρ → ρ) (front : List ρ) (last : ρ) :
    changeLast change (front ++ [last]) = front ++ [change last] := by
  simp [changeLast]

theorem changeLast_changeLast (first second : ρ → ρ) (rows : List ρ) :
    changeLast second (changeLast first rows) = changeLast (fun row => second (first row)) rows := by
  rcases List.eq_nil_or_concat rows with rfl | ⟨front, last, rfl⟩
  · rfl
  · rw [List.concat_eq_append, changeLast_concat, changeLast_concat, changeLast_concat]

theorem changeLast_id (rows : List ρ) : changeLast id rows = rows := by
  rcases List.eq_nil_or_concat rows with rfl | ⟨front, last, rfl⟩
  · rfl
  · rw [List.concat_eq_append, changeLast_concat, id]

theorem length_changeLast (change : ρ → ρ) (rows : List ρ) :
    (changeLast change rows).length = rows.length := by
  rcases List.eq_nil_or_concat rows with rfl | ⟨front, last, rfl⟩
  · rfl
  · rw [List.concat_eq_append, changeLast_concat, List.length_append, List.length_append, List.length_singleton,
      List.length_singleton]

theorem forall_changeLast {holds : ρ → Prop} {change : ρ → ρ} {rows : List ρ} (all : ∀ row ∈ rows, holds row)
    (changed : ∀ last ∈ rows.getLast?, holds last → holds (change last)) :
    ∀ row ∈ changeLast change rows, holds row := by
  intro row member
  rcases List.mem_append.mp member with front | back
  · exact all row (List.dropLast_subset _ front)
  · obtain ⟨last, found, rfl⟩ := Option.map_eq_some_iff.mp (Option.mem_toList.mp back)
    exact changed last found (all last (List.mem_of_getLast? found))

theorem updateMax_number (rows : List ρ) (change : ρ → ρ) :
    updateMax (number rows) change = number (changeLast change rows) := by
  rcases List.eq_nil_or_concat rows with rfl | ⟨front, last, rfl⟩
  · rfl
  · rw [List.concat_eq_append, changeLast_concat, number_concat, number_concat, updateMax,
      ← number_concat, maxRowid_number, number_concat, List.map_append]
    congr 1
    · -- the numbers in front are smaller
      apply (List.map_congr_left _).trans (List.map_id _)
      intro entry member
      obtain ⟨k, found⟩ := List.mem_iff_getElem?.mp member
      rw [getElem?_number] at found
      obtain ⟨row, inside, rfl⟩ := Option.map_eq_some_iff.mp found
      have below : k < front.length := (List.getElem?_eq_some_iff.mp inside).1
      have other : ¬ k + 1 = (front ++ [last]).length := by simp; omega
      rw [if_neg other, id]
    · simp

end ChangeLast

/-! What can happen to a table over time: rows in front of the last stay as they
are, and the last may change as `kept` allows. -/
section Grows

variable (kept : ρ → ρ → Prop)

def Grows (earlier later : List ρ) : Prop :=
  ∀ k row, earlier[k]? = some row → ∃ now, later[k]? = some now ∧
    (k + 1 < earlier.length → now = row) ∧ kept row now

variable {kept}

theorem Grows.refl (same : ∀ row, kept row row) (rows : List ρ) : Grows kept rows rows :=
  fun _ row found => ⟨row, found, fun _ => rfl, same row⟩

theorem Grows.length_le {earlier later : List ρ} (grows : Grows kept earlier later) :
    earlier.length ≤ later.length := by
  rcases Nat.eq_zero_or_pos earlier.length with empty | positive
  · omega
  · have inside : earlier.length - 1 < earlier.length := by omega
    obtain ⟨now, found, _⟩ := grows _ _ (List.getElem?_eq_getElem inside)
    have := (List.getElem?_eq_some_iff.mp found).1
    omega

theorem Grows.trans {earlier middle later : List ρ}
    (compose : ∀ first second third, kept first second → kept second third → kept first third)
    (before : Grows kept earlier middle) (after : Grows kept middle later) :
    Grows kept earlier later := by
  intro k row found
  obtain ⟨between, foundBetween, stays, keptBetween⟩ := before k row found
  obtain ⟨now, foundNow, stillStays, keptNow⟩ := after k between foundBetween
  refine ⟨now, foundNow, fun inFront => ?_, compose _ _ _ keptBetween keptNow⟩
  have longer := before.length_le
  rw [stillStays (by omega), stays inFront]

theorem Grows.concat (same : ∀ row, kept row row) (rows : List ρ) (row : ρ) :
    Grows kept rows (rows ++ [row]) := by
  intro k old found
  have inside := (List.getElem?_eq_some_iff.mp found).1
  exact ⟨old, by rw [List.getElem?_append_left inside, found], fun _ => rfl, same old⟩

theorem Grows.changeLast (same : ∀ row, kept row row) {change : ρ → ρ}
    (keeps : ∀ row, kept row (change row)) (rows : List ρ) :
    Grows kept rows (changeLast change rows) := by
  rcases List.eq_nil_or_concat rows with rfl | ⟨front, last, rfl⟩
  · intro k row found
    cases found
  · rw [List.concat_eq_append, changeLast_concat]
    intro k row found
    rcases Nat.lt_or_ge k front.length with inside | behind
    · rw [List.getElem?_append_left inside] at found ⊢
      exact ⟨row, found, fun _ => rfl, same row⟩
    · have bound := (List.getElem?_eq_some_iff.mp found).1
      rw [List.length_append, List.length_singleton] at bound
      obtain rfl : k = front.length := by omega
      obtain rfl : last = row := by simpa using found
      refine ⟨change last, by simp, fun inFront => ?_, keeps last⟩
      rw [List.length_append, List.length_singleton] at inFront
      omega

end Grows

end RowidTable
