import Nhi.SwitchScan

/-!
A switch in a text. The scan sees a stream through a window; the text lies in the
stream from some position on, and behind it there may be anything. When every
sequence that begins in the text, also where the text ends before the sequence
does, is whole and begins in the window, the scan finds those of the text.
-/

namespace Switch

variable {β : Type} (switch : Switch β)

/-- The text as a stream, with blanks behind it. -/
def spread (text : List β) : Nat → β := fun p => text.getD p switch.blank

def Enters (text : List β) : Prop := ∃ i < text.length, switch.OnAt (switch.spread text) i

def Leaves (text : List β) : Prop := ∃ i < text.length, switch.OffAt (switch.spread text) i

def Begins (text : List β) (i : Nat) : Prop :=
  ∀ d < switch.lead.length, i + d < text.length → switch.lead[d]? = text[i + d]?

def Recognised (window : Nat) (text : List β) : Prop :=
  ∀ i < text.length, switch.Begins text i → i < window ∧ i + switch.width ≤ text.length

theorem spread_inside {text : List β} {p : Nat} (inside : p < text.length) : switch.spread text p = text[p] := by
  simp [spread, inside]

theorem leadAt_begins {stream : Nat → β} {text : List β} {i j : Nat}
    (same : ∀ d, i + d < text.length → stream (j + d) = switch.spread text (i + d))
    (starts : switch.LeadAt stream j) : switch.Begins text i := by
  intro d inLead inText
  rw [starts d inLead, same d inText, switch.spread_inside inText, List.getElem?_eq_getElem inText]

variable [DecidableEq β]

instance (text : List β) : Decidable (switch.Enters text) := inferInstanceAs (Decidable (∃ i < text.length, _))

instance (text : List β) : Decidable (switch.Leaves text) := inferInstanceAs (Decidable (∃ i < text.length, _))

instance (text : List β) (i : Nat) : Decidable (switch.Begins text i) :=
  inferInstanceAs (Decidable (∀ d < _, _ → _))

instance (window : Nat) (text : List β) : Decidable (switch.Recognised window text) :=
  inferInstanceAs (Decidable (∀ i < text.length, _ → _))

/-- The text with the sequences that switch off blanked. -/
def blanked (text : List β) : List β :=
  (List.range text.length).map (switch.erase (switch.spread text) 0 text.length)

section Held

variable {switch} {stream : Nat → β} {text : List β} {first stop window : Nat}
  (held : ∀ p < text.length, stream (first + p) = switch.spread text p) (recognised : switch.Recognised window text)

include held recognised

theorem sequence_held {i : Nat} (inside : i < text.length) (final : β) :
    switch.LeadAt stream (first + i) ∧ stream (first + i + switch.lead.length) = final ↔
      switch.LeadAt (switch.spread text) i ∧ switch.spread text (i + switch.lead.length) = final := by
  have same (d : Nat) (within : i + d < text.length) : stream (first + i + d) = switch.spread text (i + d) := by
    rw [Nat.add_assoc]
    exact held _ within
  by_cases begins : switch.Begins text i
  · obtain ⟨_, whole⟩ := recognised i inside begins
    rw [width] at whole
    rw [leadAt_congr fun d below => same d (by omega), same _ (by omega)]
  · apply iff_of_false
    · exact fun starts => begins (switch.leadAt_begins same starts.1)
    · exact fun starts => begins (switch.leadAt_begins (fun _ _ => rfl) starts.1)

variable (reach : ∀ i < window, i + switch.width ≤ text.length → first + i < stop) (short : stop ≤ first + text.length)

include short

theorem erase_behind {p : Nat} (behind : text.length ≤ p) :
    switch.erase stream first stop (first + p) = stream (first + p) := by
  apply if_neg
  rintro ⟨i, below, above, off, _, within⟩
  obtain ⟨j, rfl⟩ := Nat.exists_eq_add_of_le above
  have start : j < text.length := by omega
  have read := (sequence_held held recognised start switch.off).mp off
  obtain ⟨_, whole⟩ := recognised j start (switch.leadAt_begins (fun _ _ => rfl) read.1)
  omega

include reach

theorem sequences_held (final : β) :
    (∃ i < stop, first ≤ i ∧ switch.LeadAt stream i ∧ stream (i + switch.lead.length) = final) ↔
      ∃ i < text.length, switch.LeadAt (switch.spread text) i ∧
        switch.spread text (i + switch.lead.length) = final := by
  constructor
  · rintro ⟨i, below, above, sequence⟩
    obtain ⟨p, rfl⟩ := Nat.exists_eq_add_of_le above
    have inside : p < text.length := by omega
    exact ⟨p, inside, (sequence_held held recognised inside final).mp sequence⟩
  · rintro ⟨i, inside, sequence⟩
    obtain ⟨seen, whole⟩ := recognised i inside (switch.leadAt_begins (fun _ _ => rfl) sequence.1)
    exact ⟨first + i, reach i seen whole, Nat.le_add_right first i,
      (sequence_held held recognised inside final).mpr sequence⟩

theorem enters_held : (∃ i < stop, first ≤ i ∧ switch.OnAt stream i) ↔ switch.Enters text :=
  sequences_held held recognised reach short switch.on

theorem leaves_held : (∃ i < stop, first ≤ i ∧ switch.OffAt stream i) ↔ switch.Leaves text :=
  sequences_held held recognised reach short switch.off

theorem erase_held {p : Nat} (inside : p < text.length) :
    switch.erase stream first stop (first + p) = switch.erase (switch.spread text) 0 text.length p := by
  have same : switch.Erased stream first stop (first + p) ↔
      switch.Erased (switch.spread text) 0 text.length p := by
    constructor
    · rintro ⟨i, below, above, off, covered, within⟩
      obtain ⟨j, rfl⟩ := Nat.exists_eq_add_of_le above
      have start : j < text.length := by omega
      exact ⟨j, start, Nat.zero_le j, (sequence_held held recognised start switch.off).mp off, by omega, by omega⟩
    · rintro ⟨i, start, _, off, covered, within⟩
      obtain ⟨seen, whole⟩ := recognised i start (switch.leadAt_begins (fun _ _ => rfl) off.1)
      exact ⟨first + i, reach i seen whole, Nat.le_add_right first i,
        (sequence_held held recognised start switch.off).mpr off, by omega, by omega⟩
  simp only [erase, same, held p inside]

end Held

end Switch
