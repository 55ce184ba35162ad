import Mathlib.Data.List.Basic

/-!
Control sequences in a stream: a fixed lead followed by one of two final
symbols, which switch something on or off. The first symbol of the lead occurs
nowhere else in a sequence, so two sequences never overlap, and overwriting the
sequences already read with a blank neither makes nor hides a later one.

When a stream is known only below some position, a sequence that could begin
there is `Open`: what follows decides whether it switches on or off.
-/

structure Switch (β : Type) where
  lead : List β
  on : β
  off : β
  blank : β
  nonempty : 0 < lead.length
  apart : ∀ d < lead.length, 0 < d → lead[d]? ≠ lead[0]?
  offApart : lead[0]? ≠ some off
  blankApart : blank ∉ lead
  differ : on ≠ off

namespace Switch

variable {β : Type} (switch : Switch β)

def width : Nat := switch.lead.length + 1

def LeadAt (stream : Nat → β) (i : Nat) : Prop :=
  ∀ d < switch.lead.length, switch.lead[d]? = some (stream (i + d))

def OnAt (stream : Nat → β) (i : Nat) : Prop :=
  switch.LeadAt stream i ∧ stream (i + switch.lead.length) = switch.on

def OffAt (stream : Nat → β) (i : Nat) : Prop :=
  switch.LeadAt stream i ∧ stream (i + switch.lead.length) = switch.off

instance [DecidableEq β] (stream : Nat → β) (i : Nat) : Decidable (switch.LeadAt stream i) :=
  inferInstanceAs (Decidable (∀ d < _, _))

instance [DecidableEq β] (stream : Nat → β) (i : Nat) : Decidable (switch.OnAt stream i) :=
  inferInstanceAs (Decidable (_ ∧ _))

instance [DecidableEq β] (stream : Nat → β) (i : Nat) : Decidable (switch.OffAt stream i) :=
  inferInstanceAs (Decidable (_ ∧ _))

variable {switch}

theorem leadAt_congr {first second : Nat → β} {i j : Nat}
    (same : ∀ d < switch.lead.length, first (i + d) = second (j + d)) :
    switch.LeadAt first i ↔ switch.LeadAt second j :=
  forall_congr' fun d => forall_congr' fun inside => by rw [same d inside]

theorem onAt_congr {first second : Nat → β} {i j : Nat}
    (same : ∀ d < switch.width, first (i + d) = second (j + d)) :
    switch.OnAt first i ↔ switch.OnAt second j := by
  simp only [width] at same
  rw [OnAt, OnAt, leadAt_congr fun d below => same d (by omega), same _ (by omega)]

theorem offAt_congr {first second : Nat → β} {i j : Nat}
    (same : ∀ d < switch.width, first (i + d) = second (j + d)) :
    switch.OffAt first i ↔ switch.OffAt second j := by
  simp only [width] at same
  rw [OffAt, OffAt, leadAt_congr fun d below => same d (by omega), same _ (by omega)]

theorem LeadAt.head {stream : Nat → β} {i : Nat} (starts : switch.LeadAt stream i) :
    switch.lead[0]? = some (stream i) := by
  simpa using starts 0 switch.nonempty

theorem not_blank (switch : Switch β) (d : Nat) : switch.lead[d]? ≠ some switch.blank :=
  fun same => switch.blankApart (List.mem_of_getElem? same)

/-- No sequence starts strictly inside another one. -/
theorem OffAt.apart {stream : Nat → β} {i j : Nat} (off : switch.OffAt stream i)
    (after : i < j) (inside : j < i + switch.width) : ¬ switch.LeadAt stream j := by
  intro starts
  have head := starts.head
  rcases Nat.lt_or_ge j (i + switch.lead.length) with inLead | atEnd
  · have here := off.1 (j - i) (by omega)
    rw [Nat.add_sub_cancel' (by omega)] at here
    exact switch.apart (j - i) (by omega) (by omega) (here.trans head.symm)
  · have last : j = i + switch.lead.length := by
      simp only [width] at inside
      omega
    rw [last, off.2] at head
    exact switch.offApart head

section Cut

variable {stream other : Nat → β} {cut i j : Nat}

/-- The stream is known below `cut`, and a sequence at `i` reaches past it. -/
def Open (switch : Switch β) (stream : Nat → β) (cut i : Nat) : Prop :=
  cut < i + switch.width ∧
    ∀ d < switch.lead.length, i + d < cut → switch.lead[d]? = some (stream (i + d))

instance [DecidableEq β] (stream : Nat → β) (cut i : Nat) : Decidable (switch.Open stream cut i) :=
  inferInstanceAs (Decidable (_ ∧ ∀ d < _, _))

/-- The known part, with the sequence at `i` completed by `final`. -/
def complete (switch : Switch β) (stream : Nat → β) (cut i : Nat) (final : β) : Nat → β :=
  fun p =>
    if p < cut then stream p
    else if p < i then switch.blank
    else ((switch.lead ++ [final])[p - i]?).getD switch.blank

theorem leadAt_open (same : ∀ p < cut, other p = stream p) (starts : switch.LeadAt other j)
    (past : cut < j + switch.width) : switch.Open stream cut j :=
  ⟨past, fun d inside known => by rw [starts d inside, same _ known]⟩

theorem onAt_inside (same : ∀ p < cut, other p = stream p) (inside : i + switch.width ≤ cut) :
    switch.OnAt other i ↔ switch.OnAt stream i :=
  onAt_congr fun d below => same (i + d) (by omega)

theorem offAt_inside (same : ∀ p < cut, other p = stream p) (inside : i + switch.width ≤ cut) :
    switch.OffAt other i ↔ switch.OffAt stream i :=
  offAt_congr fun d below => same (i + d) (by omega)

theorem complete_known (i : Nat) (final : β) :
    ∀ p < cut, switch.complete stream cut i final p = stream p :=
  fun _ known => if_pos known

theorem Open.leadAt (opened : switch.Open stream cut i) (final : β) :
    switch.LeadAt (switch.complete stream cut i final) i := by
  intro d inside
  by_cases known : i + d < cut
  · rw [complete_known i final _ known]
    exact opened.2 d inside known
  · have reached : ¬ i + d < i := by omega
    simp [complete, known, reached, List.getElem?_append_left inside, inside]

theorem Open.final (opened : switch.Open stream cut i) (final : β) :
    switch.complete stream cut i final (i + switch.lead.length) = final := by
  have unknown : ¬ i + switch.lead.length < cut := by
    have past := opened.1
    simp only [width] at past
    omega
  have reached : ¬ i + switch.lead.length < i := by omega
  simp [complete, unknown, reached]

theorem complete_beyond (opened : switch.Open stream cut i) (final : β)
    (beyond : i + switch.width ≤ j) : switch.complete stream cut i final j = switch.blank := by
  have past := opened.1
  have outside : (switch.lead ++ [final]).length ≤ j - i := by
    simp only [width] at beyond
    simp only [List.length_append, List.length_singleton]
    omega
  simp only [complete, if_neg (show ¬ j < cut by omega), if_neg (show ¬ j < i by omega),
    List.getElem?_eq_none outside, Option.getD_none]

theorem complete_off_onAt (opened : switch.Open stream cut i)
    (first : ∀ k, j ≤ k → k < i → ¬ switch.Open stream cut k)
    (on : switch.OnAt (switch.complete stream cut i switch.off) j) :
    switch.OnAt stream j ∧ j + switch.width ≤ cut := by
  have same : ∀ p < cut, switch.complete stream cut i switch.off p = stream p :=
    complete_known i switch.off
  have off : switch.OffAt (switch.complete stream cut i switch.off) i :=
    ⟨opened.leadAt switch.off, opened.final switch.off⟩
  by_cases past : cut < j + switch.width
  · exfalso
    rcases Nat.lt_trichotomy j i with before | here | after
    · exact first j (Nat.le_refl j) before (leadAt_open same on.1 past)
    · subst here
      exact switch.differ (on.2.symm.trans off.2)
    · by_cases inside : j < i + switch.width
      · exact off.apart after inside on.1
      · have head := on.1.head
        rw [complete_beyond opened switch.off (by omega)] at head
        exact switch.not_blank 0 head
  · exact ⟨(onAt_inside same (by omega)).mp on, by omega⟩

end Cut

variable [DecidableEq β]

/-- The last sequence that starts below the given position: true for `on`. -/
def lastSwitch (switch : Switch β) (stream : Nat → β) : Nat → Option Bool
  | 0 => none
  | i + 1 =>
      if switch.OnAt stream i then some true
      else if switch.OffAt stream i then some false
      else switch.lastSwitch stream i

theorem lastSwitch_none {stream : Nat → β} {stop : Nat}
    (none : switch.lastSwitch stream stop = none) :
    ∀ i < stop, ¬ switch.OnAt stream i ∧ ¬ switch.OffAt stream i := by
  induction stop with
  | zero => exact fun i below => absurd below (Nat.not_lt_zero i)
  | succ stop ih =>
      by_cases on : switch.OnAt stream stop
      · simp [lastSwitch, on] at none
      · by_cases off : switch.OffAt stream stop
        · simp [lastSwitch, on, off] at none
        · intro i below
          rcases Nat.lt_succ_iff_lt_or_eq.mp below with before | here
          · exact ih (by simpa [lastSwitch, on, off] using none) i before
          · exact here ▸ ⟨on, off⟩

/-- Position `p` lies in an `off` sequence that starts in `[first, stop)`. -/
def Erased (switch : Switch β) (stream : Nat → β) (first stop p : Nat) : Prop :=
  ∃ i < stop, first ≤ i ∧ switch.OffAt stream i ∧ i ≤ p ∧ p < i + switch.width

instance (stream : Nat → β) (first stop p : Nat) :
    Decidable (switch.Erased stream first stop p) :=
  inferInstanceAs (Decidable (∃ i < stop, _))

/-- The stream with the `off` sequences that start in `[first, stop)` blanked. -/
def erase (switch : Switch β) (stream : Nat → β) (first stop : Nat) : Nat → β :=
  fun p => if switch.Erased stream first stop p then switch.blank else stream p

theorem erase_none {stream : Nat → β} {first stop : Nat}
    (none : ∀ i < stop, first ≤ i → ¬ switch.OffAt stream i) :
    switch.erase stream first stop = stream := by
  funext p
  apply if_neg
  rintro ⟨i, below, above, off, _⟩
  exact none i below above off

theorem erase_leadAt {stream : Nat → β} {first stop i : Nat} (beyond : stop ≤ i) :
    switch.LeadAt (switch.erase stream first stop) i ↔ switch.LeadAt stream i := by
  by_cases covered : switch.Erased stream first stop i
  · have blanked : switch.erase stream first stop i = switch.blank := if_pos covered
    obtain ⟨j, below, _, off, _, inside⟩ := covered
    constructor
    · intro starts
      exact absurd (blanked ▸ starts.head) (switch.not_blank 0)
    · intro starts
      exact absurd starts (off.apart (by omega) inside)
  · apply leadAt_congr
    intro d inside
    apply if_neg
    rintro ⟨j, below, above, off, _, within⟩
    exact covered ⟨j, below, above, off, by omega, by omega⟩

theorem erase_final {stream : Nat → β} {first stop i : Nat} (beyond : stop ≤ i)
    (starts : switch.LeadAt stream i) :
    switch.erase stream first stop (i + switch.lead.length) =
      stream (i + switch.lead.length) := by
  apply if_neg
  rintro ⟨j, below, _, off, _, within⟩
  exact off.apart (by omega) (by omega) starts

theorem erase_ending {stream : Nat → β} {first stop i : Nat} (beyond : stop ≤ i) (final : β) :
    switch.LeadAt (switch.erase stream first stop) i ∧
        switch.erase stream first stop (i + switch.lead.length) = final ↔
      switch.LeadAt stream i ∧ stream (i + switch.lead.length) = final := by
  rw [erase_leadAt beyond]
  exact and_congr_right fun starts => by rw [erase_final beyond starts]

theorem erase_step {stream : Nat → β} {first i : Nat} (start : first ≤ i) (p : Nat) :
    switch.erase stream first (i + 1) p =
      if switch.OffAt stream i ∧ i ≤ p ∧ p < i + switch.width then switch.blank
      else switch.erase stream first i p := by
  have split : switch.Erased stream first (i + 1) p ↔
      (switch.OffAt stream i ∧ i ≤ p ∧ p < i + switch.width) ∨
        switch.Erased stream first i p := by
    constructor
    · rintro ⟨j, below, above, off, covered⟩
      rcases Nat.lt_succ_iff_lt_or_eq.mp below with earlier | here
      · exact Or.inr ⟨j, earlier, above, off, covered⟩
      · exact Or.inl ⟨here ▸ off, here ▸ covered⟩
    · rintro (⟨off, covered⟩ | ⟨j, below, above, off, covered⟩)
      · exact ⟨i, by omega, start, off, covered⟩
      · exact ⟨j, by omega, above, off, covered⟩
  unfold erase
  by_cases here : switch.OffAt stream i ∧ i ≤ p ∧ p < i + switch.width
  · rw [if_pos here, if_pos (split.mpr (Or.inl here))]
  · rw [if_neg here]
    by_cases before : switch.Erased stream first i p
    · rw [if_pos before, if_pos (split.mpr (Or.inr before))]
    · rw [if_neg before, if_neg (fun after => (split.mp after).elim here before)]

end Switch
