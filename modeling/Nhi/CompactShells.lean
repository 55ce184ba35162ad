import Nhi.System

/-!
The used slots of `shells` as a prefix, over all orders of the steps. The slot
an entry is written at was chosen earlier; if the table has shrunk since, the
entry lands behind a free slot, and the loops that stop there never reach it.
-/

namespace Nhi

open SlotTable RunHistory

/-- An entry that is written is written at a slot below which all are used. -/
def NoHole (before : World) : Label → Prop
  | .register closing =>
      match before.daemon with
      | .scanned killEvent indicator slot =>
          match finishSession closing killEvent indicator before.db with
          | .entered _ _ => slot < shellsMaxEntries → ∀ i < slot, before.maps.shells.UsedAt i
          | _ => True
      | _ => True
  | _ => True

theorem pending_nonzero {past : List (World × Label)} {last : World}
    (run : Run step World.start past last) : ∀ pid, last.Pending pid → pid ≠ 0#32 := by
  induction run with
  | start => simp
  | next earlier taken nonzero =>
      intro pid pending
      rcases pending_step taken pending with before | ⟨sig, target, reserved, rfl, _⟩
      · exact nonzero pid before
      · exact (step_kill taken).1

theorem noHole_iff {before : World} {label : Label} :
    NoHole before label ↔ ∀ slot shell, before.entering label = some (slot, shell) →
      slot < shellsMaxEntries → ∀ i < slot, before.maps.shells.UsedAt i := by
  unfold NoHole World.entering
  cases label with
  | register closing =>
      cases before.daemon with
      | scanned killEvent indicator slot =>
          dsimp only
          cases finishSession closing killEvent indicator before.db <;> simp
      | _ => simp
  | _ => simp

theorem step_compact_iff {before after : World} {label : Label}
    (taken : step before label = some after) (compact : before.maps.shells.Compact)
    (nonzero : ∀ pid, before.Pending pid → pid ≠ 0#32) :
    after.maps.shells.Compact ↔ NoHole before label := by
  rw [noHole_iff]
  rcases step_shells taken with
    ⟨same, none⟩ | ⟨_, _, _, rfl, result⟩ | ⟨call, room, buffer, rfl, same⟩ |
      ⟨slot, shell, enters, same⟩
  · rw [same, none]
    exact iff_of_true compact nofun
  · exact iff_of_true (compact.sweep_removed result) nofun
  · rw [same, compact_keys (ksysWrite_keys call room before.maps buffer)]
    exact iff_of_true compact nofun
  · -- the only step that can fill a slot; an entry for the pid 0 would leave it free
    obtain ⟨_, killEvent, _, _, phase, pid, _⟩ := entering_scanned enters
    have used : Slot.Used shell := by
      rw [shell_used, pid]
      exact nonzero killEvent.shellPid (Or.inr (by rw [phase]; rfl))
    rw [same, update_compact_iff compact used, enters]
    constructor
    · rintro below _ _ ⟨⟩
      exact below
    · exact fun below => below slot shell rfl

/-- The table is compact in every state of a run precisely when no step of the
run writes an entry above a free slot. -/
theorem shells_compact_iff {past : List (World × Label)} {last : World}
    (run : Run step World.start past last) :
    (∀ world ∈ visited past last, world.maps.shells.Compact) ↔
      Always (fun _ before label => NoHole before label) past := by
  induction run with
  | start =>
      apply iff_of_true _ trivial
      intro world member
      obtain rfl : world = World.start := by simpa [visited] using member
      exact empty_compact
  | next earlier taken ih =>
      rename_i past before after label
      have split : (∀ world ∈ visited ((before, label) :: past) after,
          world.maps.shells.Compact) ↔
          after.maps.shells.Compact ∧ ∀ world ∈ visited past before, world.maps.shells.Compact := by
        simp [visited]
      rw [split, ih, Always]
      apply and_congr_left
      intro always
      exact step_compact_iff taken (ih.mpr always before List.mem_cons_self)
        (pending_nonzero earlier)

theorem shells_compact_registered :
    ∃ past last, Run step World.start past last ∧
      (last.maps.shells.lookup 0).map Shell.shellPid = some 1#32 ∧
      ((∀ world ∈ visited past last, world.maps.shells.Compact) ↔
        Always (fun _ before label => NoHole before label) past) := by
  obtain ⟨past, last, replayed, entered⟩ := replay_some step World.start (registration 1#32)
    (fun _ world => (world.maps.shells.lookup 0).map Shell.shellPid = some 1#32) (by decide)
  exact ⟨past, last, replayed, entered, shells_compact_iff replayed⟩

def staleSlot : List Label :=
  registration 1#32 ++ [.kill 2#32 SIGUSR1 nhidHash true, .take sampleOutside,
    .create sampleOpening, .scan, .exit 1#32 true, .register sampleClosing]

theorem shells_hole_reached :
    ∃ past last, Run step World.start past last ∧ ¬ last.maps.shells.Compact := by
  obtain ⟨past, last, run, slots⟩ := replay_some step World.start staleSlot
    (fun _ world => (world.maps.shells.lookup 0).map Shell.shellPid = some 0#32 ∧
      (world.maps.shells.lookup 1).map Shell.shellPid = some 2#32) (by decide)
  refine ⟨past, last, run, fun compact => ?_⟩
  obtain ⟨free, freeFound, freePid⟩ := Option.map_eq_some_iff.mp slots.1
  obtain ⟨used, usedFound, usedPid⟩ := Option.map_eq_some_iff.mp slots.2
  have behind : last.maps.shells.UsedAt 1 := ⟨used, usedFound, by simp [usedPid]⟩
  exact not_usedAt freeFound (by simp [freePid]) (compact 0 1 (by decide) behind)

end Nhi
