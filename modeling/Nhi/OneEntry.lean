import Nhi.CompactShells
import Nhi.GhostShells
import Nhi.NearestShell

/-!
One entry for a shell process. A registration writes its entry without looking
for the process in the table; an exit takes out a single entry, the last of the
process that no free slot comes before, and none from a full table.
-/

namespace Nhi

open SlotTable RunHistory

/-- The last that is known of the process is its exit. -/
def Gone : List (World × Label) → Pid → Prop
  | [], _ => False
  | (_, label) :: past, pid => label.exits = some pid ∨
      (label.actor ≠ some pid ∧ label.forked ≠ some pid ∧ Gone past pid)

instance decidableGone : ∀ (past : List (World × Label)) (pid : Pid), Decidable (Gone past pid)
  | [], _ => inferInstanceAs (Decidable False)
  | (_, _) :: past, pid =>
      have : Decidable (Gone past pid) := decidableGone past pid
      inferInstanceAs (Decidable (_ ∨ (_ ∧ _ ∧ _)))

structure OneEntry (past : List (World × Label)) (world : World) : Prop where
  distinct : (world.maps.shells.entries.map Shell.shellPid).Nodup
  living : ∀ shell ∈ world.maps.shells.entries, ¬ Gone past shell.shellPid

/-- A process is entered when it lives and no other slot has it; one that exits
and is in the table is found, and the table is not full. -/
structure KeepsOne (past : List (World × Label)) (before : World) (label : Label) : Prop where
  entered : ∀ slot shell, before.entering label = some (slot, shell) → slot < shellsMaxEntries →
    ¬ Gone past shell.shellPid ∧
    ∀ i ≠ slot, ∀ other, before.maps.shells.lookup i = some other →
      other.shellPid ≠ shell.shellPid
  taken : ∀ pid, label.exits = some pid → before.maps.shells.Holds pid →
    before.maps.shells.Reaches pid ∧ ¬ before.maps.shells.Full

section Step

variable {past : List (World × Label)} {before after : World} {label : Label}

theorem gone_cons {pid : Pid} (stays : label.exits = none)
    (gone : Gone ((before, label) :: past) pid) : Gone past pid := by
  rcases gone with exits | ⟨_, _, earlier⟩
  · simp [stays] at exits
  · exact earlier

theorem exit_oneEntry_iff (one : OneEntry past before) {currentPid : Pid} {reserved : Bool}
    (taken : step before (.exit currentPid reserved) = some after) :
    OneEntry ((before, .exit currentPid reserved) :: past) after ↔
      KeepsOne past before (.exit currentPid reserved) := by
  obtain ⟨_, rfl⟩ := step_exit taken
  have shells : (before.ran (doExit currentPid reserved before.maps)
      fun _ => doExit_emitted).maps.shells = before.maps.shells.without currentPid :=
    doExit_without currentPid reserved before.maps
  have gone_iff := without_gone_iff one.distinct currentPid
  constructor
  · intro kept
    refine ⟨nofun, ?_⟩
    rintro pid ⟨⟩
    apply gone_iff.mp
    rintro ⟨shell, member, rfl⟩
    exact kept.living shell (shells ▸ member) (Or.inl rfl)
  · intro keeps
    have left := gone_iff.mpr (keeps.taken currentPid rfl)
    refine ⟨shells ▸ without_distinct one.distinct currentPid, fun shell member gone => ?_⟩
    rw [shells] at member
    rcases gone with exits | ⟨_, _, earlier⟩
    · exact left ⟨shell, member, (Option.some.inj exits).symm⟩
    · exact one.living shell (without_subset _ currentPid shell member) earlier

theorem oneEntry_kept (one : OneEntry past before) (stays : label.exits = none)
    (keys : after.maps.shells.entries.map Shell.shellPid =
      before.maps.shells.entries.map Shell.shellPid) :
    OneEntry ((before, label) :: past) after := by
  refine ⟨keys ▸ one.distinct, fun shell member gone => ?_⟩
  have listed : shell.shellPid ∈ before.maps.shells.entries.map Shell.shellPid :=
    keys ▸ List.mem_map_of_mem member
  obtain ⟨old, oldMember, same⟩ := List.mem_map.mp listed
  exact one.living old oldMember (same ▸ gone_cons stays gone)

theorem enter_oneEntry_iff (one : OneEntry past before) (nonzero : ∀ pid, before.Pending pid → pid ≠ 0#32)
    {slot : Nat} {shell : Shell} (enters : before.entering label = some (slot, shell))
    (same : after.maps.shells = before.maps.shells.update slot shell) :
    OneEntry ((before, label) :: past) after ↔ KeepsOne past before label := by
  obtain ⟨closing, killEvent, indicator, rfl, phase, pid, _⟩ := entering_scanned enters
  have used : Slot.Used shell := by
    rw [shell_used, pid]
    exact nonzero killEvent.shellPid (Or.inr (by rw [phase]; rfl))
  by_cases inside : slot < shellsMaxEntries
  · have distinct_iff := update_distinct_iff one.distinct inside used
    rw [← same] at distinct_iff
    constructor
    · intro kept
      refine ⟨?_, nofun⟩
      intro chosen entry again _
      obtain ⟨rfl, rfl⟩ : slot = chosen ∧ shell = entry := by simpa [enters] using again
      refine ⟨fun gone => ?_, distinct_iff.mp kept.distinct⟩
      have member : shell ∈ after.maps.shells.entries :=
        same ▸ mem_entries_of_lookup (lookup_update_self _ slot shell inside) used
      exact kept.living shell member (Or.inr ⟨nofun, nofun, gone⟩)
    · intro keeps
      obtain ⟨living, apart⟩ := keeps.entered slot shell enters inside
      refine ⟨distinct_iff.mpr apart, fun entry member gone => ?_⟩
      rw [same] at member
      rcases mem_entries_update member with rfl | old
      · exact living (gone_cons rfl gone)
      · exact one.living entry old (gone_cons rfl gone)
  · -- the loop variable has run past the end, and the update fails
    rw [update_outside _ shell (Nat.le_of_not_lt inside)] at same
    refine iff_of_true (oneEntry_kept one rfl (by rw [same])) ⟨?_, nofun⟩
    intro chosen entry again below
    obtain ⟨rfl, rfl⟩ : slot = chosen ∧ shell = entry := by simpa [enters] using again
    exact absurd below inside

theorem step_oneEntry_iff (one : OneEntry past before)
    (nonzero : ∀ pid, before.Pending pid → pid ≠ 0#32) (taken : step before label = some after) :
    OneEntry ((before, label) :: past) after ↔ KeepsOne past before label := by
  cases exits : label.exits with
  | some pid =>
      obtain ⟨reserved, rfl⟩ := exits_iff.mp exits
      exact exit_oneEntry_iff one taken
  | none =>
      have keeps (none : before.entering label = none) : KeepsOne past before label :=
        ⟨by simp [none], by simp [exits]⟩
      rcases step_shells taken with
        ⟨same, none⟩ | ⟨_, _, _, rfl, _⟩ | ⟨call, room, buffer, rfl, same⟩ |
          ⟨slot, shell, enters, same⟩
      · exact iff_of_true (oneEntry_kept one exits (by rw [same])) (keeps none)
      · cases exits
      · refine iff_of_true (oneEntry_kept one exits ?_) (keeps rfl)
        -- at most one flag changes, and no pid
        have keys := ksysWrite_keys call room before.maps buffer
        rw [same]
        exact (entries_keys _).trans ((congrArg _ keys).trans (entries_keys _).symm)
      · exact enter_oneEntry_iff one nonzero enters same

end Step

/-- In every state of a run each shell has at most one entry, and none after its
exit, precisely when each registration and each exit keeps to the condition. -/
theorem one_entry_iff {past : List (World × Label)} {last : World}
    (run : Run step World.start past last) :
    Throughout OneEntry past last ↔ Always KeepsOne past := by
  refine run.throughout_iff ⟨by simp, by simp⟩ ?_
  intro past before label after earlier one taken
  exact step_oneEntry_iff one (pending_nonzero earlier) taken

theorem one_entry_registered :
    ∃ past last, Run step World.start past last ∧ Gone past 1#32 ∧
      (last.maps.shells.lookup 0).map Shell.shellPid = some 2#32 ∧
      (Throughout OneEntry past last ↔ Always KeepsOne past) := by
  obtain ⟨past, last, run, gone, entered⟩ := replay_some step World.start
    (registration 1#32 ++ registration 2#32 ++ [.exit 1#32 true])
    (fun past world => Gone past 1#32 ∧
      (world.maps.shells.lookup 0).map Shell.shellPid = some 2#32) (by decide)
  exact ⟨past, last, run, gone, entered, one_entry_iff run⟩

def announcedTwice : List Label := registration 1#32 ++ registration 1#32 ++ [.exit 1#32 true]

theorem second_entry_left :
    ∃ past last, Run step World.start past last ∧ ¬ Throughout OneEntry past last ∧
      (∃ world ∈ visited past last, ¬ (world.maps.shells.entries.map Shell.shellPid).Nodup) ∧
      Gone past 1#32 ∧ last.maps.shells.Holds 1#32 := by
  obtain ⟨past, last, run, twice, gone, held⟩ := replay_some step World.start announcedTwice
    (fun past last =>
      (∃ world ∈ visited past last, ¬ (world.maps.shells.entries.map Shell.shellPid).Nodup) ∧
      Gone past 1#32 ∧ last.maps.shells.Holds 1#32) (by decide)
  refine ⟨past, last, run, fun all => ?_, twice, gone, held⟩
  obtain ⟨shell, member, pid⟩ := held
  rw [shell_key] at pid
  exact all.last.living shell member (pid ▸ gone)

end Nhi
