import Nhi.GhostShells

/-!
A full ring buffer. The three programs that change the tables do so first and
ask for memory for their event afterwards, so where an event was due and no
memory was left, the tables have changed and nothing tells the daemon.
-/

namespace Nhi

open SlotTable RunHistory

/-- What the program sends if it gets the memory; nothing when it does not ask. -/
def Label.due (maps : Maps) : Label → List Event
  | .kill currentPid sig pid _ => (killSomethingInfo currentPid sig pid true maps).2
  | .fork currentPid childPid _ => (forkTracepoint currentPid childPid true maps).2
  | .exit currentPid _ => (doExit currentPid true maps).2
  | _ => []

def InStep (_past : List (World × Label)) (before : World) (label : Label) : Prop :=
  label.reserved = false → label.due before.maps ≠ [] →
    ∀ after, step before label = some after → after.maps = before.maps

/-- The program has something to change before it asks: a tracked process that
announces itself, a fork there is a slot for, an exit of a process in `shells`. -/
def Label.Edits (maps : Maps) : Label → Prop
  | .kill currentPid sig pid _ =>
      Announces sig pid ∧ maps.children.Ahead currentPid ∧ ¬ maps.children.Full
  | .fork currentPid _ _ =>
      (maps.shells.Ahead currentPid ∨ maps.children.Ahead currentPid) ∧ ¬ maps.children.Full
  | .exit currentPid _ => maps.shells.Ahead currentPid ∧ ¬ maps.shells.Full
  | _ => False

def Spared (_past : List (World × Label)) (before : World) (label : Label) : Prop :=
  label.reserved = true ∨ ¬ label.Edits before.maps

section Step

variable {past : List (World × Label)} {before after : World}

theorem kill_inStep_iff {currentPid pid : Pid} {sig : CInt}
    (taken : step before (.kill currentPid sig pid false) = some after) :
    InStep past before (.kill currentPid sig pid false) ↔
      ¬ (Label.kill currentPid sig pid false).Edits before.maps := by
  obtain ⟨_, rfl⟩ := step_kill taken
  have result := killSomethingInfo_maps currentPid sig pid false before.maps
  have same_iff : (killSomethingInfo currentPid sig pid false before.maps).1 = before.maps ↔
      ¬ (Label.kill currentPid sig pid false).Edits before.maps := by
    by_cases announces : Announces sig pid
    · rw [result, if_pos announces, Label.Edits, and_iff_right announces, ← without_eq_iff]
      exact ⟨fun same => congrArg Maps.children same, fun same => by rw [same]⟩
    · rw [result, if_neg announces]
      exact iff_of_true rfl fun edits => announces edits.1
  constructor
  · intro inStep edits
    have due : (Label.kill currentPid sig pid false).due before.maps ≠ [] := by
      obtain ⟨⟨hash, announcing⟩, _⟩ := edits
      simp [Label.due, killSomethingInfo, hash, announcing, submit]
    exact same_iff.mp (inStep rfl due _ taken) edits
  · intro spared _ _ after again
    obtain ⟨_, rfl⟩ := step_kill again
    exact same_iff.mpr spared

theorem fork_inStep_iff {currentPid childPid : Pid}
    (taken : step before (.fork currentPid childPid false) = some after) :
    InStep past before (.fork currentPid childPid false) ↔
      ¬ (Label.fork currentPid childPid false).Edits before.maps := by
  have due_iff := forkTracepoint_sends_iff currentPid childPid before.maps
  obtain ⟨nonzero, rfl⟩ := step_fork taken
  constructor
  · intro inStep edits
    have due := due_iff.mpr edits
    have same : (forkTracepoint currentPid childPid false before.maps).1 = before.maps :=
      inStep rfl due _ taken
    rw [forkTracepoint_maps currentPid childPid false before.maps true] at same
    rcases forkTracepoint_cases currentPid childPid true before.maps with
      idle | ⟨i, shellPid, chosen, _, recorded⟩
    · exact due (by rw [idle])
    · -- the slot that was free is used now
      rw [recorded] at same
      obtain ⟨inside, free, _⟩ := firstFree_some chosen
      refine free ?_
      rw [← congrArg Maps.children same]
      exact ⟨⟨childPid, shellPid⟩, lookup_update_self _ i _ inside, nonzero⟩
  · intro spared _ due
    exact absurd (due_iff.mp due) spared

theorem exit_inStep_iff {currentPid : Pid}
    (taken : step before (.exit currentPid false) = some after) :
    InStep past before (.exit currentPid false) ↔
      ¬ (Label.exit currentPid false).Edits before.maps := by
  obtain ⟨_, rfl⟩ := step_exit taken
  have kept := doExit_without currentPid false before.maps
  constructor
  · intro inStep edits
    obtain ⟨shell, shells, result⟩ := sweep_removed_iff.mpr edits
    have due : (Label.exit currentPid false).due before.maps ≠ [] := by
      rcases doExit_cases currentPid true before.maps with
        ⟨_, free⟩ | ⟨_, _, _, same⟩ | ⟨_, none, _⟩
      · obtain ⟨⟨i, _, _, _, below⟩, _⟩ := edits
        exact absurd (below 0 (Nat.zero_le i)) free
      · simp [Label.due, same, submit]
      · exact absurd result (none shell shells)
    have same : (doExit currentPid false before.maps).1 = before.maps := inStep rfl due _ taken
    rw [same] at kept
    exact without_eq_iff.mp kept.symm edits
  · intro spared _ due
    exfalso
    apply due
    rcases doExit_cases currentPid true before.maps with
      ⟨same, _⟩ | ⟨shell, shells, result, _⟩ | ⟨_, _, same⟩
    · simp [Label.due, same]
    · exact absurd (sweep_removed_iff.mp ⟨shell, shells, result⟩) spared
    · simp [Label.due, same]

theorem inStep_iff_spared {label : Label} (taken : step before label = some after) :
    InStep past before label ↔ Spared past before label := by
  cases reserved : label.reserved with
  | true => exact iff_of_true (by simp [InStep, reserved]) (Or.inl reserved)
  | false =>
      rw [Spared, reserved, or_iff_right Bool.false_ne_true]
      cases label with
      | kill currentPid sig pid bit =>
          obtain rfl : bit = false := reserved
          exact kill_inStep_iff taken
      | fork currentPid childPid bit =>
          obtain rfl : bit = false := reserved
          exact fork_inStep_iff taken
      | exit currentPid bit =>
          obtain rfl : bit = false := reserved
          exact exit_inStep_iff taken
      | write | take | create | scan | register => cases reserved

end Step

/-- From any tables, a failed reservation changes nothing at any step of a run
precisely when each one fails a program that has nothing to change. -/
theorem failed_reservation_iff {start last : World} {past : List (World × Label)}
    (run : Run step start past last) : Always InStep past ↔ Always Spared past :=
  run.always_congr fun _ _ _ _ _ taken => inStep_iff_spared taken

theorem failed_reservation_fork :
    ∃ past last, Run step World.start past last ∧ past.length = 7 ∧
      (Always InStep past ↔ Always Spared past) := by
  obtain ⟨past, last, run, length⟩ := replay_some step World.start
    (registration 1#32 ++ [.fork 1#32 2#32 true, .kill 2#32 SIGRTMIN nhidHash false])
    (fun past _ => past.length = 7) (by decide)
  exact ⟨past, last, run, length, failed_reservation_iff run⟩

theorem fork_without_event :
    ∃ past before after, Run step World.start past before ∧
      step before (.fork 1#32 2#32 false) = some after ∧
      ¬ InStep past before (.fork 1#32 2#32 false) ∧
      ¬ before.maps.children.Holds 2#32 ∧ after.maps.children.Holds 2#32 ∧ after.ring = [] := by
  obtain ⟨past, before, run, ring, due, absent, held, silent⟩ :=
    replay_some step World.start (registration 1#32)
      (fun _ world => world.ring.isEmpty = true ∧
        (Label.fork 1#32 2#32 false).due world.maps ≠ [] ∧
        ¬ world.maps.children.Holds 2#32 ∧
        (forkTracepoint 1#32 2#32 false world.maps).1.children.Holds 2#32 ∧
        (forkTracepoint 1#32 2#32 false world.maps).2 = []) (by decide +kernel)
  have taken : step before (.fork 1#32 2#32 false) = some _ := rfl
  refine ⟨past, before, _, run, taken, fun inStep => ?_, absent, held, ?_⟩
  · have same : (forkTracepoint 1#32 2#32 false before.maps).1 = before.maps :=
      inStep rfl due _ taken
    exact absent (same ▸ held)
  · apply List.eq_nil_iff_forall_not_mem.mpr
    intro record member
    rcases mem_ran_ring.mp member with old | sent
    · rw [List.isEmpty_iff.mp ring] at old
      cases old
    · rw [silent] at sent
      cases sent

end Nhi
