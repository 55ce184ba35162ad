import Nhi.KernelTables

/-!
What `do_exit` and the announcing `kill` leave in the tables, at every
occupancy. A removal happens only when a loop meets a free slot, and `do_exit`
looks at `children` only when `shells` is not empty and nothing was removed
there; the conditions below are exactly those under which the process is gone
from both tables and nothing else changed.
-/

namespace Nhi

open SlotTable

structure Maps.Tidy (maps : Maps) : Prop where
  shellsCompact : maps.shells.Compact
  childrenCompact : maps.children.Compact
  shellsDistinct : (maps.shells.entries.map Shell.shellPid).Nodup
  childrenDistinct : (maps.children.entries.map Child.childPid).Nodup

def ShellsExact (pid : Pid) (before after : Shells) : Prop :=
  after.Compact ∧
    after.entries.Perm (before.entries.filter (fun shell => shell.shellPid ≠ pid))

def ChildrenExact (pid : Pid) (before after : Children) : Prop :=
  after.Compact ∧
    after.entries.Perm (before.entries.filter (fun child => child.childPid ≠ pid))

/-- The outcome `result` of an exit of `pid` took out exactly its entries and
reported its indicator. -/
def ExitResultExact (pid : Pid) (reserved : Bool) (maps : Maps) (result : Maps × List Event) :
    Prop :=
  ShellsExact pid maps.shells result.1.shells ∧
  ChildrenExact pid maps.children result.1.children ∧
  ∀ shell ∈ maps.shells.entries, shell.shellPid = pid →
    result.2 = submit reserved (.exitShellIndicator shell.indicator)

def ExitExact (pid : Pid) (maps : Maps) : Prop :=
  ∀ reserved, ExitResultExact pid reserved maps (doExit pid reserved maps)

def AnnounceExact (pid : Pid) (maps : Maps) : Prop :=
  ∀ sig reserved, sig = SIGUSR1 ∨ sig = SIGUSR2 →
    (killSomethingInfo pid sig nhidHash reserved maps).1.shells = maps.shells ∧
    ChildrenExact pid maps.children
      (killSomethingInfo pid sig nhidHash reserved maps).1.children

variable {maps : Maps} (tidy : maps.Tidy) (pid : Pid) (reserved : Bool)

include tidy

theorem shellsExact_same : ShellsExact pid maps.shells maps.shells ↔ ¬ maps.shells.Holds pid :=
  (and_iff_right tidy.shellsCompact).trans entries_without_iff

theorem childrenExact_same :
    ChildrenExact pid maps.children maps.children ↔ ¬ maps.children.Holds pid :=
  (and_iff_right tidy.childrenCompact).trans entries_without_iff

theorem childrenExact_without :
    ChildrenExact pid maps.children (maps.children.without pid) ↔
      (maps.children.Holds pid → ¬ maps.children.Full) :=
  (and_iff_right (tidy.childrenCompact.without pid)).trans
    (tidy.childrenCompact.without_exact_iff tidy.childrenDistinct pid)

theorem exit_empty_iff (free : ¬ maps.shells.UsedAt 0) :
    ¬ maps.shells.Holds pid ∧
      (ExitResultExact pid reserved maps (maps, []) ↔ ¬ maps.children.Holds pid) := by
  have absent : ¬ maps.shells.Holds pid := by
    rintro ⟨shell, member, _⟩
    exact free ((tidy.shellsCompact.usedAt_iff 0).mpr (List.length_pos_of_mem member))
  refine ⟨absent, ?_⟩
  constructor
  · exact fun exact => (childrenExact_same tidy pid).mp exact.2.1
  · exact fun gone => ⟨(shellsExact_same tidy pid).mpr absent,
      (childrenExact_same tidy pid).mpr gone,
      fun shell member same => absurd ⟨shell, member, same⟩ absent⟩

/-- The entry was taken out of `shells`: `children` is left as it was. -/
theorem exit_removed_iff {shell : Shell} {shells : Shells}
    (result : maps.shells.sweep pid = .removed shell shells) :
    (maps.shells.Holds pid ∧ ¬ maps.shells.Full) ∧
      (ExitResultExact pid reserved maps ({ maps with shells := shells },
          submit reserved (.exitShellIndicator shell.indicator)) ↔
        ¬ maps.children.Holds pid) := by
  obtain ⟨member, same⟩ := sweep_removed_taken result
  refine ⟨⟨⟨shell, member, same⟩, sweep_removed_not_full result⟩, ?_⟩
  constructor
  · exact fun exact => (childrenExact_same tidy pid).mp exact.2.1
  · intro gone
    refine ⟨⟨tidy.shellsCompact.sweep_removed result, sweep_exact tidy.shellsDistinct result⟩,
      (childrenExact_same tidy pid).mpr gone, ?_⟩
    intro other otherMember otherSame
    have unique : other = shell :=
      List.inj_on_of_nodup_map tidy.shellsDistinct otherMember member (otherSame.trans same.symm)
    rw [unique]

theorem exit_swept_iff
    (kept : ∀ shell shells, maps.shells.sweep pid ≠ .removed shell shells) :
    (maps.shells.Holds pid → maps.shells.Full) ∧
      (ExitResultExact pid reserved maps
          ({ maps with children := maps.children.without pid }, []) ↔
        ¬ maps.shells.Holds pid ∧ (maps.children.Holds pid → ¬ maps.children.Full)) := by
  constructor
  · intro held
    by_contra room
    obtain ⟨shell, shells, result⟩ := (tidy.shellsCompact.reaches pid).sweep_holds held room
    exact kept shell shells result
  · constructor
    · exact fun exact => ⟨(shellsExact_same tidy pid).mp exact.1,
        (childrenExact_without tidy pid).mp exact.2.1⟩
    · rintro ⟨absent, room⟩
      exact ⟨(shellsExact_same tidy pid).mpr absent, (childrenExact_without tidy pid).mpr room,
        fun shell member same => absurd ⟨shell, member, same⟩ absent⟩

theorem exitResultExact_iff :
    ExitResultExact pid reserved maps (doExit pid reserved maps) ↔
      (maps.shells.Holds pid → ¬ maps.shells.Full ∧ ¬ maps.children.Holds pid) ∧
      (maps.children.Holds pid → maps.shells.UsedAt 0 ∧ ¬ maps.children.Full) := by
  rcases doExit_cases pid reserved maps with
    ⟨same, free⟩ | ⟨shell, shells, result, same⟩ | ⟨used, kept, same⟩
  · obtain ⟨absent, exact⟩ := exit_empty_iff tidy pid reserved free
    rw [same, exact]
    tauto
  · obtain ⟨⟨held, room⟩, exact⟩ := exit_removed_iff tidy pid reserved result
    rw [same, exact]
    tauto
  · obtain ⟨full, exact⟩ := exit_swept_iff tidy pid reserved kept
    rw [same, exact]
    tauto

theorem announceExact_iff :
    AnnounceExact pid maps ↔ (maps.children.Holds pid → ¬ maps.children.Full) := by
  have after (sig : CInt) (announce : sig = SIGUSR1 ∨ sig = SIGUSR2) (reserved : Bool) :
      (killSomethingInfo pid sig nhidHash reserved maps).1 =
        { maps with children := maps.children.without pid } := by
    rw [killSomethingInfo_maps, if_pos ⟨rfl, announce⟩]
  rw [← childrenExact_without tidy pid]
  constructor
  · intro exact
    simpa only [after SIGUSR1 (Or.inl rfl)] using (exact SIGUSR1 true (Or.inl rfl)).2
  · intro exact sig reserved announce
    rw [after sig announce reserved]
    exact ⟨rfl, exact⟩

omit tidy

/-- Deletion is exact precisely when the process is not in both tables, no
table that holds it is completely full, and `shells` is not empty when the
entry is in `children`. -/
theorem deletion_exact_iff (tidy : maps.Tidy) :
    (ExitExact pid maps ↔
      (maps.shells.Holds pid → ¬ maps.shells.Full ∧ ¬ maps.children.Holds pid) ∧
      (maps.children.Holds pid → maps.shells.UsedAt 0 ∧ ¬ maps.children.Full)) ∧
    (AnnounceExact pid maps ↔ (maps.children.Holds pid → ¬ maps.children.Full)) := by
  refine ⟨?_, announceExact_iff tidy pid⟩
  constructor
  · exact fun exact => (exitResultExact_iff tidy pid true).mp (exact true)
  · exact fun condition reserved => (exitResultExact_iff tidy pid reserved).mpr condition

theorem tablesOf_tidy (shellPids childPids : List Pid)
    (shellsFit : shellPids.length ≤ shellsMaxEntries) (shellsUsed : ∀ p ∈ shellPids, p ≠ 0#32)
    (shellsNodup : shellPids.Nodup) (childrenFit : childPids.length ≤ childrenMaxEntries)
    (childrenUsed : ∀ p ∈ childPids, p ≠ 0#32) (childrenNodup : childPids.Nodup) :
    (tablesOf shellPids childPids).Tidy ∧
      (tablesOf shellPids childPids).shells.entries =
        shellPids.map (fun p => Shell.plain p 7#64) ∧
      (tablesOf shellPids childPids).children.entries =
        childPids.map (fun p => ⟨p, 1#32⟩) := by
  obtain ⟨shellsCompact, shells⟩ := ofEntries_entries (n := shellsMaxEntries)
    (shellPids.map fun p => Shell.plain p 7#64) (by simpa using shellsFit)
    (by simpa [Shell.plain] using shellsUsed)
  obtain ⟨childrenCompact, children⟩ := ofEntries_entries (n := childrenMaxEntries)
    (childPids.map fun p => (⟨p, 1#32⟩ : Child)) (by simpa using childrenFit)
    (by simpa using childrenUsed)
  refine ⟨⟨shellsCompact, childrenCompact, ?_, ?_⟩, shells, children⟩
  · rw [tablesOf, shells, List.map_map]
    simpa [Shell.plain, Function.comp_def] using shellsNodup
  · rw [tablesOf, children, List.map_map]
    simpa [Function.comp_def] using childrenNodup

theorem deletion_exact_small :
    ExitExact 2#32 (tablesOf [1#32] [2#32, 3#32]) ∧
      AnnounceExact 2#32 (tablesOf [1#32] [2#32, 3#32]) := by
  obtain ⟨tidy, shells, children⟩ := tablesOf_tidy [1#32] [2#32, 3#32]
    (by simp [shellsMaxEntries]) (by simp) (by simp)
    (by simp [childrenMaxEntries]) (by simp) (by simp)
  have absent : ¬ (tablesOf [1#32] [2#32, 3#32]).shells.Holds 2#32 := by
    simp [Holds, shells, Shell.plain]
  have nonempty : (tablesOf [1#32] [2#32, 3#32]).shells.UsedAt 0 :=
    (tidy.shellsCompact.usedAt_iff 0).mpr (by simp [shells])
  have room : ¬ (tablesOf [1#32] [2#32, 3#32]).children.Full :=
    fun full => by simpa [children, childrenMaxEntries] using tidy.childrenCompact.full_iff.mp full
  obtain ⟨exitIff, announceIff⟩ := deletion_exact_iff 2#32 tidy
  exact ⟨exitIff.mpr ⟨fun held => absurd held absent, fun _ => ⟨nonempty, room⟩⟩,
    announceIff.mpr fun _ => room⟩

/-- 256 shells and 1024 children: neither the exit of a shell nor the exit or
the announcement of a child takes anything out. -/
theorem deletion_fails_full :
    (tablesOf (pidBlock 1 256) (pidBlock 1001 1024)).Tidy ∧
      ¬ ExitExact 1#32 (tablesOf (pidBlock 1 256) (pidBlock 1001 1024)) ∧
      ¬ ExitExact 1001#32 (tablesOf (pidBlock 1 256) (pidBlock 1001 1024)) ∧
      ¬ AnnounceExact 1001#32 (tablesOf (pidBlock 1 256) (pidBlock 1001 1024)) := by
  obtain ⟨tidy, shells, children⟩ := tablesOf_tidy (pidBlock 1 256) (pidBlock 1001 1024)
    (by simp) (pidBlock_nonzero (by decide) (by decide))
    (pidBlock_nodup (by decide)) (by simp) (pidBlock_nonzero (by decide) (by decide))
    (pidBlock_nodup (by decide))
  have shellsFull : (tablesOf (pidBlock 1 256) (pidBlock 1001 1024)).shells.Full :=
    tidy.shellsCompact.full_iff.mpr (by simp [shells])
  have childrenFull : (tablesOf (pidBlock 1 256) (pidBlock 1001 1024)).children.Full :=
    tidy.childrenCompact.full_iff.mpr (by simp [children])
  have shellHeld : (tablesOf (pidBlock 1 256) (pidBlock 1001 1024)).shells.Holds 1#32 :=
    ⟨Shell.plain 1#32 7#64, by
      rw [shells]
      exact List.mem_map_of_mem ((mem_pidBlock (by decide)).mpr (by decide)), rfl⟩
  have childHeld : (tablesOf (pidBlock 1 256) (pidBlock 1001 1024)).children.Holds 1001#32 :=
    ⟨⟨1001#32, 1#32⟩, by
      rw [children]
      exact List.mem_map_of_mem (f := fun p => (⟨p, 1#32⟩ : Child))
        ((mem_pidBlock (by decide)).mpr (by decide)), rfl⟩
  refine ⟨tidy, ?_, ?_, ?_⟩
  · intro exact
    exact (((exitResultExact_iff tidy 1#32 true).mp (exact true)).1 shellHeld).1 shellsFull
  · intro exact
    exact (((exitResultExact_iff tidy 1001#32 true).mp (exact true)).2 childHeld).2 childrenFull
  · intro exact
    exact (announceExact_iff tidy 1001#32).mp exact childHeld childrenFull

end Nhi
