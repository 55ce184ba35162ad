import Nhi.Common

/-!
The three programs of daemon/src/nhi.bpf.c that change the tables:
`kill_something_info`, `fork_tracepoint` and `do_exit`. `currentPid` is
`bpf_get_current_pid_tgid() >> 32`, the thread group of the caller. `reserved`
says whether `bpf_ringbuf_reserve` returned memory. The second component of a
result is what was submitted to the ring buffer.
-/

namespace Nhi

open SlotTable

def submit (reserved : Bool) (event : Event) : List Event := if reserved then [event] else []

/-- `kill` with the daemon's magic pid. On SIGUSR1 and SIGUSR2 the caller leaves
`children`, and the shell it was a child of becomes the parent shell. -/
def killSomethingInfo (currentPid : Pid) (sig : CInt) (pid : Pid) (reserved : Bool)
    (maps : Maps) : Maps × List Event :=
  if pid ≠ nhidHash then (maps, [])
  else if sig = SIGUSR1 ∨ sig = SIGUSR2 then
    let parentShellPid : Pid :=
      ((maps.children.sweep currentPid).hit.map Child.shellPid).getD 0#32
    -- without a parent the search is for 0, and ends at the first free slot
    let parentShellIndicator : Long := match maps.shells.search parentShellPid with
      | .found _ shell => shell.indicator
      | .free _ => 0#64
      | .bound => 0#64
    ({ maps with children := maps.children.without currentPid },
      submit reserved (.kill ⟨currentPid, sig, parentShellIndicator⟩))
  else (maps, submit reserved (.kill ⟨currentPid, sig, 0#64⟩))

def addNewChildPid (childPid parentPid : Pid) (reserved : Bool) (maps : Maps) :
    Maps × List Event :=
  match maps.children.firstFree with
  | some i => ({ maps with children := maps.children.update i ⟨childPid, parentPid⟩ },
      submit reserved (.childCreation parentPid))
  | none => (maps, [])

/-- A search of `children` that runs out of slots falls through into the label
with `parent_pid` unchanged. -/
def forkTracepoint (currentPid childPid : Pid) (reserved : Bool) (maps : Maps) :
    Maps × List Event :=
  match maps.shells.search currentPid with
  | .found _ _ => addNewChildPid childPid currentPid reserved maps
  | _ =>
      match maps.children.search currentPid with
      | .free _ => (maps, [])
      | .found _ child => addNewChildPid childPid child.shellPid reserved maps
      -- no `return` after the loop
      | .bound => addNewChildPid childPid currentPid reserved maps

/-- The test `!i && !shell->shell_pid` can only succeed at slot 0, in the first
pass. After a removal from `shells` the program returns, so `children` is
looked at only when nothing was removed there. -/
def doExit (currentPid : Pid) (reserved : Bool) (maps : Maps) : Maps × List Event :=
  if (maps.shells.lookup 0).any (fun shell => shell.shellPid = 0#32) then (maps, [])
  else
    match maps.shells.sweep currentPid with
    | .removed shell shells =>
        ({ maps with shells := shells }, submit reserved (.exitShellIndicator shell.indicator))
    -- also when the pid was found and `shells` is full
    | _ => ({ maps with children := maps.children.without currentPid }, [])

theorem mem_submit {reserved : Bool} {event other : Event} :
    other ∈ submit reserved event ↔ reserved = true ∧ other = event := by
  cases reserved <;> simp [submit]

section Kill

variable (currentPid : Pid) (sig : CInt) (pid : Pid) (reserved : Bool) (maps : Maps)

def Announces (sig : CInt) (pid : Pid) : Prop :=
  pid = nhidHash ∧ (sig = SIGUSR1 ∨ sig = SIGUSR2)

instance : Decidable (Announces sig pid) := inferInstanceAs (Decidable (_ ∧ _))

theorem killSomethingInfo_maps :
    (killSomethingInfo currentPid sig pid reserved maps).1 =
      if Announces sig pid then { maps with children := maps.children.without currentPid }
      else maps := by
  by_cases hash : pid = nhidHash
  · by_cases announce : sig = SIGUSR1 ∨ sig = SIGUSR2 <;>
      simp [killSomethingInfo, Announces, hash, announce]
  · simp [killSomethingInfo, Announces, hash]

theorem killSomethingInfo_events (event : Event)
    (sent : event ∈ (killSomethingInfo currentPid sig pid reserved maps).2) :
    pid = nhidHash ∧ ∃ indicator, event = .kill ⟨currentPid, sig, indicator⟩ := by
  by_cases hash : pid = nhidHash
  · refine ⟨hash, ?_⟩
    by_cases announce : sig = SIGUSR1 ∨ sig = SIGUSR2
    · simp only [killSomethingInfo, hash, announce, ne_eq, not_true_eq_false, if_true, if_false]
        at sent
      exact ⟨_, (mem_submit.mp sent).2⟩
    · simp only [killSomethingInfo, hash, announce, ne_eq, not_true_eq_false, if_false] at sent
      exact ⟨_, (mem_submit.mp sent).2⟩
  · simp [killSomethingInfo, hash] at sent

end Kill

section Fork

variable (currentPid childPid : Pid) (reserved : Bool) (maps : Maps)

/-- The shell a fork of `currentPid` is recorded under: the forking process when
the search of `shells` finds it, else the one of its own `children` entry. -/
def RecordedUnder (maps : Maps) (currentPid shellPid : Pid) : Prop :=
  (maps.shells.Holds currentPid ∧ shellPid = currentPid) ∨
  ((∀ i shell, maps.shells.search currentPid ≠ .found i shell) ∧
    ∃ child ∈ maps.children.entries, child.childPid = currentPid ∧ child.shellPid = shellPid)

def ForkOutcome (result : Maps × List Event) : Prop :=
  result = (maps, []) ∨
  ∃ i shellPid, maps.children.firstFree = some i ∧ RecordedUnder maps currentPid shellPid ∧
    result = ({ maps with children := maps.children.update i ⟨childPid, shellPid⟩ },
      submit reserved (.childCreation shellPid))

variable {currentPid maps} in
theorem addNewChildPid_outcome {parentPid : Pid} (under : RecordedUnder maps currentPid parentPid) :
    ForkOutcome currentPid childPid reserved maps
      (addNewChildPid childPid parentPid reserved maps) := by
  cases chosen : maps.children.firstFree with
  | none => exact Or.inl (by simp [addNewChildPid, chosen])
  | some i => exact Or.inr ⟨i, parentPid, chosen, under, by simp [addNewChildPid, chosen]⟩

theorem forkTracepoint_children
    (unseen : ∀ i shell, maps.shells.search currentPid ≠ .found i shell) :
    ForkOutcome currentPid childPid reserved maps
      (match maps.children.search currentPid with
        | .free _ => (maps, [])
        | .found _ child => addNewChildPid childPid child.shellPid reserved maps
        | .bound => addNewChildPid childPid currentPid reserved maps) := by
  cases result : maps.children.search currentPid with
  | free _ => exact Or.inl rfl
  | found j child =>
      obtain ⟨_, member, key⟩ := search_found result
      exact addNewChildPid_outcome childPid reserved (Or.inr ⟨unseen, child, member, key, rfl⟩)
  | bound =>
      -- the table is full here, so the fall-through finds no slot
      have none := firstFree_none.mpr (search_bound result).1
      exact Or.inl (by simp [addNewChildPid, none])

theorem forkTracepoint_cases :
    ForkOutcome currentPid childPid reserved maps
      (forkTracepoint currentPid childPid reserved maps) := by
  unfold forkTracepoint
  cases result : maps.shells.search currentPid with
  | found j shell =>
      obtain ⟨_, member, key⟩ := search_found result
      exact addNewChildPid_outcome childPid reserved (Or.inl ⟨⟨shell, member, key⟩, rfl⟩)
  | free j => exact forkTracepoint_children _ _ _ _ (by simp [result])
  | bound => exact forkTracepoint_children _ _ _ _ (by simp [result])

theorem addNewChildPid_sends_iff {parentPid : Pid} :
    (addNewChildPid childPid parentPid true maps).2 ≠ [] ↔ ¬ maps.children.Full := by
  rw [← firstFree_none]
  cases chosen : maps.children.firstFree <;> simp [addNewChildPid, chosen, submit]

theorem forkTracepoint_sends_iff :
    (forkTracepoint currentPid childPid true maps).2 ≠ [] ↔
      (maps.shells.Ahead currentPid ∨ maps.children.Ahead currentPid) ∧
        ¬ maps.children.Full := by
  rw [← search_found_iff, ← search_found_iff]
  unfold forkTracepoint
  have second (unseen : ∀ i shell, maps.shells.search currentPid ≠ .found i shell) :
      (match maps.children.search currentPid with
        | .free _ => (maps, [])
        | .found _ child => addNewChildPid childPid child.shellPid true maps
        | .bound => addNewChildPid childPid currentPid true maps).2 ≠ [] ↔
      ((∃ i shell, maps.shells.search currentPid = .found i shell) ∨
        ∃ i child, maps.children.search currentPid = .found i child) ∧ ¬ maps.children.Full := by
    cases result : maps.children.search currentPid with
    | free j => simp [unseen]
    | found j child => simp [unseen, addNewChildPid_sends_iff]
    | bound => simp [unseen, addNewChildPid_sends_iff, (search_bound result).1]
  cases result : maps.shells.search currentPid with
  | found j shell => simp [addNewChildPid_sends_iff]
  | free j =>
      rw [result] at second
      exact second nofun
  | bound =>
      rw [result] at second
      exact second nofun

theorem forkTracepoint_maps (other : Bool) :
    (forkTracepoint currentPid childPid reserved maps).1 =
      (forkTracepoint currentPid childPid other maps).1 := by
  have recorded (parentPid : Pid) : (addNewChildPid childPid parentPid reserved maps).1 =
      (addNewChildPid childPid parentPid other maps).1 := by
    cases chosen : maps.children.firstFree <;> simp [addNewChildPid, chosen]
  unfold forkTracepoint
  split
  · exact recorded _
  · split
    · rfl
    · exact recorded _
    · exact recorded _

end Fork

section Exit

variable (currentPid : Pid) (reserved : Bool) (maps : Maps)

theorem doExit_cases :
    (doExit currentPid reserved maps = (maps, []) ∧ ¬ maps.shells.UsedAt 0) ∨
    (∃ shell shells, maps.shells.sweep currentPid = .removed shell shells ∧
      doExit currentPid reserved maps =
        ({ maps with shells := shells }, submit reserved (.exitShellIndicator shell.indicator))) ∨
    (maps.shells.UsedAt 0 ∧
      (∀ shell shells, maps.shells.sweep currentPid ≠ .removed shell shells) ∧
      doExit currentPid reserved maps =
        ({ maps with children := maps.children.without currentPid }, [])) := by
  obtain ⟨first, found⟩ := maps.shells.lookup_some 0 (by decide)
  by_cases free : first.shellPid = 0#32
  · exact Or.inl ⟨by simp [doExit, found, free], not_usedAt found (by simpa using free)⟩
  · apply Or.inr
    have used : maps.shells.UsedAt 0 := ⟨first, found, free⟩
    cases result : maps.shells.sweep currentPid with
    | removed shell shells =>
        exact Or.inl ⟨shell, shells, rfl, by simp [doExit, found, free, result]⟩
    | missed => exact Or.inr ⟨used, by simp, by simp [doExit, found, free, result]⟩
    | bound hit => exact Or.inr ⟨used, by simp, by simp [doExit, found, free, result]⟩

theorem doExit_without :
    (doExit currentPid reserved maps).1.shells = maps.shells.without currentPid := by
  rcases doExit_cases currentPid reserved maps with
    ⟨same, free⟩ | ⟨shell, shells, result, same⟩ | ⟨_, kept, same⟩
  · rw [same, without_kept]
    intro taken after result
    obtain ⟨⟨i, _, _, _, below⟩, _⟩ := sweep_removed_iff.mp ⟨taken, after, result⟩
    exact free (below 0 (Nat.zero_le i))
  · rw [same, SlotTable.without, result]
  · rw [same, without_kept kept]

theorem doExit_shells (reaches : maps.shells.Reaches currentPid) (room : ¬ maps.shells.Full) :
    (¬ maps.shells.Holds currentPid ∧ (doExit currentPid reserved maps).1.shells = maps.shells) ∨
    ∃ shell shells, maps.shells.sweep currentPid = .removed shell shells ∧
      doExit currentPid reserved maps =
        ({ maps with shells := shells }, submit reserved (.exitShellIndicator shell.indicator)) := by
  rcases doExit_cases currentPid reserved maps with
    ⟨same, free⟩ | ⟨shell, shells, result, same⟩ | ⟨_, kept, same⟩
  · apply Or.inl
    refine ⟨?_, by rw [same]⟩
    rintro ⟨shell, member, pid⟩
    obtain ⟨i, found⟩ := lookup_of_mem_entries member
    have used := (mem_entries.mp member).2
    rcases Nat.eq_zero_or_pos i with rfl | later
    · exact free ⟨shell, found, used⟩
    · exact free (reaches i shell found used pid 0 later)
  · exact Or.inr ⟨shell, shells, result, same⟩
  · apply Or.inl
    refine ⟨fun held => ?_, by rw [same]⟩
    obtain ⟨shell, shells, result⟩ := reaches.sweep_holds held room
    exact kept shell shells result

end Exit

end Nhi
