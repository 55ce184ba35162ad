import Nhi.DaemonRuns
import Nhi.DeletionExactness
import Nhi.OneEntry
import Nhi.SlotMap

/-!
What the two tables are for. The kernel programs keep, for each process, the
shell it is registered as or the shell it was started under. Here that is two
finite maps, and each program is what it does to them; slots, their order and
the ends of the loops are gone. As long as nothing is written out of place and
the tables do not fill up, the arrays are these maps and the records are theirs.
-/

namespace Nhi

open SlotTable RunHistory

/-- The registered shells, and the shell each other process was started under. -/
structure Tracking where
  shells : Pid → Option Shell
  children : Pid → Option Pid

namespace Tracking

def empty : Tracking := ⟨fun _ => none, fun _ => none⟩

/-- The shell a process writes to. -/
def holder (tracking : Tracking) (pid : Pid) : Option Shell := (tracking.children pid).bind tracking.shells

/-- The shell that what a process starts is started under. -/
def under (tracking : Tracking) (pid : Pid) : Option Pid :=
  ((tracking.shells pid).map fun _ => pid).or (tracking.children pid)

def kill (tracking : Tracking) (currentPid : Pid) (sig : CInt) (pid : Pid) (reserved : Bool) : Tracking × List Event :=
  if pid ≠ nhidHash then (tracking, [])
  else if sig = SIGUSR1 ∨ sig = SIGUSR2 then
    ({ tracking with children := Function.update tracking.children currentPid none },
      submit reserved (.kill ⟨currentPid, sig, ((tracking.holder currentPid).map Shell.indicator).getD 0#64⟩))
  else (tracking, submit reserved (.kill ⟨currentPid, sig, 0#64⟩))

def fork (tracking : Tracking) (currentPid childPid : Pid) (reserved : Bool) : Tracking × List Event :=
  match tracking.under currentPid with
  | some shellPid =>
      ({ tracking with children := Function.update tracking.children childPid (some shellPid) },
        submit reserved (.childCreation shellPid))
  | none => (tracking, [])

def Unregistered (tracking : Tracking) : Prop := tracking.shells = fun _ => none

open Classical in
/-- Without any registered shell `children` is left alone. -/
noncomputable def exit (tracking : Tracking) (currentPid : Pid) (reserved : Bool) : Tracking × List Event :=
  match tracking.shells currentPid with
  | some shell =>
      ({ tracking with shells := Function.update tracking.shells currentPid none },
        submit reserved (.exitShellIndicator shell.indicator))
  | none =>
      if tracking.Unregistered then (tracking, [])
      else ({ tracking with children := Function.update tracking.children currentPid none }, [])

def flagAfter (call : WriteCall) (buffer : WriteBuffer) (shell : Shell) : Byte :=
  if EntersBelow (filled call buffer) (windowEnd call) then 1#8
  else if LeavesBelow (filled call buffer) (windowEnd call) then 0#8
  else shell.omitWrite

def write (tracking : Tracking) (call : WriteCall) (room : Bool) (buffer : WriteBuffer) : Tracking × List Event :=
  match tracking.holder call.currentPid with
  | some shell =>
      if call.count = 0 ∨ onTerminal call shell = false then (tracking, [])
      else
        let flag := flagAfter call buffer shell
        ({ tracking with
            shells := Function.update tracking.shells shell.shellPid (some { shell with omitWrite := flag }) },
          if flag = 1#8 then []
          else (emit room (cappedCount call.count)
            ⟨shell.indicator, alternateScreen.erase (filled call buffer) 1 (windowEnd call)⟩).toList)
  | none => (tracking, [])

def enter (tracking : Tracking) (shell : Shell) : Tracking :=
  { tracking with shells := Function.update tracking.shells shell.shellPid (some shell) }

/-- A step of the system on the maps; `entered` is the entry the daemon writes. -/
noncomputable def move (tracking : Tracking) (entered : Option Shell) : Label → Tracking × List Event
  | .kill currentPid sig pid reserved => tracking.kill currentPid sig pid reserved
  | .fork currentPid childPid reserved => tracking.fork currentPid childPid reserved
  | .exit currentPid reserved => tracking.exit currentPid reserved
  | .write call room buffer => tracking.write call room buffer
  | .take _ | .create _ | .scan => (tracking, [])
  | .register _ => (entered.elim tracking tracking.enter, [])

end Tracking

/-- The maps after a run, and the records they would send in it. -/
noncomputable def tracked : List (World × Label) → Tracking × List Event
  | [] => (.empty, [])
  | (before, label) :: past =>
      let (after, sent) := (tracked past).1.move ((before.entering label).map Prod.snd) label
      (after, (tracked past).2 ++ sent)

def Maps.tracking (maps : Maps) : Tracking :=
  ⟨maps.shells.asMap, fun pid => (maps.children.asMap pid).map Child.shellPid⟩

section Programs

variable {maps : Maps} (tidy : maps.Tidy)

theorem tracking_empty : Maps.empty.tracking = .empty := by
  simp [Maps.tracking, Maps.empty, Tracking.empty]

include tidy

theorem tracking_without {pid : Pid} (room : ¬ maps.children.Full) :
    Maps.tracking { maps with children := maps.children.without pid } =
      { maps.tracking with children := Function.update maps.tracking.children pid none } := by
  have left : (maps.children.without pid).asMap = Function.update maps.children.asMap pid none :=
    tidy.childrenCompact.asMap_without tidy.childrenDistinct fun _ => room
  simp only [Maps.tracking, left]
  congr 1
  funext other
  by_cases here : other = pid
  · rw [here, Function.update_self, Function.update_self]
    rfl
  · rw [Function.update_of_ne here, Function.update_of_ne here]

theorem kill_tracking {currentPid pid : Pid} {sig : CInt} {reserved : Bool} (process : currentPid ≠ 0#32)
    (room : ¬ maps.children.Full) :
    ((killSomethingInfo currentPid sig pid reserved maps).1.tracking,
        (killSomethingInfo currentPid sig pid reserved maps).2) =
      maps.tracking.kill currentPid sig pid reserved := by
  have hit : (maps.children.sweep currentPid).hit = maps.children.asMap currentPid :=
    tidy.childrenCompact.sweep_asMap tidy.childrenDistinct process
  have named : ((maps.shells.asMap (((maps.children.asMap currentPid).map Child.shellPid).getD 0#32)).map
      Shell.indicator).getD 0#64 = ((maps.tracking.holder currentPid).map Shell.indicator).getD 0#64 := by
    cases listed : maps.children.asMap currentPid with
    | none =>
        -- the search for 0 finds nothing
        have blank : maps.shells.asMap 0#32 = none := asMap_blank
        simp [Tracking.holder, Maps.tracking, listed, blank]
    | some child => simp [Tracking.holder, Maps.tracking, listed]
  unfold killSomethingInfo Tracking.kill
  split
  · rfl
  · split
    · rw [← hit, ← tidy.shellsCompact.search_asMap tidy.shellsDistinct] at named
      refine Prod.ext (tracking_without tidy room) ?_
      simp only [← named]
      cases maps.shells.search (((maps.children.sweep currentPid).hit.map Child.shellPid).getD 0#32) <;> rfl
    · rfl

theorem tracking_insert {childPid shellPid : Pid} {reserved : Bool} (process : childPid ≠ 0#32)
    (fresh : ¬ maps.children.Holds childPid) (room : ¬ maps.children.Full) :
    ((addNewChildPid childPid shellPid reserved maps).1.tracking, (addNewChildPid childPid shellPid reserved maps).2) =
      ({ maps.tracking with children := Function.update maps.tracking.children childPid (some shellPid) },
        submit reserved (.childCreation shellPid)) := by
  cases chosen : maps.children.firstFree with
  | none => exact absurd (firstFree_none.mp chosen) room
  | some i =>
      have used : Slot.Used (⟨childPid, shellPid⟩ : Child) := process
      have added := tidy.childrenCompact.asMap_insert chosen used fresh
      simp only [addNewChildPid, chosen, Maps.tracking, added]
      congr 2
      funext other
      by_cases here : other = childPid
      · subst here
        rw [child_key, Function.update_self, Function.update_self]
        rfl
      · rw [child_key, Function.update_of_ne here, Function.update_of_ne here]

theorem fork_tracking {currentPid childPid : Pid} {reserved : Bool} (process : childPid ≠ 0#32)
    (fresh : ¬ maps.children.Holds childPid) (room : ¬ maps.children.Full) :
    ((forkTracepoint currentPid childPid reserved maps).1.tracking,
        (forkTracepoint currentPid childPid reserved maps).2) =
      maps.tracking.fork currentPid childPid reserved := by
  have inserted (shellPid : Pid) : ((addNewChildPid childPid shellPid reserved maps).1.tracking,
      (addNewChildPid childPid shellPid reserved maps).2) =
        ({ maps.tracking with children := Function.update maps.tracking.children childPid (some shellPid) },
          submit reserved (.childCreation shellPid)) := tracking_insert tidy process fresh room
  have shells : (maps.shells.search currentPid).entry = maps.tracking.shells currentPid :=
    tidy.shellsCompact.search_asMap tidy.shellsDistinct currentPid
  have children : (maps.children.search currentPid).entry.map Child.shellPid = maps.tracking.children currentPid := by
    rw [tidy.childrenCompact.search_asMap tidy.childrenDistinct]
    rfl
  unfold forkTracepoint
  cases found : maps.shells.search currentPid with
  | found i shell =>
      rw [Tracking.fork, Tracking.under, ← shells, found]
      exact inserted currentPid
  | free | bound =>
      rw [Tracking.fork, Tracking.under, ← shells, ← children, found]
      cases second : maps.children.search currentPid with
      | found i child => exact inserted child.shellPid
      | free i => rfl
      | bound => exact absurd (search_bound second).1 room

theorem exit_tracking {currentPid : Pid} {reserved : Bool} (process : currentPid ≠ 0#32)
    (shellsRoom : ¬ maps.shells.Full) (childrenRoom : ¬ maps.children.Full) :
    ((doExit currentPid reserved maps).1.tracking, (doExit currentPid reserved maps).2) =
      maps.tracking.exit currentPid reserved := by
  have hit : (maps.shells.sweep currentPid).hit = maps.tracking.shells currentPid :=
    tidy.shellsCompact.sweep_asMap tidy.shellsDistinct process
  have left : (maps.shells.without currentPid).asMap = Function.update maps.shells.asMap currentPid none :=
    tidy.shellsCompact.asMap_without tidy.shellsDistinct fun _ => shellsRoom
  unfold Tracking.exit
  rcases doExit_cases currentPid reserved maps with ⟨same, first⟩ | ⟨shell, after, swept, same⟩ | ⟨used, missed, same⟩
  · -- a free first slot is an empty map
    have none (pid : Pid) : maps.tracking.shells pid = none := by
      refine asMap_none.mpr ?_
      rintro ⟨shell, member, _⟩
      obtain ⟨i, found⟩ := lookup_of_mem_entries member
      have usedHere : maps.shells.UsedAt i := ⟨shell, found, (mem_entries.mp member).2⟩
      rcases Nat.eq_zero_or_pos i with rfl | later
      · exact first usedHere
      · exact first (tidy.shellsCompact 0 i later usedHere)
    have empty : maps.tracking.Unregistered := funext none
    simp only [same, none, if_pos empty]
  · rw [swept] at hit
    rw [SlotTable.without, swept] at left
    rw [same, ← hit]
    simp only [Sweep.hit, Maps.tracking, left]
  · have absent : maps.tracking.shells currentPid = none := by
      rw [← hit]
      cases result : maps.shells.sweep currentPid with
      | removed shell after => exact absurd result (missed shell after)
      | missed => rfl
      | bound last => exact absurd (sweep_bound process result).1 shellsRoom
    have some : ¬ maps.tracking.Unregistered := by
      intro empty
      obtain ⟨shell, found, inUse⟩ := used
      exact asMap_none.mp (congrFun empty shell.shellPid) ⟨shell, mem_entries_of_lookup found inUse, rfl⟩
    rw [same, absent]
    simp only [if_neg some]
    rw [tracking_without tidy childrenRoom]

theorem findShell_holder (call : WriteCall) (shellsRoom : ¬ maps.shells.Full) (childrenRoom : ¬ maps.children.Full) :
    match maps.tracking.holder call.currentPid with
    | some shell => ∃ i, maps.shells.lookup i = some shell ∧ findShell call maps = some ⟨i, shell.indicator, shell⟩
    | none => findShell call maps = none := by
  have first := tidy.childrenCompact.search_asMap tidy.childrenDistinct call.currentPid
  rw [Tracking.holder, Maps.tracking, findShell]
  cases search : maps.children.search call.currentPid with
  | free i =>
      rw [search] at first
      simp [← first, Search.entry]
  | bound => exact absurd (search_bound search).1 childrenRoom
  | found i child =>
      rw [search] at first
      have second := tidy.shellsCompact.search_asMap tidy.shellsDistinct child.shellPid
      simp only [← first, Search.entry, Option.map_some, Option.bind_some, findIndicator]
      cases other : maps.shells.search child.shellPid with
      | free j =>
          rw [other] at second
          simp [← second, Search.entry]
      | bound => exact absurd (search_bound other).1 shellsRoom
      | found j shell =>
          rw [other] at second
          simp only [← second, Search.entry]
          exact ⟨j, (search_found other).1, rfl⟩

theorem write_tracking {call : WriteCall} {room : Bool} {buffer : WriteBuffer} (shellsRoom : ¬ maps.shells.Full)
    (childrenRoom : ¬ maps.children.Full) :
    (Maps.tracking { maps with shells := (ksysWrite call room maps buffer).shells },
        (ksysWrite call room maps buffer).event.toList) =
      maps.tracking.write call room buffer := by
  have located := findShell_holder tidy call shellsRoom childrenRoom
  have ignored (none : attributed call maps = none) :
      (Maps.tracking { maps with shells := (ksysWrite call room maps buffer).shells },
        (ksysWrite call room maps buffer).event.toList) = (maps.tracking, []) := by
    rw [ksysWrite_ignored none]
    rfl
  unfold Tracking.write
  cases held : maps.tracking.holder call.currentPid with
  | none =>
      rw [held] at located
      exact ignored (by simp [attributed, located])
  | some shell =>
      rw [held] at located
      obtain ⟨i, entry, found⟩ := located
      simp only
      split
      · rename_i off
        apply ignored
        rcases off with zero | other
        · simp [attributed, zero]
        · simp [attributed, found, other]
      · rename_i on
        obtain ⟨nonzero, terminal⟩ := not_or.mp on
        have accepted : attributed call maps = some ⟨i, shell.indicator, shell⟩ :=
          attributed_of_found (Nat.one_le_iff_ne_zero.mpr nonzero) found (by simpa using terminal)
        obtain ⟨positive, recorded⟩ := ksysWrite_recorded accepted room buffer
        have used : Slot.Used shell := by
          obtain ⟨shellPid, _, there⟩ := Option.bind_eq_some_iff.mp held
          exact (mem_entries.mp (asMap_some there).1).2
        have flagged (flag : Byte) : (maps.shells.update i { shell with omitWrite := flag }).asMap =
            Function.update maps.shells.asMap shell.shellPid (some { shell with omitWrite := flag }) :=
          asMap_replace tidy.shellsDistinct entry used rfl
        have here : maps.shells.lookup (Attribution.mk i shell.indicator shell).shellIndex = some shell := entry
        rw [recorded, Tracking.flagAfter]
        by_cases enters : EntersBelow (filled call buffer) (windowEnd call)
        · obtain ⟨shells, event⟩ := record_enter room here positive enters
          rw [shells, event, setOmit_eq entry]
          simp [Maps.tracking, flagged, enters]
        · obtain ⟨shells, event⟩ := record_pass room here positive enters
          rw [shells, event, if_neg enters]
          by_cases leaves : LeavesBelow (filled call buffer) (windowEnd call)
          · simp [Maps.tracking, flagged, leaves, afterLeaves, setOmit_eq entry]
          · have same := flagged shell.omitWrite
            rw [update_found entry] at same
            simp only [leaves, if_false, afterLeaves, Maps.tracking, ← same]
            split <;> rfl

end Programs

/-- The step finds room, and an entry is written at what still is the first free
slot, for a process that has none. -/
structure InRoom (past : List (World × Label)) (before : World) (label : Label) : Prop where
  fresh : FreshFork past before label
  room : label.actor.isSome → ¬ before.maps.shells.Full ∧ ¬ before.maps.children.Full
  placed : ∀ slot shell, before.entering label = some (slot, shell) →
    before.maps.shells.firstFree = some slot ∧ ¬ before.maps.shells.Holds shell.shellPid

instance (past : List (World × Label)) (before : World) (label : Label) : Decidable (InRoom past before label) :=
  decidable_of_iff (FreshFork past before label ∧
      (label.actor.isSome → ¬ before.maps.shells.Full ∧ ¬ before.maps.children.Full) ∧
      (before.entering label).all (fun entry => before.maps.shells.firstFree = some entry.1 ∧
        ¬ before.maps.shells.Holds entry.2.shellPid) = true)
    (by
      simp only [Option.all_eq_true, decide_eq_true_eq]
      exact ⟨fun ⟨fresh, room, placed⟩ => ⟨fresh, room, fun slot shell enters => placed (slot, shell) enters⟩,
        fun inRoom => ⟨inRoom.fresh, inRoom.room, fun entry enters => inRoom.placed entry.1 entry.2 enters⟩⟩)

structure Mapped (past : List (World × Label)) (world : World) : Prop where
  attributed : Attributed past world
  compact : world.maps.shells.Compact
  distinct : (world.maps.shells.entries.map Shell.shellPid).Nodup
  same : tracked past = (world.maps.tracking, sent past)

section Runs

variable {past : List (World × Label)} {before after world : World} {label : Label}

theorem Mapped.tidy (mapped : Mapped past world) : world.maps.Tidy :=
  ⟨mapped.compact, mapped.attributed.compact, mapped.distinct, mapped.attributed.distinct⟩

theorem entering_used (run : Run step World.start past before) {slot : Nat} {shell : Shell}
    (enters : before.entering label = some (slot, shell)) : Slot.Used shell := by
  obtain ⟨_, killEvent, _, _, phase, pid, _⟩ := entering_scanned enters
  rw [shell_used, pid]
  exact pending_nonzero run killEvent.shellPid (Or.inr (by rw [phase]; rfl))

theorem shells_tidy_step (run : Run step World.start past before) (mapped : Mapped past before)
    (inRoom : InRoom past before label) (taken : step before label = some after) :
    after.maps.shells.Compact ∧ (after.maps.shells.entries.map Shell.shellPid).Nodup := by
  rcases step_shells taken with ⟨same, _⟩ | ⟨_, _, _, _, swept⟩ | ⟨call, room, buffer, _, same⟩ |
    ⟨slot, shell, enters, same⟩
  · exact same ▸ ⟨mapped.compact, mapped.distinct⟩
  · exact ⟨mapped.compact.sweep_removed swept, sweep_removed_distinct mapped.distinct swept⟩
  · have keys := ksysWrite_keys call room before.maps buffer
    rw [same]
    constructor
    · exact (compact_keys keys).mpr mapped.compact
    · have entries := (entries_keys _).trans ((congrArg _ keys).trans (entries_keys before.maps.shells).symm)
      exact entries ▸ mapped.distinct
  · obtain ⟨chosen, absent⟩ := inRoom.placed slot shell enters
    obtain ⟨compact, entries⟩ := mapped.compact.insert_entries chosen (entering_used run enters)
    rw [same]
    refine ⟨compact, ?_⟩
    rw [entries, List.map_append, List.nodup_append]
    refine ⟨mapped.distinct, List.nodup_singleton _, ?_⟩
    intro old listed new here
    obtain ⟨other, member, rfl⟩ := List.mem_map.mp listed
    obtain rfl := List.mem_singleton.mp here
    exact fun twice => absent ⟨other, member, twice⟩

theorem move_tracking (run : Run step World.start past before) (mapped : Mapped past before)
    (inRoom : InRoom past before label) (taken : step before label = some after) :
    before.maps.tracking.move ((before.entering label).map Prod.snd) label =
      (after.maps.tracking, label.sends before) := by
  have tidy := mapped.tidy
  cases label with
  | kill currentPid sig pid reserved =>
      obtain ⟨process, rfl⟩ := step_kill taken
      obtain ⟨_, room⟩ := inRoom.room rfl
      exact (kill_tracking tidy process room).symm
  | fork currentPid childPid reserved =>
      obtain ⟨process, rfl⟩ := step_fork taken
      obtain ⟨_, room⟩ := inRoom.room rfl
      have absent : ¬ before.maps.children.Holds childPid := by
        rintro ⟨child, member, rfl⟩
        exact inRoom.fresh (mapped.attributed.nearest child member).appeared
      exact (fork_tracking tidy process absent room).symm
  | exit currentPid reserved =>
      obtain ⟨process, rfl⟩ := step_exit taken
      obtain ⟨shells, children⟩ := inRoom.room rfl
      exact (exit_tracking tidy process shells children).symm
  | write call room buffer =>
      obtain rfl := Option.some.inj taken
      obtain ⟨shells, children⟩ := inRoom.room rfl
      exact (write_tracking tidy shells children).symm
  | take outside =>
      rw [take_maps taken]
      rfl
  | create opening =>
      obtain ⟨_, _, rfl⟩ := step_create taken
      rfl
  | scan =>
      obtain ⟨_, _, _, rfl⟩ := step_scan taken
      rfl
  | register closing =>
      have children : after.maps.children = before.maps.children := by
        rcases children_step taken with ⟨same, _⟩ | ⟨_, announces | ⟨_, exits⟩, _⟩ | ⟨_, _, _, _, _, forks, _⟩
        · exact same
        · cases announces
        · cases exits
        · cases forks
      rcases step_shells taken with ⟨same, none⟩ | ⟨_, _, _, exits, _⟩ | ⟨_, _, _, writes, _⟩ |
        ⟨slot, shell, enters, same⟩
      · simp only [none, Maps.tracking, same, children]
        rfl
      · cases exits
      · cases writes
      · obtain ⟨chosen, absent⟩ := inRoom.placed slot shell enters
        have inserted := tidy.shellsCompact.asMap_insert chosen (entering_used run enters) absent
        simp only [enters, Maps.tracking, same, children, inserted]
        rfl

theorem mapped_step (run : Run step World.start past before) (mapped : Mapped past before)
    (inRoom : InRoom past before label) (taken : step before label = some after) :
    Mapped ((before, label) :: past) after := by
  obtain ⟨compact, distinct⟩ := shells_tidy_step run mapped inRoom taken
  refine ⟨attributed_step mapped.attributed inRoom.fresh taken, compact, distinct, ?_⟩
  rw [tracked, mapped.same]
  simp only [move_tracking run mapped inRoom taken, sent]

theorem mapped_start : Mapped [] World.start :=
  ⟨attributed_start, empty_compact, by simp, by rw [tracked, World.start, tracking_empty, sent]⟩

/-- In every run of fresh process ids with room in the tables, in which each entry is
written where the first free slot still is, for a process that has none, the two
arrays are the two maps that the same steps lead to, and the kernel programs have
sent the records the maps would have sent. -/
theorem tables_are_maps (run : Run step World.start past world) (inRoom : Always InRoom past) :
    tracked past = (world.maps.tracking, sent past) :=
  (run.invariant mapped_start (fun _ _ _ _ earlier mapped condition taken =>
    mapped_step earlier mapped condition taken) inRoom).same

theorem tables_are_maps_moved :
    ∃ past world, Run step World.start past world ∧ (sent past).length = 6 ∧
      (world.maps.shells.lookup 0).map Shell.shellPid = some 2#32 ∧
      tracked past = (world.maps.tracking, sent past) := by
  obtain ⟨past, world, run, inRoom, six, moved⟩ := replay_some step World.start
    (registration 1#32 ++ [.fork 1#32 2#32 true] ++ [.take sampleOutside] ++ registration 2#32 ++
      [.fork 2#32 3#32 true, .exit 1#32 true, .write (ttyWrite 3#32 [97#8]) true ⟨0#64, fun _ => 0#8⟩])
    (fun past world => Always InRoom past ∧ (sent past).length = 6 ∧
      (world.maps.shells.lookup 0).map Shell.shellPid = some 2#32) (by decide +kernel)
  exact ⟨past, world, run, six, moved, tables_are_maps run inRoom⟩

end Runs

end Nhi
