import Nhi.NearestShell

/-!
Processes with threads. The kernel numbers threads and processes alike:
`fork_tracepoint` runs in the forking process for every new process and every
new thread, with the number of the new one, and `do_exit` for every thread that
ends, with the number of its process. So a thread is entered in `children`
under its own number and its process is taken out when the thread ends.
-/

namespace Nhi

open SlotTable RunHistory

inductive Task where
  | fork (forking childPid : Pid) (reserved : Bool)
  | clone (process thread : Pid) (reserved : Bool)
  | exitThread (process thread : Pid) (reserved : Bool)
  | other (label : Label)

def Task.label : Task → Label
  | .fork forking childPid reserved => .fork forking childPid reserved
  | .clone process thread reserved => .fork process thread reserved
  | .exitThread process _ reserved => .exit process reserved
  | .other label => label

def taskStep (world : World) (task : Task) : Option World := step world task.label

def labels (past : List (World × Task)) : List (World × Label) :=
  past.map fun taken => (taken.1, taken.2.label)

def Task.created (process : Pid) : Task → Option Pid
  | .clone creating thread _ => if creating = process then some thread else none
  | _ => none

/-- The threads a process ever had; the first has the number of the process. -/
def threads (past : List (World × Task)) (process : Pid) : List Pid :=
  process :: past.filterMap fun taken => taken.2.created process

def Task.ended : Task → Option (Pid × Pid)
  | .exitThread process thread _ => some (process, thread)
  | _ => none

def Ended (past : List (World × Task)) (process thread : Pid) : Prop :=
  ∃ taken ∈ past, taken.2.ended = some (process, thread)

instance (past : List (World × Task)) (process thread : Pid) :
    Decidable (Ended past process thread) :=
  inferInstanceAs (Decidable (∃ taken ∈ past, _ = _))

def Alive (past : List (World × Task)) (process : Pid) : Prop :=
  ∃ thread ∈ threads past process, ¬ Ended past process thread

instance (past : List (World × Task)) (process : Pid) : Decidable (Alive past process) :=
  decidable_of_iff ((threads past process).any fun thread => ¬ Ended past process thread)
    (by simp [Alive])

def Inserts (before : World) (process : Pid) : Task → Prop
  | .fork forking childPid reserved => childPid = process ∧
      (forkTracepoint forking childPid reserved before.maps).1.children.Holds process
  | _ => False

instance (before : World) (process : Pid) (task : Task) : Decidable (Inserts before process task) :=
  match task with
  | .fork .. => inferInstanceAs (Decidable (_ ∧ _))
  | .clone .. | .exitThread .. | .other _ => .isFalse id

/-- The process was forked and the fork entered it in `children`. -/
def Inserted (past : List (World × Task)) (process : Pid) : Prop :=
  ∃ taken ∈ past, Inserts taken.1 process taken.2

instance (past : List (World × Task)) (process : Pid) : Decidable (Inserted past process) :=
  inferInstanceAs (Decidable (∃ taken ∈ past, Inserts taken.1 process taken.2))

def Task.Proper : Task → Prop
  | .other label => label.forked = none ∧ label.exits = none
  | _ => True

instance (task : Task) : Decidable task.Proper :=
  match task with
  | .other _ => inferInstanceAs (Decidable (_ ∧ _))
  | .fork .. | .clone .. | .exitThread .. => .isTrue trivial

/-- New numbers are fresh, only live processes and threads act, no table is full
and, when a thread ends, some shell is registered. -/
structure Ordinary (past : List (World × Task)) (before : World) (task : Task) : Prop where
  fresh : FreshFork (labels past) before task.label
  living : ∀ process, task.label.actor = some process → Alive past process
  ending : ∀ process thread, task.ended = some (process, thread) →
    thread ∈ threads past process ∧ ¬ Ended past process thread ∧ before.maps.shells.entries ≠ []
  shellsRoom : ¬ before.maps.shells.Full
  childrenRoom : ¬ before.maps.children.Full
  proper : task.Proper

instance (past : List (World × Task)) (before : World) (task : Task) :
    Decidable (Ordinary past before task) :=
  decidable_of_iff
    (FreshFork (labels past) before task.label ∧
      task.label.actor.all (fun process => Alive past process) = true ∧
      task.ended.all (fun ended => ended.2 ∈ threads past ended.1 ∧
        ¬ Ended past ended.1 ended.2 ∧ before.maps.shells.entries ≠ []) = true ∧
      ¬ before.maps.shells.Full ∧ ¬ before.maps.children.Full ∧ task.Proper)
    (by
      simp only [Option.all_eq_true, decide_eq_true_eq, Prod.forall]
      exact ⟨fun ⟨fresh, living, ending, shells, children, proper⟩ =>
          ⟨fresh, living, ending, shells, children, proper⟩,
        fun ordinary => ⟨ordinary.fresh, ordinary.living, ordinary.ending, ordinary.shellsRoom,
          ordinary.childrenRoom, ordinary.proper⟩⟩)

/-- No process in `children` creates a thread; when one ends, no free slot comes
first in `shells`. -/
def Single (before : World) : Task → Prop
  | .clone process _ _ => ¬ before.maps.children.Holds process
  | .exitThread process _ _ => before.maps.children.Holds process → before.maps.shells.UsedAt 0
  | _ => True

instance (before : World) (task : Task) : Decidable (Single before task) :=
  match task with
  | .clone .. => inferInstanceAs (Decidable (¬ _))
  | .exitThread .. => inferInstanceAs (Decidable (_ → _))
  | .fork .. | .other _ => .isTrue trivial

/-- Every process that was entered and never announced itself is listed as long
as it has a live thread; after that neither it nor one of its threads is. -/
def ThreadsTracked (past : List (World × Task)) (world : World) : Prop :=
  ∀ process, Inserted past process → ¬ Announced (labels past) process →
    (Alive past process → world.maps.children.Holds process) ∧
    (¬ Alive past process → ∀ thread ∈ threads past process, ¬ world.maps.children.Holds thread)

/-- The invariant for one process: it has one thread and is listed till that ends. -/
structure SingleThread (past : List (World × Task)) (world : World) (process : Pid) : Prop where
  only : threads past process = [process]
  listed : world.maps.children.Holds process ↔ ¬ Ended past process process

section Step

variable {past : List (World × Task)} {before after : World} {task : Task} {process thread : Pid}

theorem threads_cons (none : task.created process = none) :
    threads ((before, task) :: past) process = threads past process := by
  simp [threads, none]

theorem ended_cons : Ended ((before, task) :: past) process thread ↔
    task.ended = some (process, thread) ∨ Ended past process thread := by
  simp [Ended]

theorem created_actor (created : task.created process = some thread) :
    task.label.actor = some process := by
  cases task with
  | clone creating new reserved =>
      simp only [Task.created] at created
      split at created
      · rename_i same
        exact congrArg some same
      · cases created
  | _ => cases created

theorem ended_actor (ended : task.ended = some (process, thread)) :
    task.label.actor = some process := by
  cases task with
  | exitThread ending last reserved =>
      obtain ⟨rfl, rfl⟩ := Prod.mk.inj (Option.some.inj ended)
      rfl
  | _ => cases ended

theorem appeared_of_actor {taken : World × Task} (member : taken ∈ past)
    (acts : taken.2.label.actor = some process) : Appeared (labels past) process :=
  ⟨_, List.mem_map_of_mem member, Or.inl acts⟩

theorem unseen_single (unseen : ¬ Appeared (labels past) process) :
    threads past process = [process] ∧ ¬ Ended past process process := by
  constructor
  · have none : past.filterMap (fun taken => taken.2.created process) = [] := by
      rw [List.filterMap_eq_nil_iff]
      intro taken member
      cases created : taken.2.created process with
      | none => rfl
      | some thread => exact absurd (appeared_of_actor member (created_actor created)) unseen
    rw [threads, none]
  · rintro ⟨taken, member, ended⟩
    exact unseen (appeared_of_actor member (ended_actor ended))

theorem inserted_appeared (inserted : Inserted past process) : Appeared (labels past) process := by
  obtain ⟨⟨world, task⟩, member, forks⟩ := inserted
  cases task with
  | fork forking childPid reserved =>
      obtain ⟨rfl, _⟩ := forks
      exact ⟨_, List.mem_map_of_mem member, Or.inr rfl⟩
  | _ => cases forks

theorem holds_step {history : List (World × Label)} {label : Label}
    (attributed : Attributed history before) (taken : step before label = some after)
    (forked : label.forked ≠ some process) (announces : label.announces ≠ some process)
    (exits : label.exits ≠ some process) :
    after.maps.children.Holds process ↔ before.maps.children.Holds process := by
  rcases children_step taken with
    ⟨same, _⟩ | ⟨pid, leaves, same⟩ | ⟨forking, childPid, reserved, i, shellPid, rfl, nonzero,
      chosen, _, same⟩
  · rw [same]
  · have other : process ≠ pid := by
      rintro rfl
      rcases leaves with announced | ⟨_, rfl⟩
      · exact announces announced
      · exact exits rfl
    rw [same, attributed.compact.without_holds attributed.distinct]
    exact and_iff_left fun here => absurd here other
  · have used : Slot.Used (⟨childPid, shellPid⟩ : Child) := nonzero
    rw [same, attributed.compact.insert_holds chosen used]
    exact or_iff_left fun here => forked (congrArg some here)

theorem exit_unlisted {history : List (World × Label)} {reserved : Bool}
    (attributed : Attributed history before) (room : ¬ before.maps.children.Full)
    (used : before.maps.shells.UsedAt 0) (absent : ¬ before.maps.shells.Holds process)
    (taken : step before (.exit process reserved) = some after) :
    ¬ after.maps.children.Holds process := by
  obtain ⟨_, rfl⟩ := step_exit taken
  rw [ran_maps]
  rcases doExit_cases process reserved before.maps with
    ⟨_, free⟩ | ⟨shell, shells, result, _⟩ | ⟨_, _, same⟩
  · exact absurd used free
  · obtain ⟨member, pid⟩ := sweep_removed_taken result
    exact absurd ⟨shell, member, pid⟩ absent
  · rw [same, attributed.compact.without_holds attributed.distinct]
    exact fun held => room (held.2 rfl)

theorem single_forked {forking : Pid} {reserved : Bool}
    (ordinary : Ordinary past before (.fork forking process reserved))
    (entered : (forkTracepoint forking process reserved before.maps).1.children.Holds process)
    (taken : taskStep before (.fork forking process reserved) = some after) :
    SingleThread ((before, .fork forking process reserved) :: past) after process := by
  obtain ⟨only, running⟩ := unseen_single ordinary.fresh
  obtain ⟨_, rfl⟩ := step_fork taken
  exact ⟨by rw [threads_cons rfl, only], iff_of_true entered
    fun ended => running ((ended_cons.mp ended).resolve_left nofun)⟩

theorem single_kept (single : SingleThread past before process) (created : task.created process = none)
    (ended : task.ended ≠ some (process, process))
    (held : after.maps.children.Holds process ↔ before.maps.children.Holds process) :
    SingleThread ((before, task) :: past) after process where
  only := by rw [threads_cons created, single.only]
  listed := by rw [held, single.listed, ended_cons, or_iff_right ended]

theorem single_step (attributed : Attributed (labels past) before)
    (ordinary : Ordinary past before task) (unthreaded : Single before task)
    (taken : taskStep before task = some after)
    (single : SingleThread past before process) (appeared : Appeared (labels past) process)
    (quiet : ¬ Announced (labels ((before, task) :: past)) process) :
    SingleThread ((before, task) :: past) after process := by
  have alive (acts : Alive past process) : before.maps.children.Holds process := by
    obtain ⟨thread, member, running⟩ := acts
    rw [single.only, List.mem_singleton] at member
    exact single.listed.mpr (member ▸ running)
  have notNew {id : Pid} (fresh : ¬ Appeared (labels past) id) : some id ≠ some process :=
    fun same => fresh (Option.some.inj same ▸ appeared)
  have silent : task.label.announces ≠ some process :=
    fun announces => quiet (announced_cons.mpr (Or.inl announces))
  have noShell : ¬ before.maps.shells.Holds process := by
    rintro ⟨shell, member, pid⟩
    exact quiet (announced_cons.mpr (Or.inr (pid ▸ attributed.listed shell member)))
  cases task with
  | fork forking childPid reserved =>
      exact single_kept single rfl nofun
        (holds_step attributed taken (notNew ordinary.fresh) silent nofun)
  | clone creating thread reserved =>
      -- the creating process lives and is not listed, so it is another one
      have other : creating ≠ process := by
        rintro rfl
        exact unthreaded (alive (ordinary.living creating rfl))
      exact single_kept single (if_neg other) nofun
        (holds_step attributed taken (notNew ordinary.fresh) silent nofun)
  | exitThread ending thread reserved =>
      by_cases here : ending = process
      · subst here
        obtain ⟨member, running, _⟩ := ordinary.ending ending thread rfl
        rw [single.only, List.mem_singleton] at member
        subst member
        have used := unthreaded (single.listed.mpr running)
        have gone := exit_unlisted attributed ordinary.childrenRoom used noShell taken
        exact ⟨by rw [threads_cons rfl, single.only],
          iff_of_false gone (not_not.mpr (ended_cons.mpr (Or.inl rfl)))⟩
      · refine single_kept single rfl ?_
          (holds_step attributed taken nofun silent fun exits => here (Option.some.inj exits))
        rintro ended
        exact here (Prod.mk.inj (Option.some.inj ended)).1
  | other label =>
      obtain ⟨noFork, noExit⟩ := ordinary.proper
      exact single_kept single rfl nofun (holds_step attributed taken
        (by simp [Task.label, noFork]) silent (by simp [Task.label, noExit]))

theorem inserted_cons (inserted : Inserted ((before, task) :: past) process) :
    (∃ forking reserved, task = .fork forking process reserved ∧
      (forkTracepoint forking process reserved before.maps).1.children.Holds process) ∨
    Inserted past process := by
  obtain ⟨taken, member, forks⟩ := inserted
  rcases List.mem_cons.mp member with rfl | earlier
  · cases task with
    | fork forking childPid reserved =>
        obtain ⟨rfl, entered⟩ := forks
        exact Or.inl ⟨forking, reserved, rfl, entered⟩
    | _ => cases forks
  · exact Or.inr ⟨taken, earlier, forks⟩

end Step

structure Kept (past : List (World × Task)) (world : World) : Prop where
  attributed : Attributed (labels past) world
  single : ∀ process, Inserted past process → ¬ Announced (labels past) process →
    SingleThread past world process

theorem kept_start : Kept [] World.start where
  attributed := attributed_start
  single := by simp [Inserted]

theorem kept_step {past : List (World × Task)} {before after : World} {task : Task}
    (kept : Kept past before) (ordinary : Ordinary past before task)
    (unthreaded : Single before task) (taken : taskStep before task = some after) :
    Kept ((before, task) :: past) after where
  attributed := attributed_step kept.attributed ordinary.fresh taken
  single := by
    intro process inserted quiet
    rcases inserted_cons inserted with ⟨forking, reserved, rfl, entered⟩ | earlier
    · exact single_forked ordinary entered taken
    · have silent : ¬ Announced (labels past) process :=
        fun announced => quiet (announced_cons.mpr (Or.inr announced))
      exact single_step kept.attributed ordinary unthreaded taken
        (kept.single process earlier silent) (inserted_appeared earlier) quiet

/-- As long as no process in `children` creates a thread, threads do not break
the tracking. -/
theorem threads_tracked_single {past : List (World × Task)} {last : World}
    (run : Run taskStep World.start past last)
    (always : Always (fun past before task => Ordinary past before task ∧ Single before task) past) :
    ThreadsTracked past last := by
  have kept : Kept past last :=
    run.invariant kept_start (fun _ _ _ _ _ kept condition taken =>
      kept_step kept condition.1 condition.2 taken) always
  intro process inserted quiet
  have single := kept.single process inserted quiet
  simp only [Alive, single.only, List.mem_singleton, exists_eq_left, forall_eq, not_not]
  exact ⟨single.listed.mpr, fun ended held => single.listed.mp held ended⟩

theorem threads_tracked_forks :
    ∃ past last, Run taskStep World.start past last ∧
      (Inserted past 3#32 ∧ Alive past 3#32 ∧ ¬ Alive past 2#32) ∧ ThreadsTracked past last := by
  obtain ⟨past, last, run, always, shown⟩ := replay_some taskStep World.start
    ((registration 1#32).map .other ++
      [.fork 1#32 2#32 true, .fork 2#32 3#32 true, .exitThread 2#32 2#32 true])
    (fun past _ => Always (fun past before task => Ordinary past before task ∧ Single before task) past ∧
      Inserted past 3#32 ∧ Alive past 3#32 ∧ ¬ Alive past 2#32) (by decide +kernel)
  exact ⟨past, last, run, shown, threads_tracked_single run always⟩

/-- Shell 1 forks 2, which creates the thread 3 that ends. -/
theorem thread_end_untracks :
    ∃ past last, Run taskStep World.start past last ∧ Always Ordinary past ∧
      ¬ ThreadsTracked past last := by
  obtain ⟨past, last, run, always, inserted, quiet, alive, gone⟩ := replay_some taskStep World.start
    ((registration 1#32).map .other ++
      [.fork 1#32 2#32 true, .clone 2#32 3#32 true, .exitThread 2#32 3#32 true])
    (fun past last => Always Ordinary past ∧ Inserted past 2#32 ∧
      ¬ Announced (labels past) 2#32 ∧ Alive past 2#32 ∧ ¬ last.maps.children.Holds 2#32)
    (by decide +kernel)
  exact ⟨past, last, run, always, fun tracked => gone ((tracked 2#32 inserted quiet).1 alive)⟩

end Nhi
