import Nhi.GhostShells
import Nhi.NearestShell

/-!
The time between the announcement of a shell and the moment its entry can be
found. The shell has left `children`, and what it forks now is in neither table;
nor is what those processes fork later.
-/

namespace Nhi

open SlotTable RunHistory

/-- The shell a process belongs to by its history: a process that announces
itself becomes its own shell, a forked one takes over that of its parent. -/
def shellOf : List (World × Label) → Pid → Option Pid
  | [], _ => none
  | (_, label) :: past, pid =>
      if label.announces = some pid then some pid
      else
        match label with
        | .fork forking childPid _ =>
            if childPid = pid then shellOf past forking else shellOf past pid
        | _ => shellOf past pid

/-- Process numbers name one process each, reservations succeed, no table is full. -/
structure Unhindered (past : List (World × Label)) (before : World) (label : Label) : Prop where
  fresh : FreshFork past before label
  orderly : Orderly past before label
  room : ¬ before.maps.children.Full

instance (past : List (World × Label)) (before : World) (label : Label) :
    Decidable (Unhindered past before label) :=
  decidable_of_iff (FreshFork past before label ∧ Orderly past before label ∧
      ¬ before.maps.children.Full)
    ⟨fun ⟨fresh, orderly, room⟩ => ⟨fresh, orderly, room⟩,
      fun all => ⟨all.fresh, all.orderly, all.room⟩⟩

def Tracked (past : List (World × Label)) (before : World) : Label → Prop
  | .fork forking childPid reserved =>
      ∀ shellPid, shellOf past forking = some shellPid →
        ∀ after, step before (.fork forking childPid reserved) = some after →
          (⟨childPid, shellPid⟩ : Child) ∈ after.maps.children.entries
  | _ => True

/-- A process that has announced itself forks only when `shells` has its entry,
with no free slot before it. -/
def ForksRegistered (past : List (World × Label)) (before : World) : Label → Prop
  | .fork forking _ _ => Announced past forking → before.maps.shells.Ahead forking
  | _ => True

/-- The invariant: who lives in a shell and is not one has its entry. -/
def NoneLost (past : List (World × Label)) (world : World) : Prop :=
  ∀ pid shellPid, shellOf past pid = some shellPid → ¬ Announced past pid → ¬ Exited past pid →
    (⟨pid, shellPid⟩ : Child) ∈ world.maps.children.entries

structure Followed (past : List (World × Label)) (world : World) : Prop where
  fresh : Always FreshFork past
  attributed : Attributed past world
  noneLost : NoneLost past world

theorem shellOf_cons {past : List (World × Label)} {before : World} {label : Label}
    {pid shellPid : Pid} (belongs : shellOf ((before, label) :: past) pid = some shellPid) :
    label.announces = some pid ∨
    (∃ forking reserved, label = .fork forking pid reserved ∧
      shellOf past forking = some shellPid) ∨
    shellOf past pid = some shellPid := by
  by_cases announces : label.announces = some pid
  · exact Or.inl announces
  · apply Or.inr
    cases label with
    | fork forking childPid reserved =>
        by_cases here : childPid = pid
        · subst childPid
          exact Or.inl ⟨forking, reserved, rfl, by simpa [shellOf, announces] using belongs⟩
        · exact Or.inr (by simpa [shellOf, announces, here] using belongs)
    | kill | exit | write | take | create | scan | register =>
        exact Or.inr (by simpa [shellOf, announces] using belongs)

theorem shellOf_announced {past : List (World × Label)} (fresh : Always FreshFork past) {pid : Pid}
    (announced : Announced past pid) : shellOf past pid = some pid := by
  induction past with
  | nil => simp [Announced] at announced
  | cons taken past ih =>
      obtain ⟨before, label⟩ := taken
      by_cases now : label.announces = some pid
      · simp [shellOf, now]
      · have earlier := (announced_cons.mp announced).resolve_left now
        have same := ih fresh.2 earlier
        cases label with
        | fork forking childPid reserved =>
            have other : childPid ≠ pid := by
              rintro rfl
              exact fresh.1 earlier.appeared
            simpa [shellOf, now, other] using same
        | kill | exit | write | take | create | scan | register =>
            simpa [shellOf, now] using same

section Step

variable {past : List (World × Label)} {before after : World}

theorem fork_recorded {forking childPid : Pid} {reserved : Bool}
    (taken : step before (.fork forking childPid reserved) = some after)
    (compact : before.maps.children.Compact)
    (sends : (forkTracepoint forking childPid true before.maps).2 ≠ []) :
    ∃ shellPid, RecordedUnder before.maps forking shellPid ∧
      (⟨childPid, shellPid⟩ : Child) ∈ after.maps.children.entries := by
  obtain ⟨nonzero, rfl⟩ := step_fork taken
  rw [ran_maps, forkTracepoint_maps forking childPid reserved before.maps true]
  rcases forkTracepoint_cases forking childPid true before.maps with
    idle | ⟨i, shellPid, chosen, under, recorded⟩
  · exact absurd (by rw [idle]) sends
  · refine ⟨shellPid, under, ?_⟩
    have used : Slot.Used (⟨childPid, shellPid⟩ : Child) := nonzero
    rw [recorded, (compact.insert_entries chosen used).2]
    exact List.mem_append_right _ List.mem_cons_self

theorem fork_tracked (followed : Followed past before) {forking childPid shellPid : Pid}
    {reserved : Bool}
    (unhindered : Unhindered past before (.fork forking childPid reserved))
    (registered : ForksRegistered past before (.fork forking childPid reserved))
    (taken : step before (.fork forking childPid reserved) = some after)
    (belongs : shellOf past forking = some shellPid) :
    (⟨childPid, shellPid⟩ : Child) ∈ after.maps.children.entries := by
  obtain ⟨fresh, attributed, noneLost⟩ := followed
  have quiet := attributed.left.resolve_left unhindered.room
  by_cases announced : Announced past forking
  · -- the shell itself forks
    obtain rfl : forking = shellPid :=
      Option.some.inj ((shellOf_announced fresh announced).symm.trans belongs)
    have sends := (forkTracepoint_sends_iff forking childPid before.maps).mpr
      ⟨Or.inl (registered announced), unhindered.room⟩
    obtain ⟨other, under, member⟩ := fork_recorded taken attributed.compact sends
    rcases under with ⟨_, rfl⟩ | ⟨_, child, listed, rfl, _⟩
    · exact member
    · exact absurd announced (quiet child listed)
  · have living := unhindered.orderly.living forking rfl
    have entry := noneLost forking shellPid belongs announced living
    have ahead := (attributed.compact.ahead_iff attributed.distinct).mpr ⟨_, entry, rfl⟩
    have sends := (forkTracepoint_sends_iff forking childPid before.maps).mpr
      ⟨Or.inr ahead, unhindered.room⟩
    obtain ⟨other, under, member⟩ := fork_recorded taken attributed.compact sends
    rcases under with ⟨⟨shell, listed, pid⟩, _⟩ | ⟨_, child, listed, pid, rfl⟩
    · exact absurd (pid ▸ attributed.listed shell listed) announced
    · have same : child = ⟨forking, shellPid⟩ :=
        List.inj_on_of_nodup_map attributed.distinct listed entry pid
      rw [same] at member
      exact member

theorem noneLost_step (followed : Followed past before) {label : Label}
    (unhindered : Unhindered past before label) (registered : ForksRegistered past before label)
    (taken : step before label = some after) : NoneLost ((before, label) :: past) after := by
  intro pid shellPid belongs quiet living
  rcases shellOf_cons belongs with announces | ⟨forking, reserved, rfl, shell⟩ | earlier
  · exact absurd (announced_cons.mpr (Or.inl announces)) quiet
  · exact fork_tracked followed unhindered registered taken shell
  · obtain ⟨_, attributed, noneLost⟩ := followed
    -- an entry that is there stays, unless its process is the one that leaves
    have entry := noneLost pid shellPid earlier
      (fun announced => quiet (announced_cons.mpr (Or.inr announced)))
      (fun exited => living (exited_cons.mpr (Or.inr exited)))
    rcases children_step taken with
      ⟨same, _⟩ | ⟨leaving, leaves, same⟩ | ⟨_, _, _, i, _, _, nonzero, chosen, _, same⟩
    · exact same ▸ entry
    · have exact := (attributed.compact.without_exact_iff attributed.distinct leaving).mpr
        fun _ => unhindered.room
      have other : pid ≠ leaving := by
        rintro rfl
        rcases leaves with announces | ⟨reserved, rfl⟩
        · exact quiet (announced_cons.mpr (Or.inl announces))
        · exact living (exited_cons.mpr (Or.inl rfl))
      rw [same]
      exact exact.mem_iff.mpr (List.mem_filter.mpr ⟨entry, by simpa using other⟩)
    · rw [same, (attributed.compact.insert_entries chosen ((child_used _).mpr nonzero)).2]
      exact List.mem_append_left _ entry

theorem followed_step (followed : Followed past before) {label : Label}
    (unhindered : Unhindered past before label) (registered : ForksRegistered past before label)
    (taken : step before label = some after) : Followed ((before, label) :: past) after where
  fresh := ⟨unhindered.fresh, followed.fresh⟩
  attributed := attributed_step followed.attributed unhindered.fresh taken
  noneLost := noneLost_step followed unhindered registered taken

/-- A shell that is not found forks a process that gets no entry. -/
theorem registered_of_tracked (attributed : Attributed past before) (fresh : Always FreshFork past)
    {label : Label} (unhindered : Unhindered past before label)
    (taken : step before label = some after) (tracked : Tracked past before label) :
    ForksRegistered past before label := by
  cases label with
  | fork forking childPid reserved =>
      intro announced
      by_contra missed
      have belongs := shellOf_announced fresh announced
      have member := tracked forking belongs after taken
      have untracked : ¬ before.maps.children.Ahead forking := by
        intro ahead
        obtain ⟨child, listed, rfl⟩ :=
          (attributed.compact.ahead_iff attributed.distinct).mp ahead
        exact attributed.left.resolve_left unhindered.room child listed announced
      have silent : (forkTracepoint forking childPid true before.maps).2 = [] := by
        by_contra sends
        rcases ((forkTracepoint_sends_iff forking childPid before.maps).mp sends).1 with
          shell | child
        · exact missed shell
        · exact untracked child
      obtain ⟨_, rfl⟩ := step_fork taken
      rw [ran_maps, forkTracepoint_maps forking childPid reserved before.maps true] at member
      rcases forkTracepoint_cases forking childPid true before.maps with
        idle | ⟨_, _, _, _, recorded⟩
      · rw [idle] at member
        exact unhindered.fresh (attributed.nearest _ member).appeared
      · simp [recorded, submit] at silent
  | kill | exit | write | take | create | scan | register => trivial

theorem tracked_iff (followed : Followed past before) {label : Label}
    (unhindered : Unhindered past before label) (taken : step before label = some after) :
    Tracked past before label ↔ ForksRegistered past before label := by
  constructor
  · exact registered_of_tracked followed.attributed followed.fresh unhindered taken
  · intro registered
    cases label with
    | fork forking childPid reserved =>
        intro shellPid belongs after again
        exact fork_tracked followed unhindered registered again belongs
    | kill | exit | write | take | create | scan | register => trivial

end Step

theorem followed_start : Followed [] World.start where
  fresh := trivial
  attributed := attributed_start
  noneLost := by simp [NoneLost, shellOf]

theorem followed_run {past : List (World × Label)} {last : World}
    (run : Run step World.start past last) (unhindered : Always Unhindered past)
    (registered : Always ForksRegistered past) : Followed past last :=
  run.invariant followed_start (fun _ _ _ _ _ followed condition taken =>
    followed_step followed condition.1 condition.2 taken) (unhindered.and registered)

/-- Every process forked in a shell is tracked under it, and its forks in turn,
precisely when no shell forks before its entry can be found. -/
theorem forks_tracked_iff {past : List (World × Label)} {last : World}
    (run : Run step World.start past last) (unhindered : Always Unhindered past) :
    Always Tracked past ↔ Always ForksRegistered past := by
  induction run with
  | start => exact Iff.rfl
  | next earlier taken ih =>
      rw [Always, Always, ih unhindered.2]
      apply and_congr_left
      intro registered
      exact tracked_iff (followed_run earlier unhindered.2 registered) unhindered.1 taken

theorem forks_tracked_chain :
    ∃ past last, Run step World.start past last ∧ shellOf past 3#32 = some 1#32 ∧
      (Always Tracked past ↔ Always ForksRegistered past) := by
  obtain ⟨past, last, run, unhindered, belongs⟩ := replay_some step World.start
    (registration 1#32 ++ [.fork 1#32 2#32 true, .fork 2#32 3#32 true])
    (fun past _ => Always Unhindered past ∧ shellOf past 3#32 = some 1#32) (by decide +kernel)
  exact ⟨past, last, run, belongs, forks_tracked_iff run unhindered⟩

def earlyFork : List Label :=
  [.kill 1#32 SIGUSR1 nhidHash true, .fork 1#32 2#32 true, .take sampleOutside,
    .create sampleOpening, .scan, .register sampleClosing]

/-- Process 2 is lost, and so is what it forks when shell 1 has its entry. -/
theorem early_fork_lost :
    ∃ past last, Run step World.start past last ∧ Always Unhindered past ∧
      shellOf past 2#32 = some 1#32 ∧ shellOf past 3#32 = some 1#32 ∧
      last.maps.children.entries = [] ∧ ¬ Always Tracked past := by
  obtain ⟨past, before, run, unhindered, next, first, second, none⟩ :=
    replay_some step World.start earlyFork
      (fun past before => Always Unhindered past ∧ Unhindered past before (.fork 2#32 3#32 true) ∧
        shellOf past 2#32 = some 1#32 ∧
        shellOf ((before, .fork 2#32 3#32 true) :: past) 3#32 = some 1#32 ∧
        (forkTracepoint 2#32 3#32 true before.maps).1.children.entries = []) (by decide +kernel)
  have taken : step before (.fork 2#32 3#32 true) = some _ := rfl
  refine ⟨_, _, run.next taken, ⟨next, unhindered⟩, first, second, none, fun tracked => ?_⟩
  have member := tracked.1 1#32 first _ taken
  rw [ran_maps, none] at member
  cases member

end Nhi
