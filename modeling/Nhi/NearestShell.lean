import Nhi.System

/-!
Which shell a child is attributed to. A process is entered in `children` when
it is forked, under a shell taken over from the forking process; since then
that process may have become a shell, left or exited. The attribution is
compared with the fork history of the run.
-/

namespace Nhi

open SlotTable RunHistory

def Label.forked : Label → Option Pid
  | .fork _ childPid _ => some childPid
  | _ => none

def Label.announces : Label → Option Pid
  | .kill currentPid sig pid _ => if Announces sig pid then some currentPid else none
  | _ => none

def Appeared (past : List (World × Label)) (pid : Pid) : Prop :=
  ∃ taken ∈ past, taken.2.actor = some pid ∨ taken.2.forked = some pid

instance (past : List (World × Label)) (pid : Pid) : Decidable (Appeared past pid) :=
  inferInstanceAs (Decidable (∃ taken ∈ past, _ ∨ _))

/-- The id of a forked child was never used before. -/
def FreshFork (past : List (World × Label)) (_before : World) : Label → Prop
  | .fork _ childPid _ => ¬ Appeared past childPid
  | _ => True

instance (past : List (World × Label)) (before : World) (label : Label) :
    Decidable (FreshFork past before label) :=
  match label with
  | .fork _ childPid _ => inferInstanceAs (Decidable (¬ Appeared past childPid))
  | .kill .. | .exit .. | .write .. | .take _ | .create _ | .scan | .register _ => .isTrue trivial

/-- Up the chain of forking processes, the first one that was in `shells` at the
moment it forked the next. -/
inductive Nearest (past : List (World × Label)) : Pid → Pid → Prop where
  | here {before : World} {forking childPid : Pid} {reserved : Bool} :
      (before, .fork forking childPid reserved) ∈ past →
      before.maps.shells.Holds forking → Nearest past childPid forking
  | up {before : World} {forking childPid shellPid : Pid} {reserved : Bool} :
      (before, .fork forking childPid reserved) ∈ past →
      ¬ before.maps.shells.Holds forking → Nearest past forking shellPid →
      Nearest past childPid shellPid

theorem Nearest.mono {past later : List (World × Label)} {childPid shellPid : Pid}
    (nearest : Nearest past childPid shellPid) (extended : ∀ taken ∈ past, taken ∈ later) :
    Nearest later childPid shellPid := by
  induction nearest with
  | here forked held => exact .here (extended _ forked) held
  | up forked absent _ ih => exact .up (extended _ forked) absent ih

theorem Nearest.appeared {past : List (World × Label)} {childPid shellPid : Pid}
    (nearest : Nearest past childPid shellPid) : Appeared past childPid := by
  cases nearest with
  | here forked _ => exact ⟨_, forked, Or.inr rfl⟩
  | up forked _ _ => exact ⟨_, forked, Or.inr rfl⟩

theorem forked_once {past : List (World × Label)} (fresh : Always FreshFork past)
    {first second : World} {forking other childPid : Pid} {reserved kept : Bool}
    (one : (first, Label.fork forking childPid reserved) ∈ past)
    (two : (second, Label.fork other childPid kept) ∈ past) :
    first = second ∧ forking = other := by
  induction past with
  | nil => cases one
  | cons taken past ih =>
      have again {before : World} {process : Pid} {flag : Bool}
          (here : (before, Label.fork process childPid flag) = taken) {world : World} {parent : Pid}
          {bit : Bool} (earlier : (world, Label.fork parent childPid bit) ∈ past) : False := by
        subst here
        exact fresh.1 ⟨_, earlier, Or.inr rfl⟩
      rcases List.mem_cons.mp one with here | earlier
      · rcases List.mem_cons.mp two with also | before
        · have same := here.trans also.symm
          simp only [Prod.mk.injEq, Label.fork.injEq] at same
          exact ⟨same.1, same.2.1⟩
        · exact (again here before).elim
      · rcases List.mem_cons.mp two with also | before
        · exact (again also earlier).elim
        · exact ih fresh.2 earlier before

theorem Nearest.unique {past : List (World × Label)} (fresh : Always FreshFork past)
    {childPid shellPid other : Pid} (nearest : Nearest past childPid shellPid)
    (also : Nearest past childPid other) : shellPid = other := by
  induction nearest with
  | here forked held =>
      cases also with
      | here again _ => exact (forked_once fresh forked again).2
      | up again absent _ =>
          obtain ⟨rfl, rfl⟩ := forked_once fresh forked again
          exact absurd held absent
  | up forked absent _ ih =>
      cases also with
      | here again held =>
          obtain ⟨rfl, rfl⟩ := forked_once fresh forked again
          exact absurd held absent
      | up again _ rest =>
          obtain ⟨rfl, rfl⟩ := forked_once fresh forked again
          exact ih rest

def Announced (past : List (World × Label)) (pid : Pid) : Prop :=
  ∃ taken ∈ past, taken.2.announces = some pid

instance (past : List (World × Label)) (pid : Pid) : Decidable (Announced past pid) :=
  inferInstanceAs (Decidable (∃ taken ∈ past, taken.2.announces = some pid))

theorem announced_cons {past : List (World × Label)} {before : World} {label : Label} {pid : Pid} :
    Announced ((before, label) :: past) pid ↔ label.announces = some pid ∨ Announced past pid := by
  simp [Announced]

theorem Announced.appeared {past : List (World × Label)} {pid : Pid}
    (announced : Announced past pid) : Appeared past pid := by
  obtain ⟨⟨before, label⟩, member, announces⟩ := announced
  refine ⟨(before, label), member, Or.inl ?_⟩
  cases label with
  | kill currentPid sig target reserved =>
      simp only [Label.announces] at announces
      split at announces
      · exact announces
      · cases announces
  | _ => cases announces

/-- The invariant. Who has announced itself is not in `children` any more, unless
the table was full at that moment; a full table never changes again. -/
structure Attributed (past : List (World × Label)) (world : World) : Prop where
  compact : world.maps.children.Compact
  distinct : (world.maps.children.entries.map Child.childPid).Nodup
  nearest : ∀ child ∈ world.maps.children.entries, Nearest past child.childPid child.shellPid
  listed : ∀ shell ∈ world.maps.shells.entries, Announced past shell.shellPid
  pending : ∀ pid, world.Pending pid → Announced past pid
  left : world.maps.children.Full ∨
    ∀ child ∈ world.maps.children.entries, ¬ Announced past child.childPid

section Step

variable {past : List (World × Label)} {before after : World} {label : Label}

theorem children_step (taken : step before label = some after) :
    (after.maps.children = before.maps.children ∧ label.announces = none) ∨
    (∃ pid, (label.announces = some pid ∨ ∃ reserved, label = .exit pid reserved) ∧
      after.maps.children = before.maps.children.without pid) ∨
    ∃ forking childPid reserved i shellPid, label = .fork forking childPid reserved ∧
      childPid ≠ 0#32 ∧ before.maps.children.firstFree = some i ∧
      RecordedUnder before.maps forking shellPid ∧
      after.maps.children = before.maps.children.update i ⟨childPid, shellPid⟩ := by
  cases label with
  | kill currentPid sig target reserved =>
      obtain ⟨_, rfl⟩ := step_kill taken
      rw [ran_maps, killSomethingInfo_maps]
      by_cases announces : Announces sig target
      · exact Or.inr (Or.inl
          ⟨currentPid, Or.inl (by simp [Label.announces, announces]), by simp [announces]⟩)
      · exact Or.inl ⟨by simp [announces], by simp [Label.announces, announces]⟩
  | fork currentPid childPid reserved =>
      obtain ⟨nonzero, rfl⟩ := step_fork taken
      rw [ran_maps]
      rcases forkTracepoint_cases currentPid childPid reserved before.maps with
        same | ⟨i, shellPid, chosen, under, same⟩
      · exact Or.inl ⟨by rw [same], rfl⟩
      · exact Or.inr (Or.inr ⟨currentPid, childPid, reserved, i, shellPid, rfl, nonzero, chosen,
          under, by rw [same]⟩)
  | exit currentPid reserved =>
      obtain ⟨_, rfl⟩ := step_exit taken
      rw [ran_maps]
      rcases doExit_cases currentPid reserved before.maps with
        ⟨same, _⟩ | ⟨_, _, _, same⟩ | ⟨_, _, same⟩
      · exact Or.inl ⟨by rw [same], rfl⟩
      · exact Or.inl ⟨by rw [same], rfl⟩
      · exact Or.inr (Or.inl ⟨currentPid, Or.inr ⟨reserved, rfl⟩, by rw [same]⟩)
  | write call room buffer =>
      obtain rfl := Option.some.inj taken
      exact Or.inl ⟨rfl, rfl⟩
  -- the daemon never writes to `children`
  | take outside => exact Or.inl ⟨by rw [take_maps taken], rfl⟩
  | create opening =>
      obtain ⟨_, _, rfl⟩ := step_create taken
      exact Or.inl ⟨rfl, rfl⟩
  | scan =>
      obtain ⟨_, _, _, rfl⟩ := step_scan taken
      exact Or.inl ⟨rfl, rfl⟩
  | register closing =>
      obtain ⟨killEvent, indicator, slot, _, rfl⟩ := step_register taken
      rcases finish_cases closing killEvent indicator slot before with
        ⟨same, _⟩ | ⟨same, _⟩ | ⟨_, _, _, _, same⟩ <;> exact Or.inl ⟨by rw [same], rfl⟩

theorem pending_announced (attributed : Attributed past before)
    (taken : step before label = some after) :
    ∀ pid, after.Pending pid → Announced ((before, label) :: past) pid := by
  intro pid pending
  rcases pending_step taken pending with earlier | ⟨sig, target, reserved, rfl, announces⟩
  · exact announced_cons.mpr (Or.inr (attributed.pending pid earlier))
  · exact announced_cons.mpr (Or.inl (by simp [Label.announces, announces]))

theorem listed_announced (attributed : Attributed past before)
    (taken : step before label = some after) :
    ∀ shell ∈ after.maps.shells.entries, Announced ((before, label) :: past) shell.shellPid := by
  intro shell member
  rcases shells_step taken member with
    ⟨old, oldMember, pid, _⟩ | ⟨closing, killEvent, indicator, slot, _, phase, pid, _⟩
  · exact announced_cons.mpr (Or.inr (pid ▸ attributed.listed old oldMember))
  · have waiting : before.Pending shell.shellPid := Or.inr (by rw [phase, pid]; rfl)
    exact announced_cons.mpr (Or.inr (attributed.pending shell.shellPid waiting))

/-- The shell a fork is recorded under is the nearest one: a process found in
`children` while there is room is not in `shells`, wherever its slot is. -/
theorem recorded_nearest (attributed : Attributed past before) {forking childPid shellPid : Pid}
    {reserved : Bool} (room : ¬ before.maps.children.Full)
    (under : RecordedUnder before.maps forking shellPid) :
    Nearest ((before, .fork forking childPid reserved) :: past) childPid shellPid := by
  rcases under with ⟨held, rfl⟩ | ⟨_, child, member, rfl, rfl⟩
  · exact .here List.mem_cons_self held
  · have quiet := attributed.left.resolve_left room child member
    have absent : ¬ before.maps.shells.Holds child.childPid := by
      rintro ⟨shell, listed, pid⟩
      exact quiet (pid ▸ attributed.listed shell listed)
    exact .up List.mem_cons_self absent
      ((attributed.nearest child member).mono fun _ => List.mem_cons_of_mem _)

theorem fork_attributed (attributed : Attributed past before) {forking childPid shellPid : Pid}
    (reserved : Bool) {i : Nat} (fresh : ¬ Appeared past childPid) (nonzero : childPid ≠ 0#32)
    (chosen : before.maps.children.firstFree = some i)
    (under : RecordedUnder before.maps forking shellPid) :
    (before.maps.children.update i ⟨childPid, shellPid⟩).Compact ∧
      ((before.maps.children.update i ⟨childPid, shellPid⟩).entries.map Child.childPid).Nodup ∧
      (∀ child ∈ (before.maps.children.update i ⟨childPid, shellPid⟩).entries,
        Nearest ((before, .fork forking childPid reserved) :: past) child.childPid child.shellPid) ∧
      ∀ child ∈ (before.maps.children.update i ⟨childPid, shellPid⟩).entries,
        ¬ Announced ((before, .fork forking childPid reserved) :: past) child.childPid := by
  have room : ¬ before.maps.children.Full := by
    rw [← firstFree_none, chosen]
    exact nofun
  have used : Slot.Used (⟨childPid, shellPid⟩ : Child) := nonzero
  have silent (pid : Pid) (announced : Announced ((before, .fork forking childPid reserved) :: past) pid) :
      Announced past pid := (announced_cons.mp announced).resolve_left nofun
  obtain ⟨compact, entries⟩ := attributed.compact.insert_entries chosen used
  rw [entries]
  refine ⟨compact, ?_, ?_, ?_⟩
  · rw [List.map_append, List.nodup_append]
    refine ⟨attributed.distinct, List.nodup_singleton _, ?_⟩
    intro old member new here
    obtain ⟨child, inTable, rfl⟩ := List.mem_map.mp member
    obtain rfl : new = childPid := by simpa using here
    rintro rfl
    exact fresh (attributed.nearest child inTable).appeared
  · intro child member
    rcases List.mem_append.mp member with old | new
    · exact (attributed.nearest child old).mono fun _ => List.mem_cons_of_mem _
    -- the new child takes the shell of the forking process
    · obtain rfl := List.mem_singleton.mp new
      exact recorded_nearest attributed room under
  · intro child member announced
    rcases List.mem_append.mp member with old | new
    · exact attributed.left.resolve_left room child old (silent _ announced)
    · obtain rfl := List.mem_singleton.mp new
      exact fresh (silent _ announced).appeared

theorem attributed_step (attributed : Attributed past before)
    (fresh : FreshFork past before label) (taken : step before label = some after) :
    Attributed ((before, label) :: past) after := by
  have pending := pending_announced attributed taken
  have listed := listed_announced attributed taken
  have kept (child : Child) (member : child ∈ before.maps.children.entries) :
      Nearest ((before, label) :: past) child.childPid child.shellPid :=
    (attributed.nearest child member).mono fun _ => List.mem_cons_of_mem _
  rcases children_step taken with
    ⟨same, silent⟩ | ⟨pid, leaves, same⟩ | ⟨forking, childPid, reserved, i, shellPid, rfl, nonzero,
      chosen, under, same⟩
  · refine ⟨same ▸ attributed.compact, same ▸ attributed.distinct, same ▸ kept, listed, pending, ?_⟩
    simpa only [same, announced_cons, silent, reduceCtorEq, false_or] using attributed.left
  · refine ⟨same ▸ attributed.compact.without pid,
      same ▸ without_distinct attributed.distinct pid, ?_, listed, pending, ?_⟩
    · rw [same]
      exact fun child member => kept child (without_subset _ pid child member)
    · rw [same]
      by_cases full : before.maps.children.Full
      -- nothing is taken out of a full table, not even who announces itself
      · exact Or.inl (by rw [without_full full]; exact full)
      · right
        intro child member announced
        have exact := (attributed.compact.without_exact_iff attributed.distinct pid).mpr
          fun _ => full
        have other : child.childPid ≠ pid := by
          simpa using (List.mem_filter.mp (exact.mem_iff.mp member)).2
        rcases announced_cons.mp announced with here | earlier
        · rcases leaves with announces | ⟨_, rfl⟩
          · exact other (Option.some.inj (here.symm.trans announces))
          · cases here
        · exact attributed.left.resolve_left full child (without_subset _ pid child member) earlier
  · obtain ⟨compact, distinct, nearest, left⟩ :=
      fork_attributed attributed reserved fresh nonzero chosen under
    rw [← same] at compact distinct nearest left
    exact ⟨compact, distinct, nearest, listed, pending, Or.inr left⟩

end Step

theorem attributed_start : Attributed [] World.start where
  compact := empty_compact
  distinct := by simp
  nearest := by simp
  listed := by simp
  pending := by simp
  left := by simp [Announced]

theorem attributed_run {past : List (World × Label)} {last : World}
    (run : Run step World.start past last) (fresh : Always FreshFork past) : Attributed past last :=
  run.invariant attributed_start (fun _ _ _ _ _ attributed fresh taken =>
    attributed_step attributed fresh taken) fresh

/-- Every child is attributed to the nearest registered shell, and who is in
neither table forks unseen. -/
theorem children_nearest {past : List (World × Label)} {last : World}
    (run : Run step World.start past last) (fresh : Always FreshFork past) :
    (∀ child ∈ last.maps.children.entries, ∀ shellPid,
      Nearest past child.childPid shellPid ↔ shellPid = child.shellPid) ∧
    ∀ currentPid childPid reserved, ¬ last.maps.shells.Holds currentPid →
      ¬ last.maps.children.Holds currentPid →
      forkTracepoint currentPid childPid reserved last.maps = (last.maps, []) := by
  have attributed := attributed_run run fresh
  constructor
  · intro child member shellPid
    have nearest := attributed.nearest child member
    constructor
    · exact fun also => also.unique fresh nearest
    · rintro rfl
      exact nearest
  · intro currentPid childPid reserved noShell noChild
    rcases forkTracepoint_cases currentPid childPid reserved last.maps with
      same | ⟨_, _, _, held | ⟨_, child, member, pid, _⟩, _⟩
    · exact same
    · exact absurd held.1 noShell
    · exact absurd ⟨child, member, pid⟩ noChild

theorem children_nearest_chain :
    ∃ past last, Run step World.start past last ∧
      ((⟨3#32, 1#32⟩ : Child) ∈ last.maps.children.entries ∧
        ∀ shellPid, Nearest past 3#32 shellPid ↔ shellPid = 1#32) ∧
      forkTracepoint 9#32 10#32 true last.maps = (last.maps, []) := by
  obtain ⟨past, last, run, fresh, member, noShell, noChild⟩ := replay_some step World.start
    (registration 1#32 ++ [.fork 1#32 2#32 true, .fork 2#32 3#32 true])
    (fun past last => Always FreshFork past ∧
      (⟨3#32, 1#32⟩ : Child) ∈ last.maps.children.entries ∧
      ¬ last.maps.shells.Holds 9#32 ∧ ¬ last.maps.children.Holds 9#32) (by decide +kernel)
  have all := children_nearest run fresh
  exact ⟨past, last, run, ⟨member, all.1 ⟨3#32, 1#32⟩ member⟩, all.2 9#32 10#32 true noShell noChild⟩

end Nhi
