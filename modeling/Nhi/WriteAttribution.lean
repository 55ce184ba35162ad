import Nhi.AlternateScreen
import Nhi.NearestShell

/-!
Which shell the event of a write names. The two searches of `ksys_write` also
end when they run out of slots; the variables they were to set are then read
all the same. In the first that is whatever the stack held, in the second the
last slot of `shells` and the indicator 0.
-/

namespace Nhi

open SlotTable RunHistory

/-- The event names the shell the caller is listed under, which has the written
terminal and is not omitting its output. -/
def Names (call : WriteCall) (children : Children) (shells : Shells) (event : Event) : Prop :=
  ∃ child ∈ children.entries, child.childPid = call.currentPid ∧
    ∃ shell ∈ shells.entries, shell.shellPid = child.shellPid ∧ onTerminal call shell = true ∧
      shell.omitWrite ≠ 1#8 ∧ ∃ output, event = .write shell.indicator output

/-- Every event of a write by `pid` names its shell, whatever the stack holds. -/
def WritesNamed (maps : Maps) (pid : Pid) : Prop :=
  ∀ call room buffer event, call.currentPid = pid →
    (ksysWrite call room maps buffer).event = some event →
    Names call maps.children (ksysWrite call room maps buffer).shells event

/-- A full `children` lists the process, unless `shells` is empty, and a full
`shells` lists the shell of the process. -/
structure SearchesEnd (maps : Maps) (pid : Pid) : Prop where
  tracked : maps.children.Full → maps.children.Holds pid ∨ ¬ maps.shells.UsedAt 0
  registered : ∀ child ∈ maps.children.entries, child.childPid = pid → maps.shells.Full →
    maps.shells.Holds child.shellPid

section Named

variable {call : WriteCall} {room : Bool} {maps : Maps} {buffer : WriteBuffer} {event : Event}
  {found : Attribution}

theorem sent_unless_omitted (accepted : attributed call maps = some found)
    (entry : maps.shells.lookup found.shellIndex = some found.shell)
    (sent : (ksysWrite call room maps buffer).event = some event) :
    ∃ flag, flag ≠ 1#8 ∧ (ksysWrite call room maps buffer).shells.lookup found.shellIndex =
      some { found.shell with omitWrite := flag } := by
  obtain ⟨positive, recorded⟩ := ksysWrite_recorded accepted room buffer
  rw [recorded] at sent ⊢
  by_cases enters : EntersBelow (filled call buffer) (windowEnd call)
  · rw [(record_enter room entry positive enters).2] at sent
    cases sent
  · obtain ⟨shells, sends⟩ := record_pass room entry positive enters
    rw [sends] at sent
    refine ⟨_, fun omitted => ?_, by rw [shells, lookup_afterLeaves entry]⟩
    rw [if_pos omitted] at sent
    cases sent

theorem named_of_found {child : Child} (member : child ∈ maps.children.entries)
    (caller : child.childPid = call.currentPid)
    (accepted : attributed call maps = some found)
    (search : maps.shells.search child.shellPid = .found found.shellIndex found.shell)
    (indicator : found.indicator = found.shell.indicator)
    (sent : (ksysWrite call room maps buffer).event = some event) :
    Names call maps.children (ksysWrite call room maps buffer).shells event := by
  obtain ⟨entry, listed, pid⟩ := search_found search
  obtain ⟨flag, shown, after⟩ := sent_unless_omitted accepted entry sent
  obtain ⟨_, again, _, output, rfl⟩ := ksysWrite_event sent
  obtain rfl : found = _ := Option.some.inj (accepted.symm.trans again)
  have used : Slot.Used { found.shell with omitWrite := flag } := (mem_entries.mp listed).2
  exact ⟨child, member, caller, { found.shell with omitWrite := flag },
    mem_entries_of_lookup after used, pid, (attributed_some accepted).2, shown,
    (List.range (outputSize (cappedCount call.count))).map output, by rw [indicator]⟩

theorem findIndicator_used {shellPid : Pid} {shells : Shells}
    (search : findIndicator shellPid shells = some found) : shells.UsedAt 0 := by
  by_contra free
  obtain ⟨index, result⟩ := search_first (by decide) free shellPid
  simp [findIndicator, result] at search

theorem writesNamed_of_searchesEnd {pid : Pid} (ends : SearchesEnd maps pid) :
    WritesNamed maps pid := by
  rintro call room buffer event rfl sent
  obtain ⟨found, accepted, _⟩ := ksysWrite_event sent
  have located := (attributed_some accepted).1
  rw [findShell] at located
  cases first : maps.children.search call.currentPid with
  | free _ => simp [first] at located
  | bound =>
      obtain ⟨full, absent⟩ := search_bound first
      simp only [first] at located
      have unused := (ends.tracked full).resolve_left absent
      exact absurd (findIndicator_used located) unused
  | found i child =>
      obtain ⟨_, member, caller⟩ := search_found first
      simp only [first, findIndicator] at located
      cases second : maps.shells.search child.shellPid with
      | free _ => simp [second] at located
      | bound =>
          obtain ⟨full, absent⟩ := search_bound second
          exact absurd (ends.registered child member caller full) absent
      | found j shell =>
          simp only [second, Option.some.injEq] at located
          subst located
          exact named_of_found member caller accepted second rfl sent

end Named

theorem leave_sent {call : WriteCall} {maps : Maps} {found : Attribution} {shell : Shell}
    (given : call.buf = some leaveSequence) (sized : call.count = 8)
    (accepted : attributed call maps = some found)
    (entry : maps.shells.lookup found.shellIndex = some shell) (buffer : WriteBuffer) :
    ∃ event, (ksysWrite call true maps buffer).event = some event := by
  obtain ⟨positive, recorded⟩ := ksysWrite_recorded accepted true buffer
  have capped : cappedCount call.count = 8 := by rw [sized]; rfl
  have window : windowEnd call = 8 := by rw [windowEnd, capped]; rfl
  have enough : cappedCount call.count ≤ leaveSequence.length := by rw [capped]; decide
  have byte (p : Nat) (inside : p < 8) : leaveSequence[p]? = some (filled call buffer (1 + p)) := by
    rw [Nat.add_comm, filled_payload buffer given enough (capped ▸ inside)]
    exact List.getElem?_eq_getElem inside
  have off : alternateScreen.OffAt (filled call buffer) 1 := by
    constructor
    · intro d inside
      exact (List.getElem?_append_left inside).symm.trans (byte d (Nat.lt_succ_of_lt inside))
    · exact Option.some.inj (byte 7 (by decide)).symm
  have leaves : LeavesBelow (filled call buffer) (windowEnd call) := ⟨1, by omega, le_rfl, off⟩
  have stays : ¬ EntersBelow (filled call buffer) (windowEnd call) := by
    rintro ⟨i, below, above, on⟩
    rcases Nat.eq_or_lt_of_le above with rfl | later
    · exact absurd (on.2.symm.trans off.2) (by decide)
    · exact off.apart later (by rw [window] at below; exact Nat.lt_succ_of_lt below) on.1
  rw [recorded, (record_pass true entry positive stays).2, if_pos leaves]
  exact ⟨_, rfl⟩

/-- With `children` full, the stack decides which shell an untracked process
is recorded under. -/
theorem untracked_sent {maps : Maps} {pid : Pid} (full : maps.children.Full)
    (absent : ¬ maps.children.Holds pid) (used : maps.shells.UsedAt 0) (buffer : WriteBuffer) :
    ∃ call event, call.currentPid = pid ∧
      (ksysWrite call true maps buffer).event = some event := by
  obtain ⟨shell, found, usedShell⟩ := used
  -- the stack holds the pid of the shell in the first slot
  let call : WriteCall :=
    { ttyWrite pid leaveSequence with stack := ⟨shell.shellPid, Vector.replicate 8 0#8⟩ }
  have bound : maps.children.search pid = .bound := search_full full absent
  have first : maps.shells.search shell.shellPid = .found 0 shell :=
    search_eq_found found usedShell rfl (fun j before => absurd before (Nat.not_lt_zero j))
  have located : findShell call maps = some ⟨0, shell.indicator, shell⟩ := by
    simp [findShell, call, ttyWrite, bound, findIndicator, first]
  have accepted := attributed_of_found (show 1 ≤ leaveSequence.length by decide) located rfl
  obtain ⟨event, sent⟩ := leave_sent rfl rfl accepted found buffer
  exact ⟨call, event, rfl, sent⟩

theorem unregistered_sent {maps : Maps} {pid : Pid} {i : Nat} {child : Child}
    (tracked : maps.children.search pid = .found i child) (full : maps.shells.Full)
    (absent : ¬ maps.shells.Holds child.shellPid) (buffer : WriteBuffer) :
    ∃ event, (ksysWrite (ttyWrite pid [97#8]) true maps buffer).event = some event := by
  have bound : maps.shells.search child.shellPid = .bound := search_full full absent
  obtain ⟨last, found⟩ := maps.shells.lookup_some (shellsMaxEntries - 1) (by decide)
  have located : findShell (ttyWrite pid [97#8]) maps = some ⟨shellsMaxEntries, 0#64, last⟩ := by
    simpa [findShell, ttyWrite, tracked, findIndicator, bound] using found
  have accepted := attributed_of_found (Nat.le_refl 1) located rfl
  have missing : maps.shells.lookup shellsMaxEntries = none :=
    maps.shells.lookup_none le_rfl
  obtain ⟨positive, recorded⟩ := ksysWrite_recorded accepted true buffer
  have plain : ¬ LeadsBelow (filled (ttyWrite pid [97#8]) buffer) (windowEnd (ttyWrite pid [97#8])) := by
    rintro ⟨j, below, above, _⟩
    have window : windowEnd (ttyWrite pid [97#8]) = 1 := rfl
    omega
  rw [recorded, (record_unlisted true buffer missing positive).2, if_neg plain]
  exact ⟨_, rfl⟩

theorem searchesEnd_of_writesNamed {maps : Maps} {pid : Pid} (compact : maps.children.Compact)
    (distinct : (maps.children.entries.map Child.childPid).Nodup)
    (named : WritesNamed maps pid) : SearchesEnd maps pid where
  tracked := by
    intro full
    by_contra untracked
    obtain ⟨absent, used⟩ := not_or.mp untracked
    obtain ⟨call, event, rfl, sent⟩ :=
      untracked_sent full absent (not_not.mp used) ⟨0#64, fun _ => 0#8⟩
    obtain ⟨child, member, caller, _⟩ := named call true _ event rfl sent
    exact absent ⟨child, member, caller⟩
  registered := by
    intro child member same full
    by_contra absent
    obtain ⟨i, first, tracked⟩ := compact.search_holds ⟨child, member, same⟩
    obtain ⟨_, listed, key⟩ := search_found tracked
    have only {other : Child} (inTable : other ∈ maps.children.entries)
        (caller : other.childPid = pid) : other = child :=
      List.inj_on_of_nodup_map distinct inTable member (caller.trans same.symm)
    obtain rfl := only listed key
    -- the search of `shells` fell off its end, and the event is sent all the same
    obtain ⟨event, sent⟩ := unregistered_sent tracked full absent ⟨0#64, fun _ => 0#8⟩
    obtain ⟨other, inTable, caller, shell, kept, shellPid, _⟩ := named _ true _ event rfl sent
    obtain rfl := only inTable caller
    exact absent ((holds_keys (ksysWrite_keys _ _ _ _) _).mp ⟨shell, kept, shellPid⟩)

/-- The tables of a run in which forked ids are fresh. -/
def Reached (maps : Maps) : Prop :=
  ∃ past last, Run step World.start past last ∧ Always FreshFork past ∧ last.maps = maps

/-- Every event of a write names the writer's shell when both searches end
before they run out of slots, and in reached tables only then. -/
theorem writes_named_iff (maps : Maps) (pid : Pid) :
    (SearchesEnd maps pid → WritesNamed maps pid) ∧
      (Reached maps → WritesNamed maps pid → SearchesEnd maps pid) := by
  refine ⟨writesNamed_of_searchesEnd, ?_⟩
  rintro ⟨past, last, run, fresh, rfl⟩
  have attributed := attributed_run run fresh
  exact searchesEnd_of_writesNamed attributed.compact attributed.distinct

section Fill

variable {past : List (World × Label)} {world : World} {i : Nat} {shell : Shell}

theorem fork_inserted (listed : world.maps.shells.search 1#32 = .found i shell)
    (compact : world.maps.children.Compact)
    (room : world.maps.children.entries.length < childrenMaxEntries) {pid : Pid}
    (nonzero : pid ≠ 0#32) :
    ∃ after, step world (.fork 1#32 pid true) = some after ∧
      after.maps.shells = world.maps.shells ∧ after.maps.children.Compact ∧
      after.maps.children.entries = world.maps.children.entries ++ [⟨pid, 1#32⟩] := by
  have used : Slot.Used (⟨pid, 1#32⟩ : Child) := nonzero
  cases chosen : world.maps.children.firstFree with
  | none =>
      have full := compact.full_iff.mp (firstFree_none.mp chosen)
      omega
  | some j =>
      obtain ⟨kept, entries⟩ := compact.insert_entries chosen used
      have result : (forkTracepoint 1#32 pid true world.maps).1 =
          { world.maps with children := world.maps.children.update j ⟨pid, 1#32⟩ } := by
        simp [forkTracepoint, listed, addNewChildPid, chosen]
      refine ⟨_, by rw [step, if_neg nonzero], ?_, ?_, ?_⟩
      · rw [ran_maps, result]
      · rw [ran_maps, result]
        exact kept
      · rw [ran_maps, result]
        exact entries

theorem forks_fill (pids : List Pid) (run : Run step World.start past world)
    (fresh : Always FreshFork past) (listed : world.maps.shells.search 1#32 = .found i shell)
    (compact : world.maps.children.Compact)
    (fits : world.maps.children.entries.length + pids.length ≤ childrenMaxEntries)
    (distinct : pids.Nodup)
    (unused : ∀ pid ∈ pids, pid ≠ 0#32 ∧ pid ≠ 1#32 ∧ ¬ Appeared past pid) :
    ∃ later last, Run step World.start later last ∧ Always FreshFork later ∧
      last.maps.shells = world.maps.shells ∧ last.maps.children.Compact ∧
      last.maps.children.entries =
        world.maps.children.entries ++ pids.map fun pid => ⟨pid, 1#32⟩ := by
  induction pids generalizing past world with
  | nil => exact ⟨past, world, run, fresh, rfl, compact, by simp⟩
  | cons pid rest ih =>
      rw [List.length_cons] at fits
      obtain ⟨other, distinctRest⟩ := List.nodup_cons.mp distinct
      obtain ⟨nonzero, _, new⟩ := unused pid List.mem_cons_self
      obtain ⟨after, taken, shells, kept, entries⟩ :=
        fork_inserted listed compact (by omega) nonzero
      have unusedRest : ∀ next ∈ rest, next ≠ 0#32 ∧ next ≠ 1#32 ∧
          ¬ Appeared ((world, .fork 1#32 pid true) :: past) next := by
        intro next member
        obtain ⟨nextNonzero, notFirst, unseen⟩ := unused next (List.mem_cons_of_mem _ member)
        refine ⟨nextNonzero, notFirst, ?_⟩
        rintro ⟨taken, inPast, uses⟩
        rcases List.mem_cons.mp inPast with rfl | earlier
        · rcases uses with acts | forked
          · exact notFirst (Option.some.inj acts).symm
          · exact other (Option.some.inj forked ▸ member)
        · exact unseen ⟨taken, earlier, uses⟩
      obtain ⟨later, last, laterRun, laterFresh, sameShells, laterCompact, all⟩ :=
        ih (run.next taken) ⟨new, fresh⟩ (shells ▸ listed) kept
          (by rw [entries, List.length_append, List.length_singleton]; omega) distinctRest unusedRest
      exact ⟨later, last, laterRun, laterFresh, sameShells.trans shells, laterCompact,
        by rw [all, entries, List.append_assoc]; rfl⟩

end Fill

/-- Shell 1 fills `children`; then a process it never forked writes. -/
theorem untracked_write_recorded : ∃ maps, Reached maps ∧ ¬ WritesNamed maps 9#32 := by
  obtain ⟨past, world, run, fresh, entered, empty, others⟩ :=
    replay_some step World.start (registration 1#32)
      (fun past last => Always FreshFork past ∧
        (last.maps.shells.lookup 0).map Shell.shellPid = some 1#32 ∧
        last.maps.children.entries = [] ∧
        ∀ taken ∈ past, (taken.2.actor = none ∨ taken.2.actor = some 1#32) ∧
          taken.2.forked = none) (by decide +kernel)
  obtain ⟨shell, found, pid⟩ := Option.map_eq_some_iff.mp entered
  have used : Slot.Used shell := by simp [pid]
  have listed : world.maps.shells.search 1#32 = .found 0 shell :=
    search_eq_found found used pid (fun j before => absurd before (Nat.not_lt_zero j))
  have unused : ∀ pid ∈ pidBlock 1000 1024, pid ≠ 0#32 ∧ pid ≠ 1#32 ∧ ¬ Appeared past pid := by
    intro pid member
    have above := ((mem_pidBlock (by decide)).mp member).1
    have notFirst : pid ≠ 1#32 := by
      rintro rfl
      exact absurd above (by decide)
    refine ⟨pidBlock_nonzero (by decide) (by decide) pid member, notFirst, ?_⟩
    rintro ⟨taken, inPast, acts | forked⟩
    · rcases (others taken inPast).1 with none | first
      · simp [none] at acts
      · exact notFirst (Option.some.inj (acts.symm.trans first))
    · simp [(others taken inPast).2] at forked
  obtain ⟨later, last, filled, laterFresh, shells, compact, entries⟩ :=
    forks_fill (pidBlock 1000 1024) run fresh listed (attributed_run run fresh).compact
      (by simp [empty]) (pidBlock_nodup (by decide)) unused
  rw [empty, List.nil_append] at entries
  have full : last.maps.children.Full := compact.full_iff.mpr (by simp [entries])
  have absent : ¬ last.maps.children.Holds 9#32 := by
    rintro ⟨child, member, same⟩
    rw [entries] at member
    obtain ⟨pid, inBlock, rfl⟩ := List.mem_map.mp member
    obtain rfl : pid = 9#32 := same
    exact absurd ((mem_pidBlock (by decide)).mp inBlock).1 (by decide)
  obtain ⟨call, event, caller, sent⟩ :=
    untracked_sent full absent (shells ▸ ⟨shell, found, used⟩) ⟨0#64, fun _ => 0#8⟩
  refine ⟨last.maps, ⟨later, last, filled, laterFresh, rfl⟩, fun named => ?_⟩
  obtain ⟨child, member, same, _⟩ := named call true _ event caller sent
  exact absent ⟨child, member, same.trans caller⟩

end Nhi
