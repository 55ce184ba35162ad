import Nhi.System

/-!
What is left of a shell after it has exited. A session is created when the
daemon handles the announcement of a process; its row of `meta` is to get a
finish time once the process has exited, and its entry is to go. Both happen
only through the exit event that `do_exit` sends for an entry it finds, so an
exit before the entry is written is never noticed.
-/

namespace Nhi

open SlotTable RunHistory

def Exited (past : List (World × Label)) (pid : Pid) : Prop :=
  ∃ taken ∈ past, taken.2.exits = some pid

instance (past : List (World × Label)) (pid : Pid) : Decidable (Exited past pid) :=
  inferInstanceAs (Decidable (∃ taken ∈ past, taken.2.exits = some pid))

def Label.reserved : Label → Bool
  | .kill _ _ _ reserved | .fork _ _ reserved | .exit _ reserved => reserved
  | _ => true

/-- Reservations succeed, `shells` is not full, and who has exited does nothing. -/
structure Orderly (past : List (World × Label)) (before : World) (label : Label) : Prop where
  reserved : label.reserved = true
  room : ¬ before.maps.shells.Full
  living : ∀ pid, label.actor = some pid → ¬ Exited past pid

instance (past : List (World × Label)) (before : World) (label : Label) :
    Decidable (Orderly past before label) :=
  decidable_of_iff (label.reserved = true ∧ ¬ before.maps.shells.Full ∧
      label.actor.all (fun pid => ¬ Exited past pid) = true)
    (by
      simp only [Option.all_eq_true, decide_eq_true_eq]
      exact ⟨fun ⟨reserved, room, living⟩ => ⟨reserved, room, living⟩,
        fun orderly => ⟨orderly.reserved, orderly.room, orderly.living⟩⟩)

def sessions : List (World × Label) → List (Pid × Long)
  | [] => []
  | (before, label) :: past =>
      match label, before.daemon with
      | .create opening, .taken killEvent =>
          sessions past ++ [(killEvent.shellPid, getIndicator opening.now)]
      | _, _ => sessions past

/-- The daemon is done with the announcements of the process, and each of its
sessions has got its entry, a single one that no free slot comes before. -/
structure InPlace (past : List (World × Label)) (before : World) (pid : Pid) : Prop where
  handled : ¬ before.Pending pid
  entered : ∀ indicator, (pid, indicator) ∈ sessions past →
    ∃ shell ∈ before.maps.shells.entries, shell.shellPid = pid ∧ shell.indicator = indicator
  once : before.maps.shells.entries.countP (fun shell => shell.shellPid = pid) ≤ 1
  reached : before.maps.shells.Reaches pid

instance (past : List (World × Label)) (before : World) (pid : Pid) :
    Decidable (InPlace past before pid) :=
  decidable_of_iff (¬ before.Pending pid ∧
      ((sessions past).all fun session => session.1 = pid →
        ∃ shell ∈ before.maps.shells.entries,
          shell.shellPid = pid ∧ shell.indicator = session.2) = true ∧
      before.maps.shells.entries.countP (fun shell => shell.shellPid = pid) ≤ 1 ∧
      before.maps.shells.Reaches pid)
    (by
      simp only [List.all_eq_true, decide_eq_true_eq]
      exact ⟨fun ⟨handled, entered, once, reached⟩ =>
          ⟨handled, fun _ session => entered _ session rfl, once, reached⟩,
        fun inPlace => ⟨inPlace.handled, fun ⟨_, _⟩ session same =>
          inPlace.entered _ (same ▸ session), inPlace.once, inPlace.reached⟩⟩)

def ExitsInPlace (past : List (World × Label)) (before : World) : Label → Prop
  | .exit currentPid _ => InPlace past before currentPid
  | _ => True

instance (past : List (World × Label)) (before : World) (label : Label) :
    Decidable (ExitsInPlace past before label) :=
  match label with
  | .exit currentPid _ => inferInstanceAs (Decidable (InPlace past before currentPid))
  | .kill .. | .fork .. | .write .. | .take _ | .create _ | .scan | .register _ => .isTrue trivial

/-- No entry is left of a process that has exited, and each session whose
process has exited has a finish time. -/
def NoGhost (past : List (World × Label)) (world : World) : Prop :=
  (∀ shell ∈ world.maps.shells.entries, ¬ Exited past shell.shellPid) ∧
  List.Forall₂ (fun session row =>
      row.indicator = session.2 ∧ (Exited past session.1 → row.finishTime.isSome))
    (sessions past) world.db.metaTable

def World.Quiet (world : World) : Prop := world.daemon = .idle ∧ world.ring = []

instance (world : World) : Decidable world.Quiet :=
  match phase : world.daemon with
  | .idle => decidable_of_iff (world.ring.isEmpty = true) (by simp [World.Quiet, phase])
  | .taken _ | .created _ _ | .scanned _ _ _ | .crashed => .isFalse (by simp [World.Quiet, phase])

def ExitQueued (world : World) (indicator : Long) : Prop :=
  ∃ record ∈ world.ring, record.event = .exitShellIndicator indicator

structure SessionKept (past : List (World × Label)) (world : World) (session : Pid × Long)
    (row : MetaRow) : Prop where
  named : row.indicator = session.2
  ended : Exited past session.1 → row.finishTime.isSome ∨ ExitQueued world session.2

/-- The invariant of the runs in which who exits is registered for good. -/
structure Watched (past : List (World × Label)) (world : World) : Prop where
  listed : ∀ shell ∈ world.maps.shells.entries, ¬ Exited past shell.shellPid
  pending : ∀ pid, world.Pending pid → ¬ Exited past pid
  rows : List.Forall₂ (SessionKept past world) (sessions past) world.db.metaTable

theorem exited_cons {past : List (World × Label)} {before : World} {label : Label} {pid : Pid} :
    Exited ((before, label) :: past) pid ↔ label.exits = some pid ∨ Exited past pid := by
  simp [Exited]

theorem exits_iff {label : Label} {pid : Pid} :
    label.exits = some pid ↔ ∃ reserved, label = .exit pid reserved := by
  cases label <;> simp [Label.exits]

theorem rows_kept {past : List (World × Label)} {before after : World} {label : Label}
    {opened : List (Pid × Long)} {rows : List MetaRow}
    (stays : label.exits = none)
    (queue : ∀ record ∈ before.ring, record ∈ after.ring)
    (kept : List.Forall₂ (SessionKept past before) opened rows) :
    List.Forall₂ (SessionKept ((before, label) :: past) after) opened rows := by
  apply kept.imp
  intro session row held
  refine ⟨held.named, fun exited => ?_⟩
  have earlier : Exited past session.1 := (exited_cons.mp exited).resolve_left (by simp [stays])
  rcases held.ended earlier with finished | ⟨record, member, event⟩
  · exact Or.inl finished
  · exact Or.inr ⟨record, queue record member, event⟩

section Step

variable {past : List (World × Label)} {before after : World} {label : Label}

theorem exit_step {currentPid : Pid} {reserved : Bool}
    (orderly : Orderly past before (.exit currentPid reserved))
    (inPlace : InPlace past before currentPid)
    (taken : step before (.exit currentPid reserved) = some after) :
    (∀ shell ∈ after.maps.shells.entries, shell.shellPid ≠ currentPid) ∧
    ∀ shell ∈ before.maps.shells.entries, shell.shellPid = currentPid →
      ExitQueued after shell.indicator := by
  obtain ⟨_, rfl⟩ := step_exit taken
  rcases doExit_shells currentPid reserved before.maps inPlace.reached orderly.room with
    ⟨absent, same⟩ | ⟨gone, shells, result, same⟩
  · have none (shell : Shell) (member : shell ∈ before.maps.shells.entries) :
        shell.shellPid ≠ currentPid := fun pid => absent ⟨shell, member, pid⟩
    rw [ran_maps, same]
    exact ⟨none, fun shell member pid => absurd pid (none shell member)⟩
  · obtain ⟨left, unique⟩ := sweep_unique inPlace.once result
    constructor
    · rw [ran_maps, same]
      exact fun shell member => ((left shell).mp member).2
    · intro shell member pid
      have sent : Event.exitShellIndicator gone.indicator ∈
          (doExit currentPid reserved before.maps).2 := by
        rw [same]
        exact mem_submit.mpr ⟨orderly.reserved, rfl⟩
      obtain rfl := unique shell member pid
      exact ⟨⟨_, doExit_emitted sent⟩, mem_ran_ring.mpr (Or.inr sent), rfl⟩

theorem listed_step (watched : Watched past before) (orderly : Orderly past before label)
    (inPlace : ExitsInPlace past before label) (taken : step before label = some after) :
    ∀ shell ∈ after.maps.shells.entries, ¬ Exited ((before, label) :: past) shell.shellPid := by
  intro shell member exited
  rcases exited_cons.mp exited with exits | earlier
  · obtain ⟨reserved, rfl⟩ := exits_iff.mp exits
    exact (exit_step orderly inPlace taken).1 shell member rfl
  · rcases shells_step taken member with
      ⟨old, oldMember, pid, _⟩ | ⟨closing, killEvent, indicator, slot, _, phase, pid, _⟩
    · exact watched.listed old oldMember (pid ▸ earlier)
    · exact watched.pending shell.shellPid (Or.inr (by rw [phase, pid]; rfl)) earlier

theorem pending_living (watched : Watched past before) (orderly : Orderly past before label)
    (inPlace : ExitsInPlace past before label) (taken : step before label = some after) :
    ∀ pid, after.Pending pid → ¬ Exited ((before, label) :: past) pid := by
  intro pid pending exited
  rcases pending_step taken pending with waiting | ⟨sig, target, reserved, rfl, _⟩
  · rcases exited_cons.mp exited with exits | earlier
    · obtain ⟨reserved, rfl⟩ := exits_iff.mp exits
      exact InPlace.handled inPlace waiting
    · exact watched.pending pid waiting earlier
  · rcases exited_cons.mp exited with exits | earlier
    · cases exits
    · exact orderly.living pid rfl earlier

theorem exit_rows (watched : Watched past before) {currentPid : Pid} {reserved : Bool}
    (orderly : Orderly past before (.exit currentPid reserved))
    (inPlace : InPlace past before currentPid)
    (taken : step before (.exit currentPid reserved) = some after) :
    List.Forall₂ (SessionKept ((before, .exit currentPid reserved) :: past) after) (sessions past)
      before.db.metaTable := by
  have sent := (exit_step orderly inPlace taken).2
  have queue (record : Record) (member : record ∈ before.ring) : record ∈ after.ring := by
    obtain ⟨_, rfl⟩ := step_exit taken
    exact mem_ran_ring.mpr (Or.inl member)
  obtain ⟨length, rows⟩ := List.forall₂_iff_zip.mp watched.rows
  apply List.forall₂_iff_zip.mpr
  refine ⟨length, fun {session row} paired => ?_⟩
  have held := rows paired
  refine ⟨held.named, fun exited => ?_⟩
  rcases exited_cons.mp exited with exits | earlier
  · -- a session of the process that exits now: its entry is found and reported
    obtain rfl := Option.some.inj exits
    obtain ⟨shell, member, pid, indicator⟩ :=
      inPlace.entered session.2 (List.of_mem_zip paired).1
    exact Or.inr (indicator ▸ sent shell member pid)
  · rcases held.ended earlier with finished | ⟨record, member, event⟩
    · exact Or.inl finished
    · exact Or.inr ⟨record, queue record member, event⟩

def RowChange (event : Event) (change : MetaRow → MetaRow) : Prop :=
  ∀ row, (change row).indicator = row.indicator ∧
    (row.finishTime.isSome → (change row).finishTime.isSome) ∧
    (event = .exitShellIndicator row.indicator → (change row).finishTime.isSome)

theorem rowChange_id {event : Event} (other : ∀ indicator, event ≠ .exitShellIndicator indicator) :
    RowChange event id :=
  fun row => ⟨rfl, id, fun exits => absurd exits (other row.indicator)⟩

theorem takeRecord_rows (outside : Outside) {world : World} (record : Record) (rest : List Record)
    (idle : world.daemon = .idle) :
    (takeRecord outside record rest world).ring = rest ∧
    ∃ change, RowChange record.event change ∧
      (takeRecord outside record rest world).db.metaTable = world.db.metaTable.map change := by
  cases announced : record.event.announced with
  | some pid =>
      obtain ⟨_, _, same⟩ := takeRecord_announced outside world rest announced
      have other (indicator : Long) : record.event ≠ .exitShellIndicator indicator := by
        intro exits
        rw [exits] at announced
        cases announced
      rw [same]
      exact ⟨rfl, id, rowChange_id other, (List.map_id _).symm⟩
  | none =>
      obtain ⟨_, left, _, rows⟩ := takeRecord_handled outside world rest idle announced
      refine ⟨left, ?_⟩
      cases event : record.event with
      | exitShellIndicator indicator =>
          rw [event] at rows
          refine ⟨_, fun row => ?_, rows⟩
          by_cases here : row.indicator = indicator
          · simp [here]
          · have other : indicator ≠ row.indicator := fun same => here same.symm
            simp [here, other]
      | kill | childCreation | write =>
          rw [event] at rows
          exact ⟨id, rowChange_id fun _ => Event.noConfusion, by rw [rows, List.map_id]⟩

theorem take_rows (watched : Watched past before) {outside : Outside}
    (taken : step before (.take outside) = some after) :
    List.Forall₂ (SessionKept ((before, .take outside) :: past) after) (sessions past)
      after.db.metaTable := by
  obtain ⟨idle, record, rest, ring, rfl⟩ := step_take taken
  obtain ⟨left, change, changed, rows⟩ := takeRecord_rows outside record rest idle
  rw [rows, List.forall₂_map_right_iff]
  apply watched.rows.imp
  intro session row held
  obtain ⟨sameIndicator, keeps, reports⟩ := changed row
  refine ⟨sameIndicator.trans held.named, fun exited => ?_⟩
  have earlier : Exited past session.1 := (exited_cons.mp exited).resolve_left nofun
  rcases held.ended earlier with finished | ⟨waiting, member, event⟩
  · exact Or.inl (keeps finished)
  · rw [ring] at member
    rcases List.mem_cons.mp member with rfl | later
    -- the record taken is the exit event of this session
    · exact Or.inl (reports (held.named ▸ event))
    · exact Or.inr ⟨waiting, by rw [left]; exact later, event⟩

theorem create_rows (watched : Watched past before) {opening : Opening}
    (taken : step before (.create opening) = some after) :
    List.Forall₂ (SessionKept ((before, .create opening) :: past) after)
      (sessions ((before, .create opening) :: past)) after.db.metaTable := by
  obtain ⟨killEvent, phase, rfl⟩ := step_create taken
  obtain ⟨name, rows⟩ := createSession_metaTable opening killEvent before.db
  have opened : sessions ((before, .create opening) :: past) =
      sessions past ++ [(killEvent.shellPid, getIndicator opening.now)] := by
    simp [sessions, phase]
  rw [opened, rows]
  refine List.rel_append ?_ (.cons ⟨rfl, fun exited => ?_⟩ .nil)
  · exact rows_kept rfl (fun _ => id) watched.rows
  · have living := watched.pending killEvent.shellPid (Or.inr (by rw [phase]; rfl))
    exact absurd ((exited_cons.mp exited).resolve_left nofun) living

theorem register_rows {closing : Closing} (taken : step before (.register closing) = some after) :
    after.ring = before.ring ∧ after.db.metaTable = before.db.metaTable := by
  obtain ⟨killEvent, indicator, slot, phase, rfl⟩ := step_register taken
  rcases finish_cases closing killEvent indicator slot before with
    ⟨same, _⟩ | ⟨same, _⟩ | ⟨db, line, _, rows, same⟩
  · exact ⟨by rw [same], by rw [same]⟩
  · exact ⟨by rw [same], by rw [same]; exact addPS1_left_metaTable before.db indicator closing.PS1⟩
  · exact ⟨by rw [same], by rw [same]; exact rows⟩

theorem rows_step (watched : Watched past before) (orderly : Orderly past before label)
    (inPlace : ExitsInPlace past before label) (taken : step before label = some after) :
    List.Forall₂ (SessionKept ((before, label) :: past) after) (sessions ((before, label) :: past))
      after.db.metaTable := by
  have ran {result : Maps × List Event} {emitted : ∀ event ∈ result.2, Emitted event} :
      ∀ record ∈ before.ring, record ∈ (before.ran result emitted).ring :=
    fun _ member => mem_ran_ring.mpr (Or.inl member)
  cases label with
  | kill currentPid sig target reserved =>
      obtain ⟨_, rfl⟩ := step_kill taken
      exact rows_kept rfl ran watched.rows
  | fork currentPid childPid reserved =>
      obtain ⟨_, rfl⟩ := step_fork taken
      exact rows_kept rfl ran watched.rows
  | exit currentPid reserved =>
      have db : after.db = before.db := by
        obtain ⟨_, rfl⟩ := step_exit taken
        rfl
      rw [db]
      exact exit_rows watched orderly inPlace taken
  | write call room buffer =>
      obtain rfl := Option.some.inj taken
      exact rows_kept rfl ran watched.rows
  | take outside => exact take_rows watched taken
  | create opening => exact create_rows watched taken
  | scan =>
      obtain ⟨_, _, _, rfl⟩ := step_scan taken
      exact rows_kept rfl (fun _ => id) watched.rows
  | register closing =>
      obtain ⟨ring, rows⟩ := register_rows taken
      rw [rows]
      exact rows_kept rfl (fun _ member => ring ▸ member) watched.rows

theorem watched_step (watched : Watched past before) (orderly : Orderly past before label)
    (inPlace : ExitsInPlace past before label) (taken : step before label = some after) :
    Watched ((before, label) :: past) after where
  listed := listed_step watched orderly inPlace taken
  pending := pending_living watched orderly inPlace taken
  rows := rows_step watched orderly inPlace taken

end Step

theorem watched_start : Watched [] World.start where
  listed := by simp [Exited]
  pending := by simp [Exited]
  rows := .nil

/-- A run leaves no ghost behind when every exit comes after the registration of
the process. -/
theorem no_ghost_in_place {past : List (World × Label)} {last : World}
    (run : Run step World.start past last)
    (always : Always (fun past before label =>
      Orderly past before label ∧ ExitsInPlace past before label) past)
    (quiet : last.Quiet) : NoGhost past last := by
  have watched : Watched past last :=
    run.invariant watched_start (fun _ _ _ _ _ watched condition taken =>
      watched_step watched condition.1 condition.2 taken) always
  refine ⟨watched.listed, watched.rows.imp fun session row held => ⟨held.named, fun exited => ?_⟩⟩
  rcases held.ended exited with finished | ⟨record, member, _⟩
  · exact finished
  · simp [quiet.2] at member

theorem no_ghost_registered :
    ∃ past last, Run step World.start past last ∧ Exited past 1#32 ∧ NoGhost past last := by
  obtain ⟨past, last, run, always, quiet, exited⟩ := replay_some step World.start
    (registration 1#32 ++ [.exit 1#32 true, .take sampleOutside])
    (fun past last => Always (fun past before label =>
        Orderly past before label ∧ ExitsInPlace past before label) past ∧
      last.Quiet ∧ Exited past 1#32) (by decide +kernel)
  exact ⟨past, last, run, exited, no_ghost_in_place run always quiet⟩

def earlyExit : List Label :=
  [.kill 1#32 SIGUSR1 nhidHash true, .exit 1#32 true, .take sampleOutside, .create sampleOpening,
    .scan, .register sampleClosing]

theorem ghost_reached :
    ∃ past last, Run step World.start past last ∧ Always Orderly past ∧ last.Quiet ∧
      ¬ NoGhost past last := by
  obtain ⟨past, last, run, always, quiet, shell, member, exited⟩ :=
    replay_some step World.start earlyExit
      (fun past last => Always Orderly past ∧ last.Quiet ∧
        ∃ shell ∈ last.maps.shells.entries, Exited past shell.shellPid) (by decide +kernel)
  exact ⟨past, last, run, always, quiet, fun noGhost => noGhost.1 shell member exited⟩

end Nhi
