import Nhi.SessionOrigins
import Nhi.TrackingMaps

/-!
The end of a session reaches `meta`. A shell that exits is taken out of `shells`
and its session is reported; with room in the tables and in the ring buffer no
report is lost, so when nothing waits the sessions with a finish time are those
whose shells have exited.
-/

namespace Nhi

open SlotTable RunHistory

def EntryExited (past : List (World × Label)) (indicator : Long) : Prop :=
  ∃ before pid reserved, (before, .exit pid reserved) ∈ past ∧
    ∃ shell ∈ before.maps.shells.entries, shell.shellPid = pid ∧ shell.indicator = indicator

/-- The end of a process finds room in the ring buffer, and a new session is new. -/
def EndReported (past : List (World × Label)) (_before : World) : Label → Prop
  | .exit _ reserved => reserved = true
  | .create opening => getIndicator opening.now ∉ (sessions past).map Prod.snd
  | _ => True

instance (past : List (World × Label)) (before : World) (label : Label) : Decidable (EndReported past before label) :=
  match label with
  | .exit _ reserved => inferInstanceAs (Decidable (reserved = true))
  | .create opening => inferInstanceAs (Decidable (getIndicator opening.now ∉ (sessions past).map Prod.snd))
  | .kill .. | .fork .. | .write .. | .take _ | .scan | .register _ => .isTrue trivial

def FinishedIn (db : Database) (indicator : Long) : Prop :=
  ∀ row ∈ db.metaTable, row.indicator = indicator → row.finishTime.isSome

/-- An end that happened waits in the ring buffer, or it is in `meta`. -/
structure EndsKept (past : List (World × Label)) (world : World) : Prop where
  mapped : Mapped past world
  entered : Entered past world
  known : ∀ indicator, EntryExited past indicator → indicator ∈ (sessions past).map Prod.snd
  kept : ∀ indicator, EntryExited past indicator →
    .exitShellIndicator indicator ∈ world.events ∨ FinishedIn world.db indicator

section Ends

variable {past : List (World × Label)} {before after world : World} {label : Label}

theorem finishedIn_finish {db : Database} {indicator : Long} (finished : FinishedIn db indicator) (other time : Long) :
    FinishedIn (db.metaAddFinishTime other time) indicator := by
  intro row member same
  obtain ⟨old, there, rfl⟩ := List.mem_map.mp member
  split
  · rfl
  · rename_i apart
    rw [if_neg apart] at same
    exact finished old there same

theorem finish_finishedIn (db : Database) (indicator time : Long) :
    FinishedIn (db.metaAddFinishTime indicator time) indicator := by
  intro row member same
  obtain ⟨old, there, rfl⟩ := List.mem_map.mp member
  split
  · rfl
  · rename_i apart
    rw [if_neg apart] at same
    exact absurd same apart

theorem exit_reported (mapped : Mapped past before) {pid : Pid} (process : pid ≠ 0#32)
    (room : ¬ before.maps.shells.Full ∧ ¬ before.maps.children.Full) {shell : Shell}
    (member : shell ∈ before.maps.shells.entries) (same : shell.shellPid = pid) :
    (doExit pid true before.maps).2 = [.exitShellIndicator shell.indicator] := by
  have found : before.maps.tracking.shells pid = some shell := same ▸ asMap_of_mem mapped.distinct member
  have exits := congrArg Prod.snd
    (exit_tracking mapped.tidy process room.1 room.2 : (_, (doExit pid true before.maps).2) = _)
  rw [Tracking.exit, found] at exits
  exact exits

theorem finishedIn_meta {db other : Database} {indicator : Long} (finished : FinishedIn db indicator)
    (same : other.metaTable = db.metaTable) : FinishedIn other indicator :=
  fun row member => finished row (same ▸ member)

theorem ends_stay {indicator : Long} (reported : EndReported past before label)
    (taken : step before label = some after) (known : indicator ∈ (sessions past).map Prod.snd)
    (kept : .exitShellIndicator indicator ∈ before.events ∨ FinishedIn before.db indicator) :
    .exitShellIndicator indicator ∈ after.events ∨ FinishedIn after.db indicator := by
  by_cases kernel : label.actor.isSome
  · obtain ⟨_, db, events⟩ := kernel_step taken kernel
    rw [events, db]
    exact kept.imp_left (List.mem_append_left _)
  cases label with
  | kill | fork | exit | write => exact absurd rfl kernel
  | take outside =>
      obtain ⟨idle, record, rest, ring, rfl⟩ := step_take taken
      have waiting : before.events = record.event :: rest.map Record.event := by rw [World.events, ring, List.map_cons]
      rw [waiting] at kept
      cases announced : record.event.announced with
      | some pid =>
          obtain ⟨_, _, same⟩ := takeRecord_announced outside before rest announced
          rw [same]
          refine kept.imp_left fun member => (List.mem_cons.mp member).resolve_left ?_
          intro here
          rw [← here] at announced
          cases announced
      | none =>
          obtain ⟨_, left, _, rows⟩ := takeRecord_handled outside before rest idle announced
          rw [World.events, left]
          cases event : record.event with
          | exitShellIndicator ended =>
              rw [event] at rows kept
              rcases kept with member | finished
              · rcases List.mem_cons.mp member with here | later
                · obtain rfl := Event.exitShellIndicator.inj here
                  exact Or.inr (finishedIn_meta (finish_finishedIn before.db indicator outside.time) rows)
                · exact Or.inl later
              · exact Or.inr (finishedIn_meta (finishedIn_finish finished ended outside.time) rows)
          | kill | childCreation | write =>
              rw [event] at rows kept
              refine kept.imp (fun member => (List.mem_cons.mp member).resolve_left Event.noConfusion) ?_
              exact fun finished => finishedIn_meta finished rows
  | create opening =>
      obtain ⟨killEvent, phase, rfl⟩ := step_create taken
      obtain ⟨name, rows⟩ := createSession_metaTable opening killEvent before.db
      refine kept.imp_right fun finished row member same => ?_
      rw [rows] at member
      rcases List.mem_append.mp member with old | new
      · exact finished row old same
      · obtain rfl := List.mem_singleton.mp new
        obtain rfl : getIndicator opening.now = indicator := same
        exact absurd known reported
  | scan =>
      obtain ⟨_, _, _, rfl⟩ := step_scan taken
      exact kept
  | register closing =>
      obtain ⟨ring, rows⟩ := register_rows taken
      rw [World.events, ring]
      exact kept.imp_right fun finished => finishedIn_meta finished rows

theorem endsKept_step (run : Run step World.start past before) (ends : EndsKept past before)
    (inRoom : InRoom past before label) (reported : EndReported past before label)
    (taken : step before label = some after) : EndsKept ((before, label) :: past) after := by
  have cases {indicator : Long} (exited : EntryExited ((before, label) :: past) indicator) :
      EntryExited past indicator ∨ ∃ reserved shell, label = .exit shell.shellPid reserved ∧
        shell ∈ before.maps.shells.entries ∧ shell.indicator = indicator := by
    obtain ⟨world, pid, reserved, member, shell, there, rfl, rfl⟩ := exited
    rcases List.mem_cons.mp member with here | earlier
    · obtain ⟨rfl, rfl⟩ := Prod.mk.inj here
      exact Or.inr ⟨reserved, shell, rfl, there, rfl⟩
    · exact Or.inl ⟨world, _, reserved, earlier, shell, there, rfl, rfl⟩
  have later {indicator : Long} (known : indicator ∈ (sessions past).map Prod.snd) :
      indicator ∈ (sessions ((before, label) :: past)).map Prod.snd := by
    obtain ⟨session, created, rfl⟩ := List.mem_map.mp known
    exact List.mem_map_of_mem (sessions_later created)
  refine ⟨mapped_step run ends.mapped inRoom taken, entered_step ends.entered taken, ?_, ?_⟩
  · intro indicator exited
    rcases cases exited with earlier | ⟨_, shell, rfl, there, rfl⟩
    · exact later (ends.known indicator earlier)
    · exact later (List.mem_map_of_mem (ends.entered.entries shell there))
  · intro indicator exited
    rcases cases exited with earlier | ⟨reserved, shell, rfl, there, rfl⟩
    · exact ends_stay reported taken (ends.known indicator earlier) (ends.kept indicator earlier)
    · obtain rfl : reserved = true := reported
      obtain ⟨_, _, events⟩ := kernel_step taken rfl
      have sends := exit_reported ends.mapped (step_exit taken).1 (inRoom.room rfl) there rfl
      rw [events, Label.sends, sends]
      exact Or.inl (List.mem_append_right _ (List.mem_singleton.mpr rfl))

theorem endsKept_start : EndsKept [] World.start where
  mapped := mapped_start
  entered := ⟨by simp, nofun⟩
  known := fun _ exited => by
    obtain ⟨_, _, _, member, _⟩ := exited
    cases member
  kept := fun _ exited => by
    obtain ⟨_, _, _, member, _⟩ := exited
    cases member

/-- In every run of fresh process ids with room, in the tables and for the reports
of ends, in which an entry is written in place and for a process that has none,
and no two sessions get one indicator, when nothing waits the sessions with a
finish time are those of which an entered process has exited. -/
theorem finished_iff_exited (run : Run step World.start past world) (inRoom : Always InRoom past)
    (reported : Always EndReported past) (quiet : world.Quiet) :
    ∀ row ∈ world.db.metaTable, row.finishTime.isSome ↔ ExitedUnder past row.indicator := by
  have ends : EndsKept past world :=
    run.invariant endsKept_start (fun _ _ _ _ earlier ends condition taken =>
      endsKept_step earlier ends condition.1 condition.2 taken) (inRoom.and reported)
  intro row member
  refine ⟨(endsTraced_run run).finished row member, fun exited => ?_⟩
  obtain ⟨before, pid, reserved, here, _, entry⟩ := exited
  rcases ends.kept row.indicator ⟨before, pid, reserved, here, entry⟩ with waits | finished
  · rw [World.events, quiet.2] at waits
    cases waits
  · exact finished row member rfl

theorem finished_iff_exited_first :
    ∃ past world, Run step World.start past world ∧ world.db.metaTable.length = 2 ∧
      ∀ row ∈ world.db.metaTable, row.finishTime.isSome ↔ ExitedUnder past row.indicator := by
  obtain ⟨past, world, run, inRoom, reported, quiet, two⟩ := replay_some step World.start
    (registration 1#32 ++ [.kill 2#32 SIGUSR1 nhidHash true, .take sampleOutside,
      .create { sampleOpening with now := ⟨1600000001#64, 0#64⟩ }, .scan, .register sampleClosing,
      .exit 1#32 true, .take sampleOutside])
    (fun past world => Always InRoom past ∧ Always EndReported past ∧ world.Quiet ∧ world.db.metaTable.length = 2)
    (by decide +kernel)
  exact ⟨past, world, run, two, finished_iff_exited run inRoom reported quiet⟩

end Ends

end Nhi
