import Nhi.GhostShells
import Nhi.StoredOutput
import Nhi.WriteAttribution

/-!
Where what is stored of a session comes from. A kernel program names a session
by the entry of its shell, so every finish time, write and link that ends up
under a session is traced back through the ring buffer to a step of one of its
processes.
-/

namespace Nhi

open SlotTable RunHistory Simulation

def Phase.session : Phase → Option (Pid × Long)
  | .created killEvent indicator | .scanned killEvent indicator _ => some (killEvent.shellPid, indicator)
  | _ => none

structure Entered (past : List (World × Label)) (world : World) : Prop where
  entries : ∀ shell ∈ world.maps.shells.entries, (shell.shellPid, shell.indicator) ∈ sessions past
  inHand : ∀ session, world.daemon.session = some session → session ∈ sessions past

def ExitedUnder (past : List (World × Label)) (indicator : Long) : Prop :=
  ∃ before pid reserved, (before, .exit pid reserved) ∈ past ∧ (pid, indicator) ∈ sessions past ∧
    ∃ shell ∈ before.maps.shells.entries, shell.shellPid = pid ∧ shell.indicator = indicator

/-- The sessions are the rows of `meta`, and what reports an end follows an exit. -/
structure EndsTraced (past : List (World × Label)) (world : World) : Prop where
  entered : Entered past world
  waiting : ∀ indicator, .exitShellIndicator indicator ∈ world.events → ExitedUnder past indicator
  named : world.db.metaTable.map MetaRow.indicator = (sessions past).map Prod.snd
  finished : ∀ row ∈ world.db.metaTable, row.finishTime.isSome → ExitedUnder past row.indicator

section Ends

variable {past : List (World × Label)} {before after world : World} {label : Label}

theorem sessions_later {session : Pid × Long} (created : session ∈ sessions past) :
    session ∈ sessions ((before, label) :: past) := by
  unfold sessions
  split
  · exact List.mem_append_left _ created
  · exact created

theorem sessions_quiet (other : ∀ opening, label ≠ .create opening) :
    sessions ((before, label) :: past) = sessions past := by
  cases label with
  | create opening => exact absurd rfl (other opening)
  | kill | fork | exit | write | take | scan | register => rfl

theorem ExitedUnder.later {indicator : Long} (ended : ExitedUnder past indicator) :
    ExitedUnder ((before, label) :: past) indicator := by
  obtain ⟨world, pid, reserved, exited, created, entry⟩ := ended
  exact ⟨world, pid, reserved, List.mem_cons_of_mem _ exited, sessions_later created, entry⟩

theorem session_step (taken : step before label = some after) {session : Pid × Long}
    (inHand : after.daemon.session = some session) :
    before.daemon.session = some session ∨ session ∈ sessions ((before, label) :: past) := by
  by_cases kernel : label.actor.isSome
  · exact Or.inl ((kernel_step taken kernel).1 ▸ inHand)
  cases label with
  | kill | fork | exit | write => exact absurd rfl kernel
  | take outside =>
      obtain ⟨idle, record, rest, _, rfl⟩ := step_take taken
      cases announced : record.event.announced with
      | some pid =>
          obtain ⟨_, _, same⟩ := takeRecord_announced outside before rest announced
          rw [same] at inHand
          cases inHand
      | none =>
          obtain ⟨_, _, phase, _⟩ := takeRecord_handled outside before rest idle announced
          rcases phase with done | dead
          · rw [done] at inHand
            cases inHand
          · rw [dead] at inHand
            cases inHand
  | create opening =>
      obtain ⟨killEvent, phase, rfl⟩ := step_create taken
      obtain rfl := Option.some.inj inHand
      right
      simp [sessions, phase]
  | scan =>
      obtain ⟨killEvent, indicator, phase, rfl⟩ := step_scan taken
      left
      rw [phase]
      exact inHand
  | register closing =>
      obtain ⟨killEvent, indicator, slot, phase, rfl⟩ := step_register taken
      rcases finish_cases closing killEvent indicator slot before with ⟨same, _⟩ | ⟨same, _⟩ | ⟨_, _, _, _, same⟩
      all_goals
        rw [same] at inHand
        cases inHand

theorem entered_step (entered : Entered past before) (taken : step before label = some after) :
    Entered ((before, label) :: past) after where
  entries := by
    intro shell member
    rcases shells_step taken member with
      ⟨old, there, pid, indicator⟩ | ⟨closing, killEvent, indicator, slot, rfl, phase, pid, same⟩
    · exact sessions_later (pid ▸ indicator ▸ entered.entries old there)
    · have created := entered.inHand (killEvent.shellPid, indicator) (by rw [phase]; rfl)
      exact sessions_later (pid ▸ same ▸ created)
  inHand := by
    intro session inHand
    rcases session_step taken inHand with earlier | now
    · exact sessions_later (entered.inHand session earlier)
    · exact now

theorem exit_sends (entered : Entered past before) (taken : step before label = some after) {indicator : Long}
    (sent : .exitShellIndicator indicator ∈ label.sends before) : ExitedUnder ((before, label) :: past) indicator := by
  rcases sends_cases taken sent with ⟨_, _, _, _, _, _, event, _⟩ | ⟨_, _, _, _, _, event⟩ |
    ⟨shell, there, reserved, rfl, event⟩ | ⟨_, _, _, _, _, _, event, _⟩
  · cases event
  · cases event
  · obtain rfl := Event.exitShellIndicator.inj event
    have created := entered.entries shell there
    exact ⟨before, _, reserved, List.mem_cons_self, sessions_later created, shell, there, rfl, rfl⟩
  · cases event

theorem meta_step (taken : step before label = some after) :
    (after.db.metaTable = before.db.metaTable ∧ ∀ opening, label ≠ .create opening) ∨
    (∃ indicator time, .exitShellIndicator indicator ∈ before.events ∧ (∀ opening, label ≠ .create opening) ∧
      after.db.metaTable = (before.db.metaAddFinishTime indicator time).metaTable) ∨
    ∃ opening killEvent name, label = .create opening ∧ before.daemon = .taken killEvent ∧
      after.db.metaTable = before.db.metaTable ++ [⟨getIndicator opening.now, name, opening.time, none⟩] := by
  by_cases kernel : label.actor.isSome
  · left
    refine ⟨by rw [(kernel_step taken kernel).2.1], ?_⟩
    rintro opening rfl
    cases kernel
  cases label with
  | kill | fork | exit | write => exact absurd rfl kernel
  | take outside =>
      obtain ⟨idle, record, rest, ring, rfl⟩ := step_take taken
      cases announced : record.event.announced with
      | some pid =>
          obtain ⟨_, _, same⟩ := takeRecord_announced outside before rest announced
          exact Or.inl ⟨by rw [same], fun _ => Label.noConfusion⟩
      | none =>
          obtain ⟨_, _, _, rows⟩ := takeRecord_handled outside before rest idle announced
          cases event : record.event with
          | exitShellIndicator indicator =>
              rw [event] at rows
              have waits : .exitShellIndicator indicator ∈ before.events := by simp [World.events, ring, event]
              exact Or.inr (Or.inl ⟨indicator, outside.time, waits, fun _ => Label.noConfusion, rows⟩)
          | kill | childCreation | write =>
              rw [event] at rows
              exact Or.inl ⟨rows, fun _ => Label.noConfusion⟩
  | create opening =>
      obtain ⟨killEvent, phase, rfl⟩ := step_create taken
      obtain ⟨name, rows⟩ := createSession_metaTable opening killEvent before.db
      exact Or.inr (Or.inr ⟨opening, killEvent, name, rfl, phase, rows⟩)
  | scan =>
      obtain ⟨_, _, _, rfl⟩ := step_scan taken
      exact Or.inl ⟨rfl, fun _ => Label.noConfusion⟩
  | register closing => exact Or.inl ⟨(register_rows taken).2, fun _ => Label.noConfusion⟩

theorem named_step (named : before.db.metaTable.map MetaRow.indicator = (sessions past).map Prod.snd)
    (taken : step before label = some after) :
    after.db.metaTable.map MetaRow.indicator = (sessions ((before, label) :: past)).map Prod.snd := by
  rcases meta_step taken with
    ⟨same, other⟩ | ⟨indicator, time, _, other, rows⟩ | ⟨opening, killEvent, name, rfl, phase, rows⟩
  · rw [same, sessions_quiet other, named]
  · rw [rows, sessions_quiet other, ← named, Database.metaAddFinishTime, List.map_map]
    refine List.map_congr_left fun row _ => ?_
    rw [Function.comp_apply]
    split <;> rfl
  · simp [rows, sessions, phase, named]

theorem finished_step (traced : EndsTraced past before) (taken : step before label = some after) :
    ∀ row ∈ after.db.metaTable, row.finishTime.isSome → ExitedUnder ((before, label) :: past) row.indicator := by
  intro row member finished
  rcases meta_step taken with ⟨same, _⟩ | ⟨indicator, time, waits, _, rows⟩ | ⟨_, _, name, _, _, rows⟩
  · exact (traced.finished row (same ▸ member) finished).later
  · rw [rows] at member
    obtain ⟨old, there, rfl⟩ := List.mem_map.mp member
    by_cases here : old.indicator = indicator
    · rw [if_pos here, here]
      exact (traced.waiting indicator waits).later
    · rw [if_neg here] at finished ⊢
      exact (traced.finished old there finished).later
  · rw [rows] at member
    rcases List.mem_append.mp member with old | new
    · exact (traced.finished row old finished).later
    -- a new row has no finish time
    · obtain rfl := List.mem_singleton.mp new
      cases finished

theorem endsTraced_step (traced : EndsTraced past before) (taken : step before label = some after) :
    EndsTraced ((before, label) :: past) after where
  entered := entered_step traced.entered taken
  waiting := by
    intro indicator member
    rcases (step_waiting taken).1 _ member with old | sent
    · exact (traced.waiting indicator old).later
    · exact exit_sends traced.entered taken sent
  named := named_step traced.named taken
  finished := finished_step traced taken

theorem endsTraced_start : EndsTraced [] World.start where
  entered := ⟨by simp, nofun⟩
  waiting := fun _ member => absurd member List.not_mem_nil
  named := rfl
  finished := fun _ member => absurd member List.not_mem_nil

theorem endsTraced_run (run : Run step World.start past world) : EndsTraced past world := by
  induction run with
  | start => exact endsTraced_start
  | next _ taken ih => exact endsTraced_step ih taken

/-- In every state of every run `meta` has one row for each session created, in
that order, and one that has a finish time is the session of a process that has
exited while it was entered under it. -/
theorem finished_after_exit (run : Run step World.start past world) :
    world.db.metaTable.map MetaRow.indicator = (sessions past).map Prod.snd ∧
      ∀ row ∈ world.db.metaTable, row.finishTime.isSome → ExitedUnder past row.indicator :=
  ⟨(endsTraced_run run).named, (endsTraced_run run).finished⟩

theorem finished_after_exit_second :
    ∃ past world, Run step World.start past world ∧ ExitedUnder past 16000000010#64 := by
  obtain ⟨past, world, run, row, member, same, finished⟩ := replay_some step World.start
    (registration 1#32 ++ [.kill 2#32 SIGUSR1 nhidHash true, .take sampleOutside,
      .create { sampleOpening with now := ⟨1600000001#64, 0#64⟩ }, .scan, .register sampleClosing,
      .exit 2#32 true, .take sampleOutside])
    (fun _ world => ∃ row ∈ world.db.metaTable, row.indicator = 16000000010#64 ∧ row.finishTime.isSome)
    (by decide +kernel)
  exact ⟨past, world, run, same ▸ (finished_after_exit run).2 row member finished⟩

end Ends

/-- The session is one of the nearest registered shell of the process. -/
def BelongsTo (past : List (World × Label)) (pid : Pid) (indicator : Long) : Prop :=
  ∃ shellPid, Nearest past pid shellPid ∧ (shellPid, indicator) ∈ sessions past

/-- A process of the session wrote this on the terminal of its shell. -/
def WrittenIn (past : List (World × Label)) (indicator : Long) (event : OutputEvent) : Prop :=
  ∃ before call room buffer output, (before, .write call room buffer) ∈ past ∧
    (ksysWrite call room before.maps buffer).event = some (.write indicator output) ∧
    event = writtenEvent output ∧ BelongsTo past call.currentPid indicator ∧
    ∃ shell ∈ before.maps.shells.entries, shell.indicator = indicator ∧ onTerminal call shell = true

/-- The session of a process of this session, which had announced itself. -/
def LinkedIn (past : List (World × Label)) (indicator : Long) (event : OutputEvent) : Prop :=
  ∃ opening pid, event = .link (recordedIndicator opening) ∧ (pid, getIndicator opening.now) ∈ sessions past ∧
    BelongsTo past pid indicator

/-- Who writes is in `children` when the table is full, so that its search ends. -/
def TrackedWrites (_past : List (World × Label)) (before : World) : Label → Prop
  | .write call _ _ => before.maps.children.Full → before.maps.children.Holds call.currentPid
  | _ => True

instance (past : List (World × Label)) (before : World) (label : Label) :
    Decidable (TrackedWrites past before label) :=
  match label with
  | .write call _ _ =>
      inferInstanceAs (Decidable (before.maps.children.Full → before.maps.children.Holds call.currentPid))
  | .kill .. | .fork .. | .exit .. | .take _ | .create _ | .scan | .register _ => .isTrue trivial

def AnnouncedUnder (past : List (World × Label)) (killEvent : KillEvent) : Prop :=
  killEvent.parentShellIndicator ≠ 0#64 → BelongsTo past killEvent.shellPid killEvent.parentShellIndicator

structure LinksTraced (past : List (World × Label)) (world : World) : Prop where
  attributed : Attributed past world
  entered : Entered past world
  waiting : ∀ killEvent, .kill killEvent ∈ world.events → AnnouncedUnder past killEvent
  inHand : ∀ killEvent, .handleKillSIGUSR killEvent ∈ world.inHand → AnnouncedUnder past killEvent
  handled : ∀ handling ∈ handlings past, ∀ killEvent, handling.call = .handleKillSIGUSR killEvent →
    (killEvent.shellPid, getIndicator handling.opening.now) ∈ sessions past ∧ AnnouncedUnder past killEvent

section Links

variable {past : List (World × Label)} {before after world : World} {label : Label}

theorem BelongsTo.later {pid : Pid} {indicator : Long} (belongs : BelongsTo past pid indicator) :
    BelongsTo ((before, label) :: past) pid indicator := by
  obtain ⟨shellPid, nearest, created⟩ := belongs
  exact ⟨shellPid, nearest.mono fun _ => List.mem_cons_of_mem _, sessions_later created⟩

theorem AnnouncedUnder.later {killEvent : KillEvent} (under : AnnouncedUnder past killEvent) :
    AnnouncedUnder ((before, label) :: past) killEvent :=
  fun nonzero => (under nonzero).later

theorem child_belongs (attributed : Attributed past before) (entered : Entered past before) {child : Child}
    (member : child ∈ before.maps.children.entries) {shell : Shell} (listed : shell ∈ before.maps.shells.entries)
    (same : shell.shellPid = child.shellPid) : BelongsTo past child.childPid shell.indicator :=
  ⟨child.shellPid, attributed.nearest child member, same ▸ entered.entries shell listed⟩

theorem kill_sends (attributed : Attributed past before) (entered : Entered past before)
    (taken : step before label = some after) {killEvent : KillEvent} (sent : .kill killEvent ∈ label.sends before) :
    AnnouncedUnder past killEvent := by
  intro nonzero
  rcases sends_cases taken sent with ⟨_, _, _, _, parent, _, event, listed⟩ | ⟨_, _, _, _, _, event⟩ |
    ⟨_, _, _, _, event⟩ | ⟨_, _, _, _, _, _, event, _⟩
  · obtain rfl := Event.kill.inj event
    obtain ⟨child, member, rfl, shell, there, same, rfl⟩ := listed.resolve_left nonzero
    exact child_belongs attributed entered member there same
  · cases event
  · cases event
  · cases event

theorem completed_announcement {above : Database} (stored : Stored past before above)
    {handling : Handling} (done : completed past before label = some handling) {killEvent : KillEvent}
    (call : handling.call = .handleKillSIGUSR killEvent) :
    .handleKillSIGUSR killEvent ∈ before.inHand ∧
      before.daemon.session = some (killEvent.shellPid, getIndicator handling.opening.now) := by
  rcases completed_cases done with ⟨_, _, _, _, _, _, silent, rfl⟩ | ⟨_, _, _, _, _, _, phase, last, rfl⟩
  · exact absurd call (silent killEvent)
  · rw [Stored, phase] at stored
    obtain ⟨opening, opened, rfl, _⟩ := stored
    obtain rfl := Option.some.inj (opened.symm.trans last)
    obtain rfl := HandlerCall.handleKillSIGUSR.inj call
    simp [World.inHand, Phase.session, phase]

theorem linksTraced_step {above : Database} (traced : LinksTraced past before) (stored : Stored past before above)
    (fresh : FreshFork past before label) (taken : step before label = some after) :
    LinksTraced ((before, label) :: past) after where
  attributed := attributed_step traced.attributed fresh taken
  entered := entered_step traced.entered taken
  waiting := by
    intro killEvent member
    rcases (step_waiting taken).1 _ member with old | sent
    · exact (traced.waiting killEvent old).later
    · exact (kill_sends traced.attributed traced.entered taken sent).later
  inHand := by
    intro killEvent member
    rcases (step_waiting taken).2 killEvent member with old | waited
    · exact (traced.inHand killEvent old).later
    · exact (traced.waiting killEvent waited).later
  handled := by
    intro handling member killEvent call
    rw [handlings, actions, List.mem_append, Option.mem_toList] at member
    rcases member with now | earlier
    · obtain ⟨inHand, session⟩ := completed_announcement stored now call
      exact ⟨sessions_later (traced.entered.inHand _ session), (traced.inHand killEvent inHand).later⟩
    · obtain ⟨created, under⟩ := traced.handled handling earlier killEvent call
      exact ⟨sessions_later created, under.later⟩

theorem linksTraced_start : LinksTraced [] World.start where
  attributed := attributed_start
  entered := ⟨by simp, nofun⟩
  waiting := fun _ member => absurd member List.not_mem_nil
  inHand := fun _ member => absurd member List.not_mem_nil
  handled := fun _ member => absurd member List.not_mem_nil

theorem linksTraced_run (run : Run step World.start past world) (fresh : Always FreshFork past)
    (alive : world.daemon ≠ .crashed) : LinksTraced past world := by
  have next (past : List (World × Label)) (before : World) (label : Label) (after : World)
      (_ : Run step World.start past before) (both : Sound past before ∧ LinksTraced past before)
      (condition : Survives past before label ∧ FreshFork past before label)
      (taken : step before label = some after) :
      Sound ((before, label) :: past) after ∧ LinksTraced ((before, label) :: past) after := by
    obtain ⟨db, stored⟩ := both.1.stored
    exact ⟨sound_step both.1 condition.1 taken, linksTraced_step both.2 stored condition.2 taken⟩
  have both : Sound past world ∧ LinksTraced past world :=
    run.invariant ⟨sound_start, linksTraced_start⟩ next ((survives_run run alive).and fresh)
  exact both.2

def Handling.parent (handling : Handling) : Option Long :=
  match handling.call with
  | .handleKillSIGUSR killEvent => some killEvent.parentShellIndicator
  | _ => none

theorem handled_links (run : Run step World.start past world) (alive : world.daemon ≠ .crashed) {indicator : Long}
    (nonzero : indicator ≠ 0#64) {handling : Handling} (member : handling ∈ handlings past)
    (parent : handling.parent = some indicator) :
    .link (recordedIndicator handling.opening) ∈ (recorded past indicator).outputs := by
  have told : .link (recordedIndicator handling.opening) ∈
      (handling.tells indicator).filterMap SessionEvent.outputEvent := by
    rw [tells_output]
    cases call : handling.call with
    | handleKillSIGUSR killEvent =>
        obtain rfl : killEvent.parentShellIndicator = indicator := by simpa [Handling.parent, call] using parent
        simp [nonzero]
    | handleKillSIGRTMIN | handleChildCreation | handleShellExit | handleWrite =>
        simp [Handling.parent, call] at parent
  obtain ⟨event, tells, output⟩ := List.mem_filterMap.mp told
  rw [(sound_run run alive).delivered indicator nonzero]
  exact List.mem_filterMap.mpr ⟨event, List.mem_flatMap.mpr ⟨handling, List.mem_reverse.mpr member, tells⟩, output⟩

/-- The sessions follow the processes: what is linked in a session is a session of
a process that had announced itself, forked by way of processes that are no
shells from a shell that the linking session is one of. What is recorded is the
session's table whenever the daemon is between two records. -/
theorem links_follow_forks (run : Run step World.start past world) (fresh : Always FreshFork past)
    (alive : world.daemon ≠ .crashed) {indicator : Long} (nonzero : indicator ≠ 0#64) :
    (world.daemon = .idle → world.db.rows indicator = (recorded past indicator).table) ∧
      ∀ child, .link child ∈ (recorded past indicator).outputs → LinkedIn past indicator (.link child) := by
  refine ⟨fun idle => idle_table run idle indicator, fun child linked => ?_⟩
  have traced := linksTraced_run run fresh alive
  rw [(sound_run run alive).delivered indicator nonzero] at linked
  obtain ⟨event, told, output⟩ := List.mem_filterMap.mp linked
  obtain ⟨handling, member, tells⟩ := List.mem_flatMap.mp told
  have shown : .link child ∈ (handling.tells indicator).filterMap SessionEvent.outputEvent :=
    List.mem_filterMap.mpr ⟨event, tells, output⟩
  rw [tells_output] at shown
  cases call : handling.call with
  | handleKillSIGUSR killEvent =>
      simp only [call] at shown
      split at shown
      · rename_i parent
        obtain ⟨created, under⟩ := traced.handled handling (List.mem_reverse.mp member) killEvent call
        exact ⟨handling.opening, killEvent.shellPid, List.mem_singleton.mp shown, created, parent.2 ▸ under parent.1⟩
      · cases shown
  | handleWrite written output outputLen =>
      simp only [call, HandlerCall.writeTo, Option.mem_toList] at shown
      split at shown
      · cases Option.some.inj shown
      · cases shown
  | handleKillSIGRTMIN | handleChildCreation | handleShellExit =>
      simp [call, HandlerCall.writeTo] at shown

theorem links_follow_forks_nested :
    ∃ past world, Run step World.start past world ∧
      world.db.rows 16000000000#64 = (recorded past 16000000000#64).table ∧
      ∃ child, .link child ∈ (recorded past 16000000000#64).outputs ∧
        LinkedIn past 16000000000#64 (.link child) := by
  obtain ⟨past, world, run, fresh, idle, handling, member, parent⟩ := replay_some step World.start
    (registration 1#32 ++ [.fork 1#32 2#32 true, .kill 2#32 SIGUSR1 nhidHash true, .take sampleOutside,
      .take sampleOutside, .create { sampleOpening with now := ⟨1600000001#64, 0#64⟩ }, .scan, .register sampleClosing])
    (fun past world => Always FreshFork past ∧ world.daemon = .idle ∧
      ∃ handling ∈ handlings past, handling.parent = some 16000000000#64) (by decide +kernel)
  have alive : world.daemon ≠ .crashed := by simp [idle]
  have named : (16000000000#64 : Long) ≠ 0#64 := by decide
  have linked := handled_links run alive named member parent
  have follows := links_follow_forks run fresh alive named
  exact ⟨past, world, run, follows.1 idle, _, linked, follows.2 _ linked⟩

theorem write_sends (attributed : Attributed past before) (entered : Entered past before)
    (tracked : TrackedWrites past before label) (taken : step before label = some after) {indicator : Long}
    (nonzero : indicator ≠ 0#64) {output : Text} (sent : .write indicator output ∈ label.sends before) :
    WrittenIn ((before, label) :: past) indicator (writtenEvent output) := by
  rcases sends_cases taken sent with ⟨_, _, _, _, _, _, event, _⟩ | ⟨_, _, _, _, _, event⟩ | ⟨_, _, _, _, event⟩ |
    ⟨call, room, buffer, _, _, rfl, _, result⟩
  · cases event
  · cases event
  · cases event
  obtain ⟨found, accepted, _, bytes, event⟩ := ksysWrite_event result
  obtain ⟨rfl, _⟩ := Event.write.inj event
  obtain ⟨located, onTerminal⟩ := attributed_some accepted
  rw [findShell] at located
  cases search : before.maps.children.search call.currentPid with
  | free i => simp [search] at located
  | bound =>
      obtain ⟨full, absent⟩ := search_bound search
      exact absurd (tracked full) absent
  | found i child =>
      obtain ⟨_, member, process⟩ := search_found search
      simp only [search, findIndicator] at located
      cases second : before.maps.shells.search child.shellPid with
      | free j => simp [second] at located
      | bound =>
          -- past the last slot the indicator is 0
          simp only [second, Option.map_eq_some_iff] at located
          obtain ⟨_, _, rfl⟩ := located
          exact absurd rfl nonzero
      | found j shell =>
          obtain ⟨_, listed, pid⟩ := search_found second
          simp only [second, Option.some.injEq] at located
          subst located
          have caller : child.childPid = call.currentPid := process
          have belongs := child_belongs attributed entered member listed pid
          rw [caller] at belongs
          exact ⟨before, call, room, buffer, output, List.mem_cons_self, result, rfl, belongs.later, shell, listed,
            rfl, onTerminal⟩

theorem WrittenIn.later {indicator : Long} {event : OutputEvent} (written : WrittenIn past indicator event) :
    WrittenIn ((before, label) :: past) indicator event := by
  obtain ⟨world, call, room, buffer, output, member, sent, same, belongs, entry⟩ := written
  exact ⟨world, call, room, buffer, output, List.mem_cons_of_mem _ member, sent, same, belongs.later, entry⟩

structure WritesTraced (past : List (World × Label)) (world : World) : Prop where
  attributed : Attributed past world
  entered : Entered past world
  writes : ∀ indicator output, indicator ≠ 0#64 → .write indicator output ∈ sent past →
    WrittenIn past indicator (writtenEvent output)

theorem writesTraced_step (traced : WritesTraced past before) (fresh : FreshFork past before label)
    (tracked : TrackedWrites past before label) (taken : step before label = some after) :
    WritesTraced ((before, label) :: past) after where
  attributed := attributed_step traced.attributed fresh taken
  entered := entered_step traced.entered taken
  writes := by
    intro indicator output nonzero member
    rcases List.mem_append.mp member with earlier | now
    · exact (traced.writes indicator output nonzero earlier).later
    · exact write_sends traced.attributed traced.entered tracked taken nonzero now

theorem writesTraced_start : WritesTraced [] World.start where
  attributed := attributed_start
  entered := ⟨by simp, nofun⟩
  writes := fun _ _ _ member => absurd member List.not_mem_nil

/-- No output comes under a session but that of its own processes: what a session
has stored of writes was written by a process whose nearest shell the session is
one of, on the terminal of that shell. -/
theorem writes_from_session (run : Run step World.start past world) (fresh : Always FreshFork past)
    (tracked : Always TrackedWrites past) (idle : world.daemon = .idle) {indicator : Long}
    (nonzero : indicator ≠ 0#64) :
    world.db.rows indicator = (recorded past indicator).table ∧
      ∀ event ∈ (recorded past indicator).outputs, event.isWrite = true → WrittenIn past indicator event := by
  refine ⟨idle_table run idle indicator, fun event member isWrite => ?_⟩
  have traced : WritesTraced past world :=
    run.invariant writesTraced_start (fun _ _ _ _ _ traced condition taken =>
      writesTraced_step traced condition.1 condition.2 taken) (fresh.and tracked)
  have inSent : event ∈ (sent past).filterMap (Event.writeTo indicator) := by
    rw [idle_writes run idle nonzero]
    exact List.mem_append_left _ (List.mem_filter.mpr ⟨member, isWrite⟩)
  obtain ⟨record, sent, named⟩ := List.mem_filterMap.mp inSent
  cases record with
  | write written output =>
      rw [Event.writeTo] at named
      obtain ⟨rfl, rfl⟩ : indicator = written ∧ writtenEvent output = event := by simpa using named
      exact traced.writes indicator output nonzero sent
  | kill | childCreation | exitShellIndicator => cases named

theorem writes_from_session_child :
    ∃ past world, Run step World.start past world ∧ ∃ event ∈ (recorded past 16000000000#64).outputs,
      WrittenIn past 16000000000#64 event := by
  obtain ⟨past, world, run, fresh, tracked, idle, waiting, one⟩ := replay_some step World.start
    (registration 1#32 ++ [.fork 1#32 2#32 true, .write (ttyWrite 2#32 [97#8]) true ⟨0#64, fun _ => 0#8⟩,
      .take sampleOutside, .take sampleOutside])
    (fun past world => Always FreshFork past ∧ Always TrackedWrites past ∧ world.daemon = .idle ∧
      world.events.length = 0 ∧ ((sent past).filterMap (Event.writeTo 16000000000#64)).length = 1)
    (by decide +kernel)
  have named : (16000000000#64 : Long) ≠ 0#64 := by decide
  have writes := idle_writes run idle named
  rw [List.length_eq_zero_iff.mp waiting, List.filterMap_nil, List.append_nil] at writes
  obtain ⟨event, inOutputs⟩ := List.length_pos_iff_exists_mem.mp (one.symm ▸ Nat.one_pos)
  obtain ⟨member, isWrite⟩ := List.mem_filter.mp (writes ▸ inOutputs)
  exact ⟨past, world, run, event, member,
    (writes_from_session run fresh tracked idle named).2 event member isWrite⟩

end Links

end Nhi
