import Nhi.CapturedOutput
import Nhi.RunHistory

/-!
The kernel programs and the daemon side by side. Each kernel program runs as
one step. The daemon takes one record at a time off the ring buffer; it handles
an announcement in three further steps (the session is created, a slot is
chosen, the entry is written at that slot) and every other record at once.
Everything can happen between two steps of the daemon. No process has the
number 0, and the number of a new process or thread is not 0 either.
-/

namespace Nhi

open SlotTable RunHistory

/-- What is in the ring buffer was put there by a kernel program. -/
structure Record where
  event : Event
  emitted : Emitted event

/-- Where the daemon is: in no handler, or before the second, third or last
piece of `handle_kill_SIGUSR`. -/
inductive Phase where
  | idle
  | taken (killEvent : KillEvent)
  | created (killEvent : KillEvent) (indicator : Long)
  | scanned (killEvent : KillEvent) (indicator : Long) (slot : Nat)
  | crashed

structure World where
  maps : Maps
  ring : List Record
  daemon : Phase
  db : Database

def World.start : World := ⟨Maps.empty, [], .idle, Database.empty⟩

/-- What a handler learns from outside: the time, and the end of a command. -/
structure Outside where
  time : Long
  ending : CommandEnd

inductive Label where
  | kill (currentPid : Pid) (sig : CInt) (pid : Pid) (reserved : Bool)
  | fork (currentPid childPid : Pid) (reserved : Bool)
  | exit (currentPid : Pid) (reserved : Bool)
  | write (call : WriteCall) (room : Bool) (buffer : WriteBuffer)
  | take (outside : Outside)
  | create (opening : Opening)
  | scan
  | register (closing : Closing)

def handle (outside : Outside) (shells : Shells) (db : Database) : HandlerCall → Phase × Database
  | .handleKillSIGUSR killEvent => (.taken killEvent, db)
  -- an unset variable ends the daemon
  | .handleKillSIGRTMIN killEvent _ =>
      match handleKillSIGRTMIN outside.ending killEvent shells db with
      | some db => (.idle, db)
      | none => (.crashed, leftByKillSIGRTMIN outside.ending killEvent shells db)
  | .handleChildCreation shellPid =>
      (.idle, handleChildCreation outside.time shellPid shells db)
  | .handleShellExit indicator => (.idle, handleShellExit outside.time indicator db)
  | .handleWrite indicator output outputLen => (.idle, handleWrite indicator output outputLen db)

def takeRecord (outside : Outside) (record : Record) (rest : List Record) (world : World) : World :=
  match handleEvent record.event.bytes record.event.bytes.length with
  | none => { world with ring := rest }
  | some call =>
      let (daemon, db) := handle outside world.maps.shells world.db call
      { world with ring := rest, daemon := daemon, db := db }

def finish (closing : Closing) (killEvent : KillEvent) (indicator : Long) (slot : Nat)
    (world : World) : World :=
  match finishSession closing killEvent indicator world.db with
  | .failed => { world with daemon := .idle }
  | .crashed => { world with daemon := .crashed, db := (world.db.addPS1 indicator closing.PS1).getD world.db }
  | .entered db shell =>
      { world with
        maps := { world.maps with shells := world.maps.shells.update slot shell }
        daemon := .idle
        db := db }

def World.ran (world : World) (result : Maps × List Event) (emitted : ∀ event ∈ result.2, Emitted event) :
    World :=
  { world with maps := result.1, ring := world.ring ++ result.2.pmap Record.mk emitted }

def step (world : World) : Label → Option World
  | .kill currentPid sig pid reserved =>
      if currentPid = 0#32 then none
      else some (world.ran (killSomethingInfo currentPid sig pid reserved world.maps)
        fun _ => killSomethingInfo_emitted)
  | .fork currentPid childPid reserved =>
      if childPid = 0#32 then none
      else some (world.ran (forkTracepoint currentPid childPid reserved world.maps)
        fun _ => forkTracepoint_emitted)
  | .exit currentPid reserved =>
      if currentPid = 0#32 then none
      else some (world.ran (doExit currentPid reserved world.maps) fun _ => doExit_emitted)
  | .write call room buffer =>
      some (world.ran ({ world.maps with shells := (ksysWrite call room world.maps buffer).shells },
          (ksysWrite call room world.maps buffer).event.toList)
        fun _ sent => .write call room world.maps buffer (by simpa using sent))
  | .take outside =>
      match world.daemon, world.ring with
      | .idle, record :: rest => some (takeRecord outside record rest world)
      | _, _ => none
  | .create opening =>
      match world.daemon with
      | .taken killEvent => some { world with
          daemon := .created killEvent (getIndicator opening.now)
          db := createSession opening killEvent world.db }
      | _ => none
  | .scan =>
      match world.daemon with
      | .created killEvent indicator => some { world with
          daemon := .scanned killEvent indicator (chooseSlot world.maps.shells) }
      | _ => none
  | .register closing =>
      match world.daemon with
      | .scanned killEvent indicator slot => some (finish closing killEvent indicator slot world)
      | _ => none

def sampleOutside : Outside := ⟨0#64, ⟨none, none, 0#64, ⟨0#64, 0#64⟩, none, none⟩⟩

def sampleOpening : Opening :=
  ⟨⟨1600000000#64, 0#64⟩, 1600000000#64, Vector.replicate 15 0#8, Vector.replicate 16 0#8⟩

def sampleClosing : Closing := ⟨1#64, some [48#8, 10#8], some [], some [], Slot.blank⟩

def registration (pid : Pid) : List Label :=
  [.kill pid SIGUSR1 nhidHash true, .take sampleOutside, .create sampleOpening, .scan,
    .register sampleClosing]

def Label.actor : Label → Option Pid
  | .kill currentPid _ _ _ | .fork currentPid _ _ | .exit currentPid _ => some currentPid
  | .write call _ _ => some call.currentPid
  | _ => none

def Label.exits : Label → Option Pid
  | .exit currentPid _ => some currentPid
  | _ => none

def Event.announced : Event → Option Pid
  | .kill event => if event.sig = SIGUSR1 ∨ event.sig = SIGUSR2 then some event.shellPid else none
  | _ => none

def Phase.announced : Phase → Option Pid
  | .taken killEvent | .created killEvent _ | .scanned killEvent _ _ => some killEvent.shellPid
  | _ => none

/-- The process has announced itself and is not entered yet. -/
def World.Pending (world : World) (pid : Pid) : Prop :=
  (∃ record ∈ world.ring, record.event.announced = some pid) ∨ world.daemon.announced = some pid

instance (world : World) (pid : Pid) : Decidable (world.Pending pid) :=
  inferInstanceAs (Decidable (_ ∨ _))

@[simp] theorem start_shells : World.start.maps.shells = SlotTable.empty := rfl

@[simp] theorem start_children : World.start.maps.children = SlotTable.empty := rfl

@[simp] theorem start_pending (pid : Pid) : ¬ World.start.Pending pid := by
  rintro (⟨record, member, _⟩ | phase)
  · cases member
  · cases phase

@[simp] theorem ran_maps (world : World) (result : Maps × List Event)
    (emitted : ∀ event ∈ result.2, Emitted event) : (world.ran result emitted).maps = result.1 := rfl

theorem mem_ran_ring {world : World} {result : Maps × List Event}
    {emitted : ∀ event ∈ result.2, Emitted event} {record : Record} :
    record ∈ (world.ran result emitted).ring ↔ record ∈ world.ring ∨ record.event ∈ result.2 := by
  simp only [World.ran, List.mem_append, List.mem_pmap]
  constructor
  · rintro (old | ⟨event, sent, rfl⟩)
    · exact Or.inl old
    · exact Or.inr sent
  · rintro (old | sent)
    · exact Or.inl old
    · exact Or.inr ⟨record.event, sent, rfl⟩

section Take

variable (outside : Outside) (world : World) {record : Record} (rest : List Record)

theorem handleKillSIGRTMIN_metaTable {ending : CommandEnd} {killEvent : KillEvent} {shells : Shells}
    {before after : Database}
    (handled : handleKillSIGRTMIN ending killEvent shells before = some after) :
    after.metaTable = before.metaTable := by
  simp only [handleKillSIGRTMIN, Database.addCommand, Database.addExitStatus, Database.addPS1,
    Database.addPwd, Option.bind_eq_some_iff, Option.map_eq_some_iff] at handled
  obtain ⟨_, ⟨_, _, rfl⟩, _, ⟨_, _, rfl⟩, _, ⟨_, _, rfl⟩, _, _, rfl⟩ := handled
  rfl

theorem leftByKillSIGRTMIN_metaTable (ending : CommandEnd) (killEvent : KillEvent) (shells : Shells)
    (before : Database) : (leftByKillSIGRTMIN ending killEvent shells before).metaTable = before.metaTable := by
  rw [leftByKillSIGRTMIN]
  cases ending.command with
  | none => rfl
  | some command =>
      cases ending.exitStatus with
      | none => rfl
      | some status => cases ending.PS1 <;> rfl

theorem takeRecord_announced {pid : Pid} (announced : record.event.announced = some pid) :
    ∃ killEvent, killEvent.shellPid = pid ∧
      takeRecord outside record rest world =
        { world with ring := rest, daemon := .taken killEvent } := by
  obtain ⟨event, emitted⟩ := record
  cases event with
  | kill killEvent =>
      simp only [Event.announced] at announced
      split at announced
      · rename_i sig
        refine ⟨killEvent, by simpa using announced, ?_⟩
        simp [takeRecord, emitted.dispatched, Event.handler, sig, handle]
      · cases announced
  | childCreation | exitShellIndicator | write => cases announced

/-- Any other record is handled at once. Only an exit event changes `meta`. -/
theorem takeRecord_handled (idle : world.daemon = .idle) (other : record.event.announced = none) :
    (takeRecord outside record rest world).maps = world.maps ∧
      (takeRecord outside record rest world).ring = rest ∧
      ((takeRecord outside record rest world).daemon = .idle ∨
        (takeRecord outside record rest world).daemon = .crashed) ∧
      (takeRecord outside record rest world).db.metaTable =
        match record.event with
        | .exitShellIndicator indicator =>
            (world.db.metaAddFinishTime indicator outside.time).metaTable
        | _ => world.db.metaTable := by
  obtain ⟨event, emitted⟩ := record
  cases event with
  | kill killEvent =>
      have sig : ¬ (killEvent.sig = SIGUSR1 ∨ killEvent.sig = SIGUSR2) := by
        simpa [Event.announced] using other
      by_cases command : killEvent.sig = SIGRTMIN
      · have handler : (Event.kill killEvent).handler =
            some (.handleKillSIGRTMIN killEvent 16) := by
          rw [Event.handler, if_neg sig, if_pos command]
        cases handled : handleKillSIGRTMIN outside.ending killEvent world.maps.shells world.db with
        | none =>
            simp [takeRecord, emitted.dispatched, handler, handle, handled,
              leftByKillSIGRTMIN_metaTable]
        | some db =>
            simp [takeRecord, emitted.dispatched, handler, handle, handled,
              handleKillSIGRTMIN_metaTable handled]
      · have handler : (Event.kill killEvent).handler = none := by
          rw [Event.handler, if_neg sig, if_neg command]
        simp [takeRecord, emitted.dispatched, handler, idle]
  | childCreation shellPid =>
      refine ⟨?_, ?_, ?_, ?_⟩ <;>
        simp [takeRecord, emitted.dispatched, Event.handler, handle, handleChildCreation,
          Database.addStartTime, Database.updateLast_metaTable]
  | exitShellIndicator indicator =>
      simp [takeRecord, emitted.dispatched, Event.handler, handle, handleShellExit]
  | write indicator output =>
      refine ⟨?_, ?_, ?_, ?_⟩ <;>
        simp [takeRecord, emitted.dispatched, Event.handler, handle, handleWrite,
          Database.addOutput, Database.updateLast_metaTable]

end Take

theorem of_guard {σ : Type} {blocked : Prop} [Decidable blocked] {state after : σ}
    (taken : (if blocked then none else some state) = some after) : ¬ blocked ∧ after = state := by
  by_cases stuck : blocked
  · simp [stuck] at taken
  · exact ⟨stuck, by simpa [stuck] using taken.symm⟩

section Step

variable {before after : World}

theorem step_kill {currentPid pid : Pid} {sig : CInt} {reserved : Bool}
    (taken : step before (.kill currentPid sig pid reserved) = some after) :
    currentPid ≠ 0#32 ∧ after = before.ran (killSomethingInfo currentPid sig pid reserved before.maps)
      fun _ => killSomethingInfo_emitted := by
  simp only [step] at taken
  exact of_guard taken

theorem step_fork {currentPid childPid : Pid} {reserved : Bool}
    (taken : step before (.fork currentPid childPid reserved) = some after) :
    childPid ≠ 0#32 ∧ after = before.ran (forkTracepoint currentPid childPid reserved before.maps)
      fun _ => forkTracepoint_emitted := by
  simp only [step] at taken
  exact of_guard taken

theorem step_exit {currentPid : Pid} {reserved : Bool}
    (taken : step before (.exit currentPid reserved) = some after) :
    currentPid ≠ 0#32 ∧ after = before.ran (doExit currentPid reserved before.maps)
      fun _ => doExit_emitted := by
  simp only [step] at taken
  exact of_guard taken

theorem step_take {outside : Outside} (taken : step before (.take outside) = some after) :
    before.daemon = .idle ∧ ∃ record rest, before.ring = record :: rest ∧
      after = takeRecord outside record rest before := by
  simp only [step] at taken
  split at taken
  · rename_i idle ring
    exact ⟨idle, _, _, ring, (Option.some.inj taken).symm⟩
  · cases taken

theorem step_create {opening : Opening} (taken : step before (.create opening) = some after) :
    ∃ killEvent, before.daemon = .taken killEvent ∧ after = { before with
      daemon := .created killEvent (getIndicator opening.now)
      db := createSession opening killEvent before.db } := by
  simp only [step] at taken
  split at taken
  · rename_i phase
    exact ⟨_, phase, (Option.some.inj taken).symm⟩
  · cases taken

theorem step_scan (taken : step before .scan = some after) :
    ∃ killEvent indicator, before.daemon = .created killEvent indicator ∧ after = { before with
      daemon := .scanned killEvent indicator (chooseSlot before.maps.shells) } := by
  simp only [step] at taken
  split at taken
  · rename_i phase
    exact ⟨_, _, phase, (Option.some.inj taken).symm⟩
  · cases taken

theorem step_register {closing : Closing} (taken : step before (.register closing) = some after) :
    ∃ killEvent indicator slot, before.daemon = .scanned killEvent indicator slot ∧
      after = finish closing killEvent indicator slot before := by
  simp only [step] at taken
  split at taken
  · rename_i phase
    exact ⟨_, _, _, phase, (Option.some.inj taken).symm⟩
  · cases taken

theorem addPS1_left_metaTable (db : Database) (indicator : Long) (PS1 : Option Text) :
    ((db.addPS1 indicator PS1).getD db).metaTable = db.metaTable := by
  cases PS1 <;> rfl

theorem finish_cases (closing : Closing) (killEvent : KillEvent) (indicator : Long) (slot : Nat)
    (world : World) :
    (finish closing killEvent indicator slot world = { world with daemon := .idle } ∧
      finishSession closing killEvent indicator world.db = .failed) ∨
    (finish closing killEvent indicator slot world =
        { world with daemon := .crashed, db := (world.db.addPS1 indicator closing.PS1).getD world.db } ∧
      finishSession closing killEvent indicator world.db = .crashed) ∨
    ∃ db line, finishSession closing killEvent indicator world.db =
        .entered db (newShell closing killEvent indicator line) ∧
      db.metaTable = world.db.metaTable ∧
      finish closing killEvent indicator slot world = { world with
        maps := { world.maps with
          shells := world.maps.shells.update slot (newShell closing killEvent indicator line) }
        daemon := .idle
        db := db } := by
  cases result : finishSession closing killEvent indicator world.db with
  | failed => exact Or.inl ⟨by simp [finish, result], rfl⟩
  | crashed => exact Or.inr (Or.inl ⟨by simp [finish, result], rfl⟩)
  | entered db shell =>
      obtain ⟨_, line, PS1, pwd, _, _, _, rfl, rfl⟩ := finishSession_entered.mp result
      exact Or.inr (Or.inr ⟨_, line, rfl, rfl, by simp [finish, result]⟩)

theorem forkTracepoint_silent {currentPid childPid : Pid} {reserved : Bool} {maps : Maps}
    {event : Event} (sent : event ∈ (forkTracepoint currentPid childPid reserved maps).2) :
    event.announced = none := by
  rcases forkTracepoint_cases currentPid childPid reserved maps with same | ⟨_, _, _, _, same⟩
  · simp [same] at sent
  · rw [same] at sent
    obtain ⟨_, rfl⟩ := mem_submit.mp sent
    rfl

theorem doExit_silent {currentPid : Pid} {reserved : Bool} {maps : Maps} {event : Event}
    (sent : event ∈ (doExit currentPid reserved maps).2) : event.announced = none := by
  rcases doExit_cases currentPid reserved maps with ⟨same, _⟩ | ⟨_, _, _, same⟩ | ⟨_, _, same⟩
  · simp [same] at sent
  · rw [same] at sent
    obtain ⟨_, rfl⟩ := mem_submit.mp sent
    rfl
  · simp [same] at sent

theorem killSomethingInfo_announced {currentPid target shellPid : Pid} {sig : CInt} {reserved : Bool}
    {maps : Maps} {event : Event}
    (sent : event ∈ (killSomethingInfo currentPid sig target reserved maps).2)
    (announced : event.announced = some shellPid) : currentPid = shellPid ∧ Announces sig target := by
  obtain ⟨hash, indicator, rfl⟩ := killSomethingInfo_events _ _ _ _ _ _ sent
  rw [Event.announced] at announced
  split at announced
  · rename_i announcing
    exact ⟨Option.some.inj announced, hash, announcing⟩
  · cases announced

theorem ran_pending {result : Maps × List Event} {emitted : ∀ event ∈ result.2, Emitted event}
    {pid : Pid} (silent : ∀ event ∈ result.2, event.announced ≠ some pid)
    (pending : (before.ran result emitted).Pending pid) : before.Pending pid := by
  rcases pending with ⟨record, member, announced⟩ | phase
  · rcases mem_ran_ring.mp member with old | sent
    · exact Or.inl ⟨record, old, announced⟩
    · exact absurd announced (silent record.event sent)
  · exact Or.inr phase

theorem take_pending {outside : Outside} {pid : Pid}
    (taken : step before (.take outside) = some after) (pending : after.Pending pid) :
    before.Pending pid := by
  obtain ⟨idle, record, rest, ring, rfl⟩ := step_take taken
  have inRing {other : Record} (member : other ∈ rest) : other ∈ before.ring :=
    ring ▸ List.mem_cons_of_mem record member
  cases announced : record.event.announced with
  | some first =>
      -- from the ring buffer into the hands of the daemon
      obtain ⟨killEvent, shell, same⟩ := takeRecord_announced outside before rest announced
      rw [same] at pending
      rcases pending with ⟨other, member, otherPid⟩ | phase
      · exact Or.inl ⟨other, inRing member, otherPid⟩
      · obtain rfl : killEvent.shellPid = pid := Option.some.inj phase
        exact Or.inl ⟨record, ring ▸ List.mem_cons_self, shell ▸ announced⟩
  | none =>
      obtain ⟨_, left, phase, _⟩ := takeRecord_handled outside before rest idle announced
      rcases pending with ⟨other, member, otherPid⟩ | stays
      · exact Or.inl ⟨other, inRing (left ▸ member), otherPid⟩
      · rcases phase with same | same <;> simp [same, Phase.announced] at stays

theorem register_pending {closing : Closing} {pid : Pid}
    (taken : step before (.register closing) = some after) (pending : after.Pending pid) :
    before.Pending pid := by
  obtain ⟨killEvent, indicator, slot, phase, rfl⟩ := step_register taken
  rcases finish_cases closing killEvent indicator slot before with
    ⟨same, _⟩ | ⟨same, _⟩ | ⟨db, line, _, _, same⟩
  all_goals
    rw [same] at pending
    rcases pending with ring | stays
    · exact Or.inl ring
    · cases stays

theorem pending_step {label : Label} {pid : Pid} (taken : step before label = some after)
    (pending : after.Pending pid) :
    before.Pending pid ∨
      ∃ sig target reserved, label = .kill pid sig target reserved ∧ Announces sig target := by
  cases label with
  | kill currentPid sig target reserved =>
      obtain ⟨_, rfl⟩ := step_kill taken
      by_cases announcing : currentPid = pid ∧ Announces sig target
      · obtain ⟨rfl, announces⟩ := announcing
        exact Or.inr ⟨sig, target, reserved, rfl, announces⟩
      · apply Or.inl
        apply ran_pending _ pending
        intro event sent announced
        exact announcing (killSomethingInfo_announced sent announced)
  | fork currentPid childPid reserved =>
      -- the records of the other programs announce no process
      obtain ⟨_, rfl⟩ := step_fork taken
      apply Or.inl
      apply ran_pending _ pending
      intro event sent
      simp [forkTracepoint_silent sent]
  | exit currentPid reserved =>
      obtain ⟨_, rfl⟩ := step_exit taken
      apply Or.inl
      apply ran_pending _ pending
      intro event sent
      simp [doExit_silent sent]
  | write call room buffer =>
      obtain rfl := Option.some.inj taken
      apply Or.inl
      apply ran_pending _ pending
      intro event sent
      obtain ⟨_, _, _, _, rfl⟩ := ksysWrite_event (Option.mem_toList.mp sent)
      exact nofun
  | take outside => exact Or.inl (take_pending taken pending)
  | create opening =>
      obtain ⟨killEvent, phase, rfl⟩ := step_create taken
      rcases pending with ring | same
      · exact Or.inl (Or.inl ring)
      · exact Or.inl (Or.inr (phase ▸ same))
  | scan =>
      obtain ⟨killEvent, indicator, phase, rfl⟩ := step_scan taken
      rcases pending with ring | same
      · exact Or.inl (Or.inl ring)
      · exact Or.inl (Or.inr (phase ▸ same))
  | register closing => exact Or.inl (register_pending taken pending)

theorem take_maps {outside : Outside} (taken : step before (.take outside) = some after) :
    after.maps = before.maps := by
  obtain ⟨idle, record, rest, _, rfl⟩ := step_take taken
  cases announced : record.event.announced with
  | some pid =>
      obtain ⟨_, _, same⟩ := takeRecord_announced outside before rest announced
      rw [same]
  | none => exact (takeRecord_handled outside before rest idle announced).1

theorem kill_shells (currentPid : Pid) (sig : CInt) (pid : Pid) (reserved : Bool) (maps : Maps) :
    (killSomethingInfo currentPid sig pid reserved maps).1.shells = maps.shells := by
  rw [killSomethingInfo_maps]
  split <;> rfl

theorem fork_shells (currentPid childPid : Pid) (reserved : Bool) (maps : Maps) :
    (forkTracepoint currentPid childPid reserved maps).1.shells = maps.shells := by
  rcases forkTracepoint_cases currentPid childPid reserved maps with same | ⟨_, _, _, _, same⟩
  · rw [same]
  · rw [same]

def World.entering (world : World) : Label → Option (Nat × Shell)
  | .register closing =>
      match world.daemon with
      | .scanned killEvent indicator slot =>
          match finishSession closing killEvent indicator world.db with
          | .entered _ shell => some (slot, shell)
          | _ => none
      | _ => none
  | _ => none

theorem step_shells {label : Label} (taken : step before label = some after) :
    (after.maps.shells = before.maps.shells ∧ before.entering label = none) ∨
    (∃ pid reserved shell, label = .exit pid reserved ∧
      before.maps.shells.sweep pid = .removed shell after.maps.shells) ∨
    (∃ call room buffer, label = .write call room buffer ∧
      after.maps.shells = (ksysWrite call room before.maps buffer).shells) ∨
    ∃ slot shell, before.entering label = some (slot, shell) ∧
      after.maps.shells = before.maps.shells.update slot shell := by
  cases label with
  | kill currentPid sig target reserved =>
      obtain ⟨_, rfl⟩ := step_kill taken
      exact Or.inl ⟨kill_shells _ _ _ _ _, rfl⟩
  | fork currentPid childPid reserved =>
      obtain ⟨_, rfl⟩ := step_fork taken
      exact Or.inl ⟨fork_shells _ _ _ _, rfl⟩
  | exit currentPid reserved =>
      obtain ⟨_, rfl⟩ := step_exit taken
      rw [ran_maps]
      rcases doExit_cases currentPid reserved before.maps with
        ⟨same, _⟩ | ⟨shell, shells, result, same⟩ | ⟨_, _, same⟩
      · exact Or.inl ⟨by rw [same], rfl⟩
      · exact Or.inr (Or.inl ⟨currentPid, reserved, shell, rfl, by rw [result, same]⟩)
      · exact Or.inl ⟨by rw [same], rfl⟩
  | write call room buffer =>
      obtain rfl := Option.some.inj taken
      exact Or.inr (Or.inr (Or.inl ⟨call, room, buffer, rfl, rfl⟩))
  | take outside => exact Or.inl ⟨by rw [take_maps taken], rfl⟩
  | create opening =>
      obtain ⟨_, _, rfl⟩ := step_create taken
      exact Or.inl ⟨rfl, rfl⟩
  | scan =>
      obtain ⟨_, _, _, rfl⟩ := step_scan taken
      exact Or.inl ⟨rfl, rfl⟩
  | register closing =>
      obtain ⟨killEvent, indicator, slot, phase, rfl⟩ := step_register taken
      rcases finish_cases closing killEvent indicator slot before with
        ⟨same, failed⟩ | ⟨same, crashed⟩ | ⟨db, line, entered, _, same⟩
      · exact Or.inl ⟨by rw [same], by simp [World.entering, phase, failed]⟩
      · exact Or.inl ⟨by rw [same], by simp [World.entering, phase, crashed]⟩
      · apply Or.inr
        apply Or.inr
        apply Or.inr
        exact ⟨slot, newShell closing killEvent indicator line,
          by simp only [World.entering, phase, entered], by rw [same]⟩

theorem entering_scanned {label : Label} {slot : Nat} {shell : Shell}
    (enters : before.entering label = some (slot, shell)) :
    ∃ closing killEvent indicator, label = .register closing ∧
      before.daemon = .scanned killEvent indicator slot ∧
      shell.shellPid = killEvent.shellPid ∧ shell.indicator = indicator := by
  unfold World.entering at enters
  split at enters
  · rename_i closing
    split at enters
    · rename_i killEvent indicator _ phase
      rcases finish_cases closing killEvent indicator slot before with
        ⟨_, failed⟩ | ⟨_, crashed⟩ | ⟨db, line, entered, _, _⟩
      · simp [failed] at enters
      · simp [crashed] at enters
      · simp only [entered, Option.some.injEq, Prod.mk.injEq] at enters
        obtain ⟨rfl, rfl⟩ := enters
        exact ⟨closing, killEvent, indicator, rfl, phase, rfl, rfl⟩
    · cases enters
  · cases enters

/-- Where the entries of `shells` come from. -/
theorem shells_step {label : Label} {shell : Shell} (taken : step before label = some after)
    (member : shell ∈ after.maps.shells.entries) :
    (∃ old ∈ before.maps.shells.entries,
      old.shellPid = shell.shellPid ∧ old.indicator = shell.indicator) ∨
    ∃ closing killEvent indicator slot, label = .register closing ∧
      before.daemon = .scanned killEvent indicator slot ∧
      shell.shellPid = killEvent.shellPid ∧ shell.indicator = indicator := by
  rcases step_shells taken with
    ⟨same, _⟩ | ⟨_, _, _, _, result⟩ | ⟨call, room, buffer, _, same⟩ | ⟨slot, new, enters, same⟩
  · exact Or.inl ⟨shell, same ▸ member, rfl, rfl⟩
  · exact Or.inl ⟨shell, sweep_removed_subset result shell member, rfl, rfl⟩
  · -- at most one flag changes, and no pid or indicator
    rcases ksysWrite_shells call room before.maps buffer with
      kept | ⟨index, old, flag, found, written⟩
    · exact Or.inl ⟨shell, kept ▸ same ▸ member, rfl, rfl⟩
    · rw [same, written] at member
      rcases mem_entries_update member with rfl | other
      · have used : Slot.Used old := (mem_entries.mp member).2
        exact Or.inl ⟨old, mem_entries_of_lookup found used, rfl, rfl⟩
      · exact Or.inl ⟨shell, other, rfl, rfl⟩
  · rw [same] at member
    rcases mem_entries_update member with rfl | old
    · obtain ⟨closing, killEvent, indicator, registers⟩ := entering_scanned enters
      exact Or.inr ⟨closing, killEvent, indicator, slot, registers⟩
    · exact Or.inl ⟨shell, old, rfl, rfl⟩

end Step

end Nhi
