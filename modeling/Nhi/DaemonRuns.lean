import Nhi.EventHandling
import Nhi.Simulation

/-!
The daemon beside the kernel programs and the daemon alone. Whatever the kernel
programs do between its steps, and between the pieces of an announcement, what
it stores is what it would store if it were handed the same records one after
the other; and these are the records of the kernel programs in the order they
were put in the ring buffer.
-/

namespace Nhi

open RunHistory Simulation

def lastOpening : List (World × Label) → Option Opening
  | [] => none
  | (_, .create opening) :: _ => some opening
  | _ :: past => lastOpening past

/-- The handling that ends with a step of the daemon. An announcement ends with
the last of its pieces, any other record when it is taken. -/
def completed (past : List (World × Label)) (before : World) : Label → Option Handling
  | .take outside =>
      match before.ring with
      | [] => none
      | record :: _ =>
          if record.event.announced.isSome then none
          else record.event.handler.map fun call =>
            ⟨call, sampleOpening, sampleClosing, outside, before.maps.shells⟩
  | .register closing =>
      match before.daemon with
      | .scanned killEvent _ _ => (lastOpening past).map fun opening =>
          ⟨.handleKillSIGUSR killEvent, opening, closing, sampleOutside, before.maps.shells⟩
      | _ => none
  | _ => none

abbrev handlings (past : List (World × Label)) : List Handling := actions completed past

/-- What the daemon alone has stored, when the session of an announcement that
is not finished is left out. -/
def Stored (past : List (World × Label)) (world : World) (db : Database) : Prop :=
  match world.daemon with
  | .idle | .taken _ => world.db = db
  | .created killEvent indicator | .scanned killEvent indicator _ =>
      ∃ opening, lastOpening past = some opening ∧ indicator = getIndicator opening.now ∧
        world.db = createSession opening killEvent db
  | .crashed => False

def Label.sends (before : World) : Label → List Event
  | .kill currentPid sig pid reserved => (killSomethingInfo currentPid sig pid reserved before.maps).2
  | .fork currentPid childPid reserved => (forkTracepoint currentPid childPid reserved before.maps).2
  | .exit currentPid reserved => (doExit currentPid reserved before.maps).2
  | .write call room buffer => (ksysWrite call room before.maps buffer).event.toList
  | .take _ | .create _ | .scan | .register _ => []

def sent : List (World × Label) → List Event
  | [] => []
  | (before, label) :: past => sent past ++ label.sends before

def World.inHand (world : World) : List HandlerCall :=
  match world.daemon with
  | .taken killEvent | .created killEvent _ | .scanned killEvent _ _ => [.handleKillSIGUSR killEvent]
  | .idle | .crashed => []

def World.events (world : World) : List Event := world.ring.map Record.event

/-- The records the kernel programs sent are the ones handled, the one in hand
and the ones that wait, in this order. A kill with another signal has no handler. -/
def InOrderSent (past : List (World × Label)) (world : World) : Prop :=
  (sent past).filterMap Event.handler =
    (handlings past).reverse.map Handling.call ++ world.inHand ++ world.events.filterMap Event.handler

def Survives (_past : List (World × Label)) (before : World) (label : Label) : Prop :=
  ∀ after, step before label = some after → after.daemon ≠ .crashed

section Steps

variable {past : List (World × Label)} {before after : World} {label : Label} {db : Database}

theorem ran_events (world : World) (result : Maps × List Event)
    (emitted : ∀ event ∈ result.2, Emitted event) : (world.ran result emitted).events = world.events ++ result.2 := by
  simp only [World.events, World.ran, List.map_append, List.map_pmap]
  simp

theorem kernel_step (taken : step before label = some after) (kernel : label.actor.isSome) :
    after.daemon = before.daemon ∧ after.db = before.db ∧ after.events = before.events ++ label.sends before := by
  cases label with
  | kill currentPid sig target reserved =>
      obtain ⟨_, rfl⟩ := step_kill taken
      exact ⟨rfl, rfl, ran_events _ _ _⟩
  | fork currentPid childPid reserved =>
      obtain ⟨_, rfl⟩ := step_fork taken
      exact ⟨rfl, rfl, ran_events _ _ _⟩
  | exit currentPid reserved =>
      obtain ⟨_, rfl⟩ := step_exit taken
      exact ⟨rfl, rfl, ran_events _ _ _⟩
  | write call room buffer =>
      obtain rfl := Option.some.inj taken
      exact ⟨rfl, rfl, ran_events _ _ _⟩
  | take | create | scan | register => cases kernel

theorem kernel_completed (past : List (World × Label)) (before : World) (kernel : label.actor.isSome) :
    completed past before label = none ∧ lastOpening ((before, label) :: past) = lastOpening past := by
  cases label with
  | kill | fork | exit | write => exact ⟨rfl, rfl⟩
  | take | create | scan | register => cases kernel

theorem handler_announces {event : Event} {killEvent : KillEvent} :
    event.handler = some (.handleKillSIGUSR killEvent) ↔
      event = .kill killEvent ∧ event.announced = some killEvent.shellPid := by
  cases event with
  | kill other =>
      rw [Event.handler, Event.announced]
      by_cases announcing : other.sig = SIGUSR1 ∨ other.sig = SIGUSR2
      · simp only [announcing, if_true, Option.some.injEq, HandlerCall.handleKillSIGUSR.injEq, Event.kill.injEq]
        exact ⟨fun same => ⟨same, congrArg KillEvent.shellPid same⟩, And.left⟩
      · simp only [announcing, if_false, reduceCtorEq, and_false, iff_false]
        split <;> simp
  | childCreation | exitShellIndicator | write => simp [Event.handler]

theorem completed_cases {handling : Handling} (done : completed past before label = some handling) :
    (∃ outside record call, label = .take outside ∧ record ∈ before.ring ∧ record.event.handler = some call ∧
      (∀ killEvent, call ≠ .handleKillSIGUSR killEvent) ∧
      handling = ⟨call, sampleOpening, sampleClosing, outside, before.maps.shells⟩) ∨
    ∃ closing killEvent indicator slot opening, label = .register closing ∧
      before.daemon = .scanned killEvent indicator slot ∧ lastOpening past = some opening ∧
      handling = ⟨.handleKillSIGUSR killEvent, opening, closing, sampleOutside, before.maps.shells⟩ := by
  cases label with
  | take outside =>
      rw [completed] at done
      split at done
      · cases done
      · rename_i record rest ring
        split at done
        · cases done
        · rename_i silent
          obtain ⟨call, handler, rfl⟩ := Option.map_eq_some_iff.mp done
          refine Or.inl ⟨outside, record, call, rfl, by simp [ring], handler, ?_, rfl⟩
          rintro killEvent rfl
          simp [(handler_announces.mp handler).2] at silent
  | register closing =>
      rw [completed] at done
      split at done
      · rename_i killEvent indicator slot phase
        obtain ⟨opening, opened, rfl⟩ := Option.map_eq_some_iff.mp done
        exact Or.inr ⟨closing, killEvent, indicator, slot, opening, rfl, phase, opened, rfl⟩
      · cases done
  | kill | fork | exit | write | create | scan => cases done

theorem take_announcement (outside : Outside) (world : World) {record : Record} (rest : List Record) {pid : Pid}
    (announced : record.event.announced = some pid) :
    ∃ killEvent, record.event.handler = some (.handleKillSIGUSR killEvent) ∧
      takeRecord outside record rest world = { world with ring := rest, daemon := .taken killEvent } := by
  obtain ⟨killEvent, same, announcing⟩ : ∃ killEvent, record.event = .kill killEvent ∧
      (Event.kill killEvent).announced = some killEvent.shellPid := by
    cases event : record.event with
    | kill killEvent =>
        rw [event, Event.announced] at announced
        refine ⟨killEvent, rfl, ?_⟩
        rw [Event.announced]
        split at announced
        · exact if_pos ‹_›
        · cases announced
    | childCreation | exitShellIndicator | write =>
        rw [event] at announced
        cases announced
  have handler : record.event.handler = some (.handleKillSIGUSR killEvent) :=
    handler_announces.mpr ⟨same, same ▸ announcing⟩
  refine ⟨killEvent, handler, ?_⟩
  rw [takeRecord, record.emitted.dispatched, handler]
  rfl

theorem take_completed (past : List (World × Label)) {outside : Outside} {record : Record} {rest : List Record}
    (ring : before.ring = record :: rest) (silent : record.event.announced = none)
    (alive : (takeRecord outside record rest before).daemon ≠ .crashed) :
    match completed past before (.take outside) with
    | none => record.event.handler = none ∧ (takeRecord outside record rest before).db = before.db
    | some handling => record.event.handler = some handling.call ∧
        dbStep before.db handling = some (takeRecord outside record rest before).db := by
  have dispatched := record.emitted.dispatched
  simp only [completed, ring, silent, Option.isSome_none, Bool.false_eq_true, if_false]
  cases handler : record.event.handler with
  | none => simp [takeRecord, dispatched, handler]
  | some call =>
      refine ⟨rfl, ?_⟩
      simp only [takeRecord, dispatched, handler] at alive ⊢
      rw [dbStep, handled]
      cases call with
      | handleKillSIGUSR killEvent =>
          exact absurd (silent.symm.trans (handler_announces.mp handler).2) (Option.some_ne_none _).symm
      | handleKillSIGRTMIN killEvent dataSz =>
          cases ended : handleKillSIGRTMIN outside.ending killEvent before.maps.shells before.db with
          | none => simp [handle, ended] at alive
          | some db => simp [handle, ended]
      | handleChildCreation | handleShellExit | handleWrite => rfl

theorem register_completed {closing : Closing} {killEvent : KillEvent} {slot : Nat} {opening : Opening}
    (phase : before.daemon = .scanned killEvent (getIndicator opening.now) slot)
    (opened : lastOpening past = some opening) (created : before.db = createSession opening killEvent db)
    (alive : (finish closing killEvent (getIndicator opening.now) slot before).daemon ≠ .crashed) :
    ∃ handling, completed past before (.register closing) = some handling ∧
      handling.call = .handleKillSIGUSR killEvent ∧
      dbStep db handling = some (finish closing killEvent (getIndicator opening.now) slot before).db := by
  refine ⟨⟨.handleKillSIGUSR killEvent, opening, closing, sampleOutside, before.maps.shells⟩, ?_, rfl, ?_⟩
  · simp only [completed, phase, opened, Option.map_some]
  · simp only [dbStep, handled, ← created, finish] at alive ⊢
    cases ended : finishSession closing killEvent (getIndicator opening.now) before.db with
    | failed => rfl
    | entered db shell => rfl
    | crashed => simp [ended] at alive

theorem stored_step {above : Database} (stored : Stored past before above) (survives : Survives past before label)
    (taken : step before label = some after) :
    Matches dbStep Stored ((before, label) :: past) after above (completed past before label) := by
  have alive : after.daemon ≠ .crashed := survives after taken
  by_cases kernel : label.actor.isSome
  · obtain ⟨daemon, db, _⟩ := kernel_step taken kernel
    obtain ⟨none, kept⟩ := kernel_completed past before kernel
    rw [none, Matches, Stored, daemon, db, kept]
    exact stored
  cases label with
  | kill | fork | exit | write => exact absurd rfl kernel
  | take outside =>
      obtain ⟨idle, record, rest, ring, rfl⟩ := step_take taken
      rw [Stored, idle] at stored
      obtain rfl : before.db = above := stored
      cases announced : record.event.announced with
      | some pid =>
          obtain ⟨killEvent, _, same⟩ := takeRecord_announced outside before rest announced
          have none : completed past before (.take outside) = none := by simp [completed, ring, announced]
          rw [none, same]
          rfl
      | none =>
          obtain ⟨_, _, phase, _⟩ := takeRecord_handled outside before rest idle announced
          have done := phase.resolve_right alive
          have handled := take_completed past ring announced alive
          cases result : completed past before (.take outside) with
          | none =>
              rw [result] at handled
              rw [Matches, Stored, done]
              exact handled.2
          | some handling =>
              rw [result] at handled
              refine ⟨_, handled.2, ?_⟩
              rw [Stored, done]
  | create opening =>
      obtain ⟨killEvent, phase, rfl⟩ := step_create taken
      rw [Stored, phase] at stored
      obtain rfl : before.db = above := stored
      exact ⟨opening, rfl, rfl, rfl⟩
  | scan =>
      obtain ⟨killEvent, indicator, phase, rfl⟩ := step_scan taken
      rw [Stored, phase] at stored
      exact stored
  | register closing =>
      obtain ⟨killEvent, indicator, slot, phase, rfl⟩ := step_register taken
      rw [Stored, phase] at stored
      obtain ⟨opening, opened, rfl, created⟩ := stored
      obtain ⟨handling, result, _, handled⟩ := register_completed phase opened created alive
      rw [result]
      refine ⟨_, handled, ?_⟩
      rcases finish_cases closing killEvent (getIndicator opening.now) slot before with
        ⟨same, _⟩ | ⟨same, _⟩ | ⟨after, line, _, _, same⟩
      · rw [Stored, same]
      · exact absurd (congrArg World.daemon same) alive
      · rw [Stored, same]

theorem handlings_step (past : List (World × Label)) (before : World) (label : Label) :
    (handlings ((before, label) :: past)).reverse =
      (handlings past).reverse ++ (completed past before label).toList := by
  rw [handlings, actions, List.reverse_append]
  cases completed past before label <;> rfl

theorem inOrder_step {above : Database} (stored : Stored past before above) (ordered : InOrderSent past before)
    (survives : Survives past before label) (taken : step before label = some after) :
    InOrderSent ((before, label) :: past) after := by
  have alive : after.daemon ≠ .crashed := survives after taken
  rw [InOrderSent] at ordered ⊢
  rw [sent, List.filterMap_append, ordered, handlings_step]
  by_cases kernel : label.actor.isSome
  · obtain ⟨daemon, _, events⟩ := kernel_step taken kernel
    rw [(kernel_completed past before kernel).1, events, List.filterMap_append, World.inHand, World.inHand, daemon]
    simp
  cases label with
  | kill | fork | exit | write => exact absurd rfl kernel
  | take outside =>
      obtain ⟨idle, record, rest, ring, rfl⟩ := step_take taken
      have waiting : before.events = record.event :: rest.map Record.event := by rw [World.events, ring, List.map_cons]
      have empty : before.inHand = [] := by rw [World.inHand, idle]
      cases announced : record.event.announced with
      | some pid =>
          obtain ⟨killEvent, call, same⟩ := take_announcement outside before rest announced
          have none : completed past before (.take outside) = none := by simp [completed, ring, announced]
          rw [none, same, waiting, empty, List.filterMap_cons, call]
          simp [Label.sends, World.inHand, World.events]
      | none =>
          obtain ⟨_, left, phase, _⟩ := takeRecord_handled outside before rest idle announced
          have done := phase.resolve_right alive
          have after : World.inHand (takeRecord outside record rest before) = [] := by rw [World.inHand, done]
          have handled := take_completed past ring announced alive
          rw [after, waiting, empty, World.events, left, List.filterMap_cons]
          cases result : completed past before (.take outside) with
          | none =>
              rw [result] at handled
              simp [handled.1, Label.sends]
          | some handling =>
              rw [result] at handled
              simp [handled.1, Label.sends]
  | create opening =>
      obtain ⟨killEvent, phase, rfl⟩ := step_create taken
      simp [Label.sends, completed, World.inHand, World.events, phase]
  | scan =>
      obtain ⟨killEvent, indicator, phase, rfl⟩ := step_scan taken
      simp [Label.sends, completed, World.inHand, World.events, phase]
  | register closing =>
      obtain ⟨killEvent, indicator, slot, phase, rfl⟩ := step_register taken
      rw [Stored, phase] at stored
      obtain ⟨opening, opened, rfl, created⟩ := stored
      obtain ⟨handling, result, call, _⟩ := register_completed phase opened created alive
      have waiting : before.inHand = [.handleKillSIGUSR killEvent] := by rw [World.inHand, phase]
      have cleared : (finish closing killEvent (getIndicator opening.now) slot before).inHand = [] ∧
          (finish closing killEvent (getIndicator opening.now) slot before).events = before.events := by
        rcases finish_cases closing killEvent (getIndicator opening.now) slot before with
          ⟨same, _⟩ | ⟨same, _⟩ | ⟨after, line, _, _, same⟩
        · rw [same]
          exact ⟨rfl, rfl⟩
        · exact absurd (congrArg World.daemon same) alive
        · rw [same]
          exact ⟨rfl, rfl⟩
      rw [result, cleared.1, cleared.2, waiting]
      simp [Label.sends, call]

end Steps

section Runs

variable {past : List (World × Label)} {world : World}

theorem crashed_step {before after : World} {label : Label} (crashed : before.daemon = .crashed)
    (taken : step before label = some after) : after.daemon = .crashed := by
  by_cases kernel : label.actor.isSome
  · exact (kernel_step taken kernel).1.trans crashed
  cases label with
  | kill | fork | exit | write => exact absurd rfl kernel
  | take outside => exact absurd ((step_take taken).1.symm.trans crashed) nofun
  | create opening =>
      obtain ⟨killEvent, phase, _⟩ := step_create taken
      exact absurd (phase.symm.trans crashed) nofun
  | scan =>
      obtain ⟨killEvent, indicator, phase, _⟩ := step_scan taken
      exact absurd (phase.symm.trans crashed) nofun
  | register closing =>
      obtain ⟨killEvent, indicator, slot, phase, _⟩ := step_register taken
      exact absurd (phase.symm.trans crashed) nofun

theorem survives_run (run : Run step World.start past world) (alive : world.daemon ≠ .crashed) :
    Always Survives past := by
  induction run with
  | start => trivial
  | next earlier taken ih =>
      rename_i past before after label
      refine ⟨?_, ih fun crashed => alive (crashed_step crashed taken)⟩
      intro next same
      obtain rfl := Option.some.inj (taken.symm.trans same)
      exact alive

def Mirrored (past : List (World × Label)) (world : World) (db : Database) : Prop :=
  Stored past world db ∧ InOrderSent past world

theorem stored_run (run : Run step World.start past world) (alive : world.daemon ≠ .crashed) :
    ∃ dbPast db, Run dbStep Database.empty dbPast db ∧ dbPast.map Prod.snd = handlings past ∧
      Mirrored past world db := by
  refine run_simulates ?_ ?_ run (survives_run run alive)
  · exact ⟨rfl, rfl⟩
  · rintro past before label after above - ⟨stored, ordered⟩ survives taken
    have next := stored_step stored survives taken
    have order := inOrder_step stored ordered survives taken
    cases done : completed past before label with
    | none =>
        rw [done] at next
        exact ⟨next, order⟩
    | some handling =>
        rw [done] at next
        obtain ⟨db, handled, kept⟩ := next
        exact ⟨db, handled, kept, order⟩

theorem inOrder_run (run : Run step World.start past world) (alive : world.daemon ≠ .crashed) :
    InOrderSent past world := by
  obtain ⟨_, _, _, _, _, ordered⟩ := stored_run run alive
  exact ordered

/-- In every run of the whole system the daemon, when it is between two records,
has stored what it would have stored alone, handed one after the other the
records the kernel programs sent; each is handled once and in its order, and
those not handled yet are in the ring buffer. -/
theorem system_refines_daemon (run : Run step World.start past world) (idle : world.daemon = .idle) :
    ∃ dbPast, Run dbStep Database.empty dbPast world.db ∧ dbPast.map Prod.snd = handlings past ∧
      (sent past).filterMap Event.handler =
        (handlings past).reverse.map Handling.call ++ world.events.filterMap Event.handler := by
  obtain ⟨dbPast, db, dbRun, same, stored, ordered⟩ := stored_run run (by simp [idle])
  rw [Stored, idle] at stored
  obtain rfl : world.db = db := stored
  rw [InOrderSent, World.inHand, idle] at ordered
  exact ⟨dbPast, dbRun, same, by simpa using ordered⟩

instance (world : World) : Decidable (world.daemon = .idle) :=
  match world.daemon with
  | .idle => .isTrue rfl
  | .taken _ | .created _ _ | .scanned _ _ _ | .crashed => .isFalse nofun

theorem system_refines_daemon_fork :
    ∃ past world, Run step World.start past world ∧ (handlings past).length = 2 ∧ world.events.length = 1 ∧
      ∃ dbPast, Run dbStep Database.empty dbPast world.db ∧ dbPast.map Prod.snd = handlings past ∧
        (sent past).filterMap Event.handler =
          (handlings past).reverse.map Handling.call ++ world.events.filterMap Event.handler := by
  obtain ⟨past, world, run, idle, count, waiting⟩ := replay_some step World.start
    ([.kill 1#32 SIGUSR1 nhidHash true, .take sampleOutside, .create sampleOpening, .fork 1#32 2#32 true, .scan,
      .register sampleClosing, .fork 1#32 3#32 true, .write (ttyWrite 3#32 [97#8]) true ⟨0#64, fun _ => 0#8⟩,
      .take sampleOutside])
    (fun past world => world.daemon = .idle ∧ (handlings past).length = 2 ∧ world.events.length = 1)
    (by decide +kernel)
  exact ⟨past, world, run, count, waiting, system_refines_daemon run idle⟩

end Runs

end Nhi
