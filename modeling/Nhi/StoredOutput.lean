import Nhi.DaemonRuns
import Nhi.RecordedSessions

/-!
Where the output of the kernel programs ends up. A record names a session by its
indicator, which the kernel program took from an entry of `shells`, and an entry
is written after its session was created. So no output comes before its session,
and what was sent for a session is what its table has and what still waits.
-/

namespace Nhi

open RunHistory Simulation SlotTable

/-! What a session has of what it is told. -/
section Told

def SessionEvent.outputEvent : SessionEvent → Option OutputEvent
  | .output event => some event
  | _ => none

def Session.outputs (session : Session) : List OutputEvent := session.flatMap Recorded.events

variable {session : Session}

theorem outputs_concat (front : Session) (last : Recorded) :
    Session.outputs (front ++ [last]) = front.outputs ++ last.events := by
  simp [Session.outputs]

theorem outputs_changeLast {told : Recorded → Recorded} {added : List OutputEvent}
    (adds : ∀ recorded, (told recorded).events = recorded.events ++ added) (given : added ≠ [] → session ≠ []) :
    Session.outputs (RowidTable.changeLast told session) = session.outputs ++ added := by
  rcases List.eq_nil_or_concat session with rfl | ⟨front, last, rfl⟩
  · rw [not_not.mp (mt given (not_not.mpr rfl)), List.append_nil]
    rfl
  · rw [List.concat_eq_append, RowidTable.changeLast_concat, outputs_concat, outputs_concat, adds, List.append_assoc]

theorem changeLast_eq_nil {told : Recorded → Recorded} :
    RowidTable.changeLast told session = [] ↔ session = [] := by
  rw [← List.length_eq_zero_iff, RowidTable.length_changeLast, List.length_eq_zero_iff]

theorem after_nonempty (session : Session) (event : SessionEvent) :
    session.after event ≠ [] ↔ session ≠ [] ∨ event = .opened := by
  cases event with
  | opened => simp [Session.after]
  | begun | output | started => simp [Session.after, changeLast_eq_nil]
  | ended => simp [Session.after]

theorem after_outputs {event : SessionEvent} (given : event.outputEvent ≠ none → session ≠ []) :
    Session.outputs (session.after event) = session.outputs ++ event.outputEvent.toList := by
  have kept {change : Row → Row} {keeps : ∀ row, (change row).output = row.output} :
      Session.outputs (RowidTable.changeLast (Recorded.change change keeps) session) = session.outputs := by
    have same : ∀ recorded, (Recorded.change change keeps recorded).events = recorded.events ++ [] :=
      fun recorded => (List.append_nil recorded.events).symm
    exact (outputs_changeLast same (absurd rfl)).trans (List.append_nil _)
  cases event with
  | opened => simp [Session.after, Session.outputs, Recorded.blank, SessionEvent.outputEvent]
  | begun | started => simpa [Session.after, SessionEvent.outputEvent] using kept
  | output event => exact outputs_changeLast (fun _ => rfl) fun _ => given (Option.some_ne_none _)
  | ended command exitStatus ending PS1 pwd =>
      rw [Session.after]
      split
      · rename_i none
        rw [none]
        rfl
      · rw [outputs_concat, kept]
        rfl

theorem foldl_nonempty (events : List SessionEvent) (session : Session) :
    events.foldl Session.after session ≠ [] ↔ session ≠ [] ∨ .opened ∈ events := by
  induction events generalizing session with
  | nil => simp
  | cons event rest ih => rw [List.foldl_cons, ih, after_nonempty, or_assoc, List.mem_cons, eq_comm (a := event)]

theorem foldl_outputs {events : List SessionEvent}
    (given : events.filterMap SessionEvent.outputEvent ≠ [] → session ≠ []) :
    Session.outputs (events.foldl Session.after session) =
      session.outputs ++ events.filterMap SessionEvent.outputEvent := by
  induction events generalizing session with
  | nil => simp
  | cons event rest ih =>
      cases shown : event.outputEvent with
      | none =>
          rw [List.filterMap_cons_none shown] at given ⊢
          rw [List.foldl_cons, ih fun some => (after_nonempty session event).mpr (Or.inl (given some)),
            after_outputs (by simp [shown]), shown]
          simp
      | some output =>
          rw [List.filterMap_cons_some shown] at given ⊢
          have opened := given (List.cons_ne_nil _ _)
          rw [List.foldl_cons, ih fun _ => (after_nonempty session event).mpr (Or.inl opened),
            after_outputs fun _ => opened, shown]
          simp

end Told

/-! What the kernel programs know of the sessions. -/
section Known

def openedIn (past : List (World × Label)) : List Long := (handlings past).filterMap Handling.opens

def Event.sessions : Event → List Long
  | .kill event => [event.parentShellIndicator]
  | .exitShellIndicator indicator | .write indicator _ => [indicator]
  | .childCreation _ => []

/-- Every name but 0 is that of a session that was created. -/
structure Known (past : List (World × Label)) (world : World) : Prop where
  entries : ∀ shell ∈ world.maps.shells.entries, shell.indicator ∈ openedIn past
  waiting : ∀ event ∈ world.events, ∀ indicator ∈ event.sessions, indicator ≠ 0#64 → indicator ∈ openedIn past
  inHand : ∀ killEvent, .handleKillSIGUSR killEvent ∈ world.inHand → killEvent.parentShellIndicator ≠ 0#64 →
    killEvent.parentShellIndicator ∈ openedIn past

variable {past : List (World × Label)} {before after : World} {label : Label}

theorem openedIn_later {indicator : Long} (opened : indicator ∈ openedIn past) :
    indicator ∈ openedIn ((before, label) :: past) := by
  rw [openedIn, handlings, actions, List.filterMap_append]
  exact List.mem_append_right _ opened

theorem findIndicator_known {shellPid : Pid} {shells : Shells} {found : Attribution}
    (result : findIndicator shellPid shells = some found) :
    found.indicator = 0#64 ∨ ∃ shell ∈ shells.entries, shell.indicator = found.indicator := by
  rw [findIndicator] at result
  cases search : shells.search shellPid with
  | free i => simp [search] at result
  | found i shell =>
      rw [search] at result
      obtain rfl := Option.some.inj result
      exact Or.inr ⟨shell, (search_found search).2.1, rfl⟩
  | bound =>
      rw [search] at result
      obtain ⟨shell, _, rfl⟩ := Option.map_eq_some_iff.mp result
      exact Or.inl rfl

theorem killSomethingInfo_parent {currentPid target : Pid} {sig : CInt} {reserved : Bool} {maps : Maps} {event : Event}
    (process : currentPid ≠ 0#32) (sent : event ∈ (killSomethingInfo currentPid sig target reserved maps).2) :
    ∃ parent, event = .kill ⟨currentPid, sig, parent⟩ ∧ (parent = 0#64 ∨
      ∃ child ∈ maps.children.entries, child.childPid = currentPid ∧
        ∃ shell ∈ maps.shells.entries, shell.shellPid = child.shellPid ∧ shell.indicator = parent) := by
  unfold killSomethingInfo at sent
  split at sent
  · cases sent
  split at sent
  · refine ⟨_, (mem_submit.mp sent).2, ?_⟩
    cases search : maps.shells.search (((maps.children.sweep currentPid).hit.map Child.shellPid).getD 0#32) with
    | free i => exact Or.inl rfl
    | bound => exact Or.inl rfl
    | found i shell =>
        obtain ⟨_, listed, pid⟩ := search_found search
        cases hit : (maps.children.sweep currentPid).hit with
        | none =>
            -- the search is for 0, the key of no entry
            rw [hit] at pid
            exact absurd pid (mem_entries.mp listed).2
        | some child =>
            rw [hit] at pid
            obtain ⟨member, same⟩ := sweep_hit process hit
            exact Or.inr ⟨child, member, same, shell, listed, pid, rfl⟩
  · exact ⟨_, (mem_submit.mp sent).2, Or.inl rfl⟩

theorem sends_cases (taken : step before label = some after) {event : Event} (sent : event ∈ label.sends before) :
    (∃ currentPid sig target reserved parent, label = .kill currentPid sig target reserved ∧
      event = .kill ⟨currentPid, sig, parent⟩ ∧ (parent = 0#64 ∨
        ∃ child ∈ before.maps.children.entries, child.childPid = currentPid ∧
          ∃ shell ∈ before.maps.shells.entries, shell.shellPid = child.shellPid ∧ shell.indicator = parent)) ∨
    (∃ currentPid childPid reserved shellPid, label = .fork currentPid childPid reserved ∧
      event = .childCreation shellPid) ∨
    (∃ shell ∈ before.maps.shells.entries, ∃ reserved, label = .exit shell.shellPid reserved ∧
      event = .exitShellIndicator shell.indicator) ∨
    ∃ call room buffer indicator output, label = .write call room buffer ∧ event = .write indicator output ∧
      (ksysWrite call room before.maps buffer).event = some event := by
  cases label with
  | kill currentPid sig target reserved =>
      obtain ⟨parent, rfl, listed⟩ := killSomethingInfo_parent (step_kill taken).1 sent
      exact Or.inl ⟨currentPid, sig, target, reserved, parent, rfl, rfl, listed⟩
  | fork currentPid childPid reserved =>
      rcases forkTracepoint_cases currentPid childPid reserved before.maps with same | ⟨_, shellPid, _, _, same⟩
      · simp [Label.sends, same] at sent
      · simp only [Label.sends, same] at sent
        exact Or.inr (Or.inl ⟨currentPid, childPid, reserved, shellPid, rfl, (mem_submit.mp sent).2⟩)
  | exit currentPid reserved =>
      rcases doExit_cases currentPid reserved before.maps with ⟨same, _⟩ | ⟨shell, _, swept, same⟩ | ⟨_, _, same⟩
      · simp [Label.sends, same] at sent
      · simp only [Label.sends, same] at sent
        obtain ⟨there, rfl⟩ := sweep_removed_taken swept
        exact Or.inr (Or.inr (Or.inl ⟨shell, there, reserved, rfl, (mem_submit.mp sent).2⟩))
      · simp [Label.sends, same] at sent
  | write call room buffer =>
      have result := Option.mem_toList.mp sent
      obtain ⟨found, _, _, output, rfl⟩ := ksysWrite_event result
      exact Or.inr (Or.inr (Or.inr ⟨call, room, buffer, found.indicator, _, rfl, rfl, result⟩))
  | take | create | scan | register => cases sent

theorem sends_known (taken : step before label = some after) {event : Event} (sent : event ∈ label.sends before) :
    ∀ indicator ∈ event.sessions, indicator = 0#64 ∨
      ∃ shell ∈ before.maps.shells.entries, shell.indicator = indicator := by
  intro indicator named
  rcases sends_cases taken sent with ⟨_, _, _, _, parent, _, rfl, listed⟩ | ⟨_, _, _, _, _, rfl⟩ |
    ⟨shell, there, _, _, rfl⟩ | ⟨call, room, buffer, written, output, _, rfl, result⟩
  · obtain rfl := List.mem_singleton.mp named
    exact listed.imp_right fun ⟨_, _, _, shell, there, _, same⟩ => ⟨shell, there, same⟩
  · cases named
  · obtain rfl := List.mem_singleton.mp named
    exact Or.inr ⟨shell, there, rfl⟩
  · obtain rfl := List.mem_singleton.mp named
    obtain ⟨found, accepted, _, _, event⟩ := ksysWrite_event result
    obtain ⟨rfl, _⟩ := Event.write.inj event
    have search := (attributed_some accepted).1
    rw [findShell] at search
    split at search
    · cases search
    · exact findIndicator_known search
    · exact findIndicator_known search

theorem entered_opened {above : Database} (stored : Stored past before above)
    (known : ∀ shell ∈ before.maps.shells.entries, shell.indicator ∈ openedIn past)
    (taken : step before label = some after) :
    ∀ shell ∈ after.maps.shells.entries, shell.indicator ∈ openedIn ((before, label) :: past) := by
  intro shell member
  rcases shells_step taken member with ⟨old, there, _, same⟩ | ⟨closing, killEvent, indicator, slot, rfl, phase, _, rfl⟩
  · exact openedIn_later (same ▸ known old there)
  · rw [Stored, phase] at stored
    obtain ⟨opening, opened, same, _⟩ := stored
    simp [openedIn, handlings, actions, completed, phase, opened, Handling.opens, same]

theorem step_waiting (taken : step before label = some after) :
    (∀ event ∈ after.events, event ∈ before.events ∨ event ∈ label.sends before) ∧
      ∀ killEvent, .handleKillSIGUSR killEvent ∈ after.inHand →
        .handleKillSIGUSR killEvent ∈ before.inHand ∨ .kill killEvent ∈ before.events := by
  by_cases kernel : label.actor.isSome
  · obtain ⟨daemon, _, events⟩ := kernel_step taken kernel
    refine ⟨fun event member => List.mem_append.mp (events ▸ member), fun killEvent member => Or.inl ?_⟩
    rwa [World.inHand, daemon] at member
  cases label with
  | kill | fork | exit | write => exact absurd rfl kernel
  | take outside =>
      obtain ⟨idle, record, rest, ring, rfl⟩ := step_take taken
      have waiting : before.events = record.event :: rest.map Record.event := by rw [World.events, ring, List.map_cons]
      cases announced : record.event.announced with
      | some pid =>
          obtain ⟨killEvent, call, same⟩ := take_announcement outside before rest announced
          rw [same, waiting]
          refine ⟨fun event member => Or.inl (List.mem_cons_of_mem _ member), fun other member => Or.inr ?_⟩
          obtain rfl := HandlerCall.handleKillSIGUSR.inj (List.mem_singleton.mp member)
          exact List.mem_cons.mpr (Or.inl (handler_announces.mp call).1.symm)
      | none =>
          obtain ⟨_, left, phase, _⟩ := takeRecord_handled outside before rest idle announced
          rw [World.events, left, waiting]
          refine ⟨fun event member => Or.inl (List.mem_cons_of_mem _ member), fun other member => ?_⟩
          rcases phase with done | dead <;> simp_all [World.inHand]
  | create opening =>
      obtain ⟨killEvent, phase, rfl⟩ := step_create taken
      refine ⟨fun event => Or.inl, fun other member => Or.inl ?_⟩
      rwa [World.inHand, phase]
  | scan =>
      obtain ⟨killEvent, indicator, phase, rfl⟩ := step_scan taken
      refine ⟨fun event => Or.inl, fun other member => Or.inl ?_⟩
      rwa [World.inHand, phase]
  | register closing =>
      obtain ⟨killEvent, indicator, slot, phase, rfl⟩ := step_register taken
      rcases finish_cases closing killEvent indicator slot before with
        ⟨same, _⟩ | ⟨same, _⟩ | ⟨db, line, _, _, same⟩
      all_goals
        rw [same]
        exact ⟨fun event => Or.inl, fun other member => absurd member List.not_mem_nil⟩

theorem known_step {above : Database} (stored : Stored past before above) (known : Known past before)
    (taken : step before label = some after) : Known ((before, label) :: past) after := by
  obtain ⟨waits, comes⟩ := step_waiting taken
  refine ⟨entered_opened stored known.entries taken, ?_, ?_⟩
  · intro event member indicator named nonzero
    rcases waits event member with old | sent
    · exact openedIn_later (known.waiting event old indicator named nonzero)
    · rcases sends_known taken sent indicator named with zero | ⟨shell, there, rfl⟩
      · exact absurd zero nonzero
      · exact openedIn_later (known.entries shell there)
  · intro killEvent member nonzero
    rcases comes killEvent member with old | waited
    · exact openedIn_later (known.inHand killEvent old nonzero)
    · exact openedIn_later (known.waiting _ waited _ (List.mem_singleton.mpr rfl) nonzero)

end Known

/-! The records of writes begin with a marker. -/
section Marked

theorem filled_marker (call : WriteCall) (buffer : WriteBuffer) : filled call buffer 0 = specificity call.fd := by
  cases given : call.buf with
  | none => simp [filled, fillBuffer, given]
  | some readable => simp [filled, fillBuffer, given, probeReadUser]

theorem erase_marker (call : WriteCall) (buffer : WriteBuffer) (stop : Nat) :
    alternateScreen.erase (filled call buffer) 1 stop 0 = specificity call.fd := by
  rw [Switch.erase, if_neg, filled_marker]
  rintro ⟨i, _, positive, _, before, _⟩
  omega

/-- The record of a write is its indicator, the marker of its stream and the payload. -/
theorem ksysWrite_marker {call : WriteCall} {room : Bool} {maps : Maps} {buffer : WriteBuffer} {event : Event}
    (sent : (ksysWrite call room maps buffer).event = some event) :
    ∃ indicator payload, event = .write indicator (specificity call.fd :: payload) ∧
      payload.length + 1 = outputSize (cappedCount call.count) := by
  have marked {output : Nat → Byte} (marker : output 0 = specificity call.fd) {indicator : Long}
      (emitted : emit room (cappedCount call.count) ⟨indicator, output⟩ = some event) :
      ∃ indicator payload, event = .write indicator (specificity call.fd :: payload) ∧
        payload.length + 1 = outputSize (cappedCount call.count) := by
    rw [emit] at emitted
    split at emitted
    · obtain rfl := Option.some.inj emitted
      obtain ⟨size, same⟩ : ∃ size, outputSize (cappedCount call.count) = size + 1 := ⟨_, rfl⟩
      refine ⟨indicator, (List.range size).map fun p => output (p + 1), ?_, by simp [same]⟩
      rw [same, List.range_succ_eq_map, List.map_cons, List.map_map, ← marker]
      rfl
    · cases emitted
  cases accepted : attributed call maps with
  | none =>
      rw [ksysWrite_ignored accepted] at sent
      cases sent
  | some found =>
      obtain ⟨positive, recorded⟩ := ksysWrite_recorded accepted room buffer
      rw [recorded] at sent
      cases entry : maps.shells.lookup found.shellIndex with
      | none =>
          rw [(record_unlisted room buffer entry positive).2] at sent
          exact marked (filled_marker call buffer) (Option.ite_none_left_eq_some.mp sent).2
      | some shell =>
          by_cases enters : EntersBelow (filled call buffer) (windowEnd call)
          · rw [(record_enter room entry positive enters).2] at sent
            cases sent
          · rw [(record_pass room entry positive enters).2] at sent
            exact marked (erase_marker call buffer _) (Option.ite_none_left_eq_some.mp sent).2

theorem writtenEvent_marked (fd : CInt) (payload : Text) :
    (writtenEvent (specificity fd :: payload)).bytes = specificity fd :: payload := by
  by_cases stderr : fd = 2#32 <;> simp [writtenEvent, OutputEvent.bytes, specificity, stderr]

theorem emitted_marked {event : Event} (emitted : Emitted event) {call : HandlerCall}
    (handler : event.handler = some call) (opening : Opening) (closing : Closing) (outside : Outside) (shells : Shells) :
    (⟨call, opening, closing, outside, shells⟩ : Handling).Marked := by
  cases emitted with
  | kill killEvent =>
      rw [Event.handler] at handler
      split at handler
      · obtain rfl := Option.some.inj handler
        trivial
      · split at handler
        · obtain rfl := Option.some.inj handler
          trivial
        · cases handler
  | childCreation shellPid =>
      obtain rfl := Option.some.inj handler
      trivial
  | exitShellIndicator indicator =>
      obtain rfl := Option.some.inj handler
      trivial
  | write write room maps buffer sent =>
      obtain ⟨indicator, payload, rfl, _⟩ := ksysWrite_marker sent
      obtain rfl := Option.some.inj handler
      have marked := writtenEvent_marked write.fd payload
      rw [← List.take_length (l := specificity write.fd :: payload)] at marked
      exact marked

theorem handlings_marked (past : List (World × Label)) : ∀ handling ∈ handlings past, handling.Marked := by
  induction past with
  | nil => exact fun _ member => absurd member List.not_mem_nil
  | cons taken past ih =>
      obtain ⟨before, label⟩ := taken
      intro handling member
      rw [handlings, actions, List.mem_append, Option.mem_toList] at member
      refine member.elim (fun done => ?_) (ih handling)
      rcases completed_cases done with ⟨_, record, _, _, _, handler, _, rfl⟩ | ⟨_, _, _, _, _, _, _, _, rfl⟩
      · exact emitted_marked record.emitted handler _ _ _ _
      · trivial

end Marked

/-! What is sent is stored. -/
section Stored

def OutputEvent.isWrite : OutputEvent → Bool
  | .write _ _ => true
  | .link _ => false

def Event.writeTo (indicator : Long) : Event → Option OutputEvent
  | .write written output => if indicator = written then some (writtenEvent output) else none
  | _ => none

def HandlerCall.writeTo (indicator : Long) : HandlerCall → Option OutputEvent
  | .handleWrite written output outputLen =>
      if indicator = written then some (writtenEvent (output.take outputLen)) else none
  | _ => none

theorem handler_writeTo (indicator : Long) (event : Event) :
    event.handler.bind (HandlerCall.writeTo indicator) = event.writeTo indicator := by
  cases event with
  | kill killEvent =>
      rw [Event.handler]
      split
      · rfl
      · split <;> rfl
  | childCreation | exitShellIndicator => rfl
  | write written output => simp [Event.handler, HandlerCall.writeTo, Event.writeTo]

theorem closing_silent (closing : Closing) : closing.tells.filterMap SessionEvent.outputEvent = [] := by
  rw [Closing.tells]
  split
  · rfl
  · split <;> rfl

theorem ending_silent (ending : CommandEnd) : ending.tells.filterMap SessionEvent.outputEvent = [] := by
  rw [CommandEnd.tells]
  split <;> rfl

theorem tells_output (indicator : Long) (handling : Handling) :
    (handling.tells indicator).filterMap SessionEvent.outputEvent =
      match handling.call with
      | .handleKillSIGUSR killEvent =>
          if killEvent.parentShellIndicator ≠ 0#64 ∧ indicator = killEvent.parentShellIndicator then
            [.link (recordedIndicator handling.opening)]
          else []
      | call => (call.writeTo indicator).toList := by
  rw [Handling.tells]
  cases handling.call with
  | handleKillSIGUSR killEvent =>
      simp only [List.filterMap_append]
      have created : (if indicator = getIndicator handling.opening.now then
          SessionEvent.opened :: handling.closing.tells else []).filterMap SessionEvent.outputEvent = [] := by
        split
        · exact closing_silent handling.closing
        · rfl
      rw [created, List.append_nil]
      split <;> rfl
  | handleKillSIGRTMIN killEvent dataSz =>
      simp only
      split
      · exact ending_silent handling.outside.ending
      · rfl
  | handleChildCreation shellPid =>
      simp only
      split <;> rfl
  | handleShellExit => rfl
  | handleWrite written output outputLen =>
      simp only [HandlerCall.writeTo]
      split <;> rfl

theorem tells_opened (indicator : Long) (handling : Handling) :
    .opened ∈ handling.tells indicator ↔ handling.opens = some indicator := by
  have closing : .opened ∉ handling.closing.tells := by
    rw [Closing.tells]
    split
    · simp
    · split <;> simp
  have ending : .opened ∉ handling.outside.ending.tells := by
    rw [CommandEnd.tells]
    split <;> simp
  rw [Handling.tells, Handling.opens]
  cases handling.call with
  | handleKillSIGUSR killEvent =>
      by_cases here : indicator = getIndicator handling.opening.now
      · simp [here]
      · simp only [if_neg here, List.append_nil, Option.some.injEq, Ne.symm here, iff_false]
        split <;> simp
  | handleKillSIGRTMIN | handleChildCreation | handleWrite =>
      simp only [reduceCtorEq, iff_false]
      split <;> simp [ending]
  | handleShellExit => simp

variable {past : List (World × Label)} {before after world : World} {label : Label}

theorem told_opened (known : Known past before) {handling : Handling}
    (done : completed past before label = some handling) {indicator : Long} (nonzero : indicator ≠ 0#64)
    (told : (handling.tells indicator).filterMap SessionEvent.outputEvent ≠ []) : indicator ∈ openedIn past := by
  rw [tells_output] at told
  rcases completed_cases done with
    ⟨_, record, call, _, ring, handler, silent, rfl⟩ | ⟨_, killEvent, _, _, _, _, phase, _, rfl⟩
  · have waits : record.event ∈ before.events := List.mem_map_of_mem ring
    cases call with
    | handleKillSIGUSR killEvent => exact absurd rfl (silent killEvent)
    | handleWrite written output outputLen =>
        have named : record.event.writeTo indicator ≠ none := by
          rw [← handler_writeTo, handler]
          simpa [HandlerCall.writeTo] using told
        cases event : record.event with
        | write other bytes =>
            rw [event, Event.writeTo] at named
            have same : indicator = other := by
              by_contra apart
              exact named (if_neg apart)
            rw [event] at waits
            exact known.waiting _ waits indicator (List.mem_singleton.mpr same) nonzero
        | kill | childCreation | exitShellIndicator => simp [event, Event.writeTo] at named
    | handleKillSIGRTMIN | handleChildCreation | handleShellExit => exact absurd rfl told
  · have parent : killEvent.parentShellIndicator ≠ 0#64 ∧ indicator = killEvent.parentShellIndicator := by
      by_contra apart
      exact told (if_neg apart)
    have hand : .handleKillSIGUSR killEvent ∈ before.inHand := by simp [World.inHand, phase]
    exact parent.2 ▸ known.inHand killEvent hand parent.1

/-- The session of an indicator, as the run has told it. -/
def recorded (past : List (World × Label)) (indicator : Long) : Session :=
  toldSession indicator (handlings past).reverse

theorem recorded_next (past : List (World × Label)) (before : World) (label : Label) (indicator : Long) :
    recorded ((before, label) :: past) indicator =
      ((completed past before label).toList.flatMap (Handling.tells indicator)).foldl Session.after
        (recorded past indicator) := by
  rw [recorded, handlings_step, toldSession, List.flatMap_append, List.foldl_append]
  rfl

theorem recorded_nonempty (past : List (World × Label)) (indicator : Long) :
    recorded past indicator ≠ [] ↔ indicator ∈ openedIn past := by
  rw [recorded, toldSession, foldl_nonempty, or_iff_right (not_not.mpr rfl), List.mem_flatMap, openedIn,
    List.mem_filterMap]
  simp only [List.mem_reverse, tells_opened]

/-- Nothing a session is told before it is opened is an output. -/
def Delivered (past : List (World × Label)) : Prop :=
  ∀ indicator, indicator ≠ 0#64 → (recorded past indicator).outputs =
    ((handlings past).reverse.flatMap (Handling.tells indicator)).filterMap SessionEvent.outputEvent

theorem delivered_step (known : Known past before) (delivered : Delivered past) :
    Delivered ((before, label) :: past) := by
  intro indicator nonzero
  rw [recorded_next, handlings_step, List.flatMap_append, List.filterMap_append, ← delivered indicator nonzero]
  cases done : completed past before label with
  | none => simp
  | some handling =>
      simp only [Option.toList_some, List.flatMap_singleton]
      apply foldl_outputs
      intro told
      exact (recorded_nonempty past indicator).mpr (told_opened known done nonzero told)

structure Sound (past : List (World × Label)) (world : World) : Prop where
  stored : ∃ db, Stored past world db
  known : Known past world
  delivered : Delivered past

theorem sound_start : Sound [] World.start where
  stored := ⟨Database.empty, rfl⟩
  known := ⟨by simp, fun _ member => absurd member List.not_mem_nil, fun _ member => absurd member List.not_mem_nil⟩
  delivered := fun _ _ => rfl

theorem sound_step (sound : Sound past before) (survives : Survives past before label)
    (taken : step before label = some after) : Sound ((before, label) :: past) after := by
  obtain ⟨db, stored⟩ := sound.stored
  refine ⟨?_, known_step stored sound.known taken, delivered_step sound.known sound.delivered⟩
  have next := stored_step stored survives taken
  cases done : completed past before label with
  | none =>
      rw [done] at next
      exact ⟨db, next⟩
  | some handling =>
      rw [done] at next
      obtain ⟨db, _, kept⟩ := next
      exact ⟨db, kept⟩

theorem sound_run (run : Run step World.start past world) (alive : world.daemon ≠ .crashed) : Sound past world :=
  run.invariant sound_start (fun _ _ _ _ _ => sound_step) (survives_run run alive)

theorem told_writes (indicator : Long) (list : List Handling) :
    ((list.flatMap (Handling.tells indicator)).filterMap SessionEvent.outputEvent).filter OutputEvent.isWrite =
      (list.map Handling.call).filterMap (HandlerCall.writeTo indicator) := by
  induction list with
  | nil => rfl
  | cons handling rest ih =>
      rw [List.flatMap_cons, List.filterMap_append, List.filter_append, ih, tells_output, List.map_cons]
      cases call : handling.call with
      | handleKillSIGUSR killEvent =>
          rw [List.filterMap_cons_none rfl]
          simp only
          split <;> rfl
      | handleKillSIGRTMIN | handleChildCreation | handleShellExit => rfl
      | handleWrite written output outputLen =>
          by_cases here : indicator = written
          · simp [HandlerCall.writeTo, here, writtenEvent]
            rfl
          · simp [HandlerCall.writeTo, here]

theorem idle_table (run : Run step World.start past world) (idle : world.daemon = .idle) (indicator : Long) :
    world.db.rows indicator = (recorded past indicator).table := by
  obtain ⟨dbPast, db, dbRun, same, stored, _⟩ := stored_run run (by simp [idle])
  rw [Stored, idle] at stored
  obtain rfl : world.db = db := stored
  have rows := run_session dbRun (same ▸ handlings_marked past) indicator
  rwa [same] at rows

theorem idle_writes (run : Run step World.start past world) (idle : world.daemon = .idle) {indicator : Long}
    (nonzero : indicator ≠ 0#64) :
    (sent past).filterMap (Event.writeTo indicator) =
      (recorded past indicator).outputs.filter OutputEvent.isWrite ++
        world.events.filterMap (Event.writeTo indicator) := by
  have alive : world.daemon ≠ .crashed := by simp [idle]
  have order := congrArg (List.filterMap (HandlerCall.writeTo indicator)) (inOrder_run run alive)
  rw [World.inHand, idle, List.append_nil, List.filterMap_append, List.filterMap_filterMap,
    List.filterMap_filterMap] at order
  rw [(sound_run run alive).delivered indicator nonzero, told_writes]
  simpa only [handler_writeTo] using order

/-- No output is lost, doubled, torn or out of order: what kernel programs sent for
a session is, in the order it was sent, what the table of the session has of
writes, and behind that what still waits in the ring buffer. -/
theorem output_stored_in_order (run : Run step World.start past world) (idle : world.daemon = .idle)
    {indicator : Long} (nonzero : indicator ≠ 0#64) :
    world.db.rows indicator = (recorded past indicator).table ∧
      (sent past).filterMap (Event.writeTo indicator) =
        (recorded past indicator).outputs.filter OutputEvent.isWrite ++
          world.events.filterMap (Event.writeTo indicator) :=
  ⟨idle_table run idle indicator, idle_writes run idle nonzero⟩

theorem output_stored_twice :
    ∃ past world, Run step World.start past world ∧ (sent past).length = 6 ∧ world.events.length = 1 ∧
      world.db.rows 16000000000#64 = (recorded past 16000000000#64).table ∧
      (sent past).filterMap (Event.writeTo 16000000000#64) =
        (recorded past 16000000000#64).outputs.filter OutputEvent.isWrite ++
          world.events.filterMap (Event.writeTo 16000000000#64) := by
  obtain ⟨past, world, run, idle, six, waiting⟩ := replay_some step World.start
    (registration 1#32 ++ [.fork 1#32 2#32 true, .write (ttyWrite 2#32 [97#8]) true ⟨0#64, fun _ => 0#8⟩,
      .take sampleOutside, .write (ttyWrite 2#32 [98#8]) true ⟨0#64, fun _ => 0#8⟩,
      .write (ttyWrite 2#32 [99#8]) true ⟨0#64, fun _ => 0#8⟩, .take sampleOutside, .take sampleOutside,
      .fork 1#32 3#32 true, .take sampleOutside])
    (fun past world => world.daemon = .idle ∧ (sent past).length = 6 ∧ world.events.length = 1) (by decide +kernel)
  have named : (16000000000#64 : Long) ≠ 0#64 := by decide
  exact ⟨past, world, run, six, waiting, output_stored_in_order run idle named⟩

end Stored

end Nhi
