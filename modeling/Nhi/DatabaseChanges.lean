import Nhi.SessionOrigins

/-!
The daemon does not read the database it writes: what a step commits is a list of
statements that is known before they are run. A change of the database that these
go through, whether it is made before them or after, goes through a whole step:
the kernel programs and the daemon do not see it.
-/

namespace Nhi

open SlotTable RunHistory

def HandlerCall.touches (shells : Shells) : HandlerCall → List Long
  | .handleKillSIGUSR killEvent => [killEvent.parentShellIndicator]
  | .handleKillSIGRTMIN killEvent _ => [indicatorOf shells killEvent.shellPid]
  | .handleChildCreation shellPid => [indicatorOf shells shellPid]
  | .handleShellExit indicator | .handleWrite indicator _ _ => [indicator]

/-- Every session that is named outside the database is an allowed one. -/
structure Confined (allowed : Long → Prop) (world : World) : Prop where
  slots : ∀ shell ∈ world.maps.shells.slots, allowed shell.indicator
  waiting : ∀ event ∈ world.events, ∀ indicator ∈ event.sessions, allowed indicator
  inHand : ∀ killEvent, .handleKillSIGUSR killEvent ∈ world.inHand → allowed killEvent.parentShellIndicator
  session : ∀ pid indicator, world.daemon.session = some (pid, indicator) → allowed indicator

def CreatesOnly (allowed : Long → Prop) : Label → Prop
  | .create opening => allowed (getIndicator opening.now)
  | _ => True

instance {allowed : Long → Prop} [DecidablePred allowed] (label : Label) : Decidable (CreatesOnly allowed label) :=
  match label with
  | .create opening => inferInstanceAs (Decidable (allowed (getIndicator opening.now)))
  | .kill .. | .fork .. | .exit .. | .write .. | .take _ | .scan | .register _ => .isTrue trivial

section Step

variable {allowed : Long → Prop} {before after : World} {label : Label}

theorem indicatorOf_confined (zero : allowed 0#64) (confined : Confined allowed before) (shellPid : Pid) :
    allowed (indicatorOf before.maps.shells shellPid) := by
  rw [indicatorOf]
  cases found : before.maps.shells.slots.find? (fun shell => shell.shellPid = shellPid) with
  | none => exact zero
  | some shell => exact confined.slots shell (List.mem_of_find?_eq_some found)

theorem slots_confined (zero : allowed 0#64) (confined : Confined allowed before)
    (taken : step before label = some after) :
    ∀ shell ∈ after.maps.shells.slots, allowed shell.indicator := by
  intro shell member
  rcases step_shells taken with ⟨same, _⟩ | ⟨_, _, _, _, swept⟩ | ⟨call, room, buffer, _, same⟩ |
    ⟨slot, entry, enters, same⟩
  · exact confined.slots shell (same ▸ member)
  · rcases sweep_removed_slots swept shell member with rfl | old
    · exact zero
    · exact confined.slots shell old
  · rcases ksysWrite_shells call room before.maps buffer with kept | ⟨index, old, flag, found, written⟩
    · exact confined.slots shell (kept ▸ same ▸ member)
    · rw [same, written] at member
      rcases mem_update member with rfl | other
      · exact confined.slots old (lookup_mem found)
      · exact confined.slots shell other
  · rw [same] at member
    rcases mem_update member with rfl | other
    · obtain ⟨_, killEvent, indicator, _, phase, _, same⟩ := entering_scanned enters
      exact same ▸ confined.session killEvent.shellPid indicator (by rw [phase]; rfl)
    · exact confined.slots shell other

theorem confined_step (zero : allowed 0#64) (confined : Confined allowed before)
    (creates : CreatesOnly allowed label)
    (taken : step before label = some after) : Confined allowed after := by
  obtain ⟨waits, comes⟩ := step_waiting taken
  refine ⟨slots_confined zero confined taken, ?_, ?_, ?_⟩
  · intro event member indicator named
    rcases waits event member with old | sent
    · exact confined.waiting event old indicator named
    · rcases sends_known taken sent indicator named with rfl | ⟨shell, there, rfl⟩
      · exact zero
      · exact confined.slots shell (mem_entries.mp there).1
  · intro killEvent member
    rcases comes killEvent member with old | waited
    · exact confined.inHand killEvent old
    · exact confined.waiting _ waited _ (List.mem_singleton.mpr rfl)
  · intro pid indicator session
    have created : before.daemon.session = some (pid, indicator) ∨
        (pid, indicator) ∈ sessions [(before, label)] :=
      session_step taken session
    rcases created with old | now
    · exact confined.session pid indicator old
    · unfold sessions at now
      split at now
      · obtain ⟨_, rfl⟩ := Prod.mk.inj (List.mem_singleton.mp now)
        exact creates
      · cases now

theorem touches_confined (zero : allowed 0#64) (confined : Confined allowed before) {event : Event}
    (waits : event ∈ before.events) {call : HandlerCall} (handler : event.handler = some call) :
    ∀ indicator ∈ call.touches before.maps.shells, allowed indicator := by
  intro indicator touched
  cases event with
  | kill killEvent =>
      rw [Event.handler] at handler
      split at handler
      · obtain rfl := Option.some.inj handler
        exact confined.waiting _ waits indicator touched
      · split at handler
        · obtain rfl := Option.some.inj handler
          exact List.mem_singleton.mp touched ▸ indicatorOf_confined zero confined killEvent.shellPid
        · cases handler
  | childCreation shellPid =>
      obtain rfl := Option.some.inj handler
      exact List.mem_singleton.mp touched ▸ indicatorOf_confined zero confined shellPid
  | exitShellIndicator ended =>
      obtain rfl := Option.some.inj handler
      exact confined.waiting _ waits indicator touched
  | write written output =>
      obtain rfl := Option.some.inj handler
      exact confined.waiting _ waits indicator touched

end Step

/-! What a step commits. -/

def promptStatements (indicator : Long) (PS1 pwd : Option Text) : List Statement :=
  match PS1 with
  | none => []
  | some PS1 =>
      .updateLast indicator (Row.setPS1 PS1) :: (pwd.map fun pwd => .updateLast indicator (Row.setPwd pwd)).toList

def completionStatements (ending : CommandEnd) (indicator : Long) : List Statement :=
  match ending.command, ending.exitStatus with
  | none, _ => []
  | some command, none => [.updateLast indicator (Row.setCommand command)]
  | some command, some exitStatus =>
      [.updateLast indicator (Row.setCommand command), .updateLast indicator (Row.setExitStatus exitStatus),
        .updateLast indicator (Row.setFinishTime ending.time),
        .updateLast indicator (Row.setIndicator (getIndicator ending.now)), .createRow indicator] ++
      promptStatements indicator ending.PS1 ending.pwd

def HandlerCall.commits (outside : Outside) (shells : Shells) : HandlerCall → List Statement
  | .handleKillSIGUSR _ => []
  | .handleKillSIGRTMIN killEvent _ => completionStatements outside.ending (indicatorOf shells killEvent.shellPid)
  | .handleChildCreation shellPid => [.updateLast (indicatorOf shells shellPid) (Row.setStartTime outside.time)]
  | .handleShellExit indicator => [.metaAddFinishTime indicator outside.time]
  | .handleWrite indicator output outputLen => [.updateLast indicator (Row.appendOutput (output.take outputLen))]

/-- The statements of a step, up to a variable that is not set. -/
def World.commits (world : World) : Label → List Statement
  | .take outside =>
      match world.daemon, world.ring with
      | .idle, record :: _ => record.event.handler.elim [] (HandlerCall.commits outside world.maps.shells)
      | _, _ => []
  | .create opening =>
      match world.daemon with
      | .taken killEvent => creationStatements opening killEvent
      | _ => []
  | .register closing =>
      match world.daemon with
      | .scanned _ indicator _ =>
          if closing.environAddress = 0#64 ∨ closing.psOutput.bind (fgets 8) = none then []
          else promptStatements indicator closing.PS1 closing.pwd
      | _ => []
  | .kill .. | .fork .. | .exit .. | .write .. | .scan => []

def World.storing (world : World) (db : Database) : World := { world with db := db }

theorem handle_storing (outside : Outside) (shells : Shells) (db other : Database) (call : HandlerCall) :
    handle outside shells other call =
      ((handle outside shells db call).1, (call.commits outside shells).foldl Database.exec other) := by
  cases call with
  | handleKillSIGRTMIN killEvent dataSz =>
      simp only [handle, handleKillSIGRTMIN, leftByKillSIGRTMIN, HandlerCall.commits, completionStatements]
      cases outside.ending.command with
      | none => rfl
      | some command =>
          cases outside.ending.exitStatus with
          | none => rfl
          | some status => cases outside.ending.PS1 <;> cases outside.ending.pwd <;> rfl
  | handleKillSIGUSR | handleChildCreation | handleShellExit | handleWrite => rfl

theorem finish_storing (closing : Closing) (killEvent : KillEvent) (indicator : Long) (slot : Nat) (world : World)
    (db : Database) :
    finish closing killEvent indicator slot (world.storing db) =
      (finish closing killEvent indicator slot world).storing
        ((if closing.environAddress = 0#64 ∨ closing.psOutput.bind (fgets 8) = none then []
          else promptStatements indicator closing.PS1 closing.pwd).foldl Database.exec db) := by
  simp only [finish, finishSession, World.storing]
  by_cases lost : closing.environAddress = 0#64
  · simp [lost]
  · cases line : closing.psOutput.bind (fgets 8) with
    | none => simp [lost]
    | some line =>
        simp only [lost, reduceCtorEq, or_self, if_false, promptStatements]
        cases closing.PS1 with
        | none => rfl
        | some PS1 => cases closing.pwd <;> rfl

/-- A step over another database commits the same statements there, and does
nothing else. -/
theorem step_storing (world : World) (label : Label) (db : Database) :
    step (world.storing db) label =
      (step world label).map fun after => after.storing ((world.commits label).foldl Database.exec db) := by
  cases label with
  | kill currentPid sig pid reserved =>
      simp only [step]
      split <;> rfl
  | fork currentPid childPid reserved =>
      simp only [step]
      split <;> rfl
  | exit currentPid reserved =>
      simp only [step]
      split <;> rfl
  | write call room buffer => rfl
  | take outside =>
      cases phase : world.daemon with
      | idle =>
          cases ring : world.ring with
          | nil => simp [step, World.storing, phase, ring]
          | cons record rest =>
              simp only [step, World.storing, World.commits, phase, ring, takeRecord, record.emitted.dispatched,
                Option.map_some]
              cases record.event.handler with
              | none => rfl
              | some call => simp only [handle_storing outside world.maps.shells world.db db call, Option.elim_some]
      | taken | created | scanned | crashed => simp [step, World.storing, phase]
  | create opening =>
      cases phase : world.daemon with
      | taken killEvent =>
          simp only [step, World.storing, World.commits, phase, createSession_exec, Option.map_some]
      | idle | created | scanned | crashed => simp [step, World.storing, phase]
  | scan => cases phase : world.daemon <;> simp [step, World.storing, World.commits, phase]
  | register closing =>
      cases phase : world.daemon with
      | scanned killEvent indicator slot =>
          have finished := finish_storing closing killEvent indicator slot world db
          simp only [World.storing, phase] at finished
          simp only [step, World.storing, World.commits, phase, Option.map_some, finished]
      | idle | taken | created | crashed => simp [step, World.storing, phase]

theorem step_commits {before after : World} {label : Label} (taken : step before label = some after) :
    after.db = (before.commits label).foldl Database.exec before.db := by
  have same := step_storing before label before.db
  rw [taken] at same
  exact congrArg World.db (Option.some.inj (taken.symm.trans same))

section Within

variable {before : World} {label : Label}

/-- A statement about an allowed session, or one that enters a fresh one. -/
def Statement.Within (allowed fresh : Long → Prop) : Statement → Prop
  | .createTable indicator => fresh indicator
  | .metaCreateRow row => fresh row.indicator
  | .createRow indicator | .updateLast indicator _ | .metaAddFinishTime indicator _ => allowed indicator

variable {allowed fresh : Long → Prop}

theorem prompt_within {indicator : Long} (own : allowed indicator) (PS1 pwd : Option Text) :
    ∀ statement ∈ promptStatements indicator PS1 pwd, statement.Within allowed fresh := by
  intro statement member
  cases PS1 with
  | none => cases member
  | some PS1 =>
      rcases List.mem_cons.mp member with rfl | second
      · exact own
      · obtain ⟨pwd, _, rfl⟩ := Option.map_eq_some_iff.mp (Option.mem_toList.mp second)
        exact own

theorem completion_within {indicator : Long} (own : allowed indicator) (ending : CommandEnd) :
    ∀ statement ∈ completionStatements ending indicator, statement.Within allowed fresh := by
  intro statement member
  cases command : ending.command with
  | none => simp [completionStatements, command] at member
  | some text =>
      cases status : ending.exitStatus with
      | none =>
          rw [completionStatements, command, status] at member
          rw [List.mem_singleton.mp member]
          exact own
      | some line =>
          rw [completionStatements, command, status] at member
          rcases List.mem_append.mp member with first | prompt
          · simp only [List.mem_cons, List.not_mem_nil, or_false] at first
            rcases first with rfl | rfl | rfl | rfl | rfl <;> exact own
          · exact prompt_within own _ _ statement prompt

theorem handler_within {shells : Shells} {call : HandlerCall} (outside : Outside)
    (named : ∀ indicator ∈ call.touches shells, allowed indicator) :
    ∀ statement ∈ call.commits outside shells, statement.Within allowed fresh := by
  intro statement member
  cases call with
  | handleKillSIGUSR killEvent => cases member
  | handleKillSIGRTMIN killEvent dataSz =>
      exact completion_within (named _ List.mem_cons_self) outside.ending statement member
  | handleChildCreation | handleShellExit | handleWrite =>
      rw [List.mem_singleton.mp member]
      exact named _ List.mem_cons_self

theorem creation_within {opening : Opening} {killEvent : KillEvent}
    (known : ∀ indicator, fresh indicator → allowed indicator)
    (own : fresh (getIndicator opening.now)) (parent : allowed killEvent.parentShellIndicator) :
    ∀ statement ∈ creationStatements opening killEvent, statement.Within allowed fresh := by
  intro statement member
  rcases List.mem_append.mp member with link | created
  · split at link
    · rw [List.mem_singleton.mp link]
      exact parent
    · cases link
  · simp only [List.mem_cons, List.not_mem_nil, or_false] at created
    rcases created with rfl | rfl | rfl
    · exact own
    · exact known _ own
    · exact own

theorem commits_within (zero : allowed 0#64) (known : ∀ indicator, fresh indicator → allowed indicator)
    (confined : Confined allowed before) (creates : CreatesOnly fresh label) :
    ∀ statement ∈ before.commits label, statement.Within allowed fresh := by
  intro statement member
  cases label with
  | kill | fork | exit | write | scan => cases member
  | take outside =>
      rw [World.commits] at member
      split at member
      · rename_i record rest idle ring
        cases handler : record.event.handler with
        | none => simp [handler] at member
        | some call =>
            rw [handler] at member
            have waits : record.event ∈ before.events := by simp [World.events, ring]
            exact handler_within outside (touches_confined zero confined waits handler) statement member
      · cases member
  | create opening =>
      rw [World.commits] at member
      split at member
      · rename_i killEvent phase
        have parent := confined.inHand killEvent (by simp [World.inHand, phase])
        exact creation_within known creates parent statement member
      · cases member
  | register closing =>
      rw [World.commits] at member
      split at member
      · rename_i killEvent indicator slot phase
        split at member
        · cases member
        · have own := confined.session killEvent.shellPid indicator (by rw [phase]; rfl)
          exact prompt_within own _ _ statement member
      · cases member

theorem Statement.Within.mono {statement : Statement} {other : Long → Prop}
    (within : statement.Within allowed fresh) (known : ∀ indicator, fresh indicator → other indicator) :
    statement.Within allowed other := by
  cases statement with
  | createTable | metaCreateRow => exact known _ within
  | createRow | updateLast | metaAddFinishTime => exact within

end Within

/-- A change of the database that can be made before a statement as well as after
it, when the statement is about an allowed session, or creates a fresh one. -/
structure Carries (change : Database → Database) (allowed fresh : Long → Prop) : Prop where
  known : ∀ indicator, fresh indicator → allowed indicator
  mapTable : ∀ (db : Database) {indicator : Long}, allowed indicator → ∀ rows : List Row → List Row,
    (change db).mapTable indicator rows = change (db.mapTable indicator rows)
  createTable : ∀ (db : Database) {indicator : Long}, fresh indicator →
    (change db).createTable indicator = change (db.createTable indicator)
  metaCreateRow : ∀ (db : Database) {row : MetaRow}, fresh row.indicator →
    { change db with metaTable := (change db).metaTable ++ [row] } =
      change { db with metaTable := db.metaTable ++ [row] }
  metaAddFinishTime : ∀ (db : Database) {indicator : Long}, allowed indicator → ∀ time : Long,
    (change db).metaAddFinishTime indicator time = change (db.metaAddFinishTime indicator time)

theorem carries_id (allowed fresh : Long → Prop)
    (known : ∀ indicator, fresh indicator → allowed indicator) :
    Carries id allowed fresh :=
  ⟨known, fun _ _ _ _ => rfl, fun _ _ _ => rfl, fun _ _ _ => rfl, fun _ _ _ _ => rfl⟩

theorem carries_comp {first second : Database → Database} {allowed fresh other : Long → Prop}
    (outer : Carries second allowed fresh) (inner : Carries first allowed other) :
    Carries (second ∘ first) allowed fun indicator => fresh indicator ∧ other indicator where
  known := fun indicator both => outer.known indicator both.1
  mapTable := fun db _ named rows =>
    (outer.mapTable (first db) named rows).trans (congrArg second (inner.mapTable db named rows))
  createTable := fun db _ both =>
    (outer.createTable (first db) both.1).trans (congrArg second (inner.createTable db both.2))
  metaCreateRow := fun db _ both =>
    (outer.metaCreateRow (first db) both.1).trans (congrArg second (inner.metaCreateRow db both.2))
  metaAddFinishTime := fun db _ named time =>
    (outer.metaAddFinishTime (first db) named time).trans
      (congrArg second (inner.metaAddFinishTime db named time))

def World.changed (change : Database → Database) (world : World) : World := { world with db := change world.db }

section Changes

variable {change : Database → Database} {allowed fresh : Long → Prop} (carries : Carries change allowed fresh)

include carries

theorem Carries.exec {statement : Statement} (db : Database) (within : statement.Within allowed fresh) :
    (change db).exec statement = change (db.exec statement) := by
  cases statement with
  | createTable indicator => exact carries.createTable db within
  | createRow | updateLast =>
      simp only [Database.exec, Database.createRow, Database.updateLast]
      exact carries.mapTable db within _
  | metaCreateRow row => exact carries.metaCreateRow db within
  | metaAddFinishTime indicator time => exact carries.metaAddFinishTime db within time

theorem Carries.foldl {list : List Statement} {db : Database}
    (within : ∀ statement ∈ list, statement.Within allowed fresh) :
    list.foldl Database.exec (change db) = change (list.foldl Database.exec db) := by
  induction list generalizing db with
  | nil => rfl
  | cons statement rest ih =>
      obtain ⟨first, others⟩ := List.forall_mem_cons.mp within
      rw [List.foldl_cons, carries.exec db first, ih others, List.foldl_cons]

/-- A step takes the change along. -/
theorem carries_step {before : World} {label : Label} (zero : allowed 0#64) (confined : Confined allowed before)
    (creates : CreatesOnly fresh label) :
    step (before.changed change) label = (step before label).map (World.changed change) := by
  have within := commits_within zero carries.known confined creates
  have elsewhere : step (before.changed change) label = (step before label).map fun after =>
      after.storing ((before.commits label).foldl Database.exec (change before.db)) :=
    step_storing before label (change before.db)
  rw [elsewhere]
  cases taken : step before label with
  | none => rfl
  | some after =>
      have committed := step_commits taken
      rw [Option.map_some, Option.map_some, carries.foldl within, ← committed]
      rfl

end Changes

end Nhi
