import Nhi.EventHandling
import Nhi.FetchDepth

/-!
What the daemon stores keeps `Fetch` from going in circles: a link is recorded
before the session it names is created, so it leads to a later one.
-/

namespace Nhi

open RowidTable RunHistory

/-- `DROP TABLE` and `DELETE FROM meta`, the statements of `Remove` for a session. -/
def Database.dropTable (db : Database) (indicator : Long) : Database :=
  { db with tables := db.tables.filter fun table => table.1 ≠ indicator }

def Database.metaDelete (db : Database) (indicator : Long) : Database :=
  { db with metaTable := db.metaTable.filter fun row => row.indicator ≠ indicator }

inductive StoreStep where
  | handle (handling : Handling)
  | dropTable (indicator : Long)
  | metaDelete (indicator : Long)

def storeStep (db : Database) : StoreStep → Option Database
  | .handle handling => handled handling db
  | .dropTable indicator => some (db.dropTable indicator)
  | .metaDelete indicator => some (db.metaDelete indicator)

def StoreStep.opens : StoreStep → Option Long
  | .handle handling => handling.opens
  | .dropTable _ | .metaDelete _ => none

def StoreStep.recorded : StoreStep → Option Text
  | .handle handling =>
      match handling.call with
      | .handleWrite _ output outputLen => some (output.take outputLen)
      | _ => none
  | .dropTable _ | .metaDelete _ => none

def openedBy (past : List (Database × StoreStep)) : List Long := past.filterMap fun taken => taken.2.opens

def Ascending (past : List (Database × StoreStep)) (_before : Database) (step : StoreStep) : Prop :=
  ∀ indicator ∈ step.opens, ∀ earlier ∈ openedBy past, earlier.toInt < indicator.toInt

def ElevenDigits (_past : List (Database × StoreStep)) (_before : Database) (step : StoreStep) : Prop :=
  ∀ indicator ∈ step.opens, indicator.toInt ≤ 99999999999

def NoLinkMarker (_past : List (Database × StoreStep)) (_before : Database) (step : StoreStep) : Prop :=
  ∀ bytes ∈ step.recorded, 253#8 ∉ bytes

instance (past : List (Database × StoreStep)) (before : Database) (step : StoreStep) :
    Decidable (Ascending past before step) :=
  decidable_of_iff (step.opens.all (fun indicator =>
      (openedBy past).all fun earlier => earlier.toInt < indicator.toInt) = true)
    (by simp [Ascending, Option.all_eq_true, List.all_eq_true])

instance (past : List (Database × StoreStep)) (before : Database) (step : StoreStep) :
    Decidable (ElevenDigits past before step) :=
  decidable_of_iff (step.opens.all (fun indicator => indicator.toInt ≤ 99999999999) = true)
    (by simp [ElevenDigits, Option.all_eq_true])

instance (past : List (Database × StoreStep)) (before : Database) (step : StoreStep) :
    Decidable (NoLinkMarker past before step) :=
  inferInstanceAs (Decidable (∀ bytes ∈ step.recorded, 253#8 ∉ bytes))

/-- The tables are of known sessions, and their links lead to later ones. -/
def Within (known : List Long) (db : Database) : Prop :=
  (∀ table ∈ db.tables, table.1 ∈ known) ∧ LinksAscend db

section Statements

def Statement.Keeps (known : List Long) : Statement → Prop
  | .createTable indicator => indicator ∈ known
  | .updateLast indicator change => indicator ∈ known → ∀ row : Row,
      Linked (Later indicator) row.output → Linked (Later indicator) (change row).output
  | .createRow _ | .metaCreateRow _ | .metaAddFinishTime _ _ => True

variable {known : List Long} {db : Database}

theorem within_iff : Within known db ↔ TablesHold (fun indicator rows =>
    indicator ∈ known ∧ ∀ row ∈ rows, Linked (Later indicator) row.output) db :=
  ⟨fun within table member => ⟨within.1 table member, within.2 table member⟩,
    fun kept => ⟨fun table member => (kept table member).1, fun table member => (kept table member).2⟩⟩

theorem Statement.Keeps.maintains {statement : Statement} (keeps : statement.Keeps known) :
    statement.Maintains fun indicator rows =>
      indicator ∈ known ∧ ∀ row ∈ rows, Linked (Later indicator) row.output := by
  cases statement with
  | createTable indicator => exact ⟨keeps, List.forall_mem_nil _⟩
  | createRow indicator =>
      intro rows all
      rw [List.forall_mem_append, List.forall_mem_singleton]
      exact ⟨all.1, all.2, .nil⟩
  | updateLast indicator change =>
      exact fun rows all => ⟨all.1, forall_changeLast all.2 fun last _ => keeps all.1 last⟩
  | metaCreateRow row => trivial
  | metaAddFinishTime indicator time => trivial

theorem Within.foldl {list : List Statement} (within : Within known db)
    (keeps : ∀ statement ∈ list, statement.Keeps known) : Within known (list.foldl Database.exec db) :=
  within_iff.mpr ((within_iff.mp within).foldl fun statement member => (keeps statement member).maintains)

end Statements

section Links

theorem recordedIndicator_unquoted (opening : Opening) :
    96#8 ∉ (recordedIndicator opening).takeWhile (· ≠ 0#8) := by
  intro member
  rw [recordedIndicator, ← List.take_takeWhile, takeWhile_terminated (decimal_noNul _)] at member
  exact decimal_noQuote _ (List.mem_of_mem_take member)

/-- A link names no session that was there before, and it names at most one. -/
theorem recordedIndicator_later {opening : Opening} {parent : Long}
    (later : parent.toInt < (getIndicator opening.now).toInt)
    (high : (getIndicator opening.now).toInt ≤ 99999999999) : Later parent (recordedIndicator opening) := by
  refine ⟨recordedIndicator_unquoted opening, fun other named => ?_⟩
  rcases Nat.lt_or_ge (decimal (getIndicator opening.now)).length 11 with short | long
  · -- fewer than 11 digits leave room for the terminating NUL
    have nul : 0#8 ∈ recordedIndicator opening :=
      List.mem_take_iff_getElem.mpr ⟨(decimal (getIndicator opening.now)).length, by simp; omega, by simp⟩
    exact absurd (named ▸ nul) (decimal_noNul other)
  · have cut : recordedIndicator opening = (decimal (getIndicator opening.now)).take 11 := by
      rw [recordedIndicator, List.take_append_of_le_length long]
    have value := decimalValue_decimal other
    rw [named, cut] at value
    have least := le_decimalValue_take high
    omega

theorem parentLink_linked {opening : Opening} {parent : Long}
    (later : parent.toInt < (getIndicator opening.now).toInt)
    (high : (getIndicator opening.now).toInt ≤ 99999999999) :
    Linked (Later parent) (parentLink opening) := by
  rw [parentLink_bytes, OutputEvent.bytes, ← List.append_nil (recordedIndicator opening)]
  exact .link (recordedIndicator_length opening) (recordedIndicator_later later high) .nil

end Links

section Run

variable {past : List (Database × StoreStep)} {before after : Database}

theorem keeps_output {known : List Long} {indicator : Long} {change : Row → Row}
    (same : ∀ row, (change row).output = row.output) :
    (Statement.updateLast indicator change).Keeps known := by
  intro _ row linked
  rwa [same]

theorem within_opening {handling : Handling} {killEvent : KillEvent}
    (call : handling.call = .handleKillSIGUSR killEvent) (within : Within (openedBy past) before)
    (ascending : Ascending past before (.handle handling))
    (digits : ElevenDigits past before (.handle handling)) {closing : List Statement}
    (keeps : ∀ statement ∈ closing, statement.Keeps (openedBy ((before, .handle handling) :: past))) :
    Within (openedBy ((before, .handle handling) :: past))
      ((creationStatements handling.opening killEvent ++ closing).foldl Database.exec before) := by
  have opens : StoreStep.opens (.handle handling) = some (getIndicator handling.opening.now) := by
    rw [StoreStep.opens, Handling.opens, call]
  have known : openedBy ((before, .handle handling) :: past) =
      getIndicator handling.opening.now :: openedBy past := List.filterMap_cons_some opens
  rw [creationStatements, List.append_assoc, List.foldl_append]
  refine Within.foldl ?_ ?_
  · -- the link is recorded when the new session is not there yet
    have linked : Within (openedBy past) (List.foldl Database.exec before
        (if killEvent.parentShellIndicator ≠ 0#64 then
          [.updateLast killEvent.parentShellIndicator (Row.appendOutput (parentLink handling.opening))]
        else [])) := by
      refine within.foldl fun statement member => ?_
      split at member
      · obtain rfl := List.mem_singleton.mp member
        exact fun inside row old => old.append
          (parentLink_linked (ascending _ opens _ inside) (digits _ opens))
      · cases member
    exact ⟨fun table member => known ▸ List.mem_cons_of_mem _ (linked.1 table member), linked.2⟩
  · intro statement member
    rcases List.mem_append.mp member with creation | closes
    · rcases List.mem_cons.mp creation with rfl | creation
      · exact known ▸ List.mem_cons_self
      · rcases List.mem_cons.mp creation with rfl | creation
        · trivial
        · obtain rfl := List.mem_singleton.mp creation
          trivial
    · exact keeps statement closes

/-- What becomes of the output of a row that an event updates: it stays, it gets
the link to the new session, or it gets the bytes of a write. -/
inductive OutputChange (handling : Handling) (change : Row → Row) : Prop where
  | same : (∀ row, (change row).output = row.output) → OutputChange handling change
  | link : handling.opens.isSome → (∀ row, (change row).output = row.output ++ parentLink handling.opening) →
      OutputChange handling change
  | write (bytes : Text) : bytes ∈ StoreStep.recorded (.handle handling) →
      (∀ row, (change row).output = row.output ++ bytes) → OutputChange handling change

def Statement.Writes (handling : Handling) : Statement → Prop
  | .createTable indicator => handling.opens = some indicator
  | .updateLast _ change => OutputChange handling change
  | .createRow _ | .metaCreateRow _ | .metaAddFinishTime _ _ => True

theorem creation_writes {handling : Handling} {killEvent : KillEvent}
    (call : handling.call = .handleKillSIGUSR killEvent) :
    ∀ statement ∈ creationStatements handling.opening killEvent, statement.Writes handling := by
  have opens : handling.opens = some (getIndicator handling.opening.now) := by rw [Handling.opens, call]
  rw [creationStatements, List.forall_mem_append]
  constructor
  · split
    · rw [List.forall_mem_singleton]
      exact .link (by rw [opens, Option.isSome_some]) fun _ => rfl
    · exact List.forall_mem_nil _
  · simp only [List.forall_mem_cons]
    exact ⟨opens, trivial, trivial, List.forall_mem_nil _⟩

theorem statements_write {handling : Handling} {list : List Statement}
    (result : statements handling = some list) : ∀ statement ∈ list, statement.Writes handling := by
  have same {indicator : Long} {change : Row → Row} (same : ∀ row, (change row).output = row.output) :
      (Statement.updateLast indicator change).Writes handling := OutputChange.same same
  cases call : handling.call with
  | handleKillSIGUSR killEvent =>
      rcases statements_creation call result with rfl | ⟨PS1, pwd, rfl⟩
      · exact creation_writes call
      · rw [List.forall_mem_append]
        simp only [List.forall_mem_cons]
        exact ⟨creation_writes call, same fun _ => rfl, same fun _ => rfl, List.forall_mem_nil _⟩
  | handleKillSIGRTMIN killEvent dataSz =>
      obtain ⟨command, exitStatus, PS1, pwd, _, rfl⟩ := statements_completion call result
      simp only [List.map_cons, List.map_nil, List.cons_append, List.nil_append, List.forall_mem_cons]
      exact ⟨same fun _ => rfl, same fun _ => rfl, same fun _ => rfl, same fun _ => rfl, trivial,
        same fun _ => rfl, same fun _ => rfl, List.forall_mem_nil _⟩
  | handleChildCreation shellPid =>
      simp only [statements, call, Option.some.injEq] at result
      subst list
      rw [List.forall_mem_singleton]
      refine same fun row => ?_
      rw [Row.setStartTime]
      split <;> rfl
  | handleShellExit indicator =>
      simp only [statements, call, Option.some.injEq] at result
      subst list
      rw [List.forall_mem_singleton]
      trivial
  | handleWrite indicator output outputLen =>
      simp only [statements, call, Option.some.injEq] at result
      subst list
      rw [List.forall_mem_singleton]
      exact .write (output.take outputLen) (by rw [StoreStep.recorded, call]; rfl) fun _ => rfl

theorem statements_keep {handling : Handling} {known : List Long} {list : List Statement}
    (opens : handling.opens = none) (plain : ∀ bytes ∈ StoreStep.recorded (.handle handling), 253#8 ∉ bytes)
    (result : statements handling = some list) : ∀ statement ∈ list, statement.Keeps known := by
  intro statement member
  have writes := statements_write result statement member
  cases statement with
  | createTable indicator => cases opens.symm.trans writes
  | updateLast indicator change =>
      intro _ row linked
      cases writes with
      | same stays => rwa [stays]
      | link some => exact absurd some (by rw [opens]; decide)
      | write bytes recorded appends =>
          rw [appends]
          exact linked.append (.of_plain (plain bytes recorded))
  | createRow | metaCreateRow | metaAddFinishTime => trivial

theorem statements_opening {handling : Handling} {known : List Long} {killEvent : KillEvent}
    (call : handling.call = .handleKillSIGUSR killEvent) {list : List Statement}
    (result : statements handling = some list) :
    ∃ closing, list = creationStatements handling.opening killEvent ++ closing ∧
      ∀ statement ∈ closing, statement.Keeps known := by
  rcases statements_creation call result with rfl | ⟨PS1, pwd, rfl⟩
  · exact ⟨[], (List.append_nil _).symm, List.forall_mem_nil _⟩
  · refine ⟨_, rfl, ?_⟩
    simp only [List.forall_mem_cons]
    exact ⟨keeps_output fun _ => rfl, keeps_output fun _ => rfl, List.forall_mem_nil _⟩

theorem within_step {step : StoreStep} (within : Within (openedBy past) before)
    (ascending : Ascending past before step) (digits : ElevenDigits past before step)
    (plain : NoLinkMarker past before step) (taken : storeStep before step = some after) :
    Within (openedBy ((before, step) :: past)) after := by
  cases step with
  | handle handling =>
      rw [storeStep, handled_exec] at taken
      obtain ⟨list, result, rfl⟩ := Option.map_eq_some_iff.mp taken
      cases opens : handling.opens with
      | none =>
          have known : openedBy ((before, .handle handling) :: past) = openedBy past :=
            List.filterMap_cons_none opens
          rw [known]
          exact within.foldl (statements_keep opens plain result)
      | some indicator =>
          obtain ⟨killEvent, call, _⟩ := Handling.opens_call opens
          obtain ⟨closing, rfl, keeps⟩ := statements_opening call result
          exact within_opening call within ascending digits keeps
  | dropTable indicator =>
      obtain rfl := Option.some.inj taken
      have known : openedBy ((before, .dropTable indicator) :: past) = openedBy past :=
        List.filterMap_cons_none rfl
      rw [known]
      exact ⟨fun table member => within.1 table (List.mem_of_mem_filter member),
        fun table member => within.2 table (List.mem_of_mem_filter member)⟩
  | metaDelete indicator =>
      obtain rfl := Option.some.inj taken
      exact within

def WithinOpened (past : List (Database × StoreStep)) (db : Database) : Prop := Within (openedBy past) db

def LinkSafe (past : List (Database × StoreStep)) (before : Database) (step : StoreStep) : Prop :=
  Ascending past before step ∧ ElevenDigits past before step ∧ NoLinkMarker past before step

instance (past : List (Database × StoreStep)) (before : Database) (step : StoreStep) :
    Decidable (LinkSafe past before step) := inferInstanceAs (Decidable (_ ∧ _ ∧ _))

theorem within_run {last : Database} (run : Run storeStep Database.empty past last)
    (safe : Always LinkSafe past) : Within (openedBy past) last := by
  have start : WithinOpened [] Database.empty := by
    constructor <;> intro table member <;> cases member
  have within : WithinOpened past last :=
    run.invariant start (fun _ _ _ _ _ within conditions taken =>
      within_step within conditions.1 conditions.2.1 conditions.2.2 taken) safe
  exact within

/-- Two levels more than there are tables are enough for every call, and then
nothing more is done however deep calls may go. -/
theorem fetch_terminates (platform : Platform) {last : Database}
    (run : Run storeStep Database.empty past last) (safe : Always LinkSafe past) (indicator : Long)
    (condition : Nat → Row → Bool) (options : Options) :
    ∃ fetched : Fetched, fetched.finish ≠ .unfinished ∧
      ∀ depth, last.tables.length + 2 ≤ depth →
        fetch platform last depth (decimal indicator) condition options = fetched := by
  have within := within_run run safe
  have finishes : (fetch platform last (last.tables.length + 2) (decimal indicator) condition
      options).finish ≠ .unfinished := by
    refine fetch_finishes platform within.2 (fun quote => ?_) (by omega) fun table _ _ => ?_
    · exact (decimal_noQuote indicator) (List.takeWhile_subset _ quote)
    · have few : laterSessions last table.1 ≤ last.tables.length := List.countP_le_length
      omega
  exact ⟨_, finishes, fun depth enough => fetch_settled finishes enough⟩

end Run

section Sample

def shellHandling (call : HandlerCall) (seconds : Long) (shells : Shells) : StoreStep :=
  let now : Timeval := ⟨seconds, 0#64⟩
  .handle ⟨call, ⟨now, seconds, Vector.replicate 15 0#8, Vector.replicate 16 0#8⟩, sampleClosing,
    ⟨seconds, ⟨some [115#8], some [48#8], seconds, now, some [36#8], some []⟩⟩, shells⟩

def nestedSteps (first second : Long) : List StoreStep :=
  [shellHandling (.handleKillSIGUSR ⟨1#32, SIGUSR1, 0#64⟩) first (SlotTable.ofEntries []),
    shellHandling (.handleKillSIGUSR ⟨2#32, SIGUSR1, first * 10#64⟩) second (SlotTable.ofEntries []),
    shellHandling (.handleKillSIGRTMIN ⟨1#32, SIGRTMIN, 0#64⟩ 16) second
      (SlotTable.ofEntries [Shell.plain 1#32 (first * 10#64)])]

theorem fetch_terminates_nested :
    ∃ past last, Run storeStep Database.empty past last ∧ last.tables.length = 2 ∧
      ∃ fetched : Fetched, fetched.finish ≠ .unfinished ∧ ∀ depth, 4 ≤ depth →
        fetch samplePlatform last depth (decimal 16352740490#64) wholeRange ⟨[], true, false⟩ =
          fetched := by
  obtain ⟨past, last, run, safe, two⟩ := replay_some storeStep Database.empty
    (nestedSteps 1635274049#64 1635274055#64)
    (fun past last => Always LinkSafe past ∧ last.tables.length = 2) (by decide +kernel)
  obtain ⟨fetched, finishes, same⟩ :=
    fetch_terminates samplePlatform run safe 16352740490#64 wholeRange ⟨[], true, false⟩
  exact ⟨past, last, run, two, fetched, finishes, fun depth deep => same depth (by omega)⟩

/-- Twelve digits do not fit: the link to 100000000000 names 10000000000, the
session it is in. -/
theorem truncated_link_endless :
    ∃ past last, Run storeStep Database.empty past last ∧ Always Ascending past ∧
      Always NoLinkMarker past ∧ ∀ depth, (fetch samplePlatform last depth
        (decimal 10000000000#64) wholeRange ⟨[], true, false⟩).finish = .unfinished := by
  obtain ⟨past, last, run, ascending, plain, selected⟩ := replay_some storeStep Database.empty
    (nestedSteps 1000000000#64 10000000000#64)
    (fun past last => Always Ascending past ∧ Always NoLinkMarker past ∧
      query samplePlatform last (decimal 10000000000#64) wholeRange =
        some [⟨some [], some [115#8], 253#8 :: decimal 10000000000#64⟩, ⟨some [36#8], none, []⟩])
    (by decide +kernel)
  refine ⟨past, last, run, ascending, plain, fun depth => ?_⟩
  induction depth with
  | zero => rfl
  | succ depth ih =>
      have eleven : (decimal 10000000000#64).length = 11 := by decide +kernel
      have again : (nestedFetch samplePlatform last depth ⟨[], true, false⟩
        (decimal 10000000000#64)).finish = .unfinished := ih
      have output (spare : Nat) : printOutput (nestedFetch samplePlatform last depth ⟨[], true, false⟩)
          ⟨[], true, false⟩ spare (253#8 :: (decimal 10000000000#64 ++ [])) = _ :=
        printOutput_failed eleven rfl (by rw [again]; decide) []
      have row : (printRow samplePlatform (nestedFetch samplePlatform last depth ⟨[], true, false⟩)
          ⟨[], true, false⟩ ⟨some [], some [115#8], 253#8 :: decimal 10000000000#64⟩).finish =
            .unfinished := by
        rw [List.append_nil] at output
        rw [printRow, show SelectedRow.shown _ _ _ = some ([], [115#8]) from rfl]
        simp only [output, again]
      rw [fetch_selected selected, printRows, if_neg (by rw [row]; decide), row]

end Sample

end Nhi
