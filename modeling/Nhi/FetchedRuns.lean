import Nhi.ChildSplicing
import Nhi.FilterConjunction
import Nhi.StoredOutput

/-!
From the system calls to the screen. What `nhi fetch` shows of a session is a
tree: its commands, their writes, and in front of a write the sessions linked
behind it. The tree is read off what the run has told the sessions, and `Fetch`
shows just that.
-/

namespace Nhi

open RunHistory RowidTable Simulation
open Sql (ascii)

def Recorded.command (recorded : Recorded) : Command :=
  ⟨recorded.row.PS1, recorded.row.command, recorded.events⟩

theorem length_decimal {value : Long} (eleven : 10000000000 ≤ value.toInt ∧ value.toInt ≤ 99999999999) :
    (decimal value).length = 11 := by
  have most : (digitBytes value.toInt.natAbs).length ≤ 11 := by
    rw [digitBytes, List.length_map, Nat.length_toDigits_le_iff (by decide) (by decide)]
    omega
  have least : ¬ (digitBytes value.toInt.natAbs).length ≤ 10 := by
    rw [digitBytes, List.length_map, Nat.length_toDigits_le_iff (by decide) (by decide)]
    omega
  rw [decimal_eq, if_neg (by omega)]
  omega

theorem Recorded.command_selected (recorded : Recorded) : recorded.command.selected = recorded.row.selected := by
  rw [Command.selected, Row.selected, recorded.output]
  rfl

def Event.Unmarked : Event → Prop
  | .write _ output => ∀ byte ∈ output.tail, byte < 253#8
  | .kill _ | .childCreation _ | .exitShellIndicator _ => True

instance : DecidablePred Event.Unmarked
  | .write _ output => inferInstanceAs (Decidable (∀ byte ∈ output.tail, byte < 253#8))
  | .kill _ | .childCreation _ | .exitShellIndicator _ => .isTrue trivial

/-- The clock goes on from one session to the next, and indicators have 11 digits. -/
structure OpenedInOrder (past : List (World × Label)) : Prop where
  eleven : ∀ indicator ∈ openedIn past, 10000000000 ≤ indicator.toInt ∧ indicator.toInt ≤ 99999999999
  ascending : (openedIn past).Pairwise fun later earlier => earlier.toInt < later.toInt

structure Fetchable (past : List (World × Label)) : Prop where
  unmarked : ∀ event ∈ sent past, event.Unmarked
  dated : OpenedInOrder past
  few : (handlings past).length ≤ 999999999

def namedSession (past : List (World × Label)) (name : Text) : Long :=
  ((openedIn past).find? fun indicator => decimal indicator = name).getD 0#64

/-- A write, and the sessions linked behind it before the next one. -/
structure Paragraph where
  fd : CInt
  payload : Text
  children : List Text

def paragraphs : List OutputEvent → List Text × List Paragraph
  | [] => ([], [])
  | .write fd payload :: rest => ([], ⟨fd, payload, (paragraphs rest).1⟩ :: (paragraphs rest).2)
  | .link child :: rest => (child :: (paragraphs rest).1, (paragraphs rest).2)

/-- The linked sessions come in front of the text, and leave 11 NULs each behind it. -/
def textAndChildren (sessionOf : Text → List Action) (options : Options) (stream : Stream) (text : Text)
    (children : List Text) : List Action :=
  let shown := text ++ List.replicate (11 * children.length) 0#8
  (if options.fetchChildShells then children.map fun child => .fetch child (sessionOf child) else []) ++
    if shown = [] then []
    else [.print stream (if stream = .stderr ∧ options.stderrInRed then
      [27#8, 91#8, 51#8, 49#8, 109#8] ++ shown ++ [27#8, 91#8, 48#8, 109#8] else shown)]

def outputOf (sessionOf : Text → List Action) (options : Options) (events : List OutputEvent) : List Action :=
  textAndChildren sessionOf options .stderr [] (paragraphs events).1 ++
    (paragraphs events).2.flatMap fun paragraph =>
      textAndChildren sessionOf options (if paragraph.fd = 2#32 then .stderr else .stdout) paragraph.payload
        paragraph.children

/-- What there is to show of a session, with as many sessions in one another as
given: the commands that are not empty and match, each with what was sent for it. -/
def transcript (platform : Platform) (past : List (World × Label)) : Nat → Options → Long → List Action
  | 0, _, _ => []
  | depth + 1, options, indicator =>
      (recorded past indicator).flatMap fun recorded =>
        match recorded.row.PS1, recorded.row.command with
        | some PS1, some command =>
            if command ≠ [] ∧
                (options.commandRegex = [] ∨ platform.matchString options.commandRegex command = true) then
              .print .stdout PS1 :: .print .stdout (command ++ [10#8]) ::
                outputOf (fun name => transcript platform past depth options.nested (namedSession past name))
                  options recorded.events
            else []
        | _, _ => []

section Show

variable {platform : Platform} {nested other : Text → Fetched} {options : Options}

theorem shownFrom_same {events : List OutputEvent} (same : ∀ child, .link child ∈ events → nested child = other child)
    (actions : List Action) (pending : Text) (stream : Stream) :
    shownFrom nested options actions pending stream events = shownFrom other options actions pending stream events := by
  induction events generalizing actions pending stream with
  | nil => rfl
  | cons event rest ih =>
      have later := ih fun child member => same child (List.mem_cons_of_mem _ member)
      cases event with
      | write fd payload => rw [shownFrom, shownFrom, later]
      | link child =>
          have linked : linkActions nested options child = linkActions other options child := by
            rw [linkActions, linkActions, same child List.mem_cons_self]
          rw [shownFrom, shownFrom, later, linked]

theorem shownFrom_paragraphs (events : List OutputEvent) (actions : List Action) (pending : Text) (stream : Stream) :
    shownFrom nested options actions pending stream events =
      actions ++ textAndChildren (fun child => (nested child).actions) options stream pending (paragraphs events).1 ++
        (paragraphs events).2.flatMap fun paragraph =>
          textAndChildren (fun child => (nested child).actions) options
            (if paragraph.fd = 2#32 then .stderr else .stdout) paragraph.payload paragraph.children := by
  have alone (stream : Stream) (text : Text) :
      textAndChildren (fun child => (nested child).actions) options stream text [] =
        printed options.stderrInRed stream text := by
    simp [textAndChildren, printed, shownText, inRed]
  induction events generalizing actions pending stream with
  | nil => rw [shownFrom, paragraphs, alone, List.flatMap_nil, List.append_nil]
  | cons event rest ih =>
      cases event with
      | write fd payload =>
          rw [shownFrom, ih, paragraphs, alone, List.flatMap_cons]
          simp only [List.append_assoc]
          rfl
      | link child =>
          have zeros (count : Nat) : (List.replicate 11 0#8 ++ List.replicate (11 * count) 0#8 : Text) =
              List.replicate (11 * (count + 1)) 0#8 := by
            rw [List.replicate_append_replicate]
            congr 1
            omega
          have linked : linkActions nested options child ++
              textAndChildren (fun child => (nested child).actions) options stream
                (pending ++ List.replicate 11 0#8) (paragraphs rest).1 =
              textAndChildren (fun child => (nested child).actions) options stream pending
                (child :: (paragraphs rest).1) := by
            simp only [textAndChildren, linkActions, List.append_assoc, zeros, List.length_cons]
            cases options.fetchChildShells <;> simp
          rw [shownFrom, ih, paragraphs, List.append_assoc actions, linked]

theorem show_same {command : Command} (same : ∀ child, .link child ∈ command.events → nested child = other child) :
    command.show platform options (shownFrom nested options [] [] .stderr) =
      command.show platform options (shownFrom other options [] [] .stderr) := by
  rw [Command.show, Command.show]
  split
  · rfl
  · rw [shownFrom_same same]

theorem transcript_show (past : List (World × Label)) (depth : Nat) (options : Options) (indicator : Long) :
    transcript platform past (depth + 1) options indicator =
      (recorded past indicator).flatMap fun recorded =>
        recorded.command.show platform options (shownFrom
          (fun name => ⟨transcript platform past depth options.nested (namedSession past name), .ok⟩)
          options [] [] .stderr) := by
  rw [transcript]
  refine List.flatMap_congr fun recorded _ => ?_
  rw [Command.show, SelectedRow.shown, Command.selected, Recorded.command]
  cases recorded.row.PS1 with
  | none => rfl
  | some PS1 =>
      cases recorded.row.command with
      | none => rfl
      | some command =>
          by_cases empty : command = []
          · simp [empty]
          · by_cases every : options.commandRegex = []
            · simp [empty, every, shownFrom_paragraphs, outputOf]
            · cases found : platform.matchString options.commandRegex command <;>
                simp [empty, every, found, shownFrom_paragraphs, outputOf]

end Show

/-! A handling adds no more than one row to a session. -/
section Length

def SessionEvent.adds : SessionEvent → Bool
  | .opened | .ended _ _ _ _ _ => true
  | .begun _ _ | .output _ | .started _ => false

theorem foldl_length (events : List SessionEvent) (session : Session) :
    (events.foldl Session.after session).length ≤ session.length + events.countP SessionEvent.adds := by
  induction events generalizing session with
  | nil => exact Nat.le_refl _
  | cons event rest ih =>
      have after : (session.after event).length ≤ session.length + if event.adds then 1 else 0 := by
        cases event with
        | opened => simp [Session.after, SessionEvent.adds]
        | begun | output | started => simp [Session.after, SessionEvent.adds, length_changeLast]
        | ended =>
            rw [Session.after]
            split
            · exact Nat.zero_le _
            · simp [SessionEvent.adds, length_changeLast]
      have later := ih (session.after event)
      rw [List.foldl_cons, List.countP_cons]
      omega

theorem tells_adds (indicator : Long) (handling : Handling) :
    (handling.tells indicator).countP SessionEvent.adds ≤ 1 := by
  have closing : handling.closing.tells.countP SessionEvent.adds = 0 := by
    rw [Closing.tells]
    split
    · rfl
    · split <;> rfl
  have opening : (SessionEvent.opened :: handling.closing.tells).countP SessionEvent.adds ≤ 1 := by
    rw [List.countP_cons, closing]
    decide
  have ending : handling.outside.ending.tells.countP SessionEvent.adds ≤ 1 := by
    rw [CommandEnd.tells]
    split <;> simp [SessionEvent.adds]
  rw [Handling.tells]
  cases handling.call with
  | handleKillSIGUSR killEvent =>
      rw [List.countP_append]
      split_ifs
      · simpa [List.countP_cons, SessionEvent.adds] using opening
      · simp [SessionEvent.adds]
      · simpa [List.countP_cons, SessionEvent.adds] using opening
      · simp
  | handleKillSIGRTMIN killEvent dataSz =>
      simp only
      split
      · exact ending
      · exact Nat.zero_le _
  | handleShellExit => exact Nat.zero_le _
  | handleChildCreation | handleWrite =>
      simp only
      split <;> simp [SessionEvent.adds]

theorem recorded_length (past : List (World × Label)) (indicator : Long) :
    (recorded past indicator).length ≤ (handlings past).length := by
  have each : ((handlings past).reverse.flatMap (Handling.tells indicator)).countP SessionEvent.adds ≤
      (handlings past).reverse.length := by
    induction (handlings past).reverse with
    | nil => exact Nat.le_refl _
    | cons handling rest ih =>
        have first := tells_adds indicator handling
        rw [List.flatMap_cons, List.countP_append, List.length_cons]
        omega
  have whole := foldl_length ((handlings past).reverse.flatMap (Handling.tells indicator)) []
  rw [List.length_reverse] at each
  rw [recorded, toldSession]
  simp only [List.length_nil] at whole
  omega

end Length

/-! The links of a session lead to sessions that were created after it. -/
section Links

variable {past : List (World × Label)} {before world : World} {label : Label}

theorem tells_link {handling : Handling} {indicator : Long} {child : Text}
    (told : .link child ∈ (handling.tells indicator).filterMap SessionEvent.outputEvent) :
    handling.opens = some (getIndicator handling.opening.now) ∧ child = recordedIndicator handling.opening := by
  rw [tells_output] at told
  cases call : handling.call with
  | handleKillSIGUSR killEvent =>
      simp only [call] at told
      split at told
      · exact ⟨by rw [Handling.opens, call], OutputEvent.link.inj (List.mem_singleton.mp told)⟩
      · cases told
  | handleWrite written output outputLen =>
      simp only [call, HandlerCall.writeTo] at told
      split at told
      · cases List.mem_singleton.mp told
      · cases told
  | handleKillSIGRTMIN | handleChildCreation | handleShellExit => simp [call, HandlerCall.writeTo] at told

theorem OpenedInOrder.tail (dated : OpenedInOrder ((before, label) :: past)) : OpenedInOrder past := by
  obtain ⟨eleven, ascending⟩ := dated
  rw [openedIn, handlings, actions, List.filterMap_append] at eleven ascending
  exact ⟨fun indicator member => eleven indicator (List.mem_append_right _ member),
    (List.pairwise_append.mp ascending).2.1⟩

theorem links_later (run : Run step World.start past world) (alive : world.daemon ≠ .crashed) (dated : OpenedInOrder past)
    {indicator : Long} (nonzero : indicator ≠ 0#64) {child : Text}
    (linked : .link child ∈ (recorded past indicator).outputs) :
    ∃ later ∈ openedIn past, indicator.toInt < later.toInt ∧ child = decimal later := by
  induction run with
  | start => cases linked
  | next earlier taken ih =>
      rename_i past before after label
      have lived : before.daemon ≠ .crashed := fun crashed => alive (crashed_step crashed taken)
      have delivered := (sound_run (.next earlier taken) alive).delivered indicator nonzero
      have sound := sound_run earlier lived
      rw [delivered, handlings_step, List.flatMap_append, List.filterMap_append, List.mem_append,
        ← sound.delivered indicator nonzero] at linked
      rcases linked with old | new
      · obtain ⟨later, member, less, same⟩ := ih lived dated.tail old
        exact ⟨later, openedIn_later member, less, same⟩
      · cases done : completed past before label with
        | none => simp [done] at new
        | some handling =>
            rw [done, Option.toList_some, List.flatMap_singleton] at new
            have opened := told_opened sound.known done nonzero (List.ne_nil_of_mem new)
            obtain ⟨opens, rfl⟩ := tells_link new
            have now : openedIn ((before, label) :: past) = getIndicator handling.opening.now :: openedIn past := by
              simp [openedIn, handlings, actions, done, opens]
            obtain ⟨eleven, ascending⟩ := dated
            rw [now] at eleven ascending ⊢
            exact ⟨_, List.mem_cons_self, List.rel_of_pairwise_cons ascending opened,
              recordedIndicator_digits (length_decimal (eleven _ List.mem_cons_self))⟩

theorem links_eleven (past : List (World × Label)) {indicator : Long} {child : Text}
    (linked : .link child ∈
      ((handlings past).reverse.flatMap (Handling.tells indicator)).filterMap SessionEvent.outputEvent) :
    child.length = 11 := by
  obtain ⟨event, told, shown⟩ := List.mem_filterMap.mp linked
  obtain ⟨handling, _, tells⟩ := List.mem_flatMap.mp told
  obtain ⟨_, rfl⟩ := tells_link (List.mem_filterMap.mpr ⟨event, tells, shown⟩)
  exact recordedIndicator_length handling.opening

theorem outputs_plain (run : Run step World.start past world) (idle : world.daemon = .idle)
    (unmarked : ∀ event ∈ sent past, event.Unmarked) {indicator : Long} (nonzero : indicator ≠ 0#64) :
    ∀ event ∈ (recorded past indicator).outputs, event.Plain := by
  intro event member
  cases event with
  | link child =>
      rw [(sound_run run (by simp [idle])).delivered indicator nonzero] at member
      exact links_eleven past member
  | write fd payload =>
      have written : .write fd payload ∈ (sent past).filterMap (Event.writeTo indicator) := by
        rw [idle_writes run idle nonzero]
        exact List.mem_append_left _ (List.mem_filter.mpr ⟨member, rfl⟩)
      obtain ⟨record, there, named⟩ := List.mem_filterMap.mp written
      have bytes := unmarked record there
      cases record with
      | write other output =>
          rw [Event.writeTo] at named
          split at named
          · obtain ⟨_, rfl⟩ := OutputEvent.write.inj (Option.some.inj named)
            exact bytes
          · cases named
      | kill | childCreation | exitShellIndicator => cases named

end Links

section Fetch

variable {past : List (World × Label)} {world : World}

theorem namedSession_decimal {indicator : Long} (opened : indicator ∈ openedIn past) :
    namedSession past (decimal indicator) = indicator := by
  have same (other : Long) : decide (decimal other = decimal indicator) = decide (other = indicator) :=
    decide_eq_decide.mpr ⟨decimal_injective, fun equal => equal ▸ rfl⟩
  simp only [namedSession, same]
  cases found : (openedIn past).find? fun other => other = indicator with
  | none => simpa using List.find?_eq_none.mp found indicator opened
  | some other => simpa using List.find?_some found

theorem selectRows_whole {rows : List Row} (few : rows.length ≤ 999999999) :
    selectRows wholeRange rows = rows.map Row.selected := by
  have all : (number rows).filter (fun entry => wholeRange entry.1 entry.2) = number rows := by
    refine List.filter_eq_self.mpr fun entry member => ?_
    obtain ⟨k, there, rowid⟩ := mem_number.mp member
    have inside := (List.getElem?_eq_some_iff.mp there).1
    simp [wholeRange]
    omega
  have shown := congrArg (List.map Row.selected) (rows_number rows)
  rw [List.map_map] at shown
  rw [selectRows, all, ← shown]
  rfl

theorem session_selected (run : Run step World.start past world) (idle : world.daemon = .idle) (fetchable : Fetchable past)
    {indicator : Long} (opened : indicator ∈ openedIn past) (platform : Platform) :
    query platform world.db (decimal indicator) wholeRange =
      some (((recorded past indicator).map Recorded.command).map Command.selected) := by
  have given := (recorded_nonempty past indicator).mpr opened
  have few : ((recorded past indicator).map Recorded.row).length ≤ 999999999 := by
    rw [List.length_map]
    exact (recorded_length past indicator).trans fetchable.few
  have selected : ((recorded past indicator).map Recorded.row).map Row.selected =
      ((recorded past indicator).map Recorded.command).map Command.selected := by
    rw [List.map_map, List.map_map]
    exact List.map_congr_left fun recorded _ => recorded.command_selected.symm
  rw [query_decimal, idle_table run idle, Session.table, if_neg given, Option.map_some,
    selectRows_whole few, selected]

theorem opened_nonzero (dated : OpenedInOrder past) {indicator : Long} (opened : indicator ∈ openedIn past) :
    indicator ≠ 0#64 := by
  rintro rfl
  exact absurd (dated.eleven _ opened).1 (by decide)

theorem fetch_transcript (run : Run step World.start past world) (idle : world.daemon = .idle)
    (fetchable : Fetchable past) (platform : Platform) (depth : Nat) :
    ∀ (options : Options) (indicator : Long), indicator ∈ openedIn past → laterSessions world.db indicator < depth →
      fetch platform world.db depth (decimal indicator) wholeRange options =
        ⟨transcript platform past depth options indicator, .ok⟩ := by
  induction depth with
  | zero => exact fun _ _ _ deep => absurd deep (Nat.not_lt_zero _)
  | succ depth ih =>
      intro options indicator opened deep
      have alive : world.daemon ≠ .crashed := by simp [idle]
      have nonzero := opened_nonzero fetchable.dated opened
      have outputs (recorded : Recorded) (member : recorded ∈ Nhi.recorded past indicator) (event : OutputEvent)
          (inside : event ∈ recorded.events) : event ∈ (Nhi.recorded past indicator).outputs :=
        List.mem_flatMap.mpr ⟨recorded, member, inside⟩
      -- a link leads to a session with fewer after it, of which the transcript is shown
      have children (child : Text) (linked : .link child ∈ (recorded past indicator).outputs) :
          nestedFetch platform world.db depth options child =
            ⟨transcript platform past depth options.nested (namedSession past child), .ok⟩ := by
        obtain ⟨later, created, less, rfl⟩ := links_later run alive fetchable.dated nonzero linked
        have table := idle_table run idle later
        rw [Session.table, if_neg ((recorded_nonempty past later).mpr created), Database.rows] at table
        obtain ⟨entry, found, _⟩ := Option.map_eq_some_iff.mp table
        have name : entry.1 = later := by simpa using List.find?_some found
        have fewer : laterSessions world.db entry.1 < laterSessions world.db indicator :=
          @laterSessions_lt world.db (indicator, []) entry (List.mem_of_find?_eq_some found) (name ▸ less)
        rw [namedSession_decimal created]
        exact ih options.nested later created (by rw [name] at fewer; omega)
      have readable : ∀ command ∈ (recorded past indicator).map Recorded.command,
          command.Readable platform (nestedFetch platform world.db depth options) options := by
        intro command member _
        obtain ⟨recorded, there, rfl⟩ := List.mem_map.mp member
        refine ⟨fun event inside => ?_, fun child inside _ => ?_⟩
        · exact outputs_plain run idle fetchable.unmarked nonzero event (outputs recorded there event inside)
        · rw [children child (outputs recorded there _ inside)]
      rw [fetch_selected (session_selected run idle fetchable opened platform), printRows_commands _ _ _ readable,
        List.flatMap_map, transcript_show]
      congr 1
      refine List.flatMap_congr fun recorded member => ?_
      exact show_same fun child inside => children child (outputs recorded member _ inside)

/-- After a run of the whole system `nhi fetch` of a session shows its transcript:
each command with the writes that were sent for it, and in front of a write the
transcripts of the sessions that were linked behind it. -/
theorem run_fetched (platform : Platform) (localTime : LocalTime) (unread : Text → Except Text (List SelectedRow))
    (options : Options) (run : Run step World.start past world) (idle : world.daemon = .idle)
    (fetchable : Fetchable past) {indicator : Long} (opened : indicator ∈ openedIn past) {depth : Nat}
    (deep : world.db.tables.length ≤ depth) :
    fetchRequest platform localTime unread (nestedFetch platform world.db depth options) options world.db.numbered
        (decimal indicator) ⟨ascii ":", [], [], [], []⟩ =
      .ok ⟨transcript platform past (depth + 1) options indicator, .ok⟩ := by
  have table := idle_table run idle indicator
  rw [Session.table, if_neg ((recorded_nonempty past indicator).mpr opened)] at table
  have few : laterSessions world.db indicator ≤ world.db.tables.length := List.countP_le_length
  rw [fetchRequest_whole platform localTime unread options depth table,
    fetch_transcript run idle fetchable platform (depth + 1) options indicator opened (by omega)]

instance (past : List (World × Label)) : Decidable (Fetchable past) :=
  decidable_of_iff ((∀ event ∈ sent past, event.Unmarked) ∧
      ((openedIn past).all (fun indicator => 10000000000 ≤ indicator.toInt ∧ indicator.toInt ≤ 99999999999) ∧
        (openedIn past).Pairwise fun later earlier => earlier.toInt < later.toInt) ∧
      (handlings past).length ≤ 999999999)
    ⟨fun ⟨unmarked, ⟨eleven, ascending⟩, few⟩ => ⟨unmarked, ⟨by simpa using eleven, ascending⟩, few⟩,
      fun ⟨unmarked, ⟨eleven, ascending⟩, few⟩ => ⟨unmarked, ⟨by simpa using eleven, ascending⟩, few⟩⟩

def promptOutside : Outside := ⟨16#64, ⟨some [112#8], some [48#8], 16#64, ⟨1600000002#64, 0#64⟩, some [36#8], some []⟩⟩

def laterOpening : Opening := { sampleOpening with now := ⟨1600000001#64, 0#64⟩ }

theorem run_fetched_nested :
    ∃ past world, Run step World.start past world ∧ (openedIn past).length = 2 ∧ (sent past).length = 8 ∧
      fetchRequest samplePlatform (fun _ => 0#64) (fun _ => .error [])
          (nestedFetch samplePlatform world.db 2 ⟨[], true, true⟩) ⟨[], true, true⟩ world.db.numbered
          (decimal 16000000000#64) ⟨ascii ":", [], [], [], []⟩ =
        .ok ⟨transcript samplePlatform past 3 ⟨[], true, true⟩ 16000000000#64, .ok⟩ := by
  obtain ⟨past, world, run, idle, fetchable, opened, two, eight, tables⟩ := replay_some step World.start
    (registration 1#32 ++ [.fork 1#32 2#32 true, .take sampleOutside, .kill 2#32 SIGUSR1 nhidHash true,
      .take sampleOutside, .create laterOpening, .scan, .register sampleClosing, .fork 2#32 3#32 true,
      .write (ttyWrite 3#32 [97#8]) true ⟨0#64, fun _ => 0#8⟩, .kill 2#32 SIGRTMIN nhidHash true,
      .take promptOutside, .take promptOutside, .take promptOutside, .exit 2#32 true,
      .kill 1#32 SIGRTMIN nhidHash true, .take promptOutside, .take promptOutside])
    (fun past world => world.daemon = .idle ∧ Fetchable past ∧ 16000000000#64 ∈ openedIn past ∧
      (openedIn past).length = 2 ∧ (sent past).length = 8 ∧ world.db.tables.length = 2) (by decide +kernel)
  have deep : world.db.tables.length ≤ 2 := Nat.le_of_eq tables
  exact ⟨past, world, run, two, eight,
    run_fetched samplePlatform _ _ ⟨[], true, true⟩ run idle fetchable opened deep⟩

end Fetch

end Nhi
