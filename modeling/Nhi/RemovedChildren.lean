import Nhi.ChildSplicing
import Nhi.StoredRows

/-!
A session whose child has been removed. The links to the child stay, and the
nested call that finds no table ends the call it is in.
-/

namespace Nhi

open RunHistory BoundedLoop

def PlainWrites (_past : List (Database × StoreStep)) (_before : Database) (step : StoreStep) : Prop :=
  ∀ bytes ∈ step.recorded, bytes.head? ∈ [some 254#8, some 255#8] ∧ ∀ byte ∈ bytes.tail, byte < 253#8

instance (past : List (Database × StoreStep)) (before : Database) (step : StoreStep) :
    Decidable (PlainWrites past before step) :=
  inferInstanceAs (Decidable (∀ bytes ∈ step.recorded,
    bytes.head? ∈ [some 254#8, some 255#8] ∧ ∀ byte ∈ bytes.tail, byte < 253#8))

def OutputEvent.Recorded : OutputEvent → Prop
  | .write fd payload => (OutputEvent.write fd payload).Plain
  | .link child => (OutputEvent.link child).Plain ∧ 96#8 ∉ child.takeWhile (· ≠ 0#8)

theorem OutputEvent.Recorded.plain {event : OutputEvent} (recorded : event.Recorded) : event.Plain := by
  cases event with
  | write fd payload => exact recorded
  | link child => exact recorded.1

/-- An output is what some events have left. -/
def FromEvents (text : Text) : Prop :=
  ∃ events : List OutputEvent, text = outputBytes events ∧ ∀ event ∈ events, event.Recorded

section Recorded

theorem FromEvents.add {text : Text} (before : FromEvents text) {event : OutputEvent}
    (recorded : event.Recorded) : FromEvents (text ++ event.bytes) := by
  obtain ⟨events, rfl, all⟩ := before
  refine ⟨events ++ [event], by simp [outputBytes], ?_⟩
  rw [List.forall_mem_append, List.forall_mem_singleton]
  exact ⟨all, recorded⟩

theorem recorded_event {past : List (Database × StoreStep)} {before : Database} {step : StoreStep}
    (plain : PlainWrites past before step) {bytes : Text} (written : bytes ∈ step.recorded) :
    ∃ event : OutputEvent, bytes = event.bytes ∧ event.Recorded := by
  obtain ⟨marker, payload⟩ := plain bytes written
  cases bytes with
  | nil => exact absurd marker (by simp)
  | cons first rest =>
      rcases List.mem_cons.mp marker with stderr | stdout
      · obtain rfl : first = 254#8 := Option.some.inj stderr
        exact ⟨.write 2#32 rest, rfl, payload⟩
      · obtain rfl : first = 255#8 := Option.some.inj (List.mem_singleton.mp stdout)
        exact ⟨.write 1#32 rest, rfl, payload⟩

theorem fromEvents_step {past : List (Database × StoreStep)} {before after : Database} {step : StoreStep}
    (kept : RowsHold (fun row => FromEvents row.output) before) (plain : PlainWrites past before step)
    (taken : storeStep before step = some after) : RowsHold (fun row => FromEvents row.output) after := by
  cases step with
  | handle handling =>
      rw [storeStep, handled_exec] at taken
      obtain ⟨list, result, rfl⟩ := Option.map_eq_some_iff.mp taken
      refine kept.foldl (statements_outputs ⟨[], rfl, List.forall_mem_nil _⟩ ?_ ?_ result)
      · intro _ text recorded
        rw [parentLink_bytes]
        exact recorded.add
          ⟨recordedIndicator_length handling.opening, recordedIndicator_unquoted handling.opening⟩
      · intro bytes written text recorded
        obtain ⟨event, rfl, also⟩ := recorded_event plain written
        exact recorded.add also
  | dropTable indicator =>
      obtain rfl := Option.some.inj taken
      exact fun table member => kept table (List.mem_of_mem_filter member)
  | metaDelete indicator =>
      obtain rfl := Option.some.inj taken
      exact kept

theorem outputs_fromEvents {past : List (Database × StoreStep)} {last : Database}
    (run : Run storeStep Database.empty past last) (plain : Always PlainWrites past) :
    RowsHold (fun row => FromEvents row.output) last := by
  induction run with
  | start => exact fun table member => by cases member
  | next earlier taken ih => exact fromEvents_step (ih plain.2) plain.1 taken

theorem selectRows_commands (condition : Nat → Row → Bool) {rows : List Row}
    (recorded : ∀ row ∈ rows, FromEvents row.output) :
    ∃ commands : List Command, selectRows condition rows = commands.map Command.selected ∧
      ∀ command ∈ commands, ∀ event ∈ command.events, event.Recorded := by
  have inside : ∀ row ∈ selectRows condition rows, FromEvents row.output := by
    intro selected member
    obtain ⟨entry, chosen, rfl⟩ := List.mem_map.mp member
    obtain ⟨k, found, _⟩ := RowidTable.mem_number.mp (List.mem_filter.mp chosen).1
    exact recorded entry.2 (List.mem_of_getElem? found)
  generalize selectRows condition rows = selected at inside
  induction selected with
  | nil => exact ⟨[], rfl, List.forall_mem_nil _⟩
  | cons row rest ih =>
      obtain ⟨⟨events, output, plain⟩, others⟩ := List.forall_mem_cons.mp inside
      obtain ⟨commands, same, all⟩ := ih others
      refine ⟨⟨row.PS1, row.command, events⟩ :: commands, ?_, ?_⟩
      · rw [same, List.map_cons, Command.selected, ← output]
      · exact List.forall_mem_cons.mpr ⟨plain, all⟩

end Recorded

/-! Where a call succeeds, so do the calls it makes. -/
section Converse

variable {platform : Platform} {nested : Text → Fetched} {options : Options} {spare : Nat}

theorem printLoop_ok {events : List OutputEvent} (plain : ∀ event ∈ events, event.Plain)
    {actions : List Action} {pending : Text} {stream : Stream}
    (finished : (printEnd options (printLoop nested options spare
      (.between (outputBytes events) actions pending stream))).finish = .ok) :
    LinksSucceed nested options events := by
  induction events generalizing actions pending stream with
  | nil => exact fun child none => absurd none List.not_mem_nil
  | cons event rest ih =>
      obtain ⟨first, others⟩ := List.forall_mem_cons.mp plain
      cases event with
      | write fd payload =>
          rw [outputBytes, List.flatMap_cons, OutputEvent.bytes, List.cons_append,
            printLoop_next rfl (printPass_write ..), printLoop_text first] at finished
          have later := ih others finished
          intro child member
          exact later child (by simpa using member)
      | link digits =>
          have eleven : digits.length = 11 := first
          have pass : printPass nested options spare (.between (253#8 :: (digits ++ outputBytes rest))
              actions pending stream) = _ := printPass_between ..
          have bytes : outputBytes (.link digits :: rest) = 253#8 :: (digits ++ outputBytes rest) := by
            simp [outputBytes, OutputEvent.bytes]
          rw [branch_child _ eleven] at pass
          rw [bytes] at finished
          by_cases fails : options.fetchChildShells = true ∧ (nested digits).finish ≠ .ok
          · simp only [if_pos fails] at pass
            rw [printLoop_ret pass] at finished
            exact absurd finished fails.2
          · have succeeds : options.fetchChildShells = true → (nested digits).finish = .ok :=
              fun fetches => not_not.mp fun bad => fails ⟨fetches, bad⟩
            -- the loop goes on with eleven zeros in the place of the link
            have zeros : ∀ byte ∈ List.replicate 11 (0#8 : Byte), byte < 253#8 := by decide
            rw [printLoop_next (by rw [List.length_append, List.length_append, eleven]; rfl)
                (printPass_link eleven succeeds ..),
              printLoop_text zeros] at finished
            have later := ih others finished
            intro child member
            rcases List.mem_cons.mp member with same | behind
            · obtain rfl : child = digits := by injection same
              exact succeeds
            · exact later child behind

theorem printRows_ok {rows : List SelectedRow}
    (finished : (printRows platform nested options rows).finish = .ok) :
    ∀ row ∈ rows, (printRow platform nested options row).finish = .ok := by
  induction rows with
  | nil => exact List.forall_mem_nil _
  | cons row rest ih =>
      rw [printRows] at finished
      by_cases first : (printRow platform nested options row).finish = .ok
      · simp only [if_pos first] at finished
        exact List.forall_mem_cons.mpr ⟨first, ih finished⟩
      · simp only [if_neg first] at finished
        exact absurd finished first

theorem printRow_ok {command : Command} (plain : ∀ event ∈ command.events, event.Plain)
    (finished : (printRow platform nested options command.selected).finish = .ok)
    (shown : (command.selected.shown platform options).isSome) :
    LinksSucceed nested options command.events := by
  obtain ⟨texts, same⟩ := Option.isSome_iff_exists.mp shown
  rw [printRow, same] at finished
  have loop : (printEnd options (printLoop nested options (platform.spare command.selected.output.length)
    (.between (outputBytes command.events) [] [] .stderr))).finish = .ok := finished
  exact printLoop_ok plain loop

variable {db : Database}

theorem query_commands (recorded : RowsHold (fun row => FromEvents row.output) db) {indicator : Text}
    (unquoted : 96#8 ∉ indicator.takeWhile (· ≠ 0#8)) {condition : Nat → Row → Bool}
    {selected : List SelectedRow} (found : query platform db indicator condition = some selected) :
    ∃ commands : List Command, selected = commands.map Command.selected ∧
      ∀ command ∈ commands, ∀ event ∈ command.events, event.Recorded := by
  rw [query, if_neg unquoted] at found
  split at found
  · cases found
  · obtain ⟨rows, named, rfl⟩ := Option.map_eq_some_iff.mp found
    obtain ⟨table, there, rfl⟩ := Option.map_eq_some_iff.mp named
    exact selectRows_commands condition (recorded table (List.mem_of_find?_eq_some there))

/-- A nested call that succeeds found all there is to find. -/
theorem succeeds_present (recorded : RowsHold (fun row => FromEvents row.output) db) {depth : Nat}
    {indicator : Text} (unquoted : 96#8 ∉ indicator.takeWhile (· ≠ 0#8))
    (finished : (fetch platform db depth indicator wholeRange options.nested).finish = .ok) :
    Present platform db options.nested depth indicator := by
  induction depth generalizing indicator with
  | zero => cases finished
  | succ depth ih =>
      cases found : query platform db indicator wholeRange with
      | none =>
          rw [fetch, found] at finished
          cases finished
      | some selected =>
          obtain ⟨commands, rfl, events⟩ := query_commands recorded unquoted found
          rw [fetch_selected found] at finished
          refine ⟨commands, found, fun command member shown => ?_⟩
          have plain := fun event among => (events command member event among).plain
          have links := printRow_ok plain (printRows_ok finished _ (List.mem_map_of_mem member)) shown
          refine ⟨plain, fun child link => ?_⟩
          have among := mem_links.mp link
          exact ih (events command member _ among).2 (links child among rfl)

end Converse

/-! What a session shows of its own. -/
section Own

variable (platform : Platform) (options : Options)

/-- The prints of the call itself, without those of nested calls. -/
def ownPrints (actions : List Action) : List Action :=
  actions.filter fun action => match action with
    | .print _ _ => true
    | .fetch _ _ => false

def ownOutput (events : List OutputEvent) : List Action :=
  shownFrom (fun _ => ⟨[], .ok⟩) { options with fetchChildShells := false } [] [] .stderr events

/-- The call returns no error and shows each of the commands with its own output. -/
structure Undamaged (db : Database) (depth : Nat) (indicator : Text) (condition : Nat → Row → Bool)
    (commands : List Command) : Prop where
  finish : (fetch platform db depth indicator condition options).finish = .ok
  own : ownPrints (fetch platform db depth indicator condition options).actions =
    commands.flatMap (Command.show platform options (ownOutput options))

variable {platform} {options} {nested : Text → Fetched}

theorem ownPrints_append (first second : List Action) :
    ownPrints (first ++ second) = ownPrints first ++ ownPrints second := List.filter_append ..

theorem ownPrints_printed (stderrInRed : Bool) (stream : Stream) (text : Text) :
    ownPrints (printed stderrInRed stream text) = printed stderrInRed stream text := by
  rw [printed]
  split <;> rfl

theorem ownPrints_link (child : Text) : ownPrints (linkActions nested options child) = [] := by
  rw [linkActions]
  split <;> rfl

theorem ownPrints_shownFrom (events : List OutputEvent) (actions others : List Action)
    (same : ownPrints actions = others) (pending : Text) (stream : Stream) :
    ownPrints (shownFrom nested options actions pending stream events) =
      shownFrom (fun _ => ⟨[], .ok⟩) { options with fetchChildShells := false } others pending stream
        events := by
  induction events generalizing actions others pending stream with
  | nil => rw [shownFrom, shownFrom, ownPrints_append, ownPrints_printed, same]
  | cons event rest ih =>
      cases event with
      | write fd payload =>
          rw [shownFrom, shownFrom]
          apply ih
          rw [ownPrints_append, ownPrints_printed, same]
      | link child =>
          rw [shownFrom, shownFrom]
          apply ih
          rw [ownPrints_append, ownPrints_link, same]
          rfl

theorem ownPrints_show (command : Command) :
    ownPrints (command.show platform options (shownFrom nested options [] [] .stderr)) =
      command.show platform options (ownOutput options) := by
  cases shown : command.selected.shown platform options with
  | none => simp [Command.show, shown, ownPrints]
  | some texts =>
      have output : ownPrints (shownFrom nested options [] [] .stderr command.events) =
          ownOutput options command.events :=
        ownPrints_shownFrom command.events [] [] rfl [] .stderr
      simp only [Command.show, shown]
      rw [← output]
      rfl

theorem ownPrints_commands (commands : List Command) :
    ownPrints (commands.flatMap (Command.show platform options (shownFrom nested options [] [] .stderr))) =
      commands.flatMap (Command.show platform options (ownOutput options)) := by
  induction commands with
  | nil => rfl
  | cons command rest ih =>
      rw [List.flatMap_cons, ownPrints_append, ownPrints_show, ih, List.flatMap_cons]

end Own

section Undamaged

variable {platform : Platform} {db : Database} {options : Options} {indicator : Text}
  {condition : Nat → Row → Bool} {commands : List Command}

theorem undamaged_of_succeeds {depth : Nat}
    (selected : query platform db indicator condition = some (commands.map Command.selected))
    (plain : ∀ command ∈ commands, ∀ event ∈ command.events, event.Plain)
    (succeeds : options.fetchChildShells = true → ∀ command ∈ commands,
      ∀ child ∈ command.shownLinks platform options,
        (nestedFetch platform db depth options child).finish = .ok) :
    Undamaged platform options db (depth + 1) indicator condition commands := by
  have readable : ∀ command ∈ commands,
      command.Readable platform (nestedFetch platform db depth options) options := by
    refine fun command member shown => ⟨plain command member, fun child link fetches => ?_⟩
    have linked : child ∈ command.shownLinks platform options := by
      rw [Command.shownLinks, if_pos shown]
      exact mem_links.mpr link
    exact succeeds fetches command member child linked
  have fetched := fetch_selected selected depth options
  rw [printRows_commands _ _ _ readable] at fetched
  exact ⟨by rw [fetched], by rw [fetched]; exact ownPrints_commands commands⟩

end Undamaged

/-- What is left of a run shows all of its own, with or without child shells, and
without an error, exactly when child shells are not fetched or every session
that is linked to is there, and so on in these. -/
theorem fetch_undamaged_iff (platform : Platform) {past : List (Database × StoreStep)} {last : Database}
    (run : Run storeStep Database.empty past last) (plain : Always PlainWrites past) {indicator : Long}
    {rows : List Row} (remaining : last.rows indicator = some rows) (condition : Nat → Row → Bool) :
    ∃ commands : List Command,
      query platform last (decimal indicator) condition = some (selectRows condition rows) ∧
      selectRows condition rows = commands.map Command.selected ∧
      (∀ command ∈ commands, ∀ event ∈ command.events, event.Plain) ∧
      ∀ options : Options,
        (∃ depth, Undamaged platform options last depth (decimal indicator) condition commands) ↔
          options.fetchChildShells = false ∨ ∃ depth, ∀ command ∈ commands,
            ∀ child ∈ command.shownLinks platform options, Present platform last options.nested depth child := by
  have recorded := outputs_fromEvents run plain
  obtain ⟨commands, same, events⟩ := selectRows_commands condition (recorded.rows remaining)
  have found : query platform last (decimal indicator) condition = some (selectRows condition rows) :=
    (query_decimal platform last indicator condition).trans (by rw [remaining]; rfl)
  have plainly : ∀ command ∈ commands, ∀ event ∈ command.events, event.Plain :=
    fun command member event among => (events command member event among).plain
  refine ⟨commands, found, same, plainly, fun options => ⟨?_, ?_⟩⟩
  · rintro ⟨depth, undamaged⟩
    by_cases fetches : options.fetchChildShells = true
    · right
      have finished := undamaged.finish
      rw [same] at found
      cases depth with
      | zero => cases finished
      | succ depth =>
          rw [fetch_selected found] at finished
          -- the call ends well only if each row does, and a row only if each of its links does
          refine ⟨depth, fun command member child link => ?_⟩
          rw [Command.shownLinks] at link
          split at link
          · rename_i shown
            have links := printRow_ok (plainly command member)
              (printRows_ok finished _ (List.mem_map_of_mem member)) shown
            have among := mem_links.mp link
            exact succeeds_present recorded (events command member _ among).2 (links child among fetches)
          · cases link
    · exact Or.inl (Bool.eq_false_iff.mpr fetches)
  · rw [same] at found
    rintro (omitted | ⟨depth, present⟩)
    · refine ⟨1, undamaged_of_succeeds found plainly fun fetches => ?_⟩
      rw [omitted] at fetches
      cases fetches
    · exact ⟨depth + 1, undamaged_of_succeeds found plainly fun _ command member child link =>
        present_succeeds (present command member child link)⟩

def removalSteps (removed : Long) : List StoreStep :=
  nestedSteps 1635274049#64 1635274055#64 ++ [.dropTable removed, .metaDelete removed]

theorem outputBytes_link {events : List OutputEvent} (plain : ∀ event ∈ events, event.Plain) {child : Text}
    (eleven : child.length = 11) (same : outputBytes events = 253#8 :: child) : events = [.link child] := by
  have silent : ∀ rest : List OutputEvent, outputBytes rest = [] → rest = [] := by
    intro rest none
    cases rest with
    | nil => rfl
    | cons event rest => cases event <;> cases none
  cases events with
  | nil => cases same
  | cons event rest =>
      cases event with
      | write fd payload =>
          have marker : specificity fd = 253#8 := (List.cons.inj same).1
          rw [specificity] at marker
          split at marker <;> cases marker
      | link other =>
          have long : other.length = 11 := plain _ List.mem_cons_self
          have parts : other ++ outputBytes rest = child := (List.cons.inj same).2
          obtain ⟨rfl, none⟩ := List.append_inj (parts.trans (List.append_nil child).symm) (long.trans eleven.symm)
          rw [silent rest none]

/-- The first of three nested shells is removed; the second one, which goes on
with a command and its child, shows both. -/
theorem fetch_undamaged_child :
    ∃ past last, Run storeStep Database.empty past last ∧ last.rows 16352740490#64 = none ∧
      query samplePlatform last (decimal 16352740520#64) wholeRange =
        some [⟨some [], some [115#8], 253#8 :: decimal 16352740550#64⟩, ⟨some [36#8], none, []⟩] ∧
      ∃ commands : List Command, ∃ depth, Undamaged samplePlatform ⟨[], true, false⟩ last depth
        (decimal 16352740520#64) wholeRange commands := by
  obtain ⟨past, last, run, plain, gone, there, selected, child⟩ := replay_some storeStep Database.empty
    [shellHandling (.handleKillSIGUSR ⟨1#32, SIGUSR1, 0#64⟩) 1635274049#64 (SlotTable.ofEntries []),
      shellHandling (.handleKillSIGUSR ⟨2#32, SIGUSR1, 16352740490#64⟩) 1635274052#64 (SlotTable.ofEntries []),
      shellHandling (.handleKillSIGUSR ⟨3#32, SIGUSR1, 16352740520#64⟩) 1635274055#64 (SlotTable.ofEntries []),
      shellHandling (.handleKillSIGRTMIN ⟨2#32, SIGRTMIN, 0#64⟩ 16) 1635274055#64
        (SlotTable.ofEntries [Shell.plain 2#32 16352740520#64]),
      .dropTable 16352740490#64, .metaDelete 16352740490#64]
    (fun past last => Always PlainWrites past ∧ last.rows 16352740490#64 = none ∧
      (last.rows 16352740520#64).isSome ∧
      query samplePlatform last (decimal 16352740520#64) wholeRange =
        some [⟨some [], some [115#8], 253#8 :: decimal 16352740550#64⟩, ⟨some [36#8], none, []⟩] ∧
      query samplePlatform last (decimal 16352740550#64) wholeRange = some [⟨some [], none, []⟩])
    (by decide +kernel)
  obtain ⟨rows, remaining⟩ := Option.isSome_iff_exists.mp there
  obtain ⟨commands, found, same, events, undamaged⟩ := fetch_undamaged_iff samplePlatform run plain remaining wholeRange
  refine ⟨past, last, run, gone, selected, commands, (undamaged _).mpr (Or.inr ⟨1, fun command member link linked => ?_⟩)⟩
  have shown : command.selected ∈ commands.map Command.selected := List.mem_map_of_mem member
  rw [← same, Option.some.inj (found.symm.trans selected)] at shown
  rcases List.mem_cons.mp shown with completed | pending
  -- its command has the link to the third shell, which has no command yet
  · have bytes : outputBytes command.events = 253#8 :: decimal 16352740550#64 := congrArg SelectedRow.output completed
    rw [Command.shownLinks, completed, outputBytes_link (events command member) rfl bytes] at linked
    obtain rfl := List.mem_singleton.mp linked
    refine ⟨[⟨some [], none, []⟩], child, fun none member shown => ?_⟩
    obtain rfl := List.mem_singleton.mp member
    cases shown
  · rw [Command.shownLinks, List.mem_singleton.mp pending] at linked
    cases linked

/-- The parent without the child is an error. -/
theorem removed_child_damages :
    ∃ past last, Run storeStep Database.empty past last ∧ Always PlainWrites past ∧
      (last.rows 16352740490#64).isSome ∧ ∀ commands depth, ¬ Undamaged samplePlatform ⟨[], true, false⟩
        last depth (decimal 16352740490#64) wholeRange commands := by
  obtain ⟨past, last, run, plain, there, fails⟩ := replay_some storeStep Database.empty
    (removalSteps 16352740550#64)
    (fun past last => Always PlainWrites past ∧ (last.rows 16352740490#64).isSome ∧
      (fetch samplePlatform last 2 (decimal 16352740490#64) wholeRange ⟨[], true, false⟩).finish = .failed)
    (by decide +kernel)
  refine ⟨past, last, run, plain, there, fun commands depth undamaged => ?_⟩
  have settled : (fetch samplePlatform last depth (decimal 16352740490#64) wholeRange
      ⟨[], true, false⟩).finish ≠ .unfinished := by
    rw [undamaged.finish]
    simp
  have failed : (fetch samplePlatform last 2 (decimal 16352740490#64) wholeRange
      ⟨[], true, false⟩).finish ≠ .unfinished := by
    rw [fails]
    simp
  have same : (fetch samplePlatform last depth (decimal 16352740490#64) wholeRange
      ⟨[], true, false⟩).finish = .failed := by
    rcases Nat.le_total depth 2 with less | more
    · rw [← fetch_settled settled less, fails]
    · rw [fetch_settled failed more, fails]
  rw [undamaged.finish] at same
  cases same

end Nhi
