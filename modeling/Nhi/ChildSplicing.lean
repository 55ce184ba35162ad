import Nhi.OutputEvents

/-!
Where the output of a child shell appears in that of its parent. At a link the
child's session is printed at once, while what the parent wrote before is still
waiting, and the digits of the link are shown as NULs.
-/

namespace Nhi

/-- What a row holds of one command, with its output as the events that made it. -/
structure Command where
  PS1 : Option Text
  command : Option Text
  events : List OutputEvent

def Command.selected (command : Command) : SelectedRow :=
  ⟨command.PS1, command.command, outputBytes command.events⟩

def links (events : List OutputEvent) : List Text :=
  events.filterMap fun event => match event with
    | .write _ _ => none
    | .link child => some child

section Splice

variable (platform : Platform) (nested : Text → Fetched) (options : Options)

def spliced (events : List OutputEvent) : List Action :=
  events.flatMap fun event => match event with
    | .write fd payload => printed options.stderrInRed (streamOf fd) payload
    | .link child => linkActions nested options child

def Command.show (output : List OutputEvent → List Action) (command : Command) : List Action :=
  match command.selected.shown platform options with
  | none => []
  | some (PS1, text) =>
      .print .stdout PS1 :: .print .stdout (text ++ [10#8]) :: output command.events

def Command.shownLinks (command : Command) : List Text :=
  if (command.selected.shown platform options).isSome then links command.events else []

def Command.Readable (command : Command) : Prop :=
  (command.selected.shown platform options).isSome →
    (∀ event ∈ command.events, event.Plain) ∧ LinksSucceed nested options command.events

theorem printRow_command {command : Command} (readable : command.Readable platform nested options) :
    printRow platform nested options command.selected =
      ⟨command.show platform options (shownFrom nested options [] [] .stderr), .ok⟩ := by
  cases shown : command.selected.shown platform options with
  | none => simp [printRow, Command.show, shown]
  | some texts =>
      obtain ⟨plain, succeeds⟩ := readable (by rw [shown]; rfl)
      have output (spare : Nat) : printOutput nested options spare command.selected.output = _ :=
        printOutput_events plain succeeds
      simp [printRow, Command.show, shown, output]

theorem printRows_commands {commands : List Command}
    (readable : ∀ command ∈ commands, command.Readable platform nested options) :
    printRows platform nested options (commands.map Command.selected) =
      ⟨commands.flatMap (Command.show platform options (shownFrom nested options [] [] .stderr)),
        .ok⟩ := by
  induction commands with
  | nil => rfl
  | cons command rest ih =>
      obtain ⟨first, others⟩ := List.forall_mem_cons.mp readable
      simp [printRows, printRow_command platform nested options first, ih others]

end Splice

/-! The NULs among what is printed tell the two apart. -/
section Nuls

variable {platform : Platform} {nested : Text → Fetched} {options : Options}

def nuls (actions : List Action) : Nat := (actionsBytes actions).countP fun shown => shown.2 = 0#8

theorem actionsBytes_append (first second : List Action) :
    actionsBytes (first ++ second) = actionsBytes first ++ actionsBytes second := by
  induction first with
  | nil => rfl
  | cons action rest ih => rw [List.cons_append, actionsBytes, actionsBytes, ih, List.append_assoc]

theorem nuls_append (first second : List Action) : nuls (first ++ second) = nuls first + nuls second := by
  rw [nuls, actionsBytes_append, List.countP_append]
  rfl

theorem nuls_print (stream : Stream) (text : Text) : nuls [.print stream text] = text.count 0#8 := by
  simp [nuls, actionsBytes, Action.bytes, printedBytes, List.count, List.countP_map, Function.comp_def,
    BEq.beq]

theorem nuls_printed (stderrInRed : Bool) (stream : Stream) (text : Text) :
    nuls (printed stderrInRed stream text) = text.count 0#8 := by
  by_cases none : text = []
  · simp [printed, none, nuls, actionsBytes]
  · rw [printed, if_neg none, nuls_print, shownText]
    split
    · simp [inRed, List.count_append]
    · rfl

theorem nuls_shownFrom (events : List OutputEvent) (actions : List Action) (pending : Text)
    (stream : Stream) :
    nuls (shownFrom nested options actions pending stream events) =
      nuls actions + pending.count 0#8 + nuls (spliced nested options events) +
        11 * (links events).length := by
  induction events generalizing actions pending stream with
  | nil =>
      rw [shownFrom, nuls_append, nuls_printed]
      rfl
  | cons event rest ih =>
      cases event with
      | write fd payload =>
          have later := nuls_append (printed options.stderrInRed (streamOf fd) payload)
            (spliced nested options rest)
          rw [nuls_printed] at later
          rw [shownFrom, ih, nuls_append, nuls_printed]
          simp only [spliced, links, List.flatMap_cons, List.filterMap_cons] at later ⊢
          omega
      | link child =>
          have later := nuls_append (linkActions nested options child)
            (spliced nested options rest)
          have zeros : (List.replicate 11 (0#8 : Byte)).count 0#8 = 11 := by decide
          rw [shownFrom, ih, nuls_append, List.count_append, zeros]
          simp only [spliced, links, List.flatMap_cons, List.filterMap_cons, List.length_cons] at later ⊢
          omega

theorem nuls_show {command : Command} :
    nuls (command.show platform options (shownFrom nested options [] [] .stderr)) =
      nuls (command.show platform options (spliced nested options)) +
        11 * (command.shownLinks platform options).length := by
  cases shown : command.selected.shown platform options with
  | none => simp [Command.show, Command.shownLinks, shown]
  | some texts =>
      have header (output : List Action) : nuls
          (.print .stdout texts.1 :: .print .stdout (texts.2 ++ [10#8]) :: output) =
            nuls [.print .stdout texts.1, .print .stdout (texts.2 ++ [10#8])] + nuls output :=
        nuls_append [_, _] output
      have empty : nuls [] = 0 := rfl
      simp only [Command.show, Command.shownLinks, shown, Option.isSome_some, if_true]
      rw [header (shownFrom ..), header (spliced ..), nuls_shownFrom, empty, List.count_nil]
      omega

theorem nuls_commands (platform : Platform) (nested : Text → Fetched) (options : Options)
    (commands : List Command) :
    nuls (commands.flatMap (Command.show platform options (shownFrom nested options [] [] .stderr))) =
      nuls (commands.flatMap (Command.show platform options (spliced nested options))) +
        11 * (commands.flatMap (Command.shownLinks platform options)).length := by
  induction commands with
  | nil => rfl
  | cons command rest ih =>
      simp only [List.flatMap_cons, nuls_append, nuls_show, ih, List.length_append]
      omega

end Nuls

section Unlinked

variable {platform : Platform} {nested : Text → Fetched} {options : Options}

theorem shownFrom_unlinked {events : List OutputEvent} (none : links events = [])
    (actions : List Action) (pending : Text) (stream : Stream) :
    shownFrom nested options actions pending stream events =
      actions ++ printed options.stderrInRed stream pending ++ spliced nested options events := by
  induction events generalizing actions pending stream with
  | nil => exact (List.append_nil _).symm
  | cons event rest ih =>
      cases event with
      | write fd payload =>
          rw [shownFrom, ih none]
          simp [spliced]
      | link child => cases none

theorem show_unlinked {command : Command} (none : command.shownLinks platform options = []) :
    command.show platform options (shownFrom nested options [] [] .stderr) =
      command.show platform options (spliced nested options) := by
  cases shown : command.selected.shown platform options with
  | none => simp [Command.show, shown]
  | some texts =>
      have unlinked : links command.events = [] := by simpa [Command.shownLinks, shown] using none
      simp [Command.show, shown, shownFrom_unlinked unlinked, printed]

end Unlinked

/-- The session is there, its commands are of plain events, and the sessions
they link to are there in turn, down to the given depth. -/
def Present (platform : Platform) (db : Database) (options : Options) : Nat → Text → Prop
  | 0, _ => False
  | depth + 1, indicator =>
      ∃ commands : List Command,
        query platform db indicator wholeRange = some (commands.map Command.selected) ∧
        ∀ command ∈ commands, (command.selected.shown platform options).isSome →
          (∀ event ∈ command.events, event.Plain) ∧
          ∀ child ∈ links command.events, Present platform db options depth child

section Fetch

variable {platform : Platform} {db : Database} {options : Options}

theorem mem_links {events : List OutputEvent} {child : Text} :
    child ∈ links events ↔ .link child ∈ events := by
  simp only [links, List.mem_filterMap]
  constructor
  · rintro ⟨event, member, same⟩
    cases event with
    | write fd payload => cases same
    | link other =>
        obtain rfl := Option.some.inj same
        exact member
  · exact fun member => ⟨_, member, rfl⟩

theorem present_succeeds {depth : Nat} {indicator : Text}
    (present : Present platform db options.nested depth indicator) :
    (fetch platform db depth indicator wholeRange options.nested).finish = .ok := by
  induction depth generalizing indicator with
  | zero => exact present.elim
  | succ depth ih =>
      obtain ⟨commands, found, children⟩ := present
      rw [fetch_selected found, printRows_commands]
      intro command member shown
      obtain ⟨plain, linked⟩ := children command member shown
      refine ⟨plain, fun child link _ => ih (linked child (mem_links.mpr link))⟩

/-- With plain events and all linked sessions present, `Fetch` prints each write
and each child session in its place and nothing else where there are no links,
and only there. -/
theorem fetch_spliced_iff {depth : Nat} {indicator : Text} {condition : Nat → Row → Bool}
    {commands : List Command}
    (selected : query platform db indicator condition = some (commands.map Command.selected))
    (plain : ∀ command ∈ commands, (command.selected.shown platform options).isSome →
      ∀ event ∈ command.events, event.Plain)
    (present : options.fetchChildShells = true → ∀ command ∈ commands,
      ∀ child ∈ command.shownLinks platform options,
        Present platform db options.nested depth child) :
    actionsBytes (fetch platform db (depth + 1) indicator condition options).actions =
        actionsBytes (commands.flatMap
          (Command.show platform options (spliced (nestedFetch platform db depth options) options))) ↔
      ∀ command ∈ commands, command.shownLinks platform options = [] := by
  have readable : ∀ command ∈ commands,
      command.Readable platform (nestedFetch platform db depth options) options := by
    refine fun command member shown => ⟨plain command member shown, fun child link fetches => ?_⟩
    have linked : child ∈ command.shownLinks platform options := by
      rw [Command.shownLinks, if_pos shown]
      exact mem_links.mpr link
    exact present_succeeds (present fetches command member child linked)
  rw [fetch_selected selected, printRows_commands _ _ _ readable]
  constructor
  · intro same command member
    have count := nuls_commands platform (nestedFetch platform db depth options) options commands
    rw [nuls, same, ← nuls] at count
    -- 11 NULs for every link is more than there should be
    have none : commands.flatMap (Command.shownLinks platform options) = [] := by
      apply List.eq_nil_of_length_eq_zero
      omega
    exact List.flatMap_eq_nil_iff.mp none command member
  · intro none
    rw [List.flatMap_congr fun command member => show_unlinked (none command member)]

end Fetch

section Sample

def Command.row (command : Command) : Row :=
  ⟨command.PS1, command.command, outputBytes command.events, none, none, none, none, none⟩

def parentCommand : Command :=
  ⟨some [36#8], some [112#8], [.write 1#32 [97#8], .link (decimal 16352740552#64), .write 1#32 [98#8]]⟩

def childCommand : Command := ⟨some [36#8], some [113#8], [.write 1#32 [99#8]]⟩

def nestedShells : Database :=
  ⟨[(16352740491#64, [parentCommand.row]), (16352740552#64, [childCommand.row])], []⟩

theorem childCommand_selected :
    query samplePlatform nestedShells (decimal 16352740552#64) wholeRange =
      some ([childCommand].map Command.selected) := by decide +kernel

theorem childCommand_plain : ∀ event ∈ childCommand.events, event.Plain := by decide

theorem childCommand_present :
    Present samplePlatform nestedShells ⟨[], true, false⟩ 1 (decimal 16352740552#64) := by
  refine ⟨[childCommand], childCommand_selected, fun command member _ => ?_⟩
  exact List.mem_singleton.mp member ▸ ⟨childCommand_plain, nofun⟩

theorem fetch_spliced_child :
    actionsBytes (fetch samplePlatform nestedShells 1 (decimal 16352740552#64) wholeRange
        ⟨[], true, false⟩).actions = [36#8, 113#8, 10#8, 99#8].map (Stream.stdout, ·) := by
  refine ((fetch_spliced_iff childCommand_selected ?_ ?_).mpr ?_).trans (by decide +kernel)
  · exact fun command member _ => List.mem_singleton.mp member ▸ childCommand_plain
  · rintro _ command member child link
    obtain rfl := List.mem_singleton.mp member
    cases link
  · exact fun command member => List.mem_singleton.mp member ▸ rfl

/-- The child's session comes before what the parent had written, and 11 NULs
come after that, with the nested call and without. -/
theorem child_not_in_place :
    query samplePlatform nestedShells (decimal 16352740491#64) wholeRange =
        some ([parentCommand].map Command.selected) ∧
      (∀ event ∈ parentCommand.events, event.Plain) ∧
      Present samplePlatform nestedShells ⟨[], true, false⟩ 1 (decimal 16352740552#64) ∧
      ∀ fetchChildShells,
        let options : Options := ⟨[], fetchChildShells, false⟩
        let shown := actionsBytes
          (fetch samplePlatform nestedShells 2 (decimal 16352740491#64) wholeRange options).actions
        shown = ([36#8, 112#8, 10#8] ++ (if fetchChildShells then [36#8, 113#8, 10#8, 99#8] else []) ++
            97#8 :: List.replicate 11 0#8 ++ [98#8]).map (Stream.stdout, ·) ∧
        shown ≠ actionsBytes (parentCommand.show samplePlatform options
          (spliced (nestedFetch samplePlatform nestedShells 1 options) options)) := by
  exact ⟨by decide +kernel, by decide +kernel, childCommand_present, by decide +kernel⟩

end Sample

end Nhi
