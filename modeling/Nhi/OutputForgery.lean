import Mathlib.Data.List.Forall2
import Nhi.ChildSplicing

/-!
What a traced program can make of the markers by printing them. Each byte of an
output has a role, given by the event it comes from; the loop of `printRows`
tells from the bytes alone.
-/

namespace Nhi

open BoundedLoop

inductive Role where
  | marker (stream : Stream)
  | payload (stream : Stream) (byte : Byte)
  | child (indicator : Text)
  | digit

def OutputEvent.roles : OutputEvent → List Role
  | .write fd payload => .marker (streamOf fd) :: payload.map (Role.payload (streamOf fd))
  | .link child => .child child :: child.map fun _ => .digit

def roles (events : List OutputEvent) : List Role := events.flatMap OutputEvent.roles

/-- The byte read in a pass, and the branch taken for it, match its role: a
marker is one, a link makes its nested call, and the rest is shown as text, that
of a program on the stream it was written to. -/
def Role.Read : Role → Byte × Branch → Prop
  | .marker stream, reading => reading.2 = .marker stream
  | .payload stream byte, reading => reading = (byte, .text stream)
  | .child indicator, reading => reading.2 = .child (some indicator)
  | .digit, reading => ∃ stream, reading.2 = .text stream

section Readings

variable (nested : Text → Fetched) (options : Options) (spare : Nat)

def readings : Nat → PrintState → List (Byte × Branch)
  | 0, _ => []
  | passes + 1, state =>
      match state.rest with
      | [] => []
      | character :: rest =>
          (character, branch spare state.writeStdout character rest) ::
            match printPass nested options spare state with
            | .next after => readings passes after
            | _ => []

def outputReadings (output : Text) : List (Byte × Branch) :=
  readings nested options spare output.length ⟨output, false, [], [], []⟩

end Readings

section Between

variable {nested : Text → Fetched} {options : Options} {spare : Nat}

def readingsOf (nested : Text → Fetched) (options : Options) (spare : Nat) (state : PrintState) :
    List (Byte × Branch) :=
  readings nested options spare state.rest.length state

theorem between_writeStdout (rest : Text) (actions : List Action) (pending : Text) (stream : Stream) :
    (PrintState.between rest actions pending stream).writeStdout = decide (stream = .stdout) := by
  cases stream <;> rfl

theorem readings_next {character : Byte} {rest left : Text} {actions later : List Action}
    {pending waiting : Text} {stream next : Stream} (length : left.length = rest.length)
    (pass : printPass nested options spare (.between (character :: rest) actions pending stream) =
      .next (.between left later waiting next)) :
    readingsOf nested options spare (.between (character :: rest) actions pending stream) =
      (character, branch spare (decide (stream = .stdout)) character rest) ::
        readingsOf nested options spare (.between left later waiting next) := by
  rw [readingsOf, between_rest, List.length_cons, readings, pass, between_writeStdout, readingsOf]
  simp only [between_rest, length]

theorem readings_text {payload : Text} (plain : ∀ byte ∈ payload, byte < 253#8) (rest : Text)
    (actions : List Action) (pending : Text) (stream : Stream) :
    readingsOf nested options spare (.between (payload ++ rest) actions pending stream) =
      payload.map (·, .text stream) ++
        readingsOf nested options spare (.between rest actions (pending ++ payload) stream) := by
  induction payload generalizing pending with
  | nil => simp
  | cons character payload ih =>
      obtain ⟨first, others⟩ := List.forall_mem_cons.mp plain
      rw [List.cons_append, readings_next rfl (printPass_text first ..), ih others,
        branch_text first]
      simp

theorem readings_write (fd : CInt) (rest : Text) (actions : List Action) (pending : Text)
    (stream : Stream) :
    readingsOf nested options spare (.between (specificity fd :: rest) actions pending stream) =
      (specificity fd, .marker (streamOf fd)) :: readingsOf nested options spare
        (.between rest (actions ++ printed options.stderrInRed stream pending) [] (streamOf fd)) := by
  rw [readings_next rfl (printPass_write ..), branch_specificity]

theorem readings_link {child : Text} (eleven : child.length = 11)
    (succeeds : options.fetchChildShells = true → (nested child).finish = .ok) (rest : Text)
    (actions : List Action) (pending : Text) (stream : Stream) :
    readingsOf nested options spare (.between (253#8 :: (child ++ rest)) actions pending stream) =
      (253#8, .child (some child)) :: (List.replicate 11 (0#8, .text stream) ++
        readingsOf nested options spare (.between rest (actions ++ linkActions nested options child)
          (pending ++ List.replicate 11 0#8) stream)) := by
  have zeros : ∀ byte ∈ List.replicate 11 (0#8 : Byte), byte < 253#8 := by decide
  have length : (List.replicate 11 0#8 ++ rest).length = (child ++ rest).length := by
    rw [List.length_append, List.length_append, eleven, List.length_replicate]
  rw [readings_next length (printPass_link eleven succeeds ..),
    branch_child _ eleven, readings_text zeros, List.map_replicate]

theorem readings_failed {child : Text} (eleven : child.length = 11)
    (fetches : options.fetchChildShells = true) (fails : (nested child).finish ≠ .ok) (rest : Text)
    (actions : List Action) (pending : Text) (stream : Stream) :
    readingsOf nested options spare (.between (253#8 :: (child ++ rest)) actions pending stream) =
      [(253#8, .child (some child))] := by
  cases stream <;>
    simp [readingsOf, PrintState.between, readings, printPass, branch_child, eleven, fetches, fails]

theorem payload_read (stream : Stream) (payload : Text) :
    List.Forall₂ Role.Read (payload.map (Role.payload stream)) (payload.map (·, Branch.text stream)) := by
  rw [List.forall₂_map_left_iff, List.forall₂_map_right_iff]
  exact List.forall₂_same.mpr fun _ _ => rfl

theorem digits_read {child : Text} (eleven : child.length = 11) (stream : Stream) :
    List.Forall₂ Role.Read (child.map fun _ => .digit) (List.replicate 11 (0#8, .text stream)) := by
  rw [List.forall₂_iff_get]
  refine ⟨by simp [eleven], fun i _ _ => ?_⟩
  rw [List.get_eq_getElem, List.get_eq_getElem, List.getElem_map, List.getElem_replicate]
  exact ⟨stream, rfl⟩

theorem reached_read {events : List OutputEvent} (plain : ∀ event ∈ events, event.Plain)
    (actions : List Action) (pending : Text) (stream : Stream) :
    ∃ reached missed, roles events = reached ++ missed ∧
      List.Forall₂ Role.Read reached
        (readingsOf nested options spare (.between (outputBytes events) actions pending stream)) ∧
      (LinksSucceed nested options events → missed = []) := by
  induction events generalizing actions pending stream with
  | nil => cases stream <;> exact ⟨[], [], rfl, .nil, fun _ => rfl⟩
  | cons event rest ih =>
      obtain ⟨first, others⟩ := List.forall_mem_cons.mp plain
      cases event with
      | write fd payload =>
          obtain ⟨reached, missed, split, read, complete⟩ := ih others
            (actions ++ printed options.stderrInRed stream pending) ([] ++ payload) (streamOf fd)
          refine ⟨.marker (streamOf fd) :: (payload.map (.payload (streamOf fd)) ++ reached), missed,
            ?_, ?_, fun succeeds => complete fun child member => succeeds child (.tail _ member)⟩
          · simp [roles, OutputEvent.roles, ← split]
          · rw [outputBytes, List.flatMap_cons, OutputEvent.bytes, List.cons_append, readings_write,
              readings_text first]
            exact .cons rfl (List.rel_append (payload_read _ _) read)
      | link child =>
          by_cases succeeds : options.fetchChildShells = true → (nested child).finish = .ok
          · obtain ⟨reached, missed, split, read, complete⟩ := ih others
              (actions ++ linkActions nested options child) (pending ++ List.replicate 11 0#8) stream
            refine ⟨.child child :: (child.map (fun _ => .digit) ++ reached), missed, ?_, ?_,
              fun succeeds => complete fun child member => succeeds child (.tail _ member)⟩
            · simp [roles, OutputEvent.roles, ← split]
            · rw [outputBytes, List.flatMap_cons, OutputEvent.bytes, List.cons_append,
                readings_link first succeeds]
              exact .cons rfl (List.rel_append (digits_read first _) read)
          · -- the link itself is read right, and nothing after it is read
            obtain ⟨fetches, fails⟩ := Classical.not_imp.mp succeeds
            refine ⟨[.child child], _, rfl, ?_, fun all => absurd (all child (.head _)) succeeds⟩
            rw [outputBytes, List.flatMap_cons, OutputEvent.bytes, List.cons_append,
              readings_failed first fetches fails]
            exact .cons rfl .nil

theorem plain_of_branch {stream : Stream} {character : Byte} {rest : Text}
    (taken : branch spare (decide (stream = .stdout)) character rest = .text stream) :
    character < 253#8 := by
  by_contra high
  have marker : character = 255#8 ∨ character = 254#8 ∨ character = 253#8 := by
    rw [BitVec.not_lt] at high
    have _ := BitVec.le_def.mp high
    have _ := character.isLt
    simp only [← BitVec.toNat_inj, BitVec.toNat_ofNat] at *
    omega
  rcases marker with rfl | rfl | rfl <;> simp [branch] at taken

theorem plain_of_read {payload : Text} {more : List Role} {rest : Text} {actions : List Action}
    {pending : Text} {stream : Stream}
    (read : List.Forall₂ Role.Read (payload.map (Role.payload stream) ++ more)
      (readingsOf nested options spare (.between (payload ++ rest) actions pending stream))) :
    (∀ byte ∈ payload, byte < 253#8) ∧ List.Forall₂ Role.Read more
      (readingsOf nested options spare (.between rest actions (pending ++ payload) stream)) := by
  induction payload generalizing pending with
  | nil => exact ⟨nofun, by simpa using read⟩
  | cons character payload ih =>
      have head : character < 253#8 := by
        rw [readingsOf, List.cons_append, between_rest, List.length_cons, readings] at read
        simp only [between_rest, between_writeStdout, List.map_cons, List.cons_append,
          List.forall₂_cons] at read
        exact plain_of_branch (congrArg Prod.snd read.1)
      rw [List.cons_append, readings_next rfl (printPass_text head ..), List.map_cons,
        List.cons_append, List.forall₂_cons] at read
      obtain ⟨others, later⟩ := ih read.2
      refine ⟨List.forall_mem_cons.mpr ⟨head, others⟩, ?_⟩
      rwa [List.append_assoc] at later

theorem plain_of_roles {events : List OutputEvent} (stream : Stream)
    (eleven : ∀ child, .link child ∈ events → child.length = 11)
    (succeeds : LinksSucceed nested options events) {actions : List Action} {pending : Text}
    (read : List.Forall₂ Role.Read (roles events)
      (readingsOf nested options spare (.between (outputBytes events) actions pending stream))) :
    ∀ event ∈ events, event.Plain := by
  induction events generalizing stream actions pending with
  | nil => exact nofun
  | cons event rest ih =>
      have elevens : ∀ child, .link child ∈ rest → child.length = 11 :=
        fun child member => eleven child (.tail _ member)
      have later : LinksSucceed nested options rest := fun child member => succeeds child (.tail _ member)
      rw [outputBytes, List.flatMap_cons, roles, List.flatMap_cons] at read
      cases event with
      | write fd payload =>
          rw [OutputEvent.bytes, List.cons_append, readings_write, OutputEvent.roles, List.cons_append,
            List.forall₂_cons] at read
          obtain ⟨plain, others⟩ := plain_of_read read.2
          exact List.forall_mem_cons.mpr ⟨plain, ih _ elevens later others⟩
      | link child =>
          have long := eleven child (.head _)
          rw [OutputEvent.bytes, List.cons_append, readings_link long (succeeds child (.head _)),
            OutputEvent.roles, List.cons_append, List.forall₂_cons] at read
          -- the digits have been read as zeros, and what follows is in step again
          have others := List.forall₂_drop 11 read.2
          rw [List.drop_left' (by simp [long]), List.drop_left' List.length_replicate] at others
          exact List.forall_mem_cons.mpr ⟨long, ih _ elevens later others⟩

end Between

/-! The readings are what is seen of a command from outside: the calls made for
it, and its own bytes on the two streams. -/
section Shown

def ownFetches (actions : List Action) : List Text :=
  actions.filterMap fun action => match action with
    | .print _ _ => none
    | .fetch indicator _ => some indicator

def ownBytes (actions : List Action) : List (Stream × Byte) :=
  actions.flatMap fun action => match action with
    | .print stream text => printedBytes stream text
    | .fetch _ _ => []

def readChild : Byte × Branch → Option Text
  | (_, .child indicator) => indicator
  | _ => none

def readText : Byte × Branch → Option (Stream × Byte)
  | (byte, .text stream) => some (stream, byte)
  | _ => none

variable {nested : Text → Fetched} {options : Options} {spare : Nat}

theorem ownFetches_printed (actions : List Action) (stream : Stream) (text : Text) :
    ownFetches (actions ++ printed options.stderrInRed stream text) = ownFetches actions := by
  rw [printed, ownFetches]
  split <;> simp [ownFetches]

theorem ownBytes_printed (uncoloured : options.stderrInRed = false) (actions : List Action)
    (stream : Stream) (text : Text) :
    ownBytes (actions ++ printed options.stderrInRed stream text) =
      ownBytes actions ++ printedBytes stream text := by
  rw [printed, uncoloured]
  split <;> simp_all [ownBytes, printedBytes, shownText]

theorem ownBytes_link (actions : List Action) (indicator : Text) :
    ownBytes (actions ++ linkActions nested options indicator) = ownBytes actions := by
  rw [linkActions]
  split <;> simp [ownBytes]

theorem clearIndicator_length (rest : Text) : (clearIndicator rest).length = rest.length := by
  simp only [clearIndicator, List.length_append, List.length_replicate, List.length_drop]
  omega

theorem printPass_shown (character : Byte) (rest : Text) (actions : List Action) (pending : Text)
    (stream : Stream) :
    (∃ fetched, printPass nested options spare (.between (character :: rest) actions pending stream) =
        .ret fetched ∧ fetched.finish ≠ .ok) ∨
    ∃ left later waiting next,
      printPass nested options spare (.between (character :: rest) actions pending stream) =
        .next (.between left later waiting next) ∧ left.length = rest.length ∧
      let reading := (character, branch spare (decide (stream = .stdout)) character rest)
      (options.fetchChildShells = true →
        ownFetches later = ownFetches actions ++ (readChild reading).toList) ∧
      (options.stderrInRed = false → ownBytes later ++ printedBytes next waiting =
        ownBytes actions ++ printedBytes stream pending ++ (readText reading).toList) := by
  rw [printPass_between]
  cases taken : branch spare (decide (stream = .stdout)) character rest with
  | marker next =>
      refine Or.inr ⟨_, _, _, _, rfl, rfl, fun _ => ?_, fun uncoloured => ?_⟩
      · exact (ownFetches_printed ..).trans (List.append_nil _).symm
      · rw [ownBytes_printed uncoloured]
        rfl
  | text shown =>
      obtain rfl := branch_text_stream taken
      refine Or.inr ⟨_, _, _, _, rfl, rfl, fun _ => (List.append_nil _).symm, fun _ => ?_⟩
      simp [printedBytes, readText]
  | child indicator =>
      cases indicator with
      | none => exact Or.inl ⟨_, rfl, Finish.noConfusion⟩
      | some indicator =>
          simp only
          split_ifs with stops
          · exact Or.inl ⟨_, rfl, stops.2⟩
          · refine Or.inr ⟨_, _, _, _, rfl, clearIndicator_length rest, fun mode => ?_, fun _ => ?_⟩
            · simp [ownFetches, linkActions, mode, readChild]
            · rw [ownBytes_link]
              exact (List.append_nil _).symm

theorem shown_readings {rest : Text} {actions : List Action} {pending : Text} (stream : Stream)
    (succeeds : (printEnd options (printLoop nested options spare
      (.between rest actions pending stream))).finish = .ok) :
    let shown := (printEnd options (printLoop nested options spare
      (.between rest actions pending stream))).actions
    let read := readingsOf nested options spare (.between rest actions pending stream)
    (options.fetchChildShells = true →
      ownFetches shown = ownFetches actions ++ read.filterMap readChild) ∧
    (options.stderrInRed = false →
      ownBytes shown = ownBytes actions ++ printedBytes stream pending ++ read.filterMap readText) := by
  -- on the length, since a link does not leave the rest of the output as it is
  induction length : rest.length generalizing rest actions pending stream with
  | zero =>
      obtain rfl := List.eq_nil_of_length_eq_zero length
      rw [printEnd_between]
      have none : readingsOf nested options spare (.between [] actions pending stream) = [] := by
        rw [readingsOf, between_rest]
        rfl
      simp only [none, ownFetches_printed]
      exact ⟨fun _ => (List.append_nil _).symm, fun uncoloured => by
        simp [ownBytes_printed uncoloured]⟩
  | succ n ih =>
      obtain ⟨character, rest, rfl⟩ := List.exists_cons_of_length_eq_add_one length
      rcases printPass_shown character rest actions pending stream with
        ⟨fetched, pass, fails⟩ | ⟨left, later, waiting, next, pass, same, call, bytes⟩
      · rw [printLoop_ret pass] at succeeds
        exact absurd succeeds fails
      · rw [printLoop_next same pass] at succeeds ⊢
        rw [readings_next same pass]
        obtain ⟨calls, others⟩ := ih next succeeds (same.trans (Nat.succ.inj length))
        refine ⟨fun mode => ?_, fun uncoloured => ?_⟩
        · rw [calls mode, call mode, List.append_assoc, List.filterMap_cons]
          cases readChild _ <;> rfl
        · rw [others uncoloured, bytes uncoloured, List.append_assoc, List.filterMap_cons]
          cases readText _ <;> rfl

end Shown

section Calls

def Role.called : Role → Option Text
  | .child indicator => some indicator
  | _ => none

theorem Role.Read.called {role : Role} {reading : Byte × Branch} (read : role.Read reading) :
    readChild reading = role.called := by
  obtain ⟨byte, taken⟩ := reading
  cases role with
  | marker stream => exact (show taken = _ from read) ▸ rfl
  | payload stream value => exact (show (byte, taken) = _ from read) ▸ rfl
  | child indicator => exact (show taken = _ from read) ▸ rfl
  | digit =>
      obtain ⟨stream, same⟩ := read
      exact (show taken = _ from same) ▸ rfl

theorem called_roles (events : List OutputEvent) : (roles events).filterMap Role.called = links events := by
  induction events with
  | nil => rfl
  | cons event rest ih =>
      rw [roles, List.flatMap_cons, List.filterMap_append, ← roles, ih]
      cases event with
      | write fd payload =>
          have silent : (payload.map (Role.payload (streamOf fd))).filterMap Role.called = [] := by
            rw [List.filterMap_map]
            exact List.filterMap_eq_nil_iff.mpr fun _ _ => rfl
          rw [OutputEvent.roles, List.filterMap_cons_none rfl, silent]
          rfl
      | link child =>
          have silent : (child.map fun _ => Role.digit).filterMap Role.called = [] := by
            rw [List.filterMap_map]
            exact List.filterMap_eq_nil_iff.mpr fun _ _ => rfl
          have calls : Role.called (.child child) = some child := rfl
          rw [OutputEvent.roles, List.filterMap_cons_some calls, silent]
          rfl

theorem called_read {events : List OutputEvent} {read : List (Byte × Branch)}
    (all : List.Forall₂ Role.Read (roles events) read) : read.filterMap readChild = links events := by
  rw [← called_roles]
  generalize roles events = meant at all
  induction all with
  | nil => rfl
  | cons first _ ih => rw [List.filterMap_cons, List.filterMap_cons, first.called, ih]

end Calls

/-- Every byte of an output is taken for what it is, as far as it is read, when
no payload has a marker in it; and when the nested calls succeed, only then.
What is read is what is shown, and then the calls are those of the links. -/
theorem output_read_iff (nested : Text → Fetched) (options : Options) (spare : Nat)
    (events : List OutputEvent) (eleven : ∀ child ∈ links events, child.length = 11) :
    let read := outputReadings nested options spare (outputBytes events)
    let shown := printOutput nested options spare (outputBytes events)
    ((∀ event ∈ events, event.Plain) →
      ∃ reached missed, roles events = reached ++ missed ∧ List.Forall₂ Role.Read reached read) ∧
    (LinksSucceed nested options events →
      (List.Forall₂ Role.Read (roles events) read ↔ ∀ event ∈ events, event.Plain)) ∧
    (shown.finish = .ok →
      (options.fetchChildShells = true → ownFetches shown.actions = read.filterMap readChild) ∧
      (options.stderrInRed = false → ownBytes shown.actions = read.filterMap readText)) ∧
    ((∀ event ∈ events, event.Plain) → LinksSucceed nested options events →
      options.fetchChildShells = true → ownFetches shown.actions = links events) := by
  have complete (plain : ∀ event ∈ events, event.Plain) (succeeds : LinksSucceed nested options events) :
      List.Forall₂ Role.Read (roles events)
        (outputReadings nested options spare (outputBytes events)) := by
    obtain ⟨reached, missed, split, read, complete⟩ := reached_read plain [] [] .stderr
    rw [split, complete succeeds, List.append_nil]
    exact read
  refine ⟨fun plain => ?_, fun succeeds => ⟨fun read => ?_, fun plain => complete plain succeeds⟩,
    fun succeeds => shown_readings .stderr succeeds, fun plain succeeds fetches => ?_⟩
  · obtain ⟨reached, missed, split, read, _⟩ := reached_read plain [] [] .stderr
    exact ⟨reached, missed, split, read⟩
  · exact plain_of_roles .stderr (fun child member => eleven child (mem_links.mpr member)) succeeds read
  · have finish : (printOutput nested options spare (outputBytes events)).finish = .ok := by
      rw [printOutput_events plain succeeds]
    exact ((shown_readings .stderr finish).1 fetches).trans (called_read (complete plain succeeds))

section Sample

def forgingCommand : Command :=
  ⟨some [36#8], some [112#8], [.write 1#32 (253#8 :: decimal 16352740552#64)]⟩

def forgedShells : Database :=
  ⟨[(16352740491#64, [forgingCommand.row]), (16352740552#64, [childCommand.row])], []⟩

theorem parentCommand_read :
    let nested := nestedFetch samplePlatform nestedShells 1 ⟨[], true, false⟩
    List.Forall₂ Role.Read (roles parentCommand.events)
      (outputReadings nested ⟨[], true, false⟩ 2 (outputBytes parentCommand.events)) := by
  refine ((output_read_iff _ _ _ _ (by decide +kernel)).2.1 fun child link _ => ?_).mpr
    (by decide +kernel)
  have linked := mem_links.mpr link
  have only : links parentCommand.events = [decimal 16352740552#64] := rfl
  obtain rfl := List.mem_singleton.mp (only ▸ linked)
  exact present_succeeds childCommand_present

/-- A write that is taken for a link: the other session is fetched and shown.
A write to stdout that ends up on stderr. -/
theorem payload_forges_link :
    let nested := nestedFetch samplePlatform forgedShells 1 ⟨[], true, false⟩
    let shown := (fetch samplePlatform forgedShells 2 (decimal 16352740491#64) wholeRange
      ⟨[], true, false⟩).actions
    links forgingCommand.events = [] ∧
      ownFetches shown = [decimal 16352740552#64] ∧
      actionsBytes shown = ([36#8, 112#8, 10#8, 36#8, 113#8, 10#8, 99#8] ++
        List.replicate 11 0#8).map (Stream.stdout, ·) ∧
      ¬ List.Forall₂ Role.Read (roles forgingCommand.events)
        (outputReadings nested ⟨[], true, false⟩ 3 (outputBytes forgingCommand.events)) ∧
      ownBytes (printOutput nested ⟨[], true, false⟩ 0
        (outputBytes [.write 1#32 [97#8, 254#8, 98#8]])).actions =
          [(Stream.stdout, 97#8), (Stream.stderr, 98#8)] := by
  refine ⟨rfl, by decide +kernel, by decide +kernel, fun read => ?_, by decide +kernel⟩
  have plain := plain_of_roles .stderr (by simp [forgingCommand])
    (fun child link => by simp [forgingCommand] at link) read
  exact absurd plain (by decide +kernel)

end Sample

end Nhi
