import Nhi.Daemon
import Nhi.Fetch
import Nhi.KsysWrite

/-!
The output of a command as the daemon puts it together, event by event, and the
loop of `printRows` over it. Between two events at most one of the two buffers
holds text, that of the current stream.
-/

namespace Nhi

open BoundedLoop

/-- A write, with what was sent of its bytes, or the announcement of a child
shell, with what was recorded of its indicator. -/
inductive OutputEvent where
  | write (fd : CInt) (payload : Text)
  | link (child : Text)

def OutputEvent.bytes : OutputEvent → Text
  | .write fd payload => specificity fd :: payload
  | .link child => 253#8 :: child

/-- No byte of a payload is a marker, and of an indicator there are 11 bytes. -/
def OutputEvent.Plain : OutputEvent → Prop
  | .write _ payload => ∀ byte ∈ payload, byte < 253#8
  | .link child => child.length = 11

instance : DecidablePred OutputEvent.Plain
  | .write _ payload => inferInstanceAs (Decidable (∀ byte ∈ payload, byte < 253#8))
  | .link child => inferInstanceAs (Decidable (child.length = 11))

def outputBytes (events : List OutputEvent) : Text := events.flatMap OutputEvent.bytes

def streamOf (fd : CInt) : Stream := if fd = 2#32 then .stderr else .stdout

def recordEvent (indicator : Long) (db : Database) : OutputEvent → Database
  | .write fd payload => handleWrite indicator (specificity fd :: payload) (payload.length + 1) db
  | .link child => db.addOutput indicator (253#8 :: child)

/-- The digits, or as many as fit, and where there are fewer a NUL and what was
there before. -/
def recordedIndicator (opening : Opening) : Text :=
  let digits := decimal (getIndicator opening.now)
  (digits ++ 0#8 :: opening.indicatorStr.toList.drop (digits.length + 1)).take 11

theorem parentLink_bytes (opening : Opening) :
    parentLink opening = (OutputEvent.link (recordedIndicator opening)).bytes := by
  rw [parentLink, cString_toList, List.take_succ_cons, List.take_take]
  rfl

theorem recordedIndicator_length (opening : Opening) : (recordedIndicator opening).length = 11 := by
  simp [recordedIndicator]
  omega

theorem recordedIndicator_digits {opening : Opening}
    (digits : (decimal (getIndicator opening.now)).length = 11) :
    recordedIndicator opening = decimal (getIndicator opening.now) := by
  rw [recordedIndicator, ← digits, List.take_left]

section Record

theorem lastRow_recordEvent {indicator : Long} {db : Database} (event : OutputEvent) {row : Row}
    (last : db.lastRow indicator = some row) :
    (recordEvent indicator db event).lastRow indicator =
      some { row with output := row.output ++ event.bytes } := by
  cases event with
  | write fd payload =>
      simp [recordEvent, handleWrite, Database.lastRow_addOutput, last, OutputEvent.bytes]
  | link child =>
      simp [recordEvent, Database.lastRow_addOutput, last, OutputEvent.bytes]

theorem lastRow_record {indicator : Long} (events : List OutputEvent) {db : Database} {row : Row}
    (last : db.lastRow indicator = some row) :
    (events.foldl (recordEvent indicator) db).lastRow indicator =
      some { row with output := row.output ++ outputBytes events } := by
  induction events generalizing db row with
  | nil => simp [outputBytes, last]
  | cons event rest ih =>
      rw [List.foldl_cons, ih (lastRow_recordEvent event last)]
      simp [outputBytes]

end Record

section Loop

variable {nested : Text → Fetched} {options : Options} {spare : Nat}

/-- The state between two events: the text that waits is that of the stream. -/
def PrintState.between (rest : Text) (actions : List Action) (pending : Text) : Stream → PrintState
  | .stdout => ⟨rest, true, pending, [], actions⟩
  | .stderr => ⟨rest, false, [], pending, actions⟩

def shownText (stderrInRed : Bool) (stream : Stream) (text : Text) : Text :=
  if stream = .stderr ∧ stderrInRed then inRed text else text

def printed (stderrInRed : Bool) (stream : Stream) (text : Text) : List Action :=
  if text = [] then [] else [.print stream (shownText stderrInRed stream text)]

def printLoop (nested : Text → Fetched) (options : Options) (spare : Nat) (state : PrintState) :
    Outcome PrintState Fetched :=
  forLoop (printPass nested options spare) state.rest.length state

theorem flush_between (stderrInRed : Bool) (rest : Text) (actions : List Action) (pending : Text)
    (stream next : Stream) :
    ({ PrintState.between rest actions pending stream with writeStdout := next = Stream.stdout }).flush
        stderrInRed =
      .between rest (actions ++ printed stderrInRed stream pending) [] next := by
  cases stream <;> cases next <;> by_cases none : pending = [] <;>
    simp [PrintState.between, PrintState.flush, printed, shownText, none]

theorem printEnd_between (actions : List Action) (pending : Text) (stream : Stream) :
    printEnd options (printLoop nested options spare (.between [] actions pending stream)) =
      ⟨actions ++ printed options.stderrInRed stream pending, .ok⟩ := by
  cases stream <;> by_cases none : pending = [] <;>
    simp [printLoop, PrintState.between, forLoop, printEnd, PrintState.flush, printed, shownText, none]

theorem branch_text {stream : Stream} {character : Byte} (plain : character < 253#8) (rest : Text) :
    branch spare (stream = Stream.stdout) character rest = .text stream := by
  have apart (marker : Byte) (high : 253#8 ≤ marker) : character ≠ marker := by
    rintro rfl
    exact BitVec.not_lt.mpr high plain
  rw [branch, if_neg (apart _ (by decide)), if_neg (apart _ (by decide)), if_neg (apart _ (by decide))]
  cases stream <;> rfl

theorem branch_specificity (writeStdout : Bool) (fd : CInt) (rest : Text) :
    branch spare writeStdout (specificity fd) rest = .marker (streamOf fd) := by
  by_cases stderr : fd = 2#32 <;> simp [branch, specificity, streamOf, stderr]

theorem branch_child (writeStdout : Bool) {digits : Text} (eleven : digits.length = 11) (rest : Text) :
    branch spare writeStdout 253#8 (digits ++ rest) = .child (some digits) := by
  have enough : 11 ≤ digits.length + (rest.length + spare) := by omega
  simp [branch, childIndicator, ← eleven]

theorem clearIndicator_append {digits : Text} (eleven : digits.length = 11) (rest : Text) :
    clearIndicator (digits ++ rest) = List.replicate 11 0#8 ++ rest := by
  simp [clearIndicator, ← eleven]

theorem between_rest (rest : Text) (actions : List Action) (pending : Text) (stream : Stream) :
    (PrintState.between rest actions pending stream).rest = rest := by
  cases stream <;> rfl

theorem printLoop_next {character : Byte} {rest left : Text} {actions later : List Action}
    {pending waiting : Text} {stream next : Stream} (length : left.length = rest.length)
    (pass : printPass nested options spare (.between (character :: rest) actions pending stream) =
      .next (.between left later waiting next)) :
    printLoop nested options spare (.between (character :: rest) actions pending stream) =
      printLoop nested options spare (.between left later waiting next) := by
  rw [printLoop, between_rest, List.length_cons, forLoop, pass, printLoop, between_rest, length]

theorem printLoop_ret {character : Byte} {rest : Text} {actions : List Action} {pending : Text}
    {stream : Stream} {fetched : Fetched}
    (pass : printPass nested options spare (.between (character :: rest) actions pending stream) =
      .ret fetched) :
    printLoop nested options spare (.between (character :: rest) actions pending stream) =
      .ret fetched := by
  rw [printLoop, between_rest, List.length_cons, forLoop, pass]

def linkActions (nested : Text → Fetched) (options : Options) (indicator : Text) : List Action :=
  if options.fetchChildShells then [.fetch indicator (nested indicator).actions] else []

theorem branch_text_stream {stream taken : Stream} {character : Byte} {rest : Text}
    (text : branch spare (decide (stream = .stdout)) character rest = .text taken) : taken = stream := by
  simp only [branch] at text
  split_ifs at text <;> cases stream <;> cases text <;> first | rfl | contradiction

/-- One pass, from a state in which at most one buffer holds text to another such. -/
theorem printPass_between (character : Byte) (rest : Text) (actions : List Action) (pending : Text)
    (stream : Stream) :
    printPass nested options spare (.between (character :: rest) actions pending stream) =
      match branch spare (decide (stream = .stdout)) character rest with
      | .marker next =>
          .next (.between rest (actions ++ printed options.stderrInRed stream pending) [] next)
      | .text _ => .next (.between rest actions (pending ++ [character]) stream)
      | .child none => .ret ⟨actions, .panicked⟩
      | .child (some indicator) =>
          if options.fetchChildShells = true ∧ (nested indicator).finish ≠ .ok then
            .ret ⟨actions ++ linkActions nested options indicator, (nested indicator).finish⟩
          else
            .next (.between (clearIndicator rest) (actions ++ linkActions nested options indicator)
              pending stream) := by
  have marked (next : Stream) :=
    flush_between options.stderrInRed rest actions pending stream next
  cases taken : branch spare (decide (stream = .stdout)) character rest with
  | marker next => cases stream <;> simp_all [printPass, PrintState.between]
  | text shown =>
      obtain rfl := branch_text_stream taken
      cases shown <;> simp_all [printPass, PrintState.between]
  | child indicator =>
      cases indicator with
      | none => cases stream <;> simp_all [printPass, PrintState.between]
      | some indicator =>
          cases fetches : options.fetchChildShells <;>
            by_cases succeeds : (nested indicator).finish = .ok <;> cases stream <;>
              simp_all [printPass, PrintState.between, linkActions]

theorem printPass_text {character : Byte} (plain : character < 253#8) (rest : Text)
    (actions : List Action) (pending : Text) (stream : Stream) :
    printPass nested options spare (.between (character :: rest) actions pending stream) =
      .next (.between rest actions (pending ++ [character]) stream) := by
  rw [printPass_between, branch_text plain]

theorem printPass_write (fd : CInt) (rest : Text) (actions : List Action) (pending : Text)
    (stream : Stream) :
    printPass nested options spare (.between (specificity fd :: rest) actions pending stream) =
      .next (.between rest (actions ++ printed options.stderrInRed stream pending) [] (streamOf fd)) := by
  rw [printPass_between, branch_specificity]

theorem printPass_link {digits : Text} (eleven : digits.length = 11)
    (succeeds : options.fetchChildShells = true → (nested digits).finish = .ok) (rest : Text)
    (actions : List Action) (pending : Text) (stream : Stream) :
    printPass nested options spare (.between (253#8 :: (digits ++ rest)) actions pending stream) =
      .next (.between (List.replicate 11 0#8 ++ rest)
        (actions ++ linkActions nested options digits) pending stream) := by
  have goesOn : ¬ (options.fetchChildShells = true ∧ (nested digits).finish ≠ .ok) :=
    fun ⟨fetches, fails⟩ => fails (succeeds fetches)
  rw [printPass_between, branch_child _ eleven]
  simp only [if_neg goesOn, clearIndicator_append eleven]

theorem printOutput_failed {digits : Text} (eleven : digits.length = 11)
    (fetches : options.fetchChildShells = true) (fails : (nested digits).finish ≠ .ok) (rest : Text) :
    printOutput nested options spare (253#8 :: (digits ++ rest)) =
      ⟨[.fetch digits (nested digits).actions], (nested digits).finish⟩ := by
  have pass : printPass nested options spare (.between (253#8 :: (digits ++ rest)) [] [] .stderr) = _ :=
    printPass_between ..
  rw [branch_child _ eleven] at pass
  simp only [fetches, fails, ne_eq, not_false_eq_true, and_self, if_true, linkActions] at pass
  exact congrArg (printEnd options) (printLoop_ret pass)

theorem printLoop_text {payload : Text} (plain : ∀ byte ∈ payload, byte < 253#8) (rest : Text)
    (actions : List Action) (pending : Text) (stream : Stream) :
    printLoop nested options spare (.between (payload ++ rest) actions pending stream) =
      printLoop nested options spare (.between rest actions (pending ++ payload) stream) := by
  induction payload generalizing pending with
  | nil => rw [List.nil_append, List.append_nil]
  | cons character payload ih =>
      obtain ⟨first, others⟩ := List.forall_mem_cons.mp plain
      rw [List.cons_append, printLoop_next rfl (printPass_text first ..), ih others,
        List.append_assoc]
      rfl

/-- What comes of the events of a command: a write shows the text that waited
and then waits itself, a link leaves it waiting and adds 11 zeros. -/
def shownFrom (nested : Text → Fetched) (options : Options) :
    List Action → Text → Stream → List OutputEvent → List Action
  | actions, pending, stream, [] => actions ++ printed options.stderrInRed stream pending
  | actions, pending, stream, .write fd payload :: rest =>
      shownFrom nested options (actions ++ printed options.stderrInRed stream pending) payload
        (streamOf fd) rest
  | actions, pending, stream, .link child :: rest =>
      shownFrom nested options (actions ++ linkActions nested options child)
        (pending ++ List.replicate 11 0#8) stream rest

/-- The nested calls that are made for the links come to an end without an error. -/
def LinksSucceed (nested : Text → Fetched) (options : Options) (events : List OutputEvent) : Prop :=
  ∀ child, .link child ∈ events → options.fetchChildShells = true →
    (nested child).finish = .ok

theorem printLoop_events {events : List OutputEvent} (plain : ∀ event ∈ events, event.Plain)
    (succeeds : LinksSucceed nested options events) (actions : List Action) (pending : Text)
    (stream : Stream) :
    printEnd options (printLoop nested options spare
        (.between (outputBytes events) actions pending stream)) =
      ⟨shownFrom nested options actions pending stream events, .ok⟩ := by
  induction events generalizing actions pending stream with
  | nil => exact printEnd_between actions pending stream
  | cons event rest ih =>
      obtain ⟨first, others⟩ := List.forall_mem_cons.mp plain
      have later : LinksSucceed nested options rest :=
        fun child member => succeeds child (List.mem_cons_of_mem _ member)
      cases event with
      | write fd payload =>
          -- the marker shows what waited, and then the payload waits
          rw [shownFrom, ← ih others later, outputBytes, List.flatMap_cons, OutputEvent.bytes,
            List.cons_append, printLoop_next rfl (printPass_write ..),
            printLoop_text first]
          rfl
      | link child =>
          -- the call is made at once, and the zeros join the text that waits
          have zeros : ∀ byte ∈ List.replicate 11 (0#8 : Byte), byte < 253#8 := by decide
          have length : child.length = (List.replicate 11 (0#8 : Byte)).length := first
          rw [shownFrom, ← ih others later, outputBytes, List.flatMap_cons, OutputEvent.bytes,
            List.cons_append, printLoop_next (by rw [List.length_append, List.length_append, length])
              (printPass_link first (succeeds child List.mem_cons_self) ..), printLoop_text zeros]
          rfl

theorem printOutput_events {events : List OutputEvent} (plain : ∀ event ∈ events, event.Plain)
    (succeeds : LinksSucceed nested options events) :
    printOutput nested options spare (outputBytes events) =
      ⟨shownFrom nested options [] [] .stderr events, .ok⟩ :=
  printLoop_events plain succeeds [] [] .stderr

end Loop

end Nhi
