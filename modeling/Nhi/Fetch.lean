import Nhi.BoundedLoop
import Nhi.Database
import Nhi.RowidTable

/-!
pkg/fetch/fetch.go: `Fetch` from its query on, and `printRows`. The where clause
is a predicate on a row and its rowid. A call gives back what it did, in order,
and how it ended. `depth` bounds how deep calls may be nested; a call without
any depth left is unfinished.
-/

namespace Nhi

open BoundedLoop RowidTable

inductive Stream where
  | stdout
  | stderr
  deriving DecidableEq

/-- A print, or a nested call of `Fetch` with all that it does. -/
inductive Action where
  | print (stream : Stream) (text : Text)
  | fetch (indicator : Text) (actions : List Action)

inductive Finish where
  | ok
  | failed
  | panicked
  | unfinished
  deriving DecidableEq

structure Fetched where
  actions : List Action
  finish : Finish

structure SelectedRow where
  PS1 : Option Text
  command : Option Text
  output : Text
  deriving DecidableEq

structure Options where
  commandRegex : Text
  fetchChildShells : Bool
  stderrInRed : Bool

/-- What is left open of Go and of SQLite: the capacity a slice has beyond its
length, whether a regular expression matches, and what a query selects whose
table name closes the quotes it stands in. -/
structure Platform where
  spare : Nat → Nat
  matchString : Text → Text → Bool
  injected : Database → Text → (Nat → Row → Bool) → Option (List SelectedRow)

def samplePlatform : Platform :=
  ⟨fun length => (8 - length % 8) % 8, fun _ _ => true, fun _ _ _ => none⟩

def Row.selected (row : Row) : SelectedRow := ⟨row.PS1, row.command, row.output⟩

/-- The session table with a name. Names are numbers, and `meta` has no such columns. -/
def Database.rowsNamed (db : Database) (name : Text) : Option (List Row) :=
  (db.tables.find? fun table => decimal table.1 = name).map Prod.snd

def selectRows (condition : Nat → Row → Bool) (rows : List Row) : List SelectedRow :=
  ((number rows).filter fun entry => condition entry.1 entry.2).map fun entry => entry.2.selected

/-- `db.Query`; none for an error. SQLite reads a query up to its first NUL, so
a name with a NUL in it leaves its quotes open. -/
def query (platform : Platform) (db : Database) (indicator : Text) (condition : Nat → Row → Bool) :
    Option (List SelectedRow) :=
  if 96#8 ∈ indicator.takeWhile (· ≠ 0#8) then platform.injected db indicator condition
  else if 0#8 ∈ indicator then none
  else (db.rowsNamed indicator).map (selectRows condition)

def wholeRange (rowid : Nat) (_row : Row) : Bool := 0 < rowid && rowid ≤ 999999999

structure PrintState where
  rest : Text
  writeStdout : Bool
  stdoutOutput : Text
  stderrOutput : Text
  actions : List Action

/-- `ESC[31m` and `ESC[0m` around the text. -/
def inRed (text : Text) : Text := [27#8, 91#8, 51#8, 49#8, 109#8] ++ text ++ [27#8, 91#8, 48#8, 109#8]

def PrintState.flush (stderrInRed : Bool) (state : PrintState) : PrintState :=
  if state.stdoutOutput ≠ [] then
    { state with
      actions := state.actions ++ [.print .stdout state.stdoutOutput]
      stdoutOutput := [] }
  else if state.stderrOutput ≠ [] then
    { state with
      actions := state.actions ++
        [.print .stderr (if stderrInRed then inRed state.stderrOutput else state.stderrOutput)]
      stderrOutput := [] }
  else state

inductive Branch where
  | marker (stream : Stream)
  | child (indicator : Option Text)
  | text (stream : Stream)
  deriving DecidableEq

/-- `output[i+1:i+12]`, none when it is out of range. It is the capacity that
bounds a slice, and what lies between the length and the capacity is zero. -/
def childIndicator (spare : Nat) (rest : Text) : Option Text :=
  let behind := rest ++ List.replicate spare 0#8
  if 11 ≤ behind.length then some (behind.take 11) else none

def clearIndicator (rest : Text) : Text :=
  List.replicate (min 11 rest.length) 0#8 ++ rest.drop 11

def branch (spare : Nat) (writeStdout : Bool) (character : Byte) (rest : Text) : Branch :=
  if character = 255#8 then .marker .stdout
  else if character = 254#8 then .marker .stderr
  else if character = 253#8 then .child (childIndicator spare rest)
  else if writeStdout then .text .stdout
  else .text .stderr

section Print

variable (nested : Text → Fetched) (options : Options) (spare : Nat)

def printPass (state : PrintState) : PassEnd PrintState Fetched :=
  match state.rest with
  | [] => .leave state
  | character :: rest =>
      match branch spare state.writeStdout character rest with
      | .marker stream =>
          .next ({ state with rest := rest, writeStdout := stream = Stream.stdout }.flush
            options.stderrInRed)
      | .text .stdout =>
          .next { state with rest := rest, stdoutOutput := state.stdoutOutput ++ [character] }
      | .text .stderr =>
          .next { state with rest := rest, stderrOutput := state.stderrOutput ++ [character] }
      | .child none => .ret ⟨state.actions, .panicked⟩
      | .child (some indicator) =>
          if options.fetchChildShells then
            let child := nested indicator
            let actions := state.actions ++ [.fetch indicator child.actions]
            if child.finish = .ok then
              .next { state with rest := clearIndicator rest, actions := actions }
            else .ret ⟨actions, child.finish⟩
          -- the digits become zeros here too, and are shown as any text
          else .next { state with rest := clearIndicator rest }

def printEnd : Outcome PrintState Fetched → Fetched
  | .done state => ⟨(state.flush options.stderrInRed).actions, .ok⟩
  | .ret fetched => fetched

/-- A loop over a slice makes as many passes as it was long at the start, and
sees what is written to it meanwhile. -/
def printOutput (output : Text) : Fetched :=
  printEnd options (forLoop (printPass nested options spare) output.length ⟨output, false, [], [], []⟩)

end Print

section Rows

variable (platform : Platform) (nested : Text → Fetched) (options : Options)

/-- `rows.Scan` stops at a null text, and leaves the command empty. -/
def SelectedRow.shown (row : SelectedRow) : Option (Text × Text) :=
  row.PS1.bind fun PS1 => row.command.bind fun command =>
    if command = [] then none
    else if options.commandRegex ≠ [] ∧ ¬ platform.matchString options.commandRegex command then none
    else some (PS1, command)

def printRow (row : SelectedRow) : Fetched :=
  match row.shown platform options with
  | none => ⟨[], .ok⟩
  | some (PS1, command) =>
      let printed := printOutput nested options (platform.spare row.output.length) row.output
      ⟨.print .stdout PS1 :: .print .stdout (command ++ [10#8]) :: printed.actions, printed.finish⟩

def printRows : List SelectedRow → Fetched
  | [] => ⟨[], .ok⟩
  | row :: rest =>
      let first := printRow platform nested options row
      if first.finish = .ok then
        let others := printRows rest
        ⟨first.actions ++ others.actions, others.finish⟩
      else first

end Rows

structure PrintedRow where
  PS1 : Text
  command : Text
  output : List Action

def PrintedRow.actions (row : PrintedRow) : List Action :=
  .print .stdout row.PS1 :: .print .stdout (row.command ++ [10#8]) :: row.output

def Options.nested (options : Options) : Options := ⟨[], true, options.stderrInRed⟩

def fetch (platform : Platform) (db : Database) :
    Nat → Text → (Nat → Row → Bool) → Options → Fetched
  | 0, _, _, _ => ⟨[], .unfinished⟩
  | depth + 1, indicator, condition, options =>
      match query platform db indicator condition with
      | none => ⟨[], .failed⟩
      | some rows =>
          let nested linked := fetch platform db depth linked wholeRange options.nested
          printRows platform nested options rows

def nestedFetch (platform : Platform) (db : Database) (depth : Nat) (options : Options)
    (linked : Text) : Fetched :=
  fetch platform db depth linked wholeRange options.nested

theorem fetch_selected {platform : Platform} {db : Database} {indicator : Text}
    {condition : Nat → Row → Bool} {rows : List SelectedRow}
    (selected : query platform db indicator condition = some rows) (depth : Nat) (options : Options) :
    fetch platform db (depth + 1) indicator condition options =
      printRows platform (nestedFetch platform db depth options) options rows := by
  rw [fetch, selected]
  rfl

/-! The bytes that appear on the two streams, in the order of the prints. -/
section Bytes

def printedBytes (stream : Stream) (text : Text) : List (Stream × Byte) := text.map (stream, ·)

mutual

def Action.bytes : Action → List (Stream × Byte)
  | .print stream text => printedBytes stream text
  | .fetch _ actions => actionsBytes actions

def actionsBytes : List Action → List (Stream × Byte)
  | [] => []
  | action :: rest => action.bytes ++ actionsBytes rest

end

end Bytes

end Nhi
