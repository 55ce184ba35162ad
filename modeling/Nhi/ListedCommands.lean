import Nhi.LogWhere

/-!
pkg/logSession/logSession.go: `getContentStrAndLen`, and which commands it lists
and `printRows` prints. Both take a row whose command is empty for a row without
one, and both leave the command empty when `rows.Scan` meets a null before it.
-/

namespace Nhi

open Sql (ascii)

/-- The variables of an iteration, zero until they are scanned. -/
structure Scanned where
  indicator : Long := 0#64
  startTime : Long := 0#64
  finishTime : Long := 0#64
  exitStatus : Text := []
  pwd : Text := []
  command : Text := []

/-- `rows.Scan`, which ends at the first null. -/
def Row.scan (row : Row) : Scanned :=
  match row.indicator with
  | none => {}
  | some indicator =>
  match row.startTime with
  | none => { indicator := indicator }
  | some startTime =>
  match row.finishTime with
  | none => { indicator := indicator, startTime := startTime }
  | some finishTime =>
  match row.exitStatus with
  | none => { indicator := indicator, startTime := startTime, finishTime := finishTime }
  | some exitStatus =>
  match row.pwd with
  | none =>
      { indicator := indicator, startTime := startTime, finishTime := finishTime, exitStatus := exitStatus }
  | some pwd =>
      { indicator := indicator, startTime := startTime, finishTime := finishTime, exitStatus := exitStatus,
        pwd := pwd, command := row.command.getD [] }

section Content

-- `time.Unix(..).String()` is left open
variable (platform : Platform) (timeString : Long → Text) (commandRegex : Text) (long : Bool)

def contentEntry (scanned : Scanned) : Text :=
  [27#8] ++ ascii "[33m" ++ ascii "indicator " ++ decimal scanned.indicator ++ [27#8] ++ ascii "[0m" ++ [10#8] ++
  ascii "Start time:  " ++ timeString scanned.startTime ++ [10#8] ++
  ascii "Finish time: " ++ timeString scanned.finishTime ++ [10#8] ++
  ascii "Exit status: " ++ scanned.exitStatus ++ [10#8] ++
  (if long then ascii "Directory: " ++ scanned.pwd ++ [10#8] else []) ++
  [10#8] ++ ascii "    " ++ scanned.command ++ [10#8, 10#8]

def addContent (content : Text) (row : Row) : Text :=
  let scanned := row.scan
  if scanned.command = [] then content
  else
    let matched := commandRegex = [] ∨ platform.matchString commandRegex scanned.command
    if matched then content ++ contentEntry timeString long scanned else content

def getContentStrAndLen (rows : List Row) : Except Text (Text × Nat) :=
  let contentStr := rows.foldl (addContent platform timeString commandRegex long) []
  let contentStrLen := contentStr.length
  if contentStrLen = 0 then .error (ascii "no commands found") else .ok (contentStr, contentStrLen)

/-- `LogSession` from its query on. What SQLite does with a text that is not a
plain query is left open. -/
def logSessionRequest (localTime : LocalTime) (unread : Text → Except Text (List Row)) (db : RowidDatabase)
    (indicator exitStatus directory before after : Text) : Except Text (Text × Nat) := do
  let text ← logSessionQuery localTime indicator exitStatus directory before after
  match selectSession db contentColumns text with
  | .rows rows => getContentStrAndLen platform timeString commandRegex long (rows.map Prod.snd)
  | .noSuchTable => .error (ascii "no such shell session: " ++ indicator)
  | .unread => (unread text).bind (getContentStrAndLen platform timeString commandRegex long)

def Row.listed (row : Row) : Option Scanned :=
  if row.scan.command = [] then none
  else if commandRegex ≠ [] ∧ ¬ platform.matchString commandRegex row.scan.command then none
  else some row.scan

def listedCommands (rows : List Row) : List Text :=
  (rows.filterMap (Row.listed platform commandRegex)).map Scanned.command

theorem addContent_listed (content : Text) (row : Row) :
    addContent platform timeString commandRegex long content row =
      content ++ (row.listed platform commandRegex).toList.flatMap (contentEntry timeString long) := by
  rw [addContent, Row.listed]
  by_cases empty : row.scan.command = []
  · simp [empty]
  · by_cases every : commandRegex = []
    · simp [empty, every]
    · cases platform.matchString commandRegex row.scan.command <;> simp [empty, every]

theorem getContentStrAndLen_listed (rows : List Row) :
    getContentStrAndLen platform timeString commandRegex long rows =
      let contentStr := (rows.filterMap (Row.listed platform commandRegex)).flatMap (contentEntry timeString long)
      if contentStr.length = 0 then .error (ascii "no commands found")
      else .ok (contentStr, contentStr.length) := by
  have loop (content : Text) : rows.foldl (addContent platform timeString commandRegex long) content =
      content ++ (rows.filterMap (Row.listed platform commandRegex)).flatMap (contentEntry timeString long) := by
    induction rows generalizing content with
    | nil => exact (List.append_nil _).symm
    | cons row rest ih =>
        rw [List.foldl_cons, ih, addContent_listed, List.append_assoc, ← List.flatMap_append]
        cases listed : row.listed platform commandRegex with
        | none => rw [List.filterMap_cons_none listed, Option.toList_none, List.nil_append]
        | some scanned => rw [List.filterMap_cons_some listed, Option.toList_some, List.singleton_append]
  rw [getContentStrAndLen, loop, List.nil_append]

end Content

/-! The commands of `printRows`. -/
section Printed

variable (platform : Platform) (nested : Text → Fetched) (options : Options)

def printedCommands : List SelectedRow → List Text
  | [] => []
  | row :: rest =>
      ((row.shown platform options).map Prod.snd).toList ++
        if (printRow platform nested options row).finish = .ok then printedCommands rest else []

/-- What is done is to print these commands, each with its prompt and what follows it. -/
theorem printRows_printedCommands (rows : List SelectedRow) :
    ∃ printed : List PrintedRow,
      (printRows platform nested options rows).actions = printed.flatMap PrintedRow.actions ∧
      printed.map PrintedRow.command = printedCommands platform nested options rows := by
  induction rows with
  | nil => exact ⟨[], rfl, rfl⟩
  | cons row rest ih =>
      obtain ⟨others, actions, commands⟩ := ih
      have first : ∃ printed : List PrintedRow,
          (printRow platform nested options row).actions = printed.flatMap PrintedRow.actions ∧
          printed.map PrintedRow.command = ((row.shown platform options).map Prod.snd).toList := by
        rw [printRow]
        cases row.shown platform options with
        | none => exact ⟨[], rfl, rfl⟩
        | some texts => exact ⟨[⟨texts.1, texts.2, _⟩], (List.flatMap_singleton ..).symm, rfl⟩
      obtain ⟨one, here, command⟩ := first
      rw [printRows, printedCommands]
      split_ifs
      · refine ⟨one ++ others, ?_, by rw [List.map_append, command, commands]⟩
        rw [List.flatMap_append, ← here, ← actions]
      · exact ⟨one, here, by rw [command, List.append_nil]⟩

theorem printedCommands_ok {rows : List SelectedRow}
    (finish : ∀ row ∈ rows, (printRow platform nested options row).finish = .ok) :
    printedCommands platform nested options rows =
      rows.filterMap fun row => (row.shown platform options).map Prod.snd := by
  induction rows with
  | nil => rfl
  | cons row rest ih =>
      obtain ⟨first, others⟩ := List.forall_mem_cons.mp finish
      rw [printedCommands, if_pos first, ih others]
      cases shown : row.shown platform options <;> simp [shown]

end Printed

end Nhi
