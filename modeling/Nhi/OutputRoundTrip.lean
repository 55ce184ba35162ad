import Nhi.OutputEvents

/-!
What a command wrote is shown as it was written: each write whole, on its own
stream and in its place.
-/

namespace Nhi

def writeEvent (chunk : CInt × Text) : OutputEvent := .write chunk.1 chunk.2

/-- One print of one write: on stdout as it is, on stderr within `ESC[31m` and
`ESC[0m` if it is to be red. -/
def printChunk (stderrInRed : Bool) (chunk : CInt × Text) : Action :=
  if chunk.1 = 2#32 then
    .print .stderr (if stderrInRed then [27#8, 91#8, 51#8, 49#8, 109#8] ++ chunk.2 ++ [27#8, 91#8, 48#8, 109#8]
      else chunk.2)
  else .print .stdout chunk.2

/-- The text a stream receives. -/
def received (stream : Stream) (actions : List Action) : Text :=
  ((actionsBytes actions).filter fun shown => shown.1 = stream).map Prod.snd

section Shown

variable {nested : Text → Fetched} {options : Options}

theorem printed_chunk (stderrInRed : Bool) (chunk : CInt × Text) :
    Action.print (streamOf chunk.1) (shownText stderrInRed (streamOf chunk.1) chunk.2) =
      printChunk stderrInRed chunk := by
  by_cases stderr : chunk.1 = 2#32
  · simp [printChunk, streamOf, shownText, inRed, stderr]
  · simp [printChunk, streamOf, shownText, stderr]

theorem shownFrom_writes {chunks : List (CInt × Text)} (nonempty : ∀ chunk ∈ chunks, chunk.2 ≠ [])
    (actions : List Action) (pending : Text) (stream : Stream) :
    shownFrom nested options actions pending stream (chunks.map writeEvent) =
      actions ++ printed options.stderrInRed stream pending ++
        chunks.map (printChunk options.stderrInRed) := by
  induction chunks generalizing actions pending stream with
  | nil => simp [shownFrom]
  | cons chunk rest ih =>
      obtain ⟨first, others⟩ := List.forall_mem_cons.mp nonempty
      have shown : printed options.stderrInRed (streamOf chunk.1) chunk.2 =
          [printChunk options.stderrInRed chunk] := by
        rw [printed, if_neg first, printed_chunk]
      rw [List.map_cons, writeEvent, shownFrom, ih others, shown, List.map_cons]
      simp

theorem writes_succeed (chunks : List (CInt × Text)) :
    LinksSucceed nested options (chunks.map writeEvent) := by
  intro child member
  obtain ⟨chunk, _, same⟩ := List.mem_map.mp member
  cases same

theorem received_print (stream shown : Stream) (text : Text) (rest : List Action) :
    received stream (.print shown text :: rest) =
      (if shown = stream then text else []) ++ received stream rest := by
  simp only [received, actionsBytes, Action.bytes, printedBytes, List.filter_append, List.map_append]
  congr 1
  induction text with
  | nil => split <;> rfl
  | cons byte text ih =>
      by_cases here : shown = stream
      · simpa [here] using ih
      · simp [here]

theorem received_chunks (stream : Stream) (chunks : List (CInt × Text)) :
    received stream (chunks.map (printChunk false)) =
      (chunks.filter fun chunk => streamOf chunk.1 = stream).flatMap Prod.snd := by
  induction chunks with
  | nil => rfl
  | cons chunk rest ih =>
      rw [List.map_cons, ← printed_chunk, received_print, ih]
      by_cases here : streamOf chunk.1 = stream <;> simp [shownText, here]

variable (nested options) in
theorem printRows_writes (platform : Platform) {chunks : List (CInt × Text)}
    (plain : ∀ chunk ∈ chunks, chunk.2 ≠ [] ∧ ∀ byte ∈ chunk.2, byte < 253#8) (PS1 : Text) {command : Text}
    (named : command ≠ [])
    (matching : options.commandRegex = [] ∨ platform.matchString options.commandRegex command = true) :
    printRows platform nested options [⟨some PS1, some command, outputBytes (chunks.map writeEvent)⟩] =
      ⟨.print .stdout PS1 :: .print .stdout (command ++ [10#8]) :: chunks.map (printChunk options.stderrInRed),
        .ok⟩ := by
  have events : ∀ event ∈ chunks.map writeEvent, event.Plain := by
    intro event member
    obtain ⟨chunk, inside, rfl⟩ := List.mem_map.mp member
    exact (plain chunk inside).2
  have shown (output : Text) :
      SelectedRow.shown platform options ⟨some PS1, some command, output⟩ = some (PS1, command) := by
    rcases matching with every | found
    · simp [SelectedRow.shown, named, every]
    · simp [SelectedRow.shown, named, found]
  have loop (spare : Nat) : printOutput nested options spare (outputBytes (chunks.map writeEvent)) = _ :=
    printOutput_events events (writes_succeed chunks)
  simp only [shownFrom_writes fun chunk member => (plain chunk member).1] at loop
  simp [printRows, printRow, shown, loop, printed]

end Shown

/-- Recorded one after another in a fresh row, and printed with the command of
that row, the writes come out as they went in: each whole, on its own stream and
in its place, on stderr within the colour codes if there are any. -/
theorem output_round_trip (platform : Platform) (nested : Text → Fetched) (options : Options)
    (chunks : List (CInt × Text))
    (plain : ∀ chunk ∈ chunks, chunk.2 ≠ [] ∧ ∀ byte ∈ chunk.2, byte < 253#8)
    (db : Database) (indicator : Long) {row : Row} (last : db.lastRow indicator = some row)
    (fresh : row.output = []) (PS1 command : Text) (named : command ≠ [])
    (matching : options.commandRegex = [] ∨ platform.matchString options.commandRegex command = true) :
    ∃ recorded,
      ((chunks.map fun chunk => OutputEvent.write chunk.1 chunk.2).foldl (recordEvent indicator) db).lastRow
        indicator = some recorded ∧
      recorded.output = chunks.flatMap (fun chunk => (if chunk.1 = 2#32 then 254#8 else 255#8) :: chunk.2) ∧
      printRows platform nested options [⟨some PS1, some command, recorded.output⟩] =
        ⟨.print .stdout PS1 :: .print .stdout (command ++ [10#8]) :: chunks.map (fun chunk =>
          if chunk.1 = 2#32 then
            .print .stderr (if options.stderrInRed then
              [27#8, 91#8, 51#8, 49#8, 109#8] ++ chunk.2 ++ [27#8, 91#8, 48#8, 109#8] else chunk.2)
          else .print .stdout chunk.2), .ok⟩ ∧
      (options.stderrInRed = false →
        received .stdout (printRows platform nested options [⟨some PS1, some command, recorded.output⟩]).actions =
          PS1 ++ command ++ [10#8] ++ (chunks.filter fun chunk => chunk.1 ≠ 2#32).flatMap Prod.snd ∧
        received .stderr (printRows platform nested options [⟨some PS1, some command, recorded.output⟩]).actions =
          (chunks.filter fun chunk => chunk.1 = 2#32).flatMap Prod.snd) := by
  have stored : ((chunks.map writeEvent).foldl (recordEvent indicator) db).lastRow indicator =
      some { row with output := outputBytes (chunks.map writeEvent) } := by
    rw [lastRow_record _ last, fresh, List.nil_append]
  have markers : outputBytes (chunks.map writeEvent) =
      chunks.flatMap fun chunk => (if chunk.1 = 2#32 then 254#8 else 255#8) :: chunk.2 := by
    rw [outputBytes, List.flatMap_map]
    rfl
  have prints := printRows_writes nested options platform plain PS1 named matching
  refine ⟨{ row with output := outputBytes (chunks.map writeEvent) }, stored, markers, prints, fun uncoloured => ?_⟩
  rw [prints, uncoloured]
  simp only [received_print, received_chunks, streamOf]
  constructor <;> simp

theorem output_round_trip_two :
    printRows samplePlatform (fun _ => ⟨[], .unfinished⟩) ⟨[], true, true⟩
        [⟨some [36#8], some [108#8], [255#8, 97#8, 254#8, 98#8, 255#8, 99#8]⟩] =
      ⟨[.print .stdout [36#8], .print .stdout [108#8, 10#8], .print .stdout [97#8],
        .print .stderr [27#8, 91#8, 51#8, 49#8, 109#8, 98#8, 27#8, 91#8, 48#8, 109#8],
        .print .stdout [99#8]], .ok⟩ := by
  obtain ⟨recorded, _, output, prints, _⟩ := output_round_trip samplePlatform
    (fun _ => ⟨[], .unfinished⟩) ⟨[], true, true⟩
    [(1#32, [97#8]), (2#32, [98#8]), (5#32, [99#8])] (by decide)
    ((Database.empty.createTable 7#64).createRow 7#64) 7#64 rfl rfl [36#8] [108#8] (by decide)
    (Or.inl rfl)
  rw [output] at prints
  exact prints

end Nhi
