import Nhi.Daemon
import Nhi.KsysWrite

/-!
The records of the ring buffer as bytes, and `handle_event`, which has nothing
but the bytes and their number to tell the kinds of event apart.
-/

namespace Nhi

open LittleEndian

/-- The structures of common.h in memory. No field needs padding before it. -/
def Event.bytes : Event → Text
  | .kill event => word 4 event.shellPid ++ word 4 event.sig ++ word 8 event.parentShellIndicator
  | .childCreation shellPid => word 4 shellPid
  | .exitShellIndicator indicator => word 8 indicator
  | .write indicator output => word 8 indicator ++ output

/-- A call of one of the handlers, with what it reads from the record. -/
inductive HandlerCall where
  | handleKillSIGUSR (killEvent : KillEvent)
  | handleKillSIGRTMIN (killEvent : KillEvent) (dataSz : Nat)
  | handleChildCreation (shellPid : Pid)
  | handleShellExit (indicator : Long)
  | handleWrite (indicator : Long) (output : Text) (outputLen : Nat)
  deriving DecidableEq

def readKillEvent (data : Text) : KillEvent :=
  ⟨readWord 32 data 0 4, readWord 32 data 4 4, readWord 64 data 8 8⟩

def handleEvent (data : Text) (dataSz : Nat) : Option HandlerCall :=
  if dataSz = 16 then
    let killEvent := readKillEvent data
    if killEvent.sig = SIGUSR1 ∨ killEvent.sig = SIGUSR2 then some (.handleKillSIGUSR killEvent)
    else if killEvent.sig = SIGRTMIN then some (.handleKillSIGRTMIN killEvent dataSz)
    else none
  else if dataSz = 4 then some (.handleChildCreation (readWord 32 data 0 4))
  else if dataSz = 8 then some (.handleShellExit (readWord 64 data 0 8))
  else some (.handleWrite (readWord 64 data 0 8) (data.drop 8) (dataSz - 8))

def Event.handler : Event → Option HandlerCall
  | .kill event =>
      if event.sig = SIGUSR1 ∨ event.sig = SIGUSR2 then some (.handleKillSIGUSR event)
      else if event.sig = SIGRTMIN then some (.handleKillSIGRTMIN event 16)
      else none
  | .childCreation shellPid => some (.handleChildCreation shellPid)
  | .exitShellIndicator indicator => some (.handleShellExit indicator)
  | .write indicator output => some (.handleWrite indicator output output.length)

@[simp] theorem word_length {bits : Nat} (width : Nat) (value : BitVec bits) :
    (word width value).length = width := encode_length width value.toNat

theorem readKillEvent_bytes (event : KillEvent) :
    readKillEvent (Event.kill event).bytes = event := by
  have pid := readWord_word [] (word 4 event.sig ++ word 8 event.parentShellIndicator) 4
    event.shellPid (by decide)
  have sig := readWord_word (word 4 event.shellPid) (word 8 event.parentShellIndicator) 4
    event.sig (by decide)
  have indicator := readWord_word (word 4 event.shellPid ++ word 4 event.sig) [] 8
    event.parentShellIndicator (by decide)
  simp only [List.length_nil, List.nil_append, List.append_nil, List.length_append, word_length,
    ← List.append_assoc] at pid sig indicator
  simp only [readKillEvent, Event.bytes, pid, sig, indicator]

/-- A write is told from the other kinds as long as its output is neither empty
nor 8 bytes long. -/
theorem handleEvent_write (indicator : Long) (output : Text) (nonempty : output.length ≠ 0)
    (notKill : output.length ≠ 8) :
    handleEvent (Event.write indicator output).bytes (Event.write indicator output).bytes.length =
      some (.handleWrite indicator output output.length) := by
  have size : (Event.write indicator output).bytes.length = 8 + output.length := by
    simp [Event.bytes]
  have field := readWord_word [] output 8 indicator (by decide)
  simp only [List.length_nil, List.nil_append] at field
  have tail : (Event.write indicator output).bytes.drop 8 = output := by simp [Event.bytes]
  rw [handleEvent, size, if_neg (by omega), if_neg (by omega), if_neg (by omega), tail,
    Nat.add_sub_cancel_left]
  simp only [Event.bytes, field]

/-- The records that can get into the ring buffer. Nothing is assumed about the
values in the kill, fork and exit events. -/
inductive Emitted : Event → Prop where
  | kill (event : KillEvent) : Emitted (.kill event)
  | childCreation (shellPid : Pid) : Emitted (.childCreation shellPid)
  | exitShellIndicator (indicator : Long) : Emitted (.exitShellIndicator indicator)
  | write (call : WriteCall) (room : Bool) (maps : Maps) (buffer : WriteBuffer) {event : Event}
      (sent : (ksysWrite call room maps buffer).event = some event) : Emitted event

theorem killSomethingInfo_emitted {currentPid pid : Pid} {sig : CInt} {reserved : Bool} {maps : Maps}
    {event : Event} (sent : event ∈ (killSomethingInfo currentPid sig pid reserved maps).2) :
    Emitted event := by
  obtain ⟨_, indicator, rfl⟩ := killSomethingInfo_events _ _ _ _ _ _ sent
  exact .kill _

theorem forkTracepoint_emitted {currentPid childPid : Pid} {reserved : Bool} {maps : Maps}
    {event : Event} (sent : event ∈ (forkTracepoint currentPid childPid reserved maps).2) :
    Emitted event := by
  rcases forkTracepoint_cases currentPid childPid reserved maps with same | ⟨i, shellPid, _, _, same⟩
  · simp [same] at sent
  · rw [same] at sent
    obtain ⟨_, rfl⟩ := mem_submit.mp sent
    exact .childCreation shellPid

theorem doExit_emitted {currentPid : Pid} {reserved : Bool} {maps : Maps} {event : Event}
    (sent : event ∈ (doExit currentPid reserved maps).2) : Emitted event := by
  rcases doExit_cases currentPid reserved maps with
    ⟨same, _⟩ | ⟨shell, shells, _, same⟩ | ⟨_, _, same⟩
  · simp [same] at sent
  · rw [same] at sent
    obtain ⟨_, rfl⟩ := mem_submit.mp sent
    exact .exitShellIndicator shell.indicator
  · simp [same] at sent

/-- Neither 0 nor 8: the size of a record with `count` bytes never is 8 or 16. -/
theorem outputSize_apart {count : Nat} (positive : 1 ≤ count) :
    outputSize count ≠ 0 ∧ outputSize count ≠ 8 := by
  simp only [outputSize]
  split <;> omega

theorem output_length_apart {count : Nat} (positive : 1 ≤ count) {output : Nat → Byte} {bytes : Text}
    (same : (List.range (outputSize (cappedCount count))).map output = bytes) :
    bytes.length ≠ 0 ∧ bytes.length ≠ 8 := by
  have size : bytes.length = outputSize (cappedCount count) := by simp [← same]
  exact size ▸ outputSize_apart (cappedCount_pos positive)

theorem Emitted.dispatched {event : Event} (emitted : Emitted event) :
    handleEvent event.bytes event.bytes.length = event.handler := by
  cases emitted with
  | kill killEvent =>
      have size : (Event.kill killEvent).bytes.length = 16 := by simp [Event.bytes]
      rw [handleEvent, size, if_pos rfl]
      simp only [readKillEvent_bytes, Event.handler]
  | childCreation shellPid =>
      have field := readWord_word [] [] 4 shellPid (by decide)
      simp only [List.length_nil, List.nil_append, List.append_nil] at field
      simp [handleEvent, Event.bytes, Event.handler, field]
  | exitShellIndicator indicator =>
      have field := readWord_word [] [] 8 indicator (by decide)
      simp only [List.length_nil, List.nil_append, List.append_nil] at field
      simp [handleEvent, Event.bytes, Event.handler, field]
  | write call room maps buffer sent =>
      obtain ⟨found, _, positive, output, rfl⟩ := ksysWrite_event sent
      obtain ⟨nonempty, notKill⟩ := output_length_apart positive (rfl : (List.range _).map output = _)
      exact handleEvent_write _ _ nonempty notKill

/-- Every record is dispatched to its handler with the values it was filled
with; for a write the length is that of the marker and the payload sent. -/
theorem emitted_event_dispatched {event : Event} (emitted : Emitted event) :
    handleEvent event.bytes event.bytes.length = event.handler ∧
      ∀ call room maps buffer, (ksysWrite call room maps buffer).event = some event →
        ∃ indicator output, event = .write indicator output ∧
          output.length = outputSize (cappedCount call.count) ∧
          handleEvent event.bytes event.bytes.length =
            some (.handleWrite indicator output (outputSize (cappedCount call.count))) := by
  refine ⟨emitted.dispatched, ?_⟩
  intro call room maps buffer sent
  have dispatched := emitted.dispatched
  obtain ⟨found, _, _, output, rfl⟩ := ksysWrite_event sent
  refine ⟨found.indicator, (List.range (outputSize (cappedCount call.count))).map output, rfl,
    by simp, ?_⟩
  rw [dispatched, Event.handler, List.length_map, List.length_range]

theorem small_write_dispatched :
    handleEvent (Event.write 7#64 [255#8, 97#8]).bytes (Event.write 7#64 [255#8, 97#8]).bytes.length =
      some (.handleWrite 7#64 [255#8, 97#8] 2) :=
  (emitted_event_dispatched (.write (ttyWrite 2#32 [97#8]) true (tablesOf [1#32] [2#32])
    ⟨0#64, fun _ => 0#8⟩ (by decide))).1

end Nhi
