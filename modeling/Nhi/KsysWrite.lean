import Nhi.KernelTables
import Nhi.SwitchScan

/-!
`ksys_write` of daemon/src/nhi.bpf.c, run when a `write` system call returns.
It finds the shell the caller belongs to, checks that the written file is that
shell's terminal, copies the user bytes behind a marker into a per-CPU buffer,
looks for the escape sequences that enter and leave the alternate screen and
sends the buffer to the ring buffer.

The program is not given the return value of the system call. The two lookups
that cannot fail (the per-CPU arrays at key 0) are not modelled.
-/

namespace Nhi

open BoundedLoop SlotTable

structure WriteBuffer where
  indicator : Long
  output : Nat → Byte

/-- What the reads through the file pointer deliver: the group of the inode and
the name of the directory entry with its length. -/
structure Dentry where
  gid : BitVec 32
  len : BitVec 32
  name : Text
  deriving DecidableEq

/-- What the stack held where a local variable is read before it is assigned. -/
structure Stack where
  shellPid : Pid
  terminal : Vector Byte 8
  deriving DecidableEq

/-- One `write`. `buf` is `none` for a null pointer, else the bytes that can be
read from it on. -/
structure WriteCall where
  currentPid : Pid
  fd : CInt
  buf : Option Text
  count : Nat
  dentry : Dentry
  stack : Stack
  deriving DecidableEq

structure Attribution where
  shellIndex : Nat
  indicator : Long
  shell : Shell
  deriving DecidableEq

/-- The search of `shells`. Past its last pass the loop leaves `shell` at the
last slot, `shell_index` at the bound and `indicator` at 0. -/
def findIndicator (shellPid : Pid) (shells : Shells) : Option Attribution :=
  match shells.search shellPid with
  | .free _ => none
  | .found i shell => some ⟨i, shell.indicator, shell⟩
  | .bound => (shells.lookup (shellsMaxEntries - 1)).map fun shell =>
      ⟨shellsMaxEntries, 0#64, shell⟩

/-- The search of `children`. Past its last pass `shell_pid` is unassigned. -/
def findShell (call : WriteCall) (maps : Maps) : Option Attribution :=
  match maps.children.search call.currentPid with
  | .free _ => none
  | .found _ child => findIndicator child.shellPid maps.shells
  | .bound => findIndicator call.stack.shellPid maps.shells

def terminalBody (terminal : Vector Byte 8) (len : BitVec 32) (shell : Shell) (i : Nat) :
    PassEnd Nat Unit :=
  if 0 < len.toNat ∧ i = len.toNat then .leave i
  else if terminal[i]? ≠ shell.terminal[i]? then .ret ()
  else .next (i + 1)

/-- `d_name.len` is compared with a `char`, which is sign extended. -/
def terminalAccepts (terminal : Vector Byte 8) (len : BitVec 32) (shell : Shell) : Bool :=
  if len = 3#32 ∧ terminal[0] = 116#8 ∧ terminal[1] = 116#8 ∧ terminal[2] = 121#8 then true
  else if len = shell.terminalLen.signExtend 32 then
    match forLoop (terminalBody terminal len shell) 8 0 with
    | .done _ => true
    | .ret () => false
  else false

/-- `bpf_core_read_str` copies at most seven bytes and a terminator. -/
def readTerminal (call : WriteCall) : Vector Byte 8 :=
  cString call.stack.terminal ((call.dentry.name.takeWhile (· ≠ 0#8)).take 7)

def onTerminal (call : WriteCall) (shell : Shell) : Bool :=
  call.dentry.gid = 5#32 && terminalAccepts (readTerminal call) call.dentry.len shell

/-- -2 for standard error, -1 for any other descriptor. -/
def specificity (fd : CInt) : Byte := if fd = 2#32 then 254#8 else 255#8

def cappedCount (count : Nat) : Nat :=
  -- the bound of the test is one more than what is left afterwards
  if count > ksysWriteEventSize - 8 - 1 then ksysWriteEventSize - 8 - 2 else count

/-- `bpf_probe_read_user` to `output + 1`: on a fault the destination is zeroed. -/
def probeReadUser (output : Nat → Byte) (count : Nat) (readable : Text) : Nat → Byte :=
  fun p =>
    if 1 ≤ p ∧ p < 1 + count then
      if count ≤ readable.length then readable.getD (p - 1) 0#8 else 0#8
    else output p

def fillBuffer (call : WriteCall) (indicator : Long) (buffer : WriteBuffer) : WriteBuffer :=
  let marked : Nat → Byte := fun p => if p = 0 then specificity call.fd else buffer.output p
  { indicator := indicator
    output := match call.buf with
      | some readable => probeReadUser marked (cappedCount call.count) readable
      | none => marked }

/-- ESC [ ? 1 0 4 9, then `h` to enter the alternate screen or `l` to leave it. -/
def alternateScreen : Switch Byte where
  lead := [27#8, 91#8, 63#8, 49#8, 48#8, 52#8, 57#8]
  on := 104#8
  off := 108#8
  blank := 0#8
  nonempty := by decide
  apart := by decide
  offApart := by decide
  blankApart := by decide
  differ := by decide

structure ScanState where
  index : Nat
  output : Nat → Byte
  shells : Shells

def blankSequence (output : Nat → Byte) (i : Nat) : Nat → Byte :=
  fun p => if i ≤ p ∧ p < i + 8 then 0#8 else output p

def scanBody (count shellIndex : Nat) (state : ScanState) : PassEnd ScanState ScanState :=
  if state.index = count then .leave state
  else if alternateScreen.LeadAt state.output state.index then
    match state.shells.lookup shellIndex with
    | none => .ret state
    | some helper =>
        -- an enter ends the program here, a leave lets the scan go on
        if state.output (state.index + 7) = 104#8 then
          .ret { state with shells := state.shells.update shellIndex { helper with omitWrite := 1#8 } }
        else if state.output (state.index + 7) = 108#8 then
          .next ⟨state.index + 1, blankSequence state.output state.index,
            state.shells.update shellIndex { helper with omitWrite := 0#8 }⟩
        else .next { state with index := state.index + 1 }
  else .next { state with index := state.index + 1 }

structure WriteResult where
  shells : Shells
  buffer : WriteBuffer
  event : Option Event

/-- The marker and the payload; an event of 16 bytes would be taken for a kill. -/
def outputSize (count : Nat) : Nat := (if count = 7 then count + 1 else count) + 1

/-- `bpf_ringbuf_output` of the buffer; `room` says whether it succeeds. -/
def emit (room : Bool) (count : Nat) (buffer : WriteBuffer) : Option Event :=
  if room then some (.write buffer.indicator ((List.range (outputSize count)).map buffer.output))
  else none

theorem emit_congr {room : Bool} {count : Nat} {first second : WriteBuffer}
    (indicators : first.indicator = second.indicator)
    (outputs : ∀ p < outputSize count, first.output p = second.output p) :
    emit room count first = emit room count second := by
  have same : (List.range (outputSize count)).map first.output =
      (List.range (outputSize count)).map second.output :=
    List.map_congr_left fun p member => outputs p (List.mem_range.mp member)
  rw [emit, emit, indicators, same]

theorem emit_output {count : Nat} {first second : WriteBuffer}
    (same : emit true count first = emit true count second) {p : Nat}
    (sent : p < outputSize count) : first.output p = second.output p := by
  have outputs : (List.range (outputSize count)).map first.output =
      (List.range (outputSize count)).map second.output := by
    simp only [emit, if_true, Option.some.injEq, Event.write.injEq] at same
    exact same.2
  exact List.map_inj_left.mp outputs p (List.mem_range.mpr sent)

def record (call : WriteCall) (found : Attribution) (room : Bool) (shells : Shells)
    (buffer : WriteBuffer) : WriteResult :=
  let count := cappedCount call.count
  let filled := fillBuffer call found.indicator buffer
  match forLoop (scanBody count found.shellIndex) 511 ⟨1, filled.output, shells⟩ with
  | .ret state => ⟨state.shells, { filled with output := state.output }, none⟩
  | .done state =>
      let after : WriteBuffer := { filled with output := state.output }
      -- the slot is looked up again; past the table there is no flag to test
      ⟨state.shells, after,
        if (state.shells.lookup found.shellIndex).any (fun shell => shell.omitWrite = 1#8) then none
        else emit room count after⟩

def ksysWrite (call : WriteCall) (room : Bool) (maps : Maps) (buffer : WriteBuffer) :
    WriteResult :=
  if call.count = 0 then ⟨maps.shells, buffer, none⟩
  else
    match findShell call maps with
    | none => ⟨maps.shells, buffer, none⟩
    | some found =>
        if onTerminal call found.shell then record call found room maps.shells buffer
        else ⟨maps.shells, buffer, none⟩

def ttyWrite (currentPid : Pid) (bytes : Text) : WriteCall :=
  ⟨currentPid, 1#32, some bytes, bytes.length, ⟨5#32, 3#32, [116#8, 116#8, 121#8]⟩,
    ⟨0#32, Vector.replicate 8 0#8⟩⟩

def attributed (call : WriteCall) (maps : Maps) : Option Attribution :=
  if call.count = 0 then none
  else (findShell call maps).filter fun found => onTerminal call found.shell

theorem ksysWrite_ignored {call : WriteCall} {maps : Maps} (none : attributed call maps = .none)
    (room : Bool) (buffer : WriteBuffer) :
    ksysWrite call room maps buffer = ⟨maps.shells, buffer, .none⟩ := by
  by_cases zero : call.count = 0
  · simp [ksysWrite, zero]
  · cases search : findShell call maps with
    | none => simp [ksysWrite, zero, search]
    | some found =>
        have off : onTerminal call found.shell = false := by
          simpa [attributed, zero, search] using none
        simp [ksysWrite, zero, search, off]

theorem attributed_some {call : WriteCall} {maps : Maps} {found : Attribution}
    (accepted : attributed call maps = some found) :
    findShell call maps = some found ∧ onTerminal call found.shell = true := by
  by_cases zero : call.count = 0
  · simp [attributed, zero] at accepted
  · simpa [attributed, zero, Option.filter_eq_some_iff] using accepted

theorem attributed_of_found {call : WriteCall} {maps : Maps} {found : Attribution}
    (nonempty : 1 ≤ call.count) (located : findShell call maps = some found)
    (on : onTerminal call found.shell = true) : attributed call maps = some found := by
  have nonzero : call.count ≠ 0 := by omega
  simp [attributed, nonzero, located, on]

theorem ksysWrite_recorded {call : WriteCall} {maps : Maps} {found : Attribution}
    (some : attributed call maps = .some found) (room : Bool) (buffer : WriteBuffer) :
    1 ≤ call.count ∧
      ksysWrite call room maps buffer = record call found room maps.shells buffer := by
  by_cases zero : call.count = 0
  · simp [attributed, zero] at some
  · obtain ⟨search, on⟩ := attributed_some some
    exact ⟨by omega, by simp [ksysWrite, zero, search, on]⟩

structure TrackedWrite (maps : Maps) (shellIndex : Nat) (shell : Shell) (call : WriteCall) : Prop where
  tracked : ∃ i child, maps.children.search call.currentPid = .found i child ∧
    child.shellPid = shell.shellPid
  registered : maps.shells.search shell.shellPid = .found shellIndex shell
  terminal : onTerminal call shell = true

theorem TrackedWrite.attributed {maps : Maps} {shellIndex : Nat} {shell : Shell} {call : WriteCall}
    (write : TrackedWrite maps shellIndex shell call) (nonempty : 1 ≤ call.count) :
    Nhi.attributed call maps = some ⟨shellIndex, shell.indicator, shell⟩ := by
  obtain ⟨i, child, tracked, parent⟩ := write.tracked
  refine attributed_of_found nonempty ?_ write.terminal
  simp [findShell, tracked, parent, findIndicator, write.registered]

theorem record_event {call : WriteCall} {found : Attribution} {room : Bool} {shells : Shells}
    {buffer : WriteBuffer} {event : Event}
    (sent : (record call found room shells buffer).event = some event) :
    ∃ output : Nat → Byte, event =
      .write found.indicator ((List.range (outputSize (cappedCount call.count))).map output) := by
  simp only [record] at sent
  cases outcome : forLoop (scanBody (cappedCount call.count) found.shellIndex) 511
      ⟨1, (fillBuffer call found.indicator buffer).output, shells⟩ with
  | ret state => simp [outcome] at sent
  | done state =>
      simp only [outcome] at sent
      split at sent
      · cases sent
      · cases room with
        | false => simp [emit] at sent
        | true =>
            simp only [emit, if_true, Option.some.injEq] at sent
            exact ⟨state.output, sent.symm⟩

theorem ksysWrite_event {call : WriteCall} {room : Bool} {maps : Maps} {buffer : WriteBuffer}
    {event : Event} (sent : (ksysWrite call room maps buffer).event = some event) :
    ∃ found, attributed call maps = some found ∧ 1 ≤ call.count ∧ ∃ output : Nat → Byte,
      event = .write found.indicator
        ((List.range (outputSize (cappedCount call.count))).map output) := by
  cases accepted : attributed call maps with
  | none =>
      rw [ksysWrite_ignored accepted] at sent
      cases sent
  | some found =>
      obtain ⟨positive, recorded⟩ := ksysWrite_recorded accepted room buffer
      rw [recorded] at sent
      exact ⟨found, rfl, positive, record_event sent⟩

theorem cappedCount_pos {count : Nat} (positive : 1 ≤ count) : 1 ≤ cappedCount count := by
  simp only [cappedCount, ksysWriteEventSize]
  split <;> omega

end Nhi
