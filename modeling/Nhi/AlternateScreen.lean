import Nhi.Daemon
import Nhi.StaleBuffer

/-!
The flag `omit_write` over a sequence of writes to the terminal of one shell,
from the entry that `handle_kill_SIGUSR` writes on. It should say whether the
last complete sequence was an enter. Other writes may have used the per-CPU
buffer in between, so each write finds arbitrary bytes there.
-/

namespace Nhi

open SlotTable

/-- The last complete sequence of one write: true for an enter. -/
def lastSequence (bytes : Text) : Option Bool :=
  alternateScreen.lastSwitch (fun p => bytes.getD p 0#8) (bytes.length - 7)

def written (call : WriteCall) : Text := (call.buf.getD []).take call.count

def screenAfter (last : Option Bool) (call : WriteCall) : Option Bool :=
  (lastSequence (written call)).or last

def screenFlag (last : Option Bool) : Byte := if last.getD false then 1#8 else 0#8

structure ScreenWrite (maps : Maps) (shell : Shell) (call : WriteCall) : Prop where
  tracked : ∃ i child, maps.children.search call.currentPid = .found i child ∧
    child.shellPid = shell.shellPid
  terminal : onTerminal call shell = true
  small : call.count ≤ 32758
  readable : ∃ bytes, call.buf = some bytes ∧ call.count ≤ bytes.length

structure WriteStep where
  call : WriteCall
  room : Bool
  buffer : WriteBuffer

def writeAll (children : Children) (shells : Shells) (steps : List WriteStep) : Shells :=
  steps.foldl (fun shells step => (ksysWrite step.call step.room ⟨shells, children⟩ step.buffer).shells)
    shells

/-- The scan sees what matters of a write. With an enter in its window, the last
sequence of the write is an enter. Without one, no sequence is cut off there by
the end of the write; with a leave in the window the last sequence is a leave;
and else the last sequence, if there is one, says what was known before. -/
def WriteSeen (last : Option Bool) (call : WriteCall) : Prop :=
  (EntersInside call → lastSequence (written call) = some true) ∧
  (¬ EntersInside call → ¬ OpenInside call ∧
    (LeavesBelow (clean call) (windowEnd call) → lastSequence (written call) = some false) ∧
    (¬ LeavesBelow (clean call) (windowEnd call) →
      ∀ entered, lastSequence (written call) = some entered → entered = last.getD false))

def AllSeen (last : Option Bool) : List WriteCall → Prop
  | [] => True
  | call :: rest => WriteSeen last call ∧ AllSeen (screenAfter last call) rest

instance (last : Option Bool) (call : WriteCall) : Decidable (WriteSeen last call) :=
  inferInstanceAs (Decidable (_ ∧ _))

instance decidableAllSeen : (last : Option Bool) → (calls : List WriteCall) →
    Decidable (AllSeen last calls)
  | _, [] => isTrue trivial
  | last, call :: rest =>
      haveI := decidableAllSeen (screenAfter last call) rest
      inferInstanceAs (Decidable (_ ∧ _))

def nextFlag (call : WriteCall) (buffer : WriteBuffer) (flag : Byte) : Byte :=
  if EntersBelow (filled call buffer) (windowEnd call) then 1#8
  else if LeavesBelow (filled call buffer) (windowEnd call) then 0#8
  else flag

def flagged (shells : Shells) (shellIndex : Nat) (shell : Shell) (flag : Byte) : Shells :=
  shells.update shellIndex { shell with omitWrite := flag }

section Step

variable {maps : Maps} {shellIndex : Nat} {shell : Shell} {call : WriteCall}
  (registered : maps.shells.search shell.shellPid = .found shellIndex shell)
  (screen : ScreenWrite maps shell call)

include registered screen

theorem screen_tracked (flag : Byte) :
    TrackedWrite ⟨flagged maps.shells shellIndex shell flag, maps.children⟩ shellIndex
      { shell with omitWrite := flag } call :=
  ⟨screen.tracked, search_update registered rfl, screen.terminal⟩

theorem screen_next (flag : Byte) (room : Bool) (buffer : WriteBuffer) :
    (ksysWrite call room ⟨flagged maps.shells shellIndex shell flag, maps.children⟩ buffer).shells =
      flagged maps.shells shellIndex shell (nextFlag call buffer flag) := by
  by_cases empty : call.count = 0
  · have noWindow : windowEnd call = 0 := by simp [windowEnd, scanEnd, cappedCount, empty]
    have unseen : nextFlag call buffer flag = flag := by
      simp [nextFlag, noWindow, EntersBelow, LeavesBelow]
    simp [ksysWrite, empty, unseen]
  · have accepted := (screen_tracked registered screen flag).attributed (Nat.pos_of_ne_zero empty)
    obtain ⟨positive, recorded⟩ := ksysWrite_recorded accepted room buffer
    have entry : (flagged maps.shells shellIndex shell flag).lookup shellIndex =
        some { shell with omitWrite := flag } :=
      lookup_update_self _ _ _ (lookup_lt (search_found registered).1)
    rw [recorded]
    by_cases enters : EntersBelow (filled call buffer) (windowEnd call)
    · rw [(record_enter room entry positive enters).1, setOmit_eq entry, flagged, update_update,
        nextFlag, if_pos enters, flagged]
    · rw [(record_pass room entry positive enters).1, nextFlag, if_neg enters]
      by_cases leaves : LeavesBelow (filled call buffer) (windowEnd call)
      · rw [afterLeaves, if_pos leaves, if_pos leaves, setOmit_eq entry, flagged, update_update,
          flagged]
      · rw [afterLeaves, if_neg leaves, if_neg leaves]

omit registered in
theorem screen_unwritten (none : lastSequence (written call) = .none) {i : Nat} (above : 1 ≤ i)
    (inside : i + alternateScreen.width ≤ knownEnd call) :
    ¬ alternateScreen.OnAt (clean call) i ∧ ¬ alternateScreen.OffAt (clean call) i := by
  obtain ⟨bytes, given, readable⟩ := screen.readable
  have small := screen.small
  have uncapped : cappedCount call.count = call.count := by
    simp only [cappedCount, ksysWriteEventSize]
    split <;> omega
  have limit : knownEnd call = call.count + 1 := by simp [knownEnd, given, uncapped]
  have width8 : alternateScreen.width = 8 := rfl
  have payload : (written call).length = call.count := by simp [written, given, readable]
  -- position `p` of the buffer holds byte `p - 1` of the write
  have shifted : ∀ d < alternateScreen.width,
      clean call (i + d) = (written call).getD (i - 1 + d) 0#8 := by
    intro d within
    have copied : 1 ≤ i + d ∧ i + d < 1 + call.count := by omega
    have index : i + d - 1 = i - 1 + d := by omega
    have below : i - 1 + d < call.count := by omega
    have inBytes : i - 1 + d < bytes.length := by omega
    simp [clean, filled, fillBuffer, given, uncapped, probeReadUser, copied, readable, index,
      written, below, inBytes]
  have unseen := Switch.lastSwitch_none none (i - 1) (by omega)
  exact ⟨fun on => unseen.1 ((Switch.onAt_congr shifted).mp on),
    fun off => unseen.2 ((Switch.offAt_congr shifted).mp off)⟩

omit registered screen in
theorem screenFlag_inj {first second : Option Bool} :
    screenFlag first = screenFlag second ↔ first.getD false = second.getD false := by
  unfold screenFlag
  cases first.getD false <;> cases second.getD false <;> decide

def FlagRight (last : Option Bool) (call : WriteCall) : Prop :=
  ∀ buffer, nextFlag call buffer (screenFlag last) = screenFlag (screenAfter last call)

omit registered screen in
theorem WriteSeen.flagRight {last : Option Bool} (seen : WriteSeen last call) :
    FlagRight last call := by
  intro buffer
  by_cases enters : EntersInside call
  · rw [nextFlag, if_pos (enters.below buffer), screenAfter, seen.1 enters]
    rfl
  · obtain ⟨closed, leaving, outside⟩ := seen.2 enters
    rw [nextFlag, if_neg (mt (closed_enters closed buffer).mp enters)]
    simp only [closed_leaves closed]
    by_cases leaves : LeavesBelow (clean call) (windowEnd call)
    · rw [if_pos leaves, screenAfter, leaving leaves]
      rfl
    · rw [if_neg leaves, screenAfter]
      cases final : lastSequence (written call) with
      | none => rfl
      | some entered => exact screenFlag_inj.mpr (outside leaves entered final).symm

omit registered in
theorem screen_writeSeen {last : Option Bool} (right : FlagRight last call) : WriteSeen last call := by
  have found (entered : Bool) (some : lastSequence (written call) = .some entered) :
      screenFlag (screenAfter last call) = screenFlag (.some entered) := by
    rw [screenAfter, some]
    rfl
  refine ⟨?_, ?_⟩
  · intro enters
    obtain ⟨i, below, above, inside, on⟩ := enters
    have result := right ⟨0#64, fun _ => 0#8⟩
    rw [nextFlag, if_pos ⟨i, below, above, on⟩] at result
    cases final : lastSequence (written call) with
    | none => exact absurd on (screen_unwritten screen final above inside).1
    | some entered =>
        rw [found entered final] at result
        cases entered
        · exact absurd result (by decide)
        · rfl
  · intro none
    -- two buffers would leave two different flags
    have closed : ¬ OpenInside call := by
      intro opened
      obtain ⟨first, second, enters, passes, leaves⟩ := open_completions opened none
      have one := right first
      have zero := right second
      rw [nextFlag, if_pos enters] at one
      rw [nextFlag, if_neg passes, if_pos leaves] at zero
      exact absurd (one.trans zero.symm) (by decide)
    have result := right ⟨0#64, fun _ => 0#8⟩
    rw [nextFlag, if_neg (mt (closed_enters closed _).mp none)] at result
    refine ⟨closed, ?_, ?_⟩
    · intro leaves
      rw [if_pos ((closed_leaves closed _).mpr leaves)] at result
      obtain ⟨i, below, above, off⟩ := leaves
      have inside := closed_inside closed ⟨0#64, fun _ => 0#8⟩ below above off.1
      cases final : lastSequence (written call) with
      | none => exact absurd off (screen_unwritten screen final above inside).2
      | some entered =>
          rw [found entered final] at result
          cases entered
          · rfl
          · exact absurd result (by decide)
    · intro stays entered final
      rw [if_neg (mt (closed_leaves closed _).mp stays), found entered final] at result
      exact (screenFlag_inj.mp result).symm

end Step

def flagAt (shells : Shells) (shellIndex : Nat) : Option Byte :=
  (shells.lookup shellIndex).map Shell.omitWrite

def ScreenRight (maps : Maps) (shellIndex : Nat) (calls : List WriteCall) : Prop :=
  ∀ steps : List WriteStep, steps.map WriteStep.call <+: calls →
    flagAt (writeAll maps.children maps.shells steps) shellIndex =
      some (screenFlag ((steps.map WriteStep.call).foldl screenAfter none))

section Run

variable {maps : Maps} {shellIndex : Nat} {shell : Shell}
  (registered : maps.shells.search shell.shellPid = .found shellIndex shell)

include registered

theorem flagAt_flagged (flag : Byte) :
    flagAt (flagged maps.shells shellIndex shell flag) shellIndex = some flag := by
  rw [flagAt, flagged, lookup_update_self _ _ _ (lookup_lt (search_found registered).1)]
  rfl

theorem writeAll_right_iff {calls : List WriteCall} (screens : ∀ call ∈ calls, ScreenWrite maps shell call)
    (last : Option Bool) :
    (∀ steps : List WriteStep, steps.map WriteStep.call <+: calls →
      flagAt (writeAll maps.children (flagged maps.shells shellIndex shell (screenFlag last)) steps)
          shellIndex =
        some (screenFlag ((steps.map WriteStep.call).foldl screenAfter last))) ↔
      AllSeen last calls := by
  induction calls generalizing last with
  | nil =>
      apply iff_of_true _ trivial
      intro steps none
      obtain rfl : steps = [] := by simpa using List.prefix_nil.mp none
      exact flagAt_flagged registered _
  | cons call rest ih =>
      have screen := screens call List.mem_cons_self
      have onRest := ih fun other member => screens other (List.mem_cons_of_mem call member)
      -- the rest of the writes starts from the flag this one leaves
      have first (step : WriteStep) (same : step.call = call) (steps : List WriteStep) :
          writeAll maps.children (flagged maps.shells shellIndex shell (screenFlag last))
              (step :: steps) =
            writeAll maps.children (flagged maps.shells shellIndex shell
              (nextFlag call step.buffer (screenFlag last))) steps := by
        rw [← screen_next registered screen (screenFlag last) step.room step.buffer, ← same]
        rfl
      constructor
      · intro right
        have here : FlagRight last call := by
          intro buffer
          have result := right [⟨call, true, buffer⟩] (by simp)
          rw [first _ rfl] at result
          simpa [writeAll, flagAt_flagged registered] using result
        refine ⟨screen_writeSeen screen here, (onRest (screenAfter last call)).mp ?_⟩
        intro steps inside
        have result := right (⟨call, true, ⟨0#64, fun _ => 0#8⟩⟩ :: steps) (by simpa using inside)
        rw [first _ rfl, here] at result
        exact result
      · rintro ⟨seen, later⟩ steps inside
        cases steps with
        | nil => exact flagAt_flagged registered _
        | cons step steps =>
            obtain ⟨same, remaining⟩ := List.cons_prefix_cons.mp inside
            rw [first step same, seen.flagRight, List.map_cons, List.foldl_cons, same]
            exact (onRest (screenAfter last call)).mpr later steps remaining

end Run

/-- For the entry that `handle_kill_SIGUSR` writes, and any writes of the shell's
children: the flag is right after each of them exactly when it happened to be
zero on the daemon's stack and the scan sees what matters of every write. -/
theorem omit_write_right_iff {maps : Maps} {shellIndex : Nat} {closing : Closing}
    {killEvent : KillEvent} {indicator : Long} {line : Text} {calls : List WriteCall}
    (registered : maps.shells.search killEvent.shellPid =
      .found shellIndex (newShell closing killEvent indicator line))
    (screens : ∀ call ∈ calls, ScreenWrite maps (newShell closing killEvent indicator line) call) :
    ScreenRight maps shellIndex calls ↔ closing.stack.omitWrite = 0#8 ∧ AllSeen none calls := by
  have listed := (search_found registered).1
  have zeroed (zero : closing.stack.omitWrite = 0#8) :
      flagged maps.shells shellIndex (newShell closing killEvent indicator line) (screenFlag none) =
        maps.shells := by
    have same : { newShell closing killEvent indicator line with omitWrite := screenFlag none } =
        newShell closing killEvent indicator line := by
      simp [newShell, screenFlag, zero]
    rw [flagged, same, update_found listed]
  constructor
  · intro right
    have initial := right [] (by simp)
    have zero : closing.stack.omitWrite = 0#8 := by
      simpa [flagAt, writeAll, listed, newShell, screenFlag] using initial
    refine ⟨zero, (writeAll_right_iff registered screens none).mp ?_⟩
    rw [zeroed zero]
    exact right
  · rintro ⟨zero, seen⟩
    have right := (writeAll_right_iff registered screens none).mpr seen
    rw [zeroed zero] at right
    exact right

def enteredShell (stack : Shell) : Shell :=
  newShell ⟨1#64, none, none, none, stack⟩ ⟨1#32, SIGUSR1, 0#64⟩ 7#64 []

def enteredMaps (stack : Shell) : Maps :=
  ⟨ofEntries [enteredShell stack], ofEntries [⟨2#32, 1#32⟩]⟩

def enterSequence : Text := alternateScreen.lead ++ [104#8]

def leaveSequence : Text := alternateScreen.lead ++ [108#8]

theorem omit_write_right_enter :
    ScreenRight (enteredMaps Slot.blank) 0 [ttyWrite 2#32 enterSequence, ttyWrite 2#32 [97#8]] := by
  have screens : ∀ call ∈ [ttyWrite 2#32 enterSequence, ttyWrite 2#32 [97#8]],
      ScreenWrite (enteredMaps Slot.blank) (enteredShell Slot.blank) call := by
    intro call member
    simp only [List.mem_cons, List.not_mem_nil, or_false] at member
    rcases member with rfl | rfl
    · exact ⟨⟨0, ⟨2#32, 1#32⟩, rfl, rfl⟩, rfl, by decide, _, rfl, by decide⟩
    · exact ⟨⟨0, ⟨2#32, 1#32⟩, rfl, rfl⟩, rfl, by decide, _, rfl, by decide⟩
  exact (omit_write_right_iff rfl screens).mpr ⟨rfl, by decide⟩

/-- A stack that happens to hold 1 omits the output of a shell from the start,
and an enter followed by a leave in one write leaves the flag set. -/
theorem omit_write_sticks :
    ¬ ScreenRight (enteredMaps { (Slot.blank : Shell) with omitWrite := 1#8 }) 0 [] ∧
      ¬ ScreenRight (enteredMaps Slot.blank) 0
        [ttyWrite 2#32 (enterSequence ++ leaveSequence)] := by
  constructor
  · exact fun right => absurd (right [] (by simp)) (by decide)
  · exact fun right => absurd
      (right [⟨ttyWrite 2#32 (enterSequence ++ leaveSequence), true, ⟨0#64, fun _ => 0#8⟩⟩] (by simp))
      (by decide)

end Nhi
