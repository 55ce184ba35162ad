import Nhi.CapturedOutput
import Nhi.StoredOutput
import Nhi.SwitchText
import Nhi.TrackingMaps

/-!
From the terminals to the database. What the processes of a session write on its
terminal is what the table of the session has, text after text, but for what is
drawn in the alternate screen. There are no buffers, slots or records on this
side of the comparison, only processes, shells and texts.
-/

namespace Nhi

open SlotTable RunHistory

/-- What is recorded of the text of a write. -/
def writtenText (call : WriteCall) : Text := (call.buf.getD []).take (cappedCount call.count)

/-- Seven bytes are sent with one more behind them, of an earlier write. -/
def staleText (call : WriteCall) (buffer : WriteBuffer) : Text :=
  if call.count = 7 then [buffer.output 8] else []

/-- The bytes asked for can be read, and every sequence among them is whole and
begins in the first 511. -/
def Legible (call : WriteCall) : Prop :=
  cappedCount call.count ≤ (call.buf.getD []).length ∧ alternateScreen.Recognised 511 (writtenText call)

instance (call : WriteCall) : Decidable (Legible call) := inferInstanceAs (Decidable (_ ∧ _))

def screenAfterText (text : Text) (flag : Byte) : Byte :=
  if alternateScreen.Enters text then 1#8 else if alternateScreen.Leaves text then 0#8 else flag

section Text

variable {call : WriteCall} (legible : Legible call) (buffer : WriteBuffer)

include legible

theorem writtenText_length : (writtenText call).length = cappedCount call.count := by
  rw [writtenText, List.length_take, Nat.min_eq_left legible.1]

theorem filled_text :
    ∀ p < (writtenText call).length, filled call buffer (1 + p) = alternateScreen.spread (writtenText call) p := by
  intro p inside
  rw [writtenText_length legible] at inside
  cases given : call.buf with
  | none =>
      have nothing : cappedCount call.count ≤ 0 := by simpa [given] using legible.1
      omega
  | some readable =>
      have enough : cappedCount call.count ≤ readable.length := by simpa [given] using legible.1
      have below : p < (writtenText call).length := (writtenText_length legible).symm ▸ inside
      rw [Nat.add_comm 1 p, filled_payload buffer given enough inside, Switch.spread_inside _ below]
      simp [writtenText, given]

theorem window_reach {i : Nat} (early : i < 511) (whole : i + alternateScreen.width ≤ (writtenText call).length) :
    1 + i < windowEnd call := by
  rw [writtenText_length legible] at whole
  have width : alternateScreen.width = 8 := rfl
  rw [windowEnd, scanEnd]
  omega

theorem window_short : windowEnd call ≤ 1 + (writtenText call).length := by
  rw [writtenText_length legible, windowEnd, scanEnd]
  omega

theorem enters_text : EntersBelow (filled call buffer) (windowEnd call) ↔ alternateScreen.Enters (writtenText call) :=
  Switch.enters_held (filled_text legible buffer) legible.2 (fun _ => window_reach legible) (window_short legible)

theorem leaves_text : LeavesBelow (filled call buffer) (windowEnd call) ↔ alternateScreen.Leaves (writtenText call) :=
  Switch.leaves_held (filled_text legible buffer) legible.2 (fun _ => window_reach legible) (window_short legible)

theorem flag_text (shell : Shell) :
    Tracking.flagAfter call buffer shell = screenAfterText (writtenText call) shell.omitWrite := by
  rw [Tracking.flagAfter, screenAfterText]
  simp only [enters_text legible, leaves_text legible]

theorem erased_text :
    (List.range (outputSize (cappedCount call.count))).map
        (alternateScreen.erase (filled call buffer) 1 (windowEnd call)) =
      specificity call.fd :: (alternateScreen.blanked (writtenText call) ++ staleText call buffer) := by
  have length := writtenText_length legible
  have payload : (List.range (cappedCount call.count)).map
      (fun p => alternateScreen.erase (filled call buffer) 1 (windowEnd call) (p + 1)) =
        alternateScreen.blanked (writtenText call) := by
    rw [Switch.blanked, length]
    apply List.map_congr_left
    intro p member
    rw [Nat.add_comm p 1, ← length]
    exact Switch.erase_held (filled_text legible buffer) legible.2 (fun _ => window_reach legible) (window_short legible)
      (length.symm ▸ List.mem_range.mp member)
  have known : (List.range (cappedCount call.count + 1)).map
      (alternateScreen.erase (filled call buffer) 1 (windowEnd call)) =
        specificity call.fd :: alternateScreen.blanked (writtenText call) := by
    rw [List.range_succ_eq_map, List.map_cons, List.map_map, erase_marker]
    exact congrArg _ payload
  have capped : cappedCount call.count = 7 ↔ call.count = 7 := by
    simp only [cappedCount, ksysWriteEventSize]
    split <;> omega
  by_cases seven : call.count = 7
  · have bytes := capped.mpr seven
    have behind : alternateScreen.erase (filled call buffer) 1 (windowEnd call) 8 = buffer.output 8 := by
      have kept := Switch.erase_behind (filled_text legible buffer) legible.2 (window_short legible)
        (show (writtenText call).length ≤ 7 by omega)
      rw [kept]
      cases given : call.buf with
      | none => simp [filled, fillBuffer, given]
      | some readable => simp [filled, fillBuffer, given, probeReadUser, bytes]
    rw [bytes] at known
    rw [outputSize, if_pos bytes, bytes, List.range_succ, List.map_append, known, staleText, if_pos seven,
      List.map_singleton, behind]
    rfl
  · rw [outputSize, if_neg (mt capped.mp seven), known, staleText, if_neg seven, List.append_nil]

end Text

/-- A write on the terminal of its shell. An enter hides it and what comes after,
until a leave. -/
def Tracking.display (tracking : Tracking) (call : WriteCall) (room : Bool) (buffer : WriteBuffer) :
    Tracking × Option (Long × OutputEvent) :=
  match tracking.holder call.currentPid with
  | some shell =>
      if call.count = 0 ∨ onTerminal call shell = false then (tracking, none)
      else
        let flag := screenAfterText (writtenText call) shell.omitWrite
        let text := alternateScreen.blanked (writtenText call) ++ staleText call buffer
        ({ tracking with
            shells := Function.update tracking.shells shell.shellPid (some { shell with omitWrite := flag }) },
          if flag = 1#8 ∨ room = false then none
          else some (shell.indicator, .write (if call.fd = 2#32 then 2#32 else 1#32) text))
  | none => (tracking, none)

/-- The processes and shells after a run, and what was written for which session. -/
noncomputable def displayed : List (World × Label) → Tracking × List (Long × OutputEvent)
  | [] => (.empty, [])
  | (_, .write call room buffer) :: past =>
      let (after, shown) := (displayed past).1.display call room buffer
      (after, (displayed past).2 ++ shown.toList)
  | (before, label) :: past =>
      (((displayed past).1.move ((before.entering label).map Prod.snd) label).1, (displayed past).2)

def outputTo (indicator : Long) (shown : Long × OutputEvent) : Option OutputEvent :=
  if indicator = shown.1 then some shown.2 else none

def LegibleWrite (_past : List (World × Label)) (before : World) : Label → Prop
  | .write call _ _ => (attributed call before.maps).isSome → Legible call
  | _ => True

instance (past : List (World × Label)) (before : World) (label : Label) : Decidable (LegibleWrite past before label) :=
  match label with
  | .write call _ _ => inferInstanceAs (Decidable ((attributed call before.maps).isSome → Legible call))
  | .kill .. | .fork .. | .exit .. | .take _ | .create _ | .scan | .register _ => .isTrue trivial

theorem writtenEvent_specificity (fd : CInt) (payload : Text) :
    writtenEvent (specificity fd :: payload) = .write (if fd = 2#32 then 2#32 else 1#32) payload := by
  by_cases stderr : fd = 2#32 <;> simp [writtenEvent, specificity, stderr]

theorem emit_text {call : WriteCall} (legible : Legible call) (buffer : WriteBuffer) (room : Bool) (written indicator : Long) :
    (emit room (cappedCount call.count)
        ⟨written, alternateScreen.erase (filled call buffer) 1 (windowEnd call)⟩).toList.filterMap
          (Event.writeTo indicator) =
      (if room = false then none else some (written, OutputEvent.write (if call.fd = 2#32 then 2#32 else 1#32)
        (alternateScreen.blanked (writtenText call) ++ staleText call buffer))).toList.filterMap
          (outputTo indicator) := by
  cases room with
  | false => rfl
  | true =>
      simp only [emit, if_true, erased_text legible, Option.toList_some, List.filterMap_cons, List.filterMap_nil,
        Event.writeTo, outputTo, writtenEvent_specificity, Bool.true_eq_false, if_false]

theorem display_write {tracking : Tracking} {call : WriteCall} {room : Bool} {buffer : WriteBuffer}
    (legible : ∀ shell, tracking.holder call.currentPid = some shell → call.count ≠ 0 →
      onTerminal call shell = true → Legible call) :
    (tracking.display call room buffer).1 = (tracking.write call room buffer).1 ∧
      ∀ indicator, (tracking.write call room buffer).2.filterMap (Event.writeTo indicator) =
        (tracking.display call room buffer).2.toList.filterMap (outputTo indicator) := by
  unfold Tracking.display Tracking.write
  cases held : tracking.holder call.currentPid with
  | none => exact ⟨rfl, fun _ => rfl⟩
  | some shell =>
      simp only
      split
      · exact ⟨rfl, fun _ => rfl⟩
      · rename_i on
        obtain ⟨nonzero, terminal⟩ := not_or.mp on
        have readable := legible shell held nonzero (by simpa using terminal)
        simp only [flag_text readable, true_and]
        intro indicator
        by_cases hidden : screenAfterText (writtenText call) shell.omitWrite = 1#8
        · simp [hidden]
        · simp only [hidden, if_false, false_or]
          exact emit_text readable buffer room shell.indicator indicator

section Runs

variable {past : List (World × Label)} {before after world : World} {label : Label}

def Displays (past : List (World × Label)) : Prop :=
  (displayed past).1 = (tracked past).1 ∧
    ∀ indicator, (tracked past).2.filterMap (Event.writeTo indicator) =
      (displayed past).2.filterMap (outputTo indicator)

theorem displays_start : Displays [] := ⟨rfl, fun _ => rfl⟩

theorem submit_silent (reserved : Bool) {event : Event} (silent : ∀ indicator, event.writeTo indicator = none)
    (indicator : Long) : (submit reserved event).filterMap (Event.writeTo indicator) = [] := by
  cases reserved <;> simp [submit, silent]

theorem move_silent (tracking : Tracking) (entered : Option Shell) (label : Label)
    (other : ∀ call room buffer, label ≠ .write call room buffer) (indicator : Long) :
    (tracking.move entered label).2.filterMap (Event.writeTo indicator) = [] := by
  cases label with
  | kill currentPid sig pid reserved =>
      rw [Tracking.move, Tracking.kill]
      split
      · rfl
      · split <;> exact submit_silent reserved (fun _ => rfl) indicator
  | fork currentPid childPid reserved =>
      rw [Tracking.move, Tracking.fork]
      split
      · exact submit_silent reserved (fun _ => rfl) indicator
      · rfl
  | exit currentPid reserved =>
      rw [Tracking.move, Tracking.exit]
      split
      · exact submit_silent reserved (fun _ => rfl) indicator
      · split <;> rfl
  | write call room buffer => exact absurd rfl (other call room buffer)
  | take | create | scan | register => rfl

theorem holder_attributed (mapped : Mapped past before) (shellsRoom : ¬ before.maps.shells.Full)
    (childrenRoom : ¬ before.maps.children.Full) {call : WriteCall} {shell : Shell}
    (held : (tracked past).1.holder call.currentPid = some shell) (nonzero : call.count ≠ 0)
    (on : onTerminal call shell = true) : (attributed call before.maps).isSome := by
  have located := findShell_holder mapped.tidy call shellsRoom childrenRoom
  rw [mapped.same] at held
  rw [held] at located
  obtain ⟨i, _, found⟩ := located
  exact Option.isSome_of_eq_some (attributed_of_found (Nat.one_le_iff_ne_zero.mpr nonzero) found on)

theorem displays_step (mapped : Mapped past before) (displays : Displays past) (inRoom : InRoom past before label)
    (legible : LegibleWrite past before label) : Displays ((before, label) :: past) := by
  obtain ⟨maps, output⟩ := displays
  have silent (other : ∀ call room buffer, label ≠ .write call room buffer)
      (kept : displayed ((before, label) :: past) =
        (((displayed past).1.move ((before.entering label).map Prod.snd) label).1, (displayed past).2)) :
      Displays ((before, label) :: past) := by
    refine ⟨by rw [kept, maps]; rfl, fun indicator => ?_⟩
    rw [kept, ← output indicator, tracked, List.filterMap_append, move_silent _ _ label other, List.append_nil]
  cases label with
  | write call room buffer =>
      obtain ⟨shells, children⟩ := inRoom.room rfl
      have accepted (shell : Shell) (held : (tracked past).1.holder call.currentPid = some shell)
          (nonzero : call.count ≠ 0) (on : onTerminal call shell = true) : Legible call :=
        legible (holder_attributed mapped shells children held nonzero on)
      obtain ⟨same, shown⟩ := display_write accepted
      refine ⟨?_, fun indicator => ?_⟩
      · rw [displayed, maps]
        exact same
      · rw [displayed, tracked, List.filterMap_append, List.filterMap_append, output indicator, maps]
        exact congrArg _ (shown indicator)
  | kill | fork | exit | take | create | scan | register => exact silent (fun _ _ _ => Label.noConfusion) rfl

/-- What programs write on the terminals is stored: in every run of fresh process
ids with room in the tables, entries in place and legible writes, when nothing
waits, the table of a session has of output what was written by its processes on
the terminals of its shells, text after text, 32758 bytes of one that is too long,
with the sequences that leave the alternate screen blanked, and one of seven bytes
with a stale byte behind it; but for what that screen hid or the ring buffer had
no room for. -/
theorem terminals_stored (run : Run step World.start past world) (inRoom : Always InRoom past)
    (legible : Always LegibleWrite past) (quiet : world.Quiet) {indicator : Long} (nonzero : indicator ≠ 0#64) :
    world.db.rows indicator = (recorded past indicator).table ∧
      (recorded past indicator).outputs.filter OutputEvent.isWrite =
        (displayed past).2.filterMap (outputTo indicator) := by
  have next (past : List (World × Label)) (before : World) (label : Label) (after : World)
      (earlier : Run step World.start past before) (both : Mapped past before ∧ Displays past)
      (condition : InRoom past before label ∧ LegibleWrite past before label)
      (taken : step before label = some after) :
      Mapped ((before, label) :: past) after ∧ Displays ((before, label) :: past) :=
    ⟨mapped_step earlier both.1 condition.1 taken, displays_step both.1 both.2 condition.1 condition.2⟩
  have both : Mapped past world ∧ Displays past :=
    run.invariant ⟨mapped_start, displays_start⟩ next (inRoom.and legible)
  have writes := idle_writes run quiet.1 nonzero
  have waits : world.events = [] := by rw [World.events, quiet.2, List.map_nil]
  rw [waits, List.filterMap_nil, List.append_nil] at writes
  refine ⟨idle_table run quiet.1 indicator, writes.symm.trans ?_⟩
  rw [← both.2.2 indicator, both.1.same]

theorem terminals_stored_screen :
    ∃ past world, Run step World.start past world ∧
      ((sent past).filterMap (Event.writeTo 16000000000#64)).length = 2 ∧
      world.db.rows 16000000000#64 = (recorded past 16000000000#64).table ∧
      (recorded past 16000000000#64).outputs.filter OutputEvent.isWrite =
        (displayed past).2.filterMap (outputTo 16000000000#64) := by
  obtain ⟨past, world, run, inRoom, legible, quiet, two⟩ := replay_some step World.start
    (registration 1#32 ++ [.fork 1#32 2#32 true] ++ [[97#8], alternateScreen.lead ++ [104#8], [98#8],
      alternateScreen.lead ++ [108#8, 99#8]].map (fun bytes => .write (ttyWrite 2#32 bytes) true ⟨0#64, fun _ => 0#8⟩) ++
      [.take sampleOutside, .take sampleOutside, .take sampleOutside])
    (fun past world => Always InRoom past ∧ Always LegibleWrite past ∧ world.Quiet ∧
      ((sent past).filterMap (Event.writeTo 16000000000#64)).length = 2) (by decide +kernel)
  have named : (16000000000#64 : Long) ≠ 0#64 := by decide
  exact ⟨past, world, run, two, terminals_stored run inRoom legible quiet named⟩

end Runs

end Nhi
