import Nhi.DaemonLives
import Nhi.SqlTokens

/-!
The arrays that daemon/src prints indicators to. A statement for the table of a
session has the indicator in its text, once or twice, and the text is printed to
an array of fixed size without a look at its length.
-/

namespace Nhi

open RunHistory Simulation
open Sql (ascii)

/-- An array and what `sprintf` prints to it: a piece of text, and pieces that
come after the indicator each. -/
structure Printed where
  size : Nat
  first : Text
  rest : List Text
  deriving DecidableEq

namespace Printed

def text (printed : Printed) (indicator : Long) : Text :=
  printed.first ++ printed.rest.flatMap fun piece => decimal indicator ++ piece

def Fits (printed : Printed) (indicator : Long) : Prop := (printed.text indicator).length < printed.size

def roomFor (printed : Printed) (digits : Nat) : Bool :=
  (printed.first ++ printed.rest.flatMap fun piece => List.replicate digits 48#8 ++ piece).length < printed.size

theorem fits_iff (printed : Printed) (indicator : Long) :
    printed.Fits indicator ↔ printed.roomFor (decimal indicator).length = true := by
  simp [Fits, roomFor, text, List.length_flatMap]

def update (set condition : Text) : Printed :=
  ⟨100, ascii "UPDATE `",
    [ascii "` SET " ++ set ++ ascii " WHERE " ++ condition ++ ascii "rowid = (SELECT MAX(rowid) FROM `", ascii "`);"]⟩

end Printed

/-- The `query` of each function of daemon/src/sqlite.c, the `name` of
`meta_create_row` and the `indicator_str` of `handle_kill_SIGUSR`. -/
inductive TextArray where
  | createTable
  | createRow
  | addPS1
  | addCommand
  | addOutput
  | addExitStatus
  | addPwd
  | addStartTime
  | addFinishTime
  | addIndicator
  | metaName
  | indicatorStr
  deriving DecidableEq

def TextArray.printed : TextArray → Printed
  | .createTable => ⟨150, ascii "CREATE TABLE `",
      [ascii "` (PS1 TEXT, command TEXT, output BLOB, exit_status TEXT, pwd TEXT, start_time INTEGER, finish_time INTEGER, indicator INTEGER);"]⟩
  | .createRow => ⟨100, ascii "INSERT INTO `", [ascii "` VALUES (NULL, NULL, '', NULL, NULL, NULL, NULL, NULL);"]⟩
  | .addPS1 => .update (ascii "PS1=?") []
  | .addCommand => .update (ascii "command=?") []
  | .addOutput => .update (ascii "output=output || ?") []
  | .addExitStatus => .update (ascii "exit_status=?") []
  | .addPwd => .update (ascii "pwd=?") []
  | .addStartTime => .update (ascii "start_time=?") (ascii "start_time is NULL AND ")
  | .addFinishTime => .update (ascii "finish_time=?") []
  | .addIndicator => .update (ascii "indicator=?") []
  | .metaName => ⟨16, [], [[]]⟩
  -- the marker stands before it
  | .indicatorStr => ⟨15, [], [[]]⟩

/-- Two of them are too small for an indicator of eleven digits. -/
theorem room_eleven (array : TextArray) :
    array.printed.roomFor 11 = true ↔ array ≠ .createTable ∧ array ≠ .addStartTime := by
  cases array <;> decide +kernel

theorem room_one (array : TextArray) : array.printed.roomFor 1 = true := by
  cases array <;> decide +kernel

/-- What is printed in the handling of an event, up to the unset variable that ends it. -/
def Handling.prints (handling : Handling) : List (TextArray × Long) :=
  match handling.call with
  | .handleKillSIGUSR killEvent =>
      let indicator := getIndicator handling.opening.now
      (if killEvent.parentShellIndicator ≠ 0#64 then
          [(.indicatorStr, indicator), (.addOutput, killEvent.parentShellIndicator)]
        else []) ++
      [(.createTable, indicator), (.createRow, indicator), (.metaName, indicator)] ++
      if handling.closing.environAddress = 0#64 ∨ handling.closing.psOutput.bind (fgets 8) = none then []
      else (.addPS1, indicator) :: if handling.closing.PS1.isSome then [(.addPwd, indicator)] else []
  | .handleKillSIGRTMIN killEvent _ =>
      let indicator := indicatorOf handling.shells killEvent.shellPid
      let ending := handling.outside.ending
      (.addCommand, indicator) :: if ending.command.isNone then []
        else (.addExitStatus, indicator) :: if ending.exitStatus.isNone then []
          else [(.addFinishTime, indicator), (.addIndicator, indicator), (.createRow, indicator), (.addPS1, indicator)] ++
            if ending.PS1.isSome then [(.addPwd, indicator)] else []
  | .handleChildCreation shellPid => [(.addStartTime, indicatorOf handling.shells shellPid)]
  | .handleShellExit _ => []
  | .handleWrite indicator _ _ => [(.addOutput, indicator)]

def Handling.Overflows (handling : Handling) : Prop := ∃ print ∈ handling.prints, ¬ print.1.printed.Fits print.2

/-- The indicator of a session, in these three centuries; 0 is none. -/
def SessionDigits (indicator : Long) : Prop := indicator = 0#64 ∨ (decimal indicator).length = 11

instance (indicator : Long) : Decidable (SessionDigits indicator) := inferInstanceAs (Decidable (_ ∨ _))

section Prints

variable {handling : Handling}

theorem fits_digits (array : TextArray) {indicator : Long} (digits : SessionDigits indicator) :
    array.printed.Fits indicator ↔ indicator = 0#64 ∨ array ≠ .createTable ∧ array ≠ .addStartTime := by
  rw [array.printed.fits_iff]
  rcases digits with rfl | eleven
  · have one : (decimal 0#64).length = 1 := by decide
    rw [one, room_one array]
    simp
  · have nonzero : indicator ≠ 0#64 := by
      rintro rfl
      exact absurd eleven (by decide)
    rw [eleven, room_eleven array]
    simp [nonzero]

theorem overflows_prints (digits : ∀ print ∈ handling.prints, SessionDigits print.2) :
    handling.Overflows ↔
      ∃ print ∈ handling.prints, print.2 ≠ 0#64 ∧ (print.1 = .createTable ∨ print.1 = .addStartTime) := by
  refine exists_congr fun print => and_congr_right fun member => ?_
  rw [fits_digits print.1 (digits print member)]
  tauto

theorem overflows_call (digits : ∀ print ∈ handling.prints, SessionDigits print.2) :
    handling.Overflows ↔ (∃ indicator ∈ handling.opens, indicator ≠ 0#64) ∨
      ∃ shellPid, handling.call = .handleChildCreation shellPid ∧
        indicatorOf handling.shells shellPid ≠ 0#64 := by
  rw [overflows_prints digits, Handling.prints, Handling.opens]
  cases handling.call with
  | handleKillSIGUSR killEvent =>
      simp only
      split_ifs <;> simp
  | handleKillSIGRTMIN killEvent dataSz =>
      simp only
      split_ifs <;> simp
  | handleChildCreation shellPid => simp
  | handleShellExit indicator => simp
  | handleWrite indicator output outputLen => simp

end Prints

abbrev ElevenCreated (_past : List (World × Label)) (_before : World) : Label → Prop :=
  CreatesOnly fun indicator => (decimal indicator).length = 11

/-- Every indicator that is printed, or can be, has eleven digits or is 0. -/
structure DigitsKept (past : List (World × Label)) (world : World) : Prop where
  confined : Confined SessionDigits world
  opening : ∀ opening, lastOpening past = some opening → (decimal (getIndicator opening.now)).length = 11
  prints : ∀ handling ∈ handlings past, (∀ print ∈ handling.prints, SessionDigits print.2) ∧
    ∀ indicator ∈ handling.opens, (decimal indicator).length = 11

section Runs

variable {past : List (World × Label)} {before after world : World} {label : Label}

theorem prints_digits {handling : Handling}
    (touches : ∀ indicator ∈ handling.call.touches handling.shells, SessionDigits indicator)
    (opens : ∀ indicator ∈ handling.opens, (decimal indicator).length = 11) :
    ∀ print ∈ handling.prints, SessionDigits print.2 := by
  have named : ∀ print ∈ handling.prints,
      print.2 ∈ handling.opens ∨ print.2 ∈ handling.call.touches handling.shells := by
    rw [Handling.prints, Handling.opens]
    cases handling.call with
    | handleKillSIGUSR killEvent =>
        simp only [HandlerCall.touches]
        split_ifs <;> simp
    | handleKillSIGRTMIN killEvent dataSz =>
        simp only [HandlerCall.touches]
        split_ifs <;> simp
    | handleChildCreation | handleShellExit | handleWrite => simp [HandlerCall.touches]
  intro print member
  rcases named print member with own | touched
  · exact Or.inr (opens print.2 own)
  · exact touches print.2 touched

theorem completed_digits (kept : DigitsKept past before) {handling : Handling}
    (done : completed past before label = some handling) :
    (∀ print ∈ handling.prints, SessionDigits print.2) ∧ ∀ indicator ∈ handling.opens, (decimal indicator).length = 11 := by
  have zero : SessionDigits 0#64 := Or.inl rfl
  rcases completed_cases done with
    ⟨outside, record, call, _, ring, handler, silent, rfl⟩ | ⟨closing, killEvent, _, _, opening, _, phase, last, rfl⟩
  · have waits : record.event ∈ before.events := List.mem_map_of_mem ring
    have opens : ∀ indicator ∈ (Handling.mk call sampleOpening sampleClosing outside before.maps.shells).opens,
        (decimal indicator).length = 11 := by
      intro indicator opened
      obtain ⟨killEvent, same, _⟩ := Handling.opens_call opened
      exact absurd same (silent killEvent)
    exact ⟨prints_digits (touches_confined zero kept.confined waits handler) opens, opens⟩
  · have opens : ∀ indicator ∈ (Handling.mk (.handleKillSIGUSR killEvent) opening closing sampleOutside
        before.maps.shells).opens, (decimal indicator).length = 11 := by
      intro indicator opened
      obtain rfl := Option.some.inj opened
      exact kept.opening opening last
    refine ⟨prints_digits ?_ opens, opens⟩
    intro indicator touched
    obtain rfl := List.mem_singleton.mp touched
    exact kept.confined.inHand killEvent (by simp [World.inHand, phase])

theorem digitsKept_step (kept : DigitsKept past before) (digits : ElevenCreated past before label)
    (taken : step before label = some after) : DigitsKept ((before, label) :: past) after := by
  have creates : CreatesOnly SessionDigits label := by
    cases label with
    | create opening => exact Or.inr digits
    | kill | fork | exit | write | take | scan | register => trivial
  refine ⟨confined_step (Or.inl rfl) kept.confined creates taken, ?_, ?_⟩
  · intro opening last
    cases label with
    | create other =>
        obtain rfl := Option.some.inj last
        exact digits
    | kill | fork | exit | write | take | scan | register => exact kept.opening opening last
  · intro handling member
    rw [handlings, actions, List.mem_append, Option.mem_toList] at member
    rcases member with now | earlier
    · exact completed_digits kept now
    · exact kept.prints handling earlier

theorem digitsKept_start : DigitsKept [] World.start :=
  ⟨confined_start (Or.inl rfl), nofun, fun _ member => absurd member List.not_mem_nil⟩

/-- In every run whose sessions have indicators of eleven digits, what the daemon
prints fits its arrays but for two statements: the table of each session, and the
start time at each process that a registered shell starts, are printed past the
end of theirs. -/
theorem overflows_iff (run : Run step World.start past world) (digits : Always ElevenCreated past) :
    ∀ handling ∈ handlings past, handling.Overflows ↔
      handling.opens.isSome ∨ ∃ shellPid, handling.call = .handleChildCreation shellPid ∧
        indicatorOf handling.shells shellPid ≠ 0#64 := by
  have kept : DigitsKept past world :=
    run.invariant digitsKept_start (fun _ _ _ _ _ kept condition taken => digitsKept_step kept condition taken) digits
  intro handling member
  obtain ⟨prints, opens⟩ := kept.prints handling member
  rw [overflows_call prints]
  apply or_congr_left
  cases created : handling.opens with
  | none => simp
  | some indicator =>
      have eleven := opens indicator created
      have nonzero : indicator ≠ 0#64 := by
        rintro rfl
        exact absurd eleven (by decide)
      simp [nonzero]

theorem overflows_iff_child :
    ∃ past world, Run step World.start past world ∧ (handlings past).length = 3 ∧
      ∀ handling ∈ handlings past, handling.Overflows ↔
        handling.opens.isSome ∨ ∃ shellPid, handling.call = .handleChildCreation shellPid ∧
          indicatorOf handling.shells shellPid ≠ 0#64 := by
  obtain ⟨past, world, run, digits, three⟩ := replay_some step World.start
    (registration 1#32 ++ [.fork 1#32 2#32 true, .take sampleOutside,
      .write (ttyWrite 2#32 [97#8]) true ⟨0#64, fun _ => 0#8⟩, .take sampleOutside])
    (fun past _ => Always ElevenCreated past ∧ (handlings past).length = 3) (by decide +kernel)
  exact ⟨past, world, run, three, overflows_iff run digits⟩

end Runs

end Nhi
