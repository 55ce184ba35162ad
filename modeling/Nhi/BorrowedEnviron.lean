import Nhi.BoundedLoop
import Nhi.EventHandling
import Nhi.RunHistory
import Nhi.SqlTokens

/-!
daemon/src/nhi.c: `get_shell_environ` puts copies of the shell's variables in
the place of the daemon's own environment, `getenv` reads whatever is there, and
`reverse_environ` frees it. A function that returns early leaves things as they
are at that point. What is read of another process can be anything.
-/

namespace Nhi

open BoundedLoop RunHistory
open Sql (ascii)

abbrev environAmountOfVariables : Nat := 8 * 1024
abbrev environElementSize : Nat := 512
abbrev localEnvironAmountOfVariables : Nat := 4

abbrev Element := Vector Byte environElementSize

/-- What `process_vm_readv` gives: whether the first two reads succeed, and the
elements one by one. -/
structure ShellReads where
  pointer : Bool
  addresses : Bool
  elements : Nat → Option Element

/-- `__environ`: what the process was started with, or the array that was built
for an event. The array has 4 places; behind the copies they are null. -/
inductive Environ where
  | original
  | copied (event : Nat) (strings : List Element)

def nhiPS1 : Text := ascii "NHI_PS1"
def nhiExitStatus : Text := ascii "NHI_EXIT_STATUS"
def nhiLastExecutedCommand : Text := ascii "NHI_LAST_EXECUTED_COMMAND"
def pwdName : Text := ascii "PWD"

def wanted (element : Element) : Bool :=
  [pwdName, nhiPS1, nhiExitStatus, nhiLastExecutedCommand].any fun name => name.isPrefixOf element.toList

structure CopyState where
  i : Nat
  strings : List Element

def copyPass (elements : Nat → Option Element) (state : CopyState) : PassEnd CopyState (List Element) :=
  match elements state.i with
  | none => .leave state
  | some element =>
      -- "Shell environ is invalid"
      if strlen element.toList = 0 then .ret state.strings
      else if wanted element then
        let strings := state.strings ++ [element]
        if strings.length = localEnvironAmountOfVariables then .leave ⟨state.i, strings⟩
        else .next ⟨state.i + 1, strings⟩
      else .next ⟨state.i + 1, state.strings⟩

def getShellEnviron (event : Nat) (reads : ShellReads) (environ : Environ) : Environ :=
  if reads.pointer = false then environ
  else if reads.addresses = false then environ
  else
    match forLoop (copyPass reads.elements) environAmountOfVariables ⟨0, []⟩ with
    | .done state => .copied event state.strings
    | .ret strings => .copied event strings

/-- The result of `getenv`: a string, with the event whose array it is in or
none for the daemon's own; null; or what lies behind an array or a string
without an end. -/
inductive Found where
  | value (owner : Option Nat) (text : Text)
  | missing
  | beyond

def Found.text : Found → Option Text
  | .value _ text => some text
  | .missing | .beyond => none

def begins (name : Text) (element : Element) : Bool := (name ++ [61#8]).isPrefixOf element.toList

def Delimited (name : Text) (element : Element) : Prop := 0#8 ∈ element.toList.drop (name.length + 1)

instance (name : Text) (element : Element) : Decidable (Delimited name element) :=
  inferInstanceAs (Decidable (0#8 ∈ _))

def getenv (daemon : Text → Option Text) (environ : Environ) (name : Text) : Found :=
  match environ with
  | .original =>
      match daemon name with
      | some text => .value none text
      | none => .missing
  | .copied event strings =>
      match strings.find? (begins name) with
      | some element =>
          if Delimited name element then
            .value (some event) ((element.toList.drop (name.length + 1)).takeWhile (· ≠ 0#8))
          else .beyond
      | none => if strings.length < localEnvironAmountOfVariables then .missing else .beyond

/-- What handling an event did: the values given to `add_command` and the like,
the arrays that were freed, and what `__environ` is then, unless the process died. -/
structure Served where
  passed : List Found
  released : List Environ
  environ : Option Environ

def passedTo : List Found → List Found
  | [] => []
  | found :: rest => if found.text.isSome then found :: passedTo rest else [found]

def borrow (daemon : Text → Option Text) (environ : Environ) (names : List Text) : Served :=
  let values := names.map (getenv daemon environ)
  if values.all fun found => found.text.isSome then ⟨values, [environ], some .original⟩
  else ⟨passedTo values, [], none⟩

structure EnvironEvent where
  call : HandlerCall
  environAddress : Long
  reads : ShellReads
  psOutput : Option Text

def startNames : List Text := [nhiPS1, pwdName]
def endNames : List Text := [nhiLastExecutedCommand, nhiExitStatus, nhiPS1, pwdName]

def serve (daemon : Text → Option Text) (number : Nat) (environ : Environ) (event : EnvironEvent) : Served :=
  match event.call with
  | .handleKillSIGUSR _ =>
      if event.environAddress = 0#64 then ⟨[], [], some environ⟩
      else
        let environ := getShellEnviron number event.reads environ
        match event.psOutput.bind (fgets 8) with
        | none => ⟨[], [], some environ⟩
        | some _ => borrow daemon environ startNames
  | .handleKillSIGRTMIN _ _ => borrow daemon (getShellEnviron number event.reads environ) endNames
  | .handleChildCreation _ | .handleShellExit _ | .handleWrite _ _ _ => ⟨[], [], some environ⟩

structure EnvironState where
  environ : Option Environ
  served : Nat

def EnvironState.start : EnvironState := ⟨some .original, 0⟩

def environStep (daemon : Text → Option Text) (state : EnvironState) (event : EnvironEvent) :
    Option EnvironState :=
  state.environ.map fun environ => ⟨(serve daemon state.served environ event).environ, state.served + 1⟩

/-- Every value is a string of the event's own shell, no other array is freed,
and the daemon has its environment back. -/
structure Undone (number : Nat) (served : Served) : Prop where
  passed : ∀ found ∈ served.passed, ∃ text, found = .value (some number) text
  released : ∀ environ ∈ served.released, ∃ strings, environ = .copied number strings
  environ : served.environ = some .original

def BorrowUndone (daemon : Text → Option Text) (past : List (EnvironState × EnvironEvent))
    (state : EnvironState) : Prop :=
  state.environ = some .original ∧
    ∀ taken ∈ past.head?, ∀ environ ∈ taken.1.environ,
      Undone taken.1.served (serve daemon taken.1.served environ taken.2)

/-! The elements that are copied. -/
section Copies

def readableFrom (elements : Nat → Option Element) : Nat → Nat → List Element
  | _, 0 => []
  | i, passes + 1 =>
      match elements i with
      | none => []
      | some element =>
          if strlen element.toList = 0 then [] else element :: readableFrom elements (i + 1) passes

def borrowable (reads : ShellReads) : List Element :=
  ((readableFrom reads.elements 0 environAmountOfVariables).filter wanted).take
    localEnvironAmountOfVariables

def copiesOf : Outcome CopyState (List Element) → List Element
  | .done state => state.strings
  | .ret strings => strings

theorem copyLoop_strings (elements : Nat → Option Element) (passes i : Nat) (strings : List Element)
    (room : strings.length < localEnvironAmountOfVariables) :
    copiesOf (forLoop (copyPass elements) passes ⟨i, strings⟩) =
      strings ++ ((readableFrom elements i passes).filter wanted).take
        (localEnvironAmountOfVariables - strings.length) := by
  induction passes generalizing i strings with
  | zero => simp [forLoop, copiesOf, readableFrom]
  | succ passes ih =>
      rw [forLoop, readableFrom]
      cases read : elements i with
      | none => simp [copyPass, read, copiesOf]
      | some element =>
          by_cases empty : strlen element.toList = 0
          · simp [copyPass, read, empty, copiesOf]
          · by_cases chosen : wanted element = true
            · have left : localEnvironAmountOfVariables - strings.length =
                  (localEnvironAmountOfVariables - (strings.length + 1)) + 1 := by omega
              by_cases full : strings.length + 1 = localEnvironAmountOfVariables
              · simp [copyPass, read, empty, chosen, full, copiesOf, left]
              · have later := ih (i + 1) (strings ++ [element]) (by simp; omega)
                simp only [copyPass, read, if_neg empty, if_pos chosen, List.length_append,
                  List.length_singleton, if_neg full]
                rw [later, List.filter_cons_of_pos chosen, left, List.take_succ_cons, List.append_assoc]
                simp
            · have later := ih (i + 1) strings room
              simp only [copyPass, read, if_neg empty, if_neg chosen]
              rw [later, List.filter_cons_of_neg chosen]

theorem getShellEnviron_copied (event : Nat) {reads : ShellReads} (environ : Environ)
    (readable : reads.pointer = true ∧ reads.addresses = true) :
    getShellEnviron event reads environ = .copied event (borrowable reads) := by
  have strings := copyLoop_strings reads.elements environAmountOfVariables 0 [] (by decide)
  rw [List.nil_append, List.length_nil, Nat.sub_zero, ← borrowable] at strings
  rw [getShellEnviron, readable.1, readable.2, if_neg (by simp), if_neg (by simp), ← strings]
  cases forLoop (copyPass reads.elements) environAmountOfVariables ⟨0, []⟩ <;> rfl

theorem getShellEnviron_untouched (event : Nat) {reads : ShellReads} (environ : Environ)
    (failed : ¬ (reads.pointer = true ∧ reads.addresses = true)) :
    getShellEnviron event reads environ = environ := by
  rw [getShellEnviron]
  split
  · rfl
  · split
    · rfl
    · rename_i pointer addresses
      exact absurd ⟨by simpa using pointer, by simpa using addresses⟩ failed

end Copies

/-! What an event needs. -/
section Needs

def Gives (strings : List Element) (name : Text) : Prop :=
  (strings.find? (begins name)).any (fun element => Delimited name element) = true

def ShellReads.Readable (reads : ShellReads) (names : List Text) : Prop :=
  (reads.pointer = true ∧ reads.addresses = true) ∧ ∀ name ∈ names, Gives (borrowable reads) name

/-- The variables can be read when they are asked for. A shell that registers
may also have no address, or fail at both the reads and `ps`. -/
def Lendable (event : EnvironEvent) : Prop :=
  match event.call with
  | .handleKillSIGUSR _ =>
      event.environAddress = 0#64 ∨
        ((event.psOutput.bind (fgets 8)).isSome ∧ event.reads.Readable startNames) ∨
        (event.psOutput.bind (fgets 8) = none ∧
          ¬ (event.reads.pointer = true ∧ event.reads.addresses = true))
  | .handleKillSIGRTMIN _ _ => event.reads.Readable endNames
  | .handleChildCreation _ | .handleShellExit _ | .handleWrite _ _ _ => True

variable {daemon : Text → Option Text} {number : Nat} {environ : Environ}

theorem getenv_gives {strings : List Element} {name : Text} :
    (getenv daemon (.copied number strings) name).text.isSome ↔ Gives strings name := by
  rw [getenv, Gives]
  cases found : strings.find? (begins name) with
  | none =>
      simp only [Option.any_none, Bool.false_eq_true, iff_false]
      split <;> exact Bool.false_ne_true
  | some element =>
      simp only [Option.any_some, decide_eq_true_eq]
      split
      · rename_i ended
        exact iff_of_true rfl ended
      · rename_i endless
        exact iff_of_false Bool.false_ne_true endless

theorem getenv_own {strings : List Element} {name : Text}
    (there : (getenv daemon (.copied number strings) name).text.isSome) :
    ∃ text, getenv daemon (.copied number strings) name = .value (some number) text := by
  rw [getenv] at there ⊢
  split at there
  · split at there
    · rename_i ended
      exact ⟨_, if_pos ended⟩
    · cases there
  · split at there
    · cases there
    · cases there

theorem borrow_undone_iff (names : List Text) (strings : List Element) :
    Undone number (borrow daemon (.copied number strings) names) ↔ ∀ name ∈ names, Gives strings name := by
  rw [borrow]
  split
  · rename_i all
    have every : ∀ name ∈ names, (getenv daemon (.copied number strings) name).text.isSome := by
      simpa using all
    refine iff_of_true ⟨?_, ?_, rfl⟩ fun name member => getenv_gives.mp (every name member)
    · intro found passed
      obtain ⟨name, member, rfl⟩ := List.mem_map.mp passed
      exact getenv_own (every name member)
    · intro released member
      exact ⟨strings, List.mem_singleton.mp member⟩
  · rename_i lacking
    refine iff_of_false (fun undone => nomatch undone.environ) fun every => lacking ?_
    rw [List.all_eq_true]
    intro found member
    obtain ⟨name, inside, rfl⟩ := List.mem_map.mp member
    exact getenv_gives.mpr (every name inside)

/-- Without a copy it is the daemon's own array that is freed. -/
theorem borrow_original (names : List Text) : ¬ Undone number (borrow daemon .original names) := by
  intro undone
  rw [borrow] at undone
  split at undone
  · obtain ⟨strings, same⟩ := undone.released .original List.mem_cons_self
    cases same
  · cases undone.environ

theorem borrow_shell_iff (reads : ShellReads) (names : List Text) :
    Undone number (borrow daemon (getShellEnviron number reads .original) names) ↔ reads.Readable names := by
  by_cases readable : reads.pointer = true ∧ reads.addresses = true
  · rw [getShellEnviron_copied number .original readable, borrow_undone_iff]
    exact (and_iff_right readable).symm
  · rw [getShellEnviron_untouched number .original readable]
    exact iff_of_false (borrow_original names) fun given => readable given.1

theorem returned_undone_iff : Undone number ⟨[], [], some environ⟩ ↔ environ = .original :=
  ⟨fun undone => Option.some.inj undone.environ,
    fun same => ⟨List.forall_mem_nil _, List.forall_mem_nil _, congrArg some same⟩⟩

theorem serve_undone_iff (event : EnvironEvent) :
    Undone number (serve daemon number .original event) ↔ Lendable event := by
  rw [serve, Lendable]
  cases event.call with
  | handleKillSIGUSR killEvent =>
      simp only
      by_cases unknown : event.environAddress = 0#64
      · rw [if_pos unknown, returned_undone_iff]
        exact iff_of_true rfl (Or.inl unknown)
      · rw [if_neg unknown]
        cases line : event.psOutput.bind (fgets 8) with
        | some line =>
            simp only [unknown, Option.isSome_some, reduceCtorEq, false_and, or_false, true_and,
              false_or]
            exact borrow_shell_iff event.reads startNames
        | none =>
            -- it returns with whatever stands in the place of the environment
            simp only [unknown, Option.isSome_none, Bool.false_eq_true, false_and, true_and, false_or]
            rw [returned_undone_iff]
            by_cases readable : event.reads.pointer = true ∧ event.reads.addresses = true
            · rw [getShellEnviron_copied number .original readable]
              exact iff_of_false (fun same => nomatch same) fun failed => failed readable
            · rw [getShellEnviron_untouched number .original readable]
              exact iff_of_true rfl readable
  | handleKillSIGRTMIN killEvent dataSz => exact borrow_shell_iff event.reads endNames
  | handleChildCreation shellPid => exact iff_of_true (returned_undone_iff.mpr rfl) trivial
  | handleShellExit indicator => exact iff_of_true (returned_undone_iff.mpr rfl) trivial
  | handleWrite indicator output outputLen => exact iff_of_true (returned_undone_iff.mpr rfl) trivial

end Needs

/-! The handlers of the database get these values: they end the process where
`getenv` gives no string. -/
section Values

variable (daemon : Text → Option Text) (number : Nat) (environ : Environ) (event : EnvironEvent)

def variableOf (name : Text) : Option Text :=
  (getenv daemon (getShellEnviron number event.reads environ) name).text

def closingOf (stack : Shell) : Closing :=
  ⟨event.environAddress, event.psOutput, variableOf daemon number environ event nhiPS1,
    variableOf daemon number environ event pwdName, stack⟩

def endingOf (time : Long) (now : Timeval) : CommandEnd :=
  ⟨variableOf daemon number environ event nhiLastExecutedCommand,
    variableOf daemon number environ event nhiExitStatus, time, now,
    variableOf daemon number environ event nhiPS1, variableOf daemon number environ event pwdName⟩

theorem borrow_environ (names : List Text) :
    (borrow daemon (getShellEnviron number event.reads environ) names).environ = none ↔
      ∃ name ∈ names, variableOf daemon number environ event name = none := by
  rw [borrow]
  split
  · rename_i all
    refine iff_of_false (fun none => nomatch none) ?_
    rintro ⟨name, member, none⟩
    have there := List.all_eq_true.mp all _ (List.mem_map_of_mem member)
    rw [← variableOf, none] at there
    cases there
  · rename_i lacking
    refine iff_of_true rfl ?_
    by_contra every
    refine lacking (List.all_eq_true.mpr fun found member => ?_)
    obtain ⟨name, inside, rfl⟩ := List.mem_map.mp member
    rw [Option.isSome_iff_ne_none]
    exact fun none => every ⟨name, inside, none⟩

theorem serve_start {killEvent : KillEvent} (call : event.call = .handleKillSIGUSR killEvent)
    (indicator : Long) (db : Database) (stack : Shell) :
    (serve daemon number environ event).environ = none ↔
      finishSession (closingOf daemon number environ event stack) killEvent indicator db = .crashed := by
  rw [serve, call, finishSession, closingOf]
  simp only
  split
  · simp
  · cases event.psOutput.bind (fgets 8) with
    | none => simp
    | some line =>
        simp only
        rw [borrow_environ]
        simp only [startNames, List.exists_mem_cons_iff, List.not_mem_nil, false_and, exists_false, or_false]
        generalize variableOf daemon number environ event nhiPS1 = PS1
        generalize variableOf daemon number environ event pwdName = pwd
        cases PS1 <;> cases pwd <;> simp [Database.addPS1, Database.addPwd]

theorem serve_end {killEvent : KillEvent} {dataSz : Nat}
    (call : event.call = .handleKillSIGRTMIN killEvent dataSz) (shells : Shells) (db : Database)
    (time : Long) (now : Timeval) :
    (serve daemon number environ event).environ = none ↔
      handleKillSIGRTMIN (endingOf daemon number environ event time now) killEvent shells db = none := by
  rw [serve, call, handleKillSIGRTMIN, endingOf]
  simp only
  rw [borrow_environ]
  simp only [endNames, List.exists_mem_cons_iff, List.not_mem_nil, false_and, exists_false, or_false]
  generalize variableOf daemon number environ event nhiLastExecutedCommand = command
  generalize variableOf daemon number environ event nhiExitStatus = exitStatus
  generalize variableOf daemon number environ event nhiPS1 = PS1
  generalize variableOf daemon number environ event pwdName = pwd
  cases command <;> cases exitStatus <;> cases PS1 <;> cases pwd <;>
    simp [Database.addCommand, Database.addExitStatus, Database.addPS1, Database.addPwd]

end Values

/-- The environment is borrowed and given back safely throughout a run exactly
when at every event the variables can be read, or nothing is read of them. -/
theorem environ_undone_iff (daemon : Text → Option Text) {past : List (EnvironState × EnvironEvent)}
    {last : EnvironState} (run : Run (environStep daemon) EnvironState.start past last) :
    Throughout (BorrowUndone daemon) past last ↔ Always (fun _ _ event => Lendable event) past := by
  refine run.throughout_iff ⟨rfl, nofun⟩ ?_
  intro past before event after _ undone taken
  rw [environStep, undone.1, Option.map_some] at taken
  obtain rfl := Option.some.inj taken
  have served : Undone before.served (serve daemon before.served .original event) ↔ Lendable event :=
    serve_undone_iff event
  rw [← served]
  constructor
  · exact fun kept => kept.2 _ rfl .original undone.1
  · intro safe
    refine ⟨safe.environ, ?_⟩
    rintro taken ⟨⟩ environ same
    obtain rfl := Option.some.inj (undone.1.symm.trans same)
    exact safe

/-! A shell that registers and then ends a command, and a process that no one registered. -/
section Samples

def elementOf (text : Text) : Element := Vector.ofFn fun i => text.getD i.val 0#8

def shellReads (texts : List Text) : ShellReads := ⟨true, true, fun i => texts[i]?.map elementOf⟩

def deadReads : ShellReads := ⟨false, false, fun _ => none⟩

def registering : EnvironEvent where
  call := .handleKillSIGUSR ⟨100#32, 10#32, 0#64⟩
  environAddress := 4096#64
  reads := shellReads [ascii "HOME=/root", ascii "PWD=/tmp", ascii "NHI_PS1=$ "]
  psOutput := some (ascii "0" ++ [10#8])

def ending (shellPid : Pid) (reads : ShellReads) : EnvironEvent where
  call := .handleKillSIGRTMIN ⟨shellPid, 34#32, 0#64⟩ 16
  environAddress := 0#64
  reads := reads
  psOutput := none

def endingReads : ShellReads :=
  shellReads [ascii "PWD=/tmp", ascii "NHI_LAST_EXECUTED_COMMAND=ls", ascii "NHI_EXIT_STATUS=0", ascii "NHI_PS1=$ "]

theorem registering_lendable : Lendable registering := by
  refine Or.inr (Or.inl ⟨rfl, ⟨rfl, rfl⟩, ?_⟩)
  unfold Gives
  decide +kernel

theorem ending_lendable : Lendable (ending 100#32 endingReads) := by
  refine ⟨⟨rfl, rfl⟩, ?_⟩
  unfold Gives
  decide +kernel

theorem environStep_lendable (daemon : Text → Option Text) (served : Nat) {event : EnvironEvent}
    (lendable : Lendable event) :
    environStep daemon ⟨some .original, served⟩ event = some ⟨some .original, served + 1⟩ := by
  rw [environStep, Option.map_some, ((serve_undone_iff event).mpr lendable).environ]

theorem environ_undone_shell :
    ∃ past last, Run (environStep fun _ => none) EnvironState.start past last ∧ last.served = 2 ∧
      Throughout (BorrowUndone fun _ => none) past last := by
  have first := environStep_lendable (fun _ => none) 0 registering_lendable
  have second := environStep_lendable (fun _ => none) 1 ending_lendable
  have run := (Run.start.next first).next second
  exact ⟨_, _, run, rfl, (environ_undone_iff _ run).mpr ⟨ending_lendable, registering_lendable, trivial⟩⟩

theorem environ_undone_gone :
    ∃ past last, Run (environStep fun _ => none) EnvironState.start past last ∧
      ¬ Throughout (BorrowUndone fun _ => none) past last := by
  have taken : environStep (fun _ => none) EnvironState.start (ending 100#32 deadReads) =
    some ⟨none, 1⟩ := rfl
  refine ⟨_, _, Run.start.next taken, fun undone => ?_⟩
  cases undone.last.1

end Samples

end Nhi
