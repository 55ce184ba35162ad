import Nhi.Database

/-!
The event handlers of daemon/src/nhi.c. What they learn from outside (the
clock, the address of the shell's environment, the output of `ps`, the
variables of the shell) is passed in. A handler gives `none` when the process
dies in it: an unset variable is not checked for.

`handle_kill_SIGUSR` comes in the three pieces between which the kernel
programs can run: the session is created, a slot is looked for, and after the
outside reads the entry is written at that slot.
-/

namespace Nhi

open SlotTable

structure Timeval where
  tvSec : Long
  tvUsec : Long
  deriving DecidableEq

/-- Deciseconds since the epoch. -/
def getIndicator (now : Timeval) : Long := now.tvSec * 10#64 + now.tvUsec.sdiv 100000#64

/-- At most `size - 1` bytes, up to a newline; nothing to read gives null. -/
def fgets (size : Nat) (input : Text) : Option Text :=
  if input = [] then none
  else some ((input.takeWhile (· ≠ 10#8) ++ (input.dropWhile (· ≠ 10#8)).take 1).take (size - 1))

def strlen (bytes : Text) : Nat := (bytes.takeWhile (· ≠ 0#8)).length

/-- The clock readings of the first piece, and what its two text buffers hold
before a number is printed to them. -/
structure Opening where
  now : Timeval
  time : Long
  indicatorStr : Vector Byte 15
  name : Vector Byte 16
  deriving DecidableEq

/-- The message for the parent shell is 12 bytes: the marker -3 and 11 digits. -/
def parentLink (opening : Opening) : Text :=
  (253#8 :: (cString opening.indicatorStr (decimal (getIndicator opening.now))).toList).take 12

def createSession (opening : Opening) (killEvent : KillEvent) (db : Database) : Database :=
  let indicator := getIndicator opening.now
  let db := if killEvent.parentShellIndicator ≠ 0#64 then
      db.addOutput killEvent.parentShellIndicator (parentLink opening)
    else db
  ((db.createTable indicator).createRow indicator).metaCreateRow indicator opening.time opening.name

theorem createSession_metaTable (opening : Opening) (killEvent : KillEvent) (db : Database) :
    ∃ name, (createSession opening killEvent db).metaTable =
      db.metaTable ++ [⟨getIndicator opening.now, name, opening.time, none⟩] := by
  have opened (base : Database) : (base.createTable (getIndicator opening.now)).metaTable =
      base.metaTable := by
    simp only [Database.createTable]
    split <;> rfl
  simp only [createSession, Database.metaCreateRow, Database.createRow, Database.mapTable, opened]
  exact ⟨_, by split <;> rfl⟩

/-- The loop variable is past the end when no slot is free. -/
def chooseSlot (shells : Shells) : Nat := shells.firstFree.getD shellsMaxEntries

/-- What the last piece finds: the result of `get_shell_environ_address` (0 for
a failure), the output of `ps` (`none` when `popen` fails), the two variables
and the stack under the new entry. -/
structure Closing where
  environAddress : Long
  psOutput : Option Text
  PS1 : Option Text
  pwd : Option Text
  stack : Shell
  deriving DecidableEq

/-- The entry before it is written. Its `omit_write` is not assigned. -/
def newShell (closing : Closing) (killEvent : KillEvent) (indicator : Long) (line : Text) : Shell :=
  let terminal := cString closing.stack.terminal line
  { closing.stack with
    shellPid := killEvent.shellPid
    indicator := indicator
    environAddress := closing.environAddress
    terminal := terminal
    terminalLen := BitVec.ofNat 8 (strlen terminal.toList) - 1#8 }

inductive Registered where
  | failed
  | entered (db : Database) (shell : Shell)
  | crashed
  deriving DecidableEq

def finishSession (closing : Closing) (killEvent : KillEvent) (indicator : Long)
    (db : Database) : Registered :=
  if closing.environAddress = 0#64 then .failed
  else
    match closing.psOutput.bind (fgets 8) with
    | none => .failed
    | some line =>
        match (db.addPS1 indicator closing.PS1).bind (·.addPwd indicator closing.pwd) with
        | none => .crashed
        | some db => .entered db (newShell closing killEvent indicator line)

theorem finishSession_entered {closing : Closing} {killEvent : KillEvent} {indicator : Long} {db after : Database}
    {shell : Shell} :
    finishSession closing killEvent indicator db = .entered after shell ↔
      closing.environAddress ≠ 0#64 ∧ ∃ line PS1 pwd, closing.psOutput.bind (fgets 8) = some line ∧
        closing.PS1 = some PS1 ∧ closing.pwd = some pwd ∧
        after = (db.updateLast indicator fun row => { row with PS1 := some PS1 }).updateLast indicator
          (fun row => { row with pwd := some pwd }) ∧
        shell = newShell closing killEvent indicator line := by
  unfold finishSession
  by_cases lost : closing.environAddress = 0#64
  · simp [lost]
  · cases line : closing.psOutput.bind (fgets 8) with
    | none => simp [lost]
    | some found =>
        cases prompt : closing.PS1 with
        | none => simp [lost, Database.addPS1]
        | some PS1 =>
            cases directory : closing.pwd with
            | none => simp [lost, Database.addPS1, Database.addPwd]
            | some pwd =>
                simp only [lost, Database.addPS1, Database.addPwd, Option.map_some, Option.bind_some, if_false,
                  Registered.entered.injEq, ne_eq, not_false_eq_true, true_and, Option.some.injEq]
                constructor
                · rintro ⟨rfl, rfl⟩
                  exact ⟨found, PS1, pwd, rfl, rfl, rfl, rfl, rfl⟩
                · rintro ⟨_, _, _, rfl, rfl, rfl, rfl, rfl⟩
                  exact ⟨rfl, rfl⟩

/-- These searches do not stop at a free slot. -/
def indicatorOf (shells : Shells) (shellPid : Pid) : Long :=
  ((shells.slots.find? fun shell => shell.shellPid = shellPid).map Shell.indicator).getD 0#64

structure CommandEnd where
  command : Option Text
  exitStatus : Option Text
  time : Long
  now : Timeval
  PS1 : Option Text
  pwd : Option Text
  deriving DecidableEq

def handleKillSIGRTMIN (ending : CommandEnd) (killEvent : KillEvent) (shells : Shells)
    (db : Database) : Option Database :=
  let indicator := indicatorOf shells killEvent.shellPid
  (db.addCommand indicator ending.command).bind fun db =>
  (db.addExitStatus indicator ending.exitStatus).bind fun db =>
  let db := (db.addFinishTime indicator ending.time).addIndicator indicator (getIndicator ending.now)
  ((db.createRow indicator).addPS1 indicator ending.PS1).bind fun db =>
  db.addPwd indicator ending.pwd

/-- What it has stored when a variable that is not set ends the process. -/
def leftByKillSIGRTMIN (ending : CommandEnd) (killEvent : KillEvent) (shells : Shells) (db : Database) : Database :=
  let indicator := indicatorOf shells killEvent.shellPid
  (db.addCommand indicator ending.command).elim db fun db =>
  (db.addExitStatus indicator ending.exitStatus).elim db fun db =>
  let db := (db.addFinishTime indicator ending.time).addIndicator indicator (getIndicator ending.now)
  let db := db.createRow indicator
  (db.addPS1 indicator ending.PS1).getD db

def handleChildCreation (time : Long) (shellPid : Pid) (shells : Shells) (db : Database) :
    Database :=
  db.addStartTime (indicatorOf shells shellPid) time

def handleShellExit (time : Long) (indicator : Long) (db : Database) : Database :=
  db.metaAddFinishTime indicator time

def handleWrite (indicator : Long) (output : Text) (outputLen : Nat) (db : Database) : Database :=
  db.addOutput indicator (output.take outputLen)

end Nhi
