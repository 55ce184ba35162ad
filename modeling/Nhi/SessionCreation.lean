import Nhi.OutputEvents
import Nhi.SessionTables
import Nhi.SqlTokens

/-!
daemon/src/nhi.c: `handle_kill_SIGUSR` from its start to its end, with
`get_shell_environ_address`, and what a session that was created in full has.
Nothing that was stored is taken back on the way out.
-/

namespace Nhi

open RowidTable
open Sql (ascii)

def isSpace (byte : Byte) : Bool := byte = 32#8 || (9#8 ≤ byte && byte ≤ 13#8)

def hexDigit (byte : Byte) : Option Nat :=
  if 48#8 ≤ byte && byte ≤ 57#8 then some (byte.toNat - 48)
  else if 97#8 ≤ byte && byte ≤ 102#8 then some (byte.toNat - 87)
  else if 65#8 ≤ byte && byte ≤ 70#8 then some (byte.toNat - 55)
  else none

def longMin : Int := -9223372036854775808
def longMax : Int := 9223372036854775807

def hexValue : Nat → Text → Nat
  | value, [] => value
  | value, byte :: rest =>
      match hexDigit byte with
      | some digit => hexValue (16 * value + digit) rest
      | none => value

def skipHexMark : Text → Text
  | 48#8 :: mark :: rest =>
      if (mark = 120#8 ∨ mark = 88#8) ∧ rest.head?.any fun byte => (hexDigit byte).isSome then rest
      else 48#8 :: mark :: rest
  | text => text

/-- `strtol(.., 0, 16)`. A value out of range becomes the nearest `long`. -/
def strtolHex (text : Text) : Int :=
  match text.dropWhile isSpace with
  | 45#8 :: rest => max longMin (-(hexValue 0 (skipHexMark rest) : Int))
  | 43#8 :: rest => min longMax (hexValue 0 (skipHexMark rest))
  | rest => min longMax (hexValue 0 (skipHexMark rest))

/-- The line that `objdump` and `awk` print, and that of the maps file, none
when they cannot be opened. 0 is returned for a failure. -/
def getShellEnvironAddress (objdump maps : Option Text) : Long :=
  match objdump.bind (fgets 32) with
  | none => 0#64
  | some environOffsetStr =>
      let environOffset := strtolHex environOffsetStr
      if environOffset = longMin ∨ environOffset = longMax then 0#64
      else
        match maps.bind (fgets 64) with
        | none => 0#64
        | some mapsContentStr =>
            let baseAddress := strtolHex (mapsContentStr.takeWhile (· ≠ 45#8))
            if baseAddress = longMin ∨ baseAddress = longMax then 0#64
            else BitVec.ofInt 64 (baseAddress + environOffset)

/-- What `handle_kill_SIGUSR` finds outside: the two sources of the address, the
output of `ps`, and the variables of the shell. -/
structure CreationReads where
  objdump : Option Text
  maps : Option Text
  psOutput : Option Text
  PS1 : Option Text
  pwd : Option Text
  stack : Shell

def CreationReads.closing (reads : CreationReads) : Closing :=
  ⟨getShellEnvironAddress reads.objdump reads.maps, reads.psOutput, reads.PS1, reads.pwd, reads.stack⟩

structure DaemonState where
  shells : Shells
  db : Database
  deriving DecidableEq

/-- The process dies at a variable that is not set, and what it stored stays. -/
def handleKillSIGUSR (opening : Opening) (reads : CreationReads) (killEvent : KillEvent)
    (before : DaemonState) : DaemonState :=
  let indicator := getIndicator opening.now
  let created := createSession opening killEvent before.db
  let i := chooseSlot before.shells
  match finishSession reads.closing killEvent indicator created with
  | .failed => ⟨before.shells, created⟩
  | .crashed => ⟨before.shells, (created.addPS1 indicator reads.PS1).getD created⟩
  | .entered db helper => ⟨before.shells.update i helper, db⟩

section Address

variable {objdump maps : Option Text}

def NumberRead (size : Nat) (source : Option Text) (number : Text → Int) (value : Int) : Prop :=
  ∃ line, source.bind (fgets size) = some line ∧ number line = value ∧ value ≠ longMin ∧ value ≠ longMax

def AddressFound (objdump maps : Option Text) : Prop :=
  ∃ environOffset baseAddress : Int, NumberRead 32 objdump strtolHex environOffset ∧
    NumberRead 64 maps (fun line => strtolHex (line.takeWhile (· ≠ 45#8))) baseAddress ∧
    BitVec.ofInt 64 (baseAddress + environOffset) ≠ 0#64

theorem addressFound_iff : getShellEnvironAddress objdump maps ≠ 0#64 ↔ AddressFound objdump maps := by
  unfold getShellEnvironAddress AddressFound NumberRead
  cases offsetRead : objdump.bind (fgets 32) with
  | none => simp
  | some offsetLine =>
      by_cases offsetFails : strtolHex offsetLine = longMin ∨ strtolHex offsetLine = longMax
      · simp only [if_pos offsetFails, ne_eq, not_true_eq_false, false_iff]
        rintro ⟨_, _, ⟨_, ⟨⟩, rfl, low, high⟩, _⟩
        exact offsetFails.elim low high
      · simp only [if_neg offsetFails]
        obtain ⟨low, high⟩ := not_or.mp offsetFails
        cases mapsRead : maps.bind (fgets 64) with
        | none => simp
        | some mapsLine =>
            by_cases baseFails : strtolHex (mapsLine.takeWhile (· ≠ 45#8)) = longMin ∨
                strtolHex (mapsLine.takeWhile (· ≠ 45#8)) = longMax
            · simp only [if_pos baseFails, ne_eq, not_true_eq_false, false_iff]
              rintro ⟨_, _, _, ⟨_, ⟨⟩, rfl, baseLow, baseHigh⟩, _⟩
              exact baseFails.elim baseLow baseHigh
            · simp only [if_neg baseFails]
              constructor
              · exact fun sum => ⟨_, _, ⟨_, rfl, rfl, low, high⟩, ⟨_, rfl, rfl, not_or.mp baseFails⟩, sum⟩
              · rintro ⟨_, _, ⟨_, ⟨⟩, rfl, _⟩, ⟨_, ⟨⟩, rfl, _⟩, sum⟩
                exact sum

end Address

/-- What a new session has: a table of its own with its first row, a row of `meta`,
a link at the end of what the parent's command had shown, and an entry that took
a free slot. -/
structure Complete (opening : Opening) (killEvent : KillEvent) (before after : DaemonState) : Prop where
  table : before.db.rows (getIndicator opening.now) = none ∧
    ∃ row, after.db.rows (getIndicator opening.now) = some [row] ∧ row.Pending
  metaRow : ∃ row, after.db.metaTable = before.db.metaTable ++ [row] ∧ row.indicator = getIndicator opening.now
  link : killEvent.parentShellIndicator ≠ 0#64 →
    ∃ front row, before.db.rows killEvent.parentShellIndicator = some (front ++ [row]) ∧
      after.db.rows killEvent.parentShellIndicator = some
        (front ++ [row.appendOutput (253#8 :: decimal (getIndicator opening.now))])
  entry : ∃ slot shell, ¬ before.shells.UsedAt slot ∧ after.shells.lookup slot = some shell ∧
    Slot.Used shell ∧ shell.shellPid = killEvent.shellPid ∧ shell.indicator = getIndicator opening.now

/-- Every step succeeds: no session has the indicator yet; the parent has a row for
the link, and the indicator the 11 digits of one; the address, the terminal and
the two variables are found; and a slot is free for the shell. -/
structure Creates (opening : Opening) (reads : CreationReads) (killEvent : KillEvent)
    (before : DaemonState) : Prop where
  fresh : before.db.rows (getIndicator opening.now) = none
  link : killEvent.parentShellIndicator ≠ 0#64 →
    (decimal (getIndicator opening.now)).length = 11 ∧
    ∃ row, before.db.lastRow killEvent.parentShellIndicator = some row
  address : AddressFound reads.objdump reads.maps
  terminal : ∃ text, reads.psOutput = some text ∧ text ≠ []
  environment : reads.PS1.isSome ∧ reads.pwd.isSome
  process : killEvent.shellPid ≠ 0#32
  slot : ¬ before.shells.Full

section Creation

variable {opening : Opening} {reads : CreationReads} {killEvent : KillEvent} {before : DaemonState}

theorem fgets_isSome (size : Nat) (source : Option Text) :
    (source.bind (fgets size)).isSome ↔ ∃ text, source = some text ∧ text ≠ [] := by
  cases source with
  | none => simp
  | some text => by_cases empty : text = [] <;> simp [fgets, empty]

theorem metaTable_handled (opening : Opening) (reads : CreationReads) (killEvent : KillEvent)
    (before : DaemonState) :
    ∃ row, (handleKillSIGUSR opening reads killEvent before).db.metaTable = before.db.metaTable ++ [row] ∧
      row.indicator = getIndicator opening.now := by
  obtain ⟨name, created⟩ := createSession_metaTable opening killEvent before.db
  refine ⟨⟨getIndicator opening.now, name, opening.time, none⟩, ?_, rfl⟩
  rw [← created, handleKillSIGUSR]
  cases ended : finishSession reads.closing killEvent (getIndicator opening.now)
      (createSession opening killEvent before.db) with
  | failed => rfl
  | crashed => cases reads.PS1 <;> rfl
  | entered db shell =>
      obtain ⟨_, _, _, _, _, _, _, rfl, _⟩ := finishSession_entered.mp ended
      rfl

/-- There is no way back to the state before. -/
theorem handled_ne_before :
    handleKillSIGUSR opening reads killEvent before ≠ before := by
  intro same
  obtain ⟨row, added, _⟩ := metaTable_handled opening reads killEvent before
  rw [same] at added
  simpa using congrArg List.length added

def linkedRows (opening : Opening) (killEvent : KillEvent) (db : Database) (other : Long) : Option (List Row) :=
  (db.rows other).map fun rows =>
    if killEvent.parentShellIndicator ≠ 0#64 ∧ other = killEvent.parentShellIndicator then
      changeLast (Row.appendOutput (parentLink opening)) rows
    else rows

theorem rows_createSession (opening : Opening) (killEvent : KillEvent) (db : Database) (other : Long) :
    (createSession opening killEvent db).rows other =
      if other = getIndicator opening.now then
        some ((linkedRows opening killEvent db other).getD [] ++ [Row.blank])
      else linkedRows opening killEvent db other := by
  rw [createSession_exec, rows_foldl, creationStatements, List.foldl_append, linkedRows]
  by_cases orphan : killEvent.parentShellIndicator = 0#64
  · by_cases own : other = getIndicator opening.now <;> cases db.rows other <;>
      simp [orphan, own, Statement.onRows]
  · by_cases own : other = getIndicator opening.now <;> cases db.rows other <;>
      simp [orphan, own, Statement.onRows]

def enteredDb (opening : Opening) (killEvent : KillEvent) (db : Database) (PS1 pwd : Text) : Database :=
  ((createSession opening killEvent db).updateLast (getIndicator opening.now) (Row.setPS1 PS1)).updateLast
    (getIndicator opening.now) (Row.setPwd pwd)

theorem rows_enteredDb (db : Database) (PS1 pwd : Text) (other : Long) :
    (enteredDb opening killEvent db PS1 pwd).rows other =
      if other = getIndicator opening.now then
        some ((linkedRows opening killEvent db other).getD [] ++ [Row.opened PS1 pwd])
      else linkedRows opening killEvent db other := by
  rw [enteredDb, Database.updateLast, Database.rows_mapTable, Database.updateLast, Database.rows_mapTable,
    rows_createSession]
  by_cases same : other = getIndicator opening.now
  · subst other
    simp [Row.opened, Row.blank, Row.setPS1, Row.setPwd]
  · simp [same]

theorem parent_enteredDb {db : Database} (PS1 pwd : Text) (fresh : db.rows (getIndicator opening.now) = none)
    {front : List Row} {row : Row} (child : killEvent.parentShellIndicator ≠ 0#64)
    (last : db.rows killEvent.parentShellIndicator = some (front ++ [row])) :
    (enteredDb opening killEvent db PS1 pwd).rows killEvent.parentShellIndicator =
      some (front ++ [row.appendOutput (parentLink opening)]) := by
  have apart : killEvent.parentShellIndicator ≠ getIndicator opening.now := by
    intro same
    rw [same, fresh] at last
    cases last
  rw [rows_enteredDb, if_neg apart, linkedRows, last, Option.map_some, if_pos ⟨child, rfl⟩, changeLast_concat]

theorem parentLink_digits : parentLink opening = 253#8 :: decimal (getIndicator opening.now) ↔
    (decimal (getIndicator opening.now)).length = 11 := by
  rw [parentLink_bytes, OutputEvent.bytes]
  constructor
  · intro same
    rw [← List.tail_eq_of_cons_eq same]
    exact recordedIndicator_length opening
  · intro digits
    rw [recordedIndicator_digits digits]

theorem handled_entered (opening : Opening) (killEvent : KillEvent) (before : DaemonState)
    {line PS1 pwd : Text} (address : getShellEnvironAddress reads.objdump reads.maps ≠ 0#64)
    (terminal : reads.psOutput.bind (fgets 8) = some line) (prompt : reads.PS1 = some PS1)
    (directory : reads.pwd = some pwd) :
    handleKillSIGUSR opening reads killEvent before =
      ⟨before.shells.update (chooseSlot before.shells)
          (newShell reads.closing killEvent (getIndicator opening.now) line),
        enteredDb opening killEvent before.db PS1 pwd⟩ := by
  have ended : finishSession reads.closing killEvent (getIndicator opening.now)
      (createSession opening killEvent before.db) = .entered (enteredDb opening killEvent before.db PS1 pwd)
        (newShell reads.closing killEvent (getIndicator opening.now) line) :=
    finishSession_entered.mpr ⟨address, line, PS1, pwd, terminal, prompt, directory, rfl, rfl⟩
  rw [handleKillSIGUSR, ended]

theorem Creates.complete (creates : Creates opening reads killEvent before) :
    Complete opening killEvent before (handleKillSIGUSR opening reads killEvent before) := by
  obtain ⟨line, terminal⟩ := Option.isSome_iff_exists.mp ((fgets_isSome 8 reads.psOutput).mpr creates.terminal)
  obtain ⟨PS1, prompt⟩ := Option.isSome_iff_exists.mp creates.environment.1
  obtain ⟨pwd, directory⟩ := Option.isSome_iff_exists.mp creates.environment.2
  refine ⟨?_, metaTable_handled opening reads killEvent before, ?_, ?_⟩ <;>
    rw [handled_entered _ _ _ (addressFound_iff.mpr creates.address) terminal prompt directory]
  · have alone : linkedRows opening killEvent before.db (getIndicator opening.now) = none := by
      rw [linkedRows, creates.fresh, Option.map_none]
    refine ⟨creates.fresh, Row.opened PS1 pwd, ?_, rfl, rfl, rfl, rfl, rfl, rfl⟩
    rw [rows_enteredDb, if_pos rfl, alone]
    rfl
  · intro child
    obtain ⟨digits, row, last⟩ := creates.link child
    obtain ⟨rows, there, final⟩ := Option.bind_eq_some_iff.mp last
    obtain ⟨front, rfl⟩ := List.getLast?_eq_some_iff.mp final
    have linked := parent_enteredDb PS1 pwd creates.fresh child there
    rw [parentLink_digits.mpr digits] at linked
    exact ⟨front, row, there, linked⟩
  · cases free : before.shells.firstFree with
    | none => exact absurd (SlotTable.firstFree_none.mp free) creates.slot
    | some slot =>
        obtain ⟨inside, unused, _⟩ := SlotTable.firstFree_some free
        rw [chooseSlot, free]
        exact ⟨slot, _, unused, SlotTable.lookup_update_self _ _ _ inside, creates.process, rfl, rfl⟩

theorem Complete.creates
    (complete : Complete opening killEvent before (handleKillSIGUSR opening reads killEvent before)) :
    Creates opening reads killEvent before := by
  obtain ⟨slot, shell, unused, placed, used, named, _⟩ := complete.entry
  -- the slot was free before
  have kept : (handleKillSIGUSR opening reads killEvent before).shells ≠ before.shells := by
    intro same
    rw [same] at placed
    exact unused ⟨shell, placed, used⟩
  cases ended : finishSession reads.closing killEvent (getIndicator opening.now)
      (createSession opening killEvent before.db) with
  | failed => exact absurd (by rw [handleKillSIGUSR, ended]) kept
  | crashed => exact absurd (by rw [handleKillSIGUSR, ended]) kept
  | entered db entry =>
      obtain ⟨address, line, PS1, pwd, terminal, prompt, directory, _⟩ := finishSession_entered.mp ended
      have handled := handled_entered opening killEvent before address terminal prompt directory
      refine ⟨complete.table.1, fun child => ?_, addressFound_iff.mp address, (fgets_isSome 8 _).mp (Option.isSome_of_eq_some terminal),
        ⟨Option.isSome_of_eq_some prompt, Option.isSome_of_eq_some directory⟩, named ▸ used, fun full => ?_⟩
      · -- what was appended to the parent's row is the link of 12 bytes
        obtain ⟨front, row, there, linked⟩ := complete.link child
        have entered := parent_enteredDb PS1 pwd complete.table.1 child there
        rw [handled, entered] at linked
        have output := congrArg Row.output
          (List.head_eq_of_cons_eq (List.append_cancel_left (Option.some.inj linked)))
        exact ⟨parentLink_digits.mp (List.append_cancel_left output), row, by simp [Database.lastRow, there]⟩
      · refine kept ?_
        rw [handled, chooseSlot, SlotTable.firstFree_none.mpr full]
        exact SlotTable.update_outside _ _ (Nat.le_refl _)

theorem pieces_handled {world : World} (taken : world.daemon = .taken killEvent)
    (survives : finishSession reads.closing killEvent (getIndicator opening.now)
      (createSession opening killEvent world.db) ≠ .crashed) :
    (((step world (.create opening)).bind (step · .scan)).bind (step · (.register reads.closing))).map
        (fun after => DaemonState.mk after.maps.shells after.db) =
      some (handleKillSIGUSR opening reads killEvent ⟨world.maps.shells, world.db⟩) := by
  simp only [step, taken, Option.bind_some, Option.map_some, Option.some.injEq, finish, handleKillSIGUSR]
  cases ended : finishSession reads.closing killEvent (getIndicator opening.now)
      (createSession opening killEvent world.db) with
  | failed => simp only
  | crashed => exact absurd ended survives
  | entered db shell => simp only

end Creation

/-- A session is created in full, or nothing is changed, exactly when every step
succeeds: no failure is undone. -/
theorem creation_allOrNothing_iff (opening : Opening) (reads : CreationReads) (killEvent : KillEvent)
    (before : DaemonState) :
    Complete opening killEvent before (handleKillSIGUSR opening reads killEvent before) ∨
      handleKillSIGUSR opening reads killEvent before = before ↔
    Creates opening reads killEvent before :=
  ⟨fun outcome => outcome.elim Complete.creates fun same => absurd same handled_ne_before,
    fun creates => Or.inl creates.complete⟩

def noTerminal : CreationReads :=
  ⟨some (ascii "0000000000129e88"), some (ascii "55d0c2a00000-55d0c2a2f000"), none, some [], some [], Slot.blank⟩

/-- The table and its row of `meta` stay, and no shell has them. -/
theorem noTerminal_halfMade :
    ¬ (Complete sampleOpening ⟨5#32, SIGUSR1, 0#64⟩ ⟨SlotTable.empty, Database.empty⟩
        (handleKillSIGUSR sampleOpening noTerminal ⟨5#32, SIGUSR1, 0#64⟩ ⟨SlotTable.empty, Database.empty⟩) ∨
      handleKillSIGUSR sampleOpening noTerminal ⟨5#32, SIGUSR1, 0#64⟩ ⟨SlotTable.empty, Database.empty⟩ =
        ⟨SlotTable.empty, Database.empty⟩) ∧
    (createSession sampleOpening ⟨5#32, SIGUSR1, 0#64⟩ Database.empty).tables =
      [(16000000000#64, [Row.blank])] := by
  refine ⟨?_, by decide +kernel⟩
  rintro (complete | same)
  · obtain ⟨text, found, _⟩ := complete.creates.terminal
    cases found
  · exact handled_ne_before same

end Nhi
