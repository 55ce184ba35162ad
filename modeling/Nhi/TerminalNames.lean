import Nhi.KsysWrite
import Nhi.SessionCreation

/-!
Which terminals a shell's entry matches. The daemon reads a name with its
newline into 8 bytes and takes one off the length, also where the newline did
not fit; `ksys_write` compares a name with what was kept.
-/

namespace Nhi

open BoundedLoop
open Sql (ascii)

/-- The base name of a terminal that fits the 8 bytes, and the line that `ps`
and `awk` print for it. -/
structure TerminalName where
  text : Text
  nonempty : text ≠ []
  short : text.length ≤ 7
  noNewline : 10#8 ∉ text
  noNul : 0#8 ∉ text

def TerminalName.line (terminal : TerminalName) : Text := terminal.text ++ [10#8]

structure DeviceName where
  text : Text
  noNul : 0#8 ∉ text
  fits : text.length < 2 ^ 32
  other : text ≠ ascii "tty"

/-- The one name that passes without a comparison. -/
def IsTty (len : BitVec 32) (terminal : Vector Byte 8) : Prop :=
  len = 3#32 ∧ terminal[0]? = some 116#8 ∧ terminal[1]? = some 116#8 ∧ terminal[2]? = some 121#8

def DeviceName.dentry (device : DeviceName) : Dentry := ⟨5#32, BitVec.ofNat 32 device.text.length, device.text⟩

section Comparison

variable {terminal : Vector Byte 8} {len : BitVec 32} {shell : Shell}

theorem terminalLoop_iff (positive : 0 < len.toNat) (within : len.toNat ≤ 8) {passes i : Nat}
    (total : i + passes = 8) (inside : i ≤ len.toNat) :
    (∃ last, forLoop (terminalBody terminal len shell) passes i = .done last) ↔
      ∀ j, i ≤ j → j < len.toNat → terminal[j]? = shell.terminal[j]? := by
  induction passes generalizing i with
  | zero => exact iff_of_true ⟨i, rfl⟩ fun j low high => absurd high (by omega)
  | succ passes ih =>
      rw [forLoop, terminalBody]
      by_cases done : i = len.toNat
      · rw [if_pos ⟨positive, done⟩]
        exact iff_of_true ⟨i, rfl⟩ fun j low high => absurd high (by omega)
      · rw [if_neg fun both => done both.2]
        by_cases same : terminal[i]? = shell.terminal[i]?
        · -- the bytes agree here, and the loop goes on
          rw [if_neg (not_not.mpr same)]
          simp only
          rw [ih (by omega) (by omega)]
          constructor
          · intro later j low high
            rcases Nat.eq_or_lt_of_le low with rfl | above
            · exact same
            · exact later j above high
          · exact fun all j low high => all j (by omega) high
        · rw [if_pos same]
          refine iff_of_false ?_ fun all => same (all i (Nat.le_refl i) (by omega))
          rintro ⟨_, ended⟩
          cases ended

theorem terminalAccepts_length (other : ¬ IsTty len terminal)
    (accepted : terminalAccepts terminal len shell = true) : len = shell.terminalLen.signExtend 32 := by
  by_contra apart
  rw [terminalAccepts, if_neg (by simpa [IsTty] using other), if_neg apart] at accepted
  cases accepted

theorem terminalAccepts_iff (positive : 0 < len.toNat) (within : len.toNat ≤ 8) (other : ¬ IsTty len terminal) :
    terminalAccepts terminal len shell = true ↔
      len = shell.terminalLen.signExtend 32 ∧ ∀ j < len.toNat, terminal[j]? = shell.terminal[j]? := by
  have loop : (∃ last, forLoop (terminalBody terminal len shell) 8 0 = .done last) ↔
      ∀ j < len.toNat, terminal[j]? = shell.terminal[j]? := by
    rw [terminalLoop_iff positive within (Nat.zero_add 8) (Nat.zero_le _)]
    simp only [Nat.zero_le, true_implies]
  rw [terminalAccepts, if_neg (by simpa [IsTty] using other), ← loop]
  by_cases same : len = shell.terminalLen.signExtend 32
  · rw [if_pos same]
    simp only [← same, true_and]
    cases forLoop (terminalBody terminal len shell) 8 0 with
    | done last => simp
    | ret value => simp
  · simp [same]

end Comparison

section Registered

variable {closing : Closing} {killEvent : KillEvent} {indicator : Long} {db after : Database} {shell : Shell}

def TerminalName.read (terminal : TerminalName) : Text :=
  if terminal.text.length = 7 then terminal.text else terminal.line

theorem fgets_line (terminal : TerminalName) : fgets 8 terminal.line = some terminal.read := by
  have short := terminal.short
  rw [fgets, TerminalName.line, if_neg (by simp), takeWhile_terminated terminal.noNewline,
    dropWhile_terminated terminal.noNewline, TerminalName.read]
  split_ifs with full
  · simp [← full]
  · have whole : (terminal.text ++ [10#8]).length ≤ 7 := by
      rw [List.length_append, List.length_singleton]
      omega
    simp [TerminalName.line, List.take_of_length_le whole]

theorem read_length (terminal : TerminalName) : terminal.read.length = min terminal.text.length 6 + 1 := by
  have short := terminal.short
  rw [TerminalName.read]
  split_ifs with full
  · omega
  · rw [TerminalName.line, List.length_append, List.length_singleton]
    omega

theorem read_noNul (terminal : TerminalName) : 0#8 ∉ terminal.read := by
  have noNul := terminal.noNul
  rw [TerminalName.read]
  split_ifs
  · exact noNul
  · simp [TerminalName.line, noNul]

theorem read_getElem? (terminal : TerminalName) {j : Nat} (inside : j < terminal.text.length) :
    terminal.read[j]? = terminal.text[j]? := by
  rw [TerminalName.read]
  split_ifs
  · rfl
  · rw [TerminalName.line, List.getElem?_append_left inside]

/-- The entry has the length of the name, but for a name of 7 bytes one less. -/
theorem entry_terminal {terminal : TerminalName} (line : closing.psOutput = some terminal.line)
    (entered : finishSession closing killEvent indicator db = .entered after shell) :
    shell.terminalLen = BitVec.ofNat 8 (min terminal.text.length 6) ∧
      ∀ j < min terminal.text.length 6, shell.terminal[j]? = terminal.text[j]? := by
  obtain ⟨_, found, _, _, read, _, _, _, rfl⟩ := finishSession_entered.mp entered
  rw [line, Option.bind_some, fgets_line, Option.some.injEq] at read
  subst read
  have length := read_length terminal
  have bytes : (cString closing.stack.terminal terminal.read).toList =
      terminal.read ++ 0#8 :: closing.stack.terminal.toList.drop (terminal.read.length + 1) :=
    cString_fits _ (by omega)
  constructor
  · rw [newShell]
    simp only
    rw [bytes, strlen, takeWhile_terminated (read_noNul terminal), length]
    apply BitVec.eq_of_toNat_eq
    simp
    omega
  · intro j low
    rw [newShell]
    simp only
    rw [← Vector.getElem?_toList, bytes, List.getElem?_append_left (by omega), read_getElem? terminal (by omega)]

end Registered

section Written

variable {call : WriteCall} {device : DeviceName} (written : call.dentry = device.dentry)

include written

theorem len_toNat : call.dentry.len.toNat = device.text.length := by
  rw [written, DeviceName.dentry, BitVec.toNat_ofNat, Nat.mod_eq_of_lt device.fits]

theorem readTerminal_getElem? {j : Nat} (inside : j < device.text.length) (low : j < 7) :
    (readTerminal call)[j]? = device.text[j]? := by
  have whole : call.dentry.name.takeWhile (· ≠ 0#8) = device.text := by
    rw [written]
    exact takeWhile_absent device.noNul
  have length : (device.text.take 7).length < 8 := by
    rw [List.length_take]
    omega
  rw [← Vector.getElem?_toList, readTerminal, whole, cString_fits _ length, List.getElem?_append_left (by
    rw [List.length_take]
    omega), List.getElem?_take_of_lt low]

theorem readTerminal_other : ¬ IsTty call.dentry.len (readTerminal call) := by
  rintro ⟨three, first, second, third⟩
  have length : device.text.length = 3 := by
    rw [← len_toNat written, three]
    rfl
  have zero := readTerminal_getElem? written (show 0 < device.text.length by omega) (by decide)
  have one := readTerminal_getElem? written (show 1 < device.text.length by omega) (by decide)
  have two := readTerminal_getElem? written (show 2 < device.text.length by omega) (by decide)
  rw [first] at zero
  rw [second] at one
  rw [third] at two
  obtain ⟨x, y, z, same⟩ := List.length_eq_three.mp length
  rw [same] at zero one two
  obtain rfl := Option.some.inj zero
  obtain rfl := Option.some.inj one
  obtain rfl := Option.some.inj two
  exact device.other same

theorem onTerminal_iff {closing : Closing} {killEvent : KillEvent} {indicator : Long} {db after : Database}
    {shell : Shell} {terminal : TerminalName} (line : closing.psOutput = some terminal.line)
    (entered : finishSession closing killEvent indicator db = .entered after shell) :
    onTerminal call shell = true ↔ device.text = terminal.text.take 6 := by
  obtain ⟨kept, bytes⟩ := entry_terminal line entered
  have positive := List.length_pos_iff.mpr terminal.nonempty
  have gid : call.dentry.gid = 5#32 := by
    rw [written]
    rfl
  have extended : (shell.terminalLen.signExtend 32).toNat = min terminal.text.length 6 := by
    have small : ∀ length < 7, ((BitVec.ofNat 8 length).signExtend 32).toNat = length := by decide
    rw [kept, small _ (by omega)]
  have lengths : call.dentry.len = shell.terminalLen.signExtend 32 ↔
      device.text.length = min terminal.text.length 6 := by
    rw [← BitVec.toNat_inj, len_toNat written, extended]
  rw [onTerminal, gid, decide_eq_true rfl, Bool.true_and]
  by_cases same : device.text.length = min terminal.text.length 6
  · have count := len_toNat written
    rw [terminalAccepts_iff (by omega) (by omega) (readTerminal_other written), lengths, and_iff_right same, count]
    constructor
    · intro all
      apply List.ext_getElem?
      intro j
      rcases Nat.lt_or_ge j device.text.length with inside | outside
      · rw [← readTerminal_getElem? written inside (by omega), all j inside, bytes j (by omega),
          List.getElem?_take_of_lt (by omega)]
      · rw [List.getElem?_eq_none outside, List.getElem?_eq_none]
        rw [List.length_take]
        omega
    · intro equal j inside
      rw [readTerminal_getElem? written inside (by omega), bytes j (by omega), equal,
        List.getElem?_take_of_lt (by omega)]
  · -- names of another length are rejected before the loop
    refine iff_of_false (fun accepted => same ?_) fun equal => same ?_
    · exact lengths.mp (terminalAccepts_length (readTerminal_other written) accepted)
    · rw [equal, List.length_take, Nat.min_comm]

end Written

/-- A write is accepted exactly for the name itself, unless the name has 7 bytes
and the device has it or its first 6. -/
theorem terminalCheck_iff (terminal : TerminalName) (device : DeviceName) {closing : Closing}
    {killEvent : KillEvent} {indicator : Long} {db after : Database} {shell : Shell} {call : WriteCall}
    (line : closing.psOutput = some terminal.line)
    (entered : finishSession closing killEvent indicator db = .entered after shell)
    (written : call.dentry = device.dentry) :
    (onTerminal call shell = true ↔ device.text = terminal.text) ↔
      terminal.text.length ≤ 6 ∨ (device.text ≠ terminal.text ∧ device.text ≠ terminal.text.take 6) := by
  rw [onTerminal_iff written line entered]
  rcases Nat.lt_or_ge 6 terminal.text.length with long | short
  · have cut : terminal.text.take 6 ≠ terminal.text := by
      intro same
      have length := congrArg List.length same
      rw [List.length_take] at length
      omega
    constructor
    · intro exact'
      refine Or.inr ⟨fun same => ?_, fun same => ?_⟩
      · exact cut ((exact'.mpr same).symm.trans same)
      · exact cut (same.symm.trans (exact'.mp same))
    · rintro (short | ⟨apart, apart'⟩)
      · omega
      · exact iff_of_false apart' apart
  · rw [List.take_of_length_le short]
    exact iff_of_true Iff.rfl (Or.inl short)

def writeTo (device : DeviceName) : WriteCall := { ttyWrite 9#32 [97#8] with dentry := device.dentry }

def closingAt (terminal : TerminalName) : Closing := { sampleClosing with psOutput := some terminal.line }

def EnteredAt (terminal : TerminalName) (shell : Shell) : Prop :=
  ∃ after, finishSession (closingAt terminal) ⟨5#32, SIGUSR1, 0#64⟩ 7#64 Database.empty = .entered after shell

theorem terminalCheck_pts :
    ∃ (terminal : TerminalName) (device : DeviceName) (shell : Shell),
      terminal.text = ascii "12" ∧ device.text = ascii "12" ∧ EnteredAt terminal shell ∧
      (onTerminal (writeTo device) shell = true ↔ device.text = terminal.text) := by
  let terminal : TerminalName := ⟨ascii "12", by decide, by decide, by decide, by decide⟩
  let device : DeviceName := ⟨ascii "12", by decide, by decide, by decide⟩
  have entered : ∃ shell, EnteredAt terminal shell := ⟨_, _, rfl⟩
  obtain ⟨shell, after, entry⟩ := entered
  exact ⟨terminal, device, shell, rfl, rfl, ⟨after, entry⟩,
    (terminalCheck_iff terminal device rfl entry rfl).mpr (Or.inl (by decide))⟩

/-- On a terminal of 7 bytes no write is taken, but those to a shorter name are. -/
theorem ttyUSB0_unmatched :
    ∃ (terminal : TerminalName) (device other : DeviceName) (shell : Shell),
      terminal.text = ascii "ttyUSB0" ∧ device.text = ascii "ttyUSB0" ∧ other.text = ascii "ttyUSB" ∧
      EnteredAt terminal shell ∧
      onTerminal (writeTo device) shell = false ∧ onTerminal (writeTo other) shell = true := by
  refine ⟨⟨ascii "ttyUSB0", by decide, by decide, by decide, by decide⟩,
    ⟨ascii "ttyUSB0", by decide, by decide, by decide⟩, ⟨ascii "ttyUSB", by decide, by decide, by decide⟩,
    _, rfl, rfl, rfl, ⟨_, rfl⟩, ?_, ?_⟩
  · decide
  · decide

end Nhi
