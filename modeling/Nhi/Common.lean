import Mathlib.Data.List.TakeWhile
import Nhi.LittleEndian
import Nhi.SlotTable

/-!
daemon/src/common.h: the constants, the two table entries and the records that
the kernel programs put in the ring buffer. `int` and `pid_t` are 32 bits wide,
`long` and pointers 64, `char` 8.
-/

namespace Nhi

export LittleEndian (Byte)

abbrev Pid := BitVec 32
abbrev CInt := BitVec 32
abbrev Long := BitVec 64
abbrev Text := List Byte

abbrev shellsMaxEntries : Nat := 256
abbrev childrenMaxEntries : Nat := 1024
abbrev ksysWriteEventSize : Nat := 32 * 1024

def nhidHash : Pid := BitVec.ofNat 32 (110 * 104 * 105 * 100)

def SIGUSR1 : CInt := 10#32
def SIGUSR2 : CInt := 12#32
def SIGRTMIN : CInt := 34#32

structure Shell where
  shellPid : Pid
  indicator : Long
  omitWrite : Byte
  environAddress : Long
  terminal : Vector Byte 8
  terminalLen : Byte
  deriving DecidableEq

structure Child where
  childPid : Pid
  shellPid : Pid
  deriving DecidableEq

/-- `struct shell zero = {0}` marks a free slot; the loops only look at the pid. -/
instance : Slot Shell Pid where
  key := Shell.shellPid
  blank := ⟨0#32, 0#64, 0#8, 0#64, Vector.replicate 8 0#8, 0#8⟩

instance : Slot Child Pid where
  key := Child.childPid
  blank := ⟨0#32, 0#32⟩

@[simp] theorem shell_key (shell : Shell) : Slot.key shell = shell.shellPid := rfl

@[simp] theorem child_key (child : Child) : Slot.key child = child.childPid := rfl

@[simp] theorem shell_blank_key : Slot.key (Slot.blank : Shell) = 0#32 := rfl

@[simp] theorem child_blank_key : Slot.key (Slot.blank : Child) = 0#32 := rfl

@[simp] theorem shell_used (shell : Shell) : Slot.Used shell ↔ shell.shellPid ≠ 0#32 := Iff.rfl

@[simp] theorem child_used (child : Child) : Slot.Used child ↔ child.childPid ≠ 0#32 := Iff.rfl

abbrev Shells := SlotTable Shell shellsMaxEntries
abbrev Children := SlotTable Child childrenMaxEntries

structure KillEvent where
  shellPid : Pid
  sig : CInt
  parentShellIndicator : Long
  deriving DecidableEq

def Shell.plain (shellPid : Pid) (indicator : Long) : Shell :=
  ⟨shellPid, indicator, 0#8, 0#64, Vector.replicate 8 0#8, 0#8⟩

/-- A byte array after a terminated string was copied to its start. -/
def cString {n : Nat} (old : Vector Byte n) (text : Text) : Vector Byte n :=
  Vector.ofFn fun i =>
    if i.val = text.length then 0#8 else (text[i.val]?).getD old[i]

theorem cString_toList {n : Nat} (old : Vector Byte n) (text : Text) :
    (cString old text).toList = (text ++ 0#8 :: old.toList.drop (text.length + 1)).take n := by
  apply List.ext_getElem?
  intro i
  rcases Nat.lt_or_ge i n with inside | outside
  · rw [List.getElem?_take_of_lt inside]
    rcases Nat.lt_trichotomy i text.length with before | rfl | behind
    · rw [List.getElem?_append_left before]
      simp [cString, inside, before, Nat.ne_of_lt before]
    · simp [cString, inside]
    · obtain ⟨k, rfl⟩ : ∃ k, i = text.length + 1 + k := ⟨i - (text.length + 1), by omega⟩
      have apart : text.length + 1 + k ≠ text.length := by omega
      have beyond : text.length ≤ text.length + 1 + k := by omega
      have next : text.length + 1 + k - text.length = k + 1 := by omega
      rw [List.getElem?_append_right beyond, next]
      simp [cString, inside, apart, List.getElem?_eq_none beyond]
  · rw [List.getElem?_eq_none (by simpa using outside), List.getElem?_eq_none]
    simp
    omega

theorem cString_fits {n : Nat} (old : Vector Byte n) {text : Text} (fits : text.length < n) :
    (cString old text).toList = text ++ 0#8 :: old.toList.drop (text.length + 1) := by
  rw [cString_toList, List.take_of_length_le]
  simp only [List.length_append, List.length_cons, List.length_drop, Vector.length_toList]
  omega

/-! Texts up to the first of some byte: a NUL, a newline, a separator. -/
section Terminated

variable {last : Byte} {text : Text} (absent : last ∉ text)

include absent

theorem decide_ne_of_absent : ∀ byte ∈ text, decide (byte ≠ last) = true := by
  intro byte member
  rw [decide_eq_true_eq]
  rintro rfl
  exact absent member

theorem takeWhile_absent : text.takeWhile (· ≠ last) = text :=
  List.takeWhile_eq_self_iff.mpr (decide_ne_of_absent absent)

theorem takeWhile_terminated (rest : Text) : (text ++ last :: rest).takeWhile (· ≠ last) = text := by
  rw [List.takeWhile_append_of_pos (decide_ne_of_absent absent), List.takeWhile_cons_of_neg (by simp),
    List.append_nil]

theorem dropWhile_terminated (rest : Text) : (text ++ last :: rest).dropWhile (· ≠ last) = last :: rest := by
  rw [List.dropWhile_append_of_pos (decide_ne_of_absent absent), List.dropWhile_cons_of_neg (by simp)]

end Terminated

/-- What one ring buffer record holds. A write record is the indicator followed
by the marker byte and the payload. -/
inductive Event where
  | kill (event : KillEvent)
  | childCreation (shellPid : Pid)
  | exitShellIndicator (indicator : Long)
  | write (indicator : Long) (output : Text)
  deriving DecidableEq

structure Maps where
  shells : Shells
  children : Children
  deriving DecidableEq

def pidBlock (first count : Nat) : List Pid :=
  (List.range count).map fun i => BitVec.ofNat 32 (first + i)

@[simp] theorem pidBlock_length (first count : Nat) : (pidBlock first count).length = count := by
  simp [pidBlock]

theorem pidBlock_nodup {first count : Nat} (fits : first + count ≤ 2 ^ 32) :
    (pidBlock first count).Nodup := by
  apply List.Nodup.map_on _ List.nodup_range
  intro i inI j inJ same
  have values := congrArg BitVec.toNat same
  rw [List.mem_range] at inI inJ
  rw [BitVec.toNat_ofNat, BitVec.toNat_ofNat, Nat.mod_eq_of_lt (by omega),
    Nat.mod_eq_of_lt (by omega)] at values
  omega

theorem mem_pidBlock {first count : Nat} (fits : first + count ≤ 2 ^ 32) {pid : Pid} :
    pid ∈ pidBlock first count ↔ first ≤ pid.toNat ∧ pid.toNat < first + count := by
  simp only [pidBlock, List.mem_map, List.mem_range]
  constructor
  · rintro ⟨i, inside, rfl⟩
    rw [BitVec.toNat_ofNat, Nat.mod_eq_of_lt (by omega)]
    omega
  · rintro ⟨above, below⟩
    refine ⟨pid.toNat - first, by omega, ?_⟩
    rw [Nat.add_sub_cancel' above, BitVec.ofNat_toNat, BitVec.setWidth_eq]

theorem pidBlock_nonzero {first count : Nat} (positive : 0 < first)
    (fits : first + count ≤ 2 ^ 32) : ∀ pid ∈ pidBlock first count, pid ≠ 0#32 := by
  rintro pid member rfl
  have above := ((mem_pidBlock fits).mp member).1
  simp only [BitVec.toNat_ofNat] at above
  omega

def tablesOf (shellPids childPids : List Pid) : Maps :=
  ⟨SlotTable.ofEntries (shellPids.map fun pid => Shell.plain pid 7#64),
    SlotTable.ofEntries (childPids.map fun pid => ⟨pid, 1#32⟩)⟩

def Maps.empty : Maps := ⟨SlotTable.empty, SlotTable.empty⟩

end Nhi
