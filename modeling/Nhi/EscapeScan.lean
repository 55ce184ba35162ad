import Nhi.KsysWrite

/-!
What the scan of `ksys_write` does, in terms of the buffer as it was before the
scan. Only the sequences that start below `scanEnd` count: an enter among them
ends the program with `omit_write` set and no event; otherwise a leave among
them clears the flag, and every leave is blanked in the buffer.
-/

namespace Nhi

open BoundedLoop SlotTable

def setOmit (shells : Shells) (shellIndex : Nat) (flag : Byte) : Shells :=
  match shells.lookup shellIndex with
  | some shell => shells.update shellIndex { shell with omitWrite := flag }
  | none => shells

/-- The scan looks at positions 1 to 511 and stops at `count`. -/
def scanEnd (count : Nat) : Nat := min 512 count

def EntersBelow (output : Nat → Byte) (stop : Nat) : Prop :=
  ∃ i < stop, 1 ≤ i ∧ alternateScreen.OnAt output i

def LeavesBelow (output : Nat → Byte) (stop : Nat) : Prop :=
  ∃ i < stop, 1 ≤ i ∧ alternateScreen.OffAt output i

def LeadsBelow (output : Nat → Byte) (stop : Nat) : Prop :=
  ∃ i < stop, 1 ≤ i ∧ alternateScreen.LeadAt output i

instance (output : Nat → Byte) (stop : Nat) : Decidable (LeadsBelow output stop) :=
  inferInstanceAs (Decidable (∃ i < stop, _))

instance (output : Nat → Byte) (stop : Nat) : Decidable (EntersBelow output stop) :=
  inferInstanceAs (Decidable (∃ i < stop, _))

instance (output : Nat → Byte) (stop : Nat) : Decidable (LeavesBelow output stop) :=
  inferInstanceAs (Decidable (∃ i < stop, _))

def afterLeaves (shells : Shells) (shellIndex : Nat) (output : Nat → Byte) (stop : Nat) : Shells :=
  if LeavesBelow output stop then setOmit shells shellIndex 0#8 else shells

section SetOmit

variable {shells : Shells} {shellIndex : Nat} {shell : Shell}

theorem setOmit_eq (found : shells.lookup shellIndex = some shell) (flag : Byte) :
    setOmit shells shellIndex flag =
      shells.update shellIndex { shell with omitWrite := flag } := by
  simp [setOmit, found]

theorem lookup_setOmit (found : shells.lookup shellIndex = some shell) (flag : Byte) :
    (setOmit shells shellIndex flag).lookup shellIndex =
      some { shell with omitWrite := flag } := by
  rw [setOmit_eq found, lookup_update_self _ _ _ (lookup_lt found)]

theorem setOmit_setOmit (found : shells.lookup shellIndex = some shell) (first second : Byte) :
    setOmit (setOmit shells shellIndex first) shellIndex second =
      setOmit shells shellIndex second := by
  rw [setOmit_eq (lookup_setOmit found first), setOmit_eq found, setOmit_eq found, update_update]

theorem lookup_afterLeaves (found : shells.lookup shellIndex = some shell)
    (output : Nat → Byte) (stop : Nat) :
    (afterLeaves shells shellIndex output stop).lookup shellIndex =
      some { shell with
        omitWrite := if LeavesBelow output stop then 0#8 else shell.omitWrite } := by
  by_cases left : LeavesBelow output stop
  · simp [afterLeaves, left, lookup_setOmit found]
  · simp [afterLeaves, left, found]

theorem setOmit_afterLeaves (found : shells.lookup shellIndex = some shell)
    (output : Nat → Byte) (stop : Nat) (flag : Byte) :
    setOmit (afterLeaves shells shellIndex output stop) shellIndex flag =
      setOmit shells shellIndex flag := by
  by_cases left : LeavesBelow output stop
  · simp [afterLeaves, left, setOmit_setOmit found]
  · simp [afterLeaves, left]

end SetOmit

theorem below_succ {starts : Nat → Prop} {stop : Nat} (positive : 1 ≤ stop) :
    (∃ i < stop + 1, 1 ≤ i ∧ starts i) ↔ starts stop ∨ ∃ i < stop, 1 ≤ i ∧ starts i := by
  constructor
  · rintro ⟨i, below, above, here⟩
    rcases Nat.lt_succ_iff_lt_or_eq.mp below with earlier | rfl
    · exact Or.inr ⟨i, earlier, above, here⟩
    · exact Or.inl here
  · rintro (here | ⟨i, below, above, earlier⟩)
    · exact ⟨stop, by omega, positive, here⟩
    · exact ⟨i, by omega, above, earlier⟩

theorem leavesBelow_succ (output : Nat → Byte) {stop : Nat} (start : 1 ≤ stop) :
    LeavesBelow output (stop + 1) ↔
      alternateScreen.OffAt output stop ∨ LeavesBelow output stop :=
  below_succ start

theorem entersBelow_succ (output : Nat → Byte) {stop : Nat} (start : 1 ≤ stop) :
    EntersBelow output (stop + 1) ↔
      alternateScreen.OnAt output stop ∨ EntersBelow output stop :=
  below_succ start

theorem leadsBelow_succ (output : Nat → Byte) {stop : Nat} (start : 1 ≤ stop) :
    LeadsBelow output (stop + 1) ↔
      alternateScreen.LeadAt output stop ∨ LeadsBelow output stop :=
  below_succ start

section Window

variable {count k : Nat}

theorem scanEnd_left (inside : k < 511) (last : k + 1 = count) : scanEnd count = k + 1 := by
  simp only [scanEnd]
  omega

theorem scanEnd_bound (reached : 511 + 1 ≤ count) : scanEnd count = 511 + 1 := by
  simp only [scanEnd]
  omega

theorem below_scanEnd (inside : k < 511) (reached : k + 1 ≤ count) (last : k + 1 ≠ count) :
    k + 1 < scanEnd count := by
  simp only [scanEnd]
  omega

end Window

section Pass

variable {count shellIndex : Nat} (state : ScanState) {helper : Shell}

theorem scanBody_on (entry : state.shells.lookup shellIndex = some helper)
    (before : state.index ≠ count) (on : alternateScreen.OnAt state.output state.index) :
    scanBody count shellIndex state =
      .ret { state with shells := setOmit state.shells shellIndex 1#8 } := by
  have final : state.output (state.index + 7) = 104#8 := on.2
  rw [scanBody, if_neg before, if_pos on.1]
  simp only [entry, if_pos final, setOmit]

theorem scanBody_off (entry : state.shells.lookup shellIndex = some helper)
    (before : state.index ≠ count) (off : alternateScreen.OffAt state.output state.index) :
    scanBody count shellIndex state =
      .next ⟨state.index + 1, blankSequence state.output state.index,
        setOmit state.shells shellIndex 0#8⟩ := by
  have final : state.output (state.index + 7) = 108#8 := off.2
  rw [scanBody, if_neg before, if_pos off.1]
  simp [entry, final, setOmit]

theorem scanBody_other (entry : state.shells.lookup shellIndex = some helper)
    (before : state.index ≠ count) (notOn : ¬ alternateScreen.OnAt state.output state.index)
    (notOff : ¬ alternateScreen.OffAt state.output state.index) :
    scanBody count shellIndex state = .next { state with index := state.index + 1 } := by
  rw [scanBody, if_neg before]
  by_cases lead : alternateScreen.LeadAt state.output state.index
  · have notH : ¬ state.output (state.index + 7) = 104#8 := fun final => notOn ⟨lead, final⟩
    have notL : ¬ state.output (state.index + 7) = 108#8 := fun final => notOff ⟨lead, final⟩
    simp only [if_pos lead, entry, if_neg notH, if_neg notL]
  · rw [if_neg lead]

end Pass

def scanned (shells : Shells) (shellIndex : Nat) (output : Nat → Byte) (stop : Nat) : ScanState :=
  ⟨stop, alternateScreen.erase output 1 stop, afterLeaves shells shellIndex output stop⟩

section Scan

theorem erase_onAt (output : Nat → Byte) (stop : Nat) :
    alternateScreen.OnAt (alternateScreen.erase output 1 stop) stop ↔
      alternateScreen.OnAt output stop :=
  Switch.erase_ending (Nat.le_refl stop) alternateScreen.on

theorem erase_offAt (output : Nat → Byte) (stop : Nat) :
    alternateScreen.OffAt (alternateScreen.erase output 1 stop) stop ↔
      alternateScreen.OffAt output stop :=
  Switch.erase_ending (Nat.le_refl stop) alternateScreen.off

variable {shells : Shells} {shellIndex : Nat} {shell : Shell} {output : Nat → Byte} {stop : Nat}

theorem scanned_off (found : shells.lookup shellIndex = some shell) (start : 1 ≤ stop)
    (off : alternateScreen.OffAt output stop) :
    (⟨stop + 1, blankSequence (scanned shells shellIndex output stop).output stop,
      setOmit (scanned shells shellIndex output stop).shells shellIndex 0#8⟩ : ScanState) =
      scanned shells shellIndex output (stop + 1) := by
  have outputs : blankSequence (alternateScreen.erase output 1 stop) stop =
      alternateScreen.erase output 1 (stop + 1) := by
    funext p
    rw [Switch.erase_step start]
    have width8 : alternateScreen.width = 8 := rfl
    have blank0 : alternateScreen.blank = 0#8 := rfl
    simp [blankSequence, off, width8, blank0]
  have left := (leavesBelow_succ output start).mpr (Or.inl off)
  simp only [scanned, outputs, setOmit_afterLeaves found]
  simp only [afterLeaves, if_pos left]

theorem scanned_other (start : 1 ≤ stop) (notOff : ¬ alternateScreen.OffAt output stop) :
    ({ scanned shells shellIndex output stop with index := stop + 1 } : ScanState) =
      scanned shells shellIndex output (stop + 1) := by
  have outputs : alternateScreen.erase output 1 (stop + 1) =
      alternateScreen.erase output 1 stop := by
    funext p
    rw [Switch.erase_step start, if_neg (fun here => notOff here.1)]
  have same : LeavesBelow output (stop + 1) ↔ LeavesBelow output stop := by
    rw [leavesBelow_succ output start]
    simp [notOff]
  simp only [scanned, outputs, afterLeaves, same]

theorem scanBody_scanned (found : shells.lookup shellIndex = some shell) {count : Nat}
    (start : 1 ≤ stop) (before : stop ≠ count) :
    scanBody count shellIndex (scanned shells shellIndex output stop) =
      if alternateScreen.OnAt output stop then
        .ret { scanned shells shellIndex output stop with
          shells := setOmit shells shellIndex 1#8 }
      else .next (scanned shells shellIndex output (stop + 1)) := by
  have entry := lookup_afterLeaves found output stop
  by_cases on : alternateScreen.OnAt output stop
  · rw [if_pos on, scanBody_on (scanned shells shellIndex output stop) entry before
      ((erase_onAt output stop).mpr on)]
    simp only [scanned, setOmit_afterLeaves found]
  · rw [if_neg on]
    have notOn := mt (erase_onAt output stop).mp on
    by_cases off : alternateScreen.OffAt output stop
    · rw [scanBody_off (scanned shells shellIndex output stop) entry before
        ((erase_offAt output stop).mpr off)]
      exact congrArg PassEnd.next (scanned_off found start off)
    · have notOff := mt (erase_offAt output stop).mp off
      rw [scanBody_other (scanned shells shellIndex output stop) entry before notOn notOff]
      exact congrArg PassEnd.next (scanned_other start off)

variable (output)

def ScanSpec (shells : Shells) (shellIndex count : Nat) (output : Nat → Byte) :
    Outcome ScanState ScanState → Prop
  | .ret state => EntersBelow output (scanEnd count) ∧
      state.shells = setOmit shells shellIndex 1#8
  | .done state => ¬ EntersBelow output (scanEnd count) ∧
      state = scanned shells shellIndex output (scanEnd count)

theorem scan_spec (found : shells.lookup shellIndex = some shell) {count : Nat}
    (positive : 1 ≤ count) :
    ScanSpec shells shellIndex count output
      (forLoop (scanBody count shellIndex) 511 ⟨1, output, shells⟩) := by
  have initial : (⟨1, output, shells⟩ : ScanState) = scanned shells shellIndex output 1 := by
    have none : ¬ LeavesBelow output 1 := by
      rintro ⟨i, below, above, _⟩
      omega
    have untouched : alternateScreen.erase output 1 1 = output :=
      Switch.erase_none fun i below above => by omega
    simp [scanned, untouched, afterLeaves, none]
  rw [initial]
  -- pass `k` looks at position `k + 1`; no enter has been met before it
  refine forLoop_rule (scanBody count shellIndex)
    (fun k state => k + 1 ≤ count ∧ ¬ EntersBelow output (k + 1) ∧
      state = scanned shells shellIndex output (k + 1))
    (ScanSpec shells shellIndex count output) 511 ?_ ?_ _ ⟨positive, ?_, rfl⟩
  · rintro k inside state ⟨reached, none, rfl⟩
    by_cases last : k + 1 = count
    · have stop := scanEnd_left inside last
      have left : scanBody count shellIndex (scanned shells shellIndex output (k + 1)) =
          .leave (scanned shells shellIndex output (k + 1)) := by
        rw [scanBody, if_pos (show (scanned shells shellIndex output (k + 1)).index = count from last)]
      rw [left]
      exact ⟨stop ▸ none, by rw [stop]⟩
    · rw [scanBody_scanned found (Nat.succ_pos k) last]
      by_cases on : alternateScreen.OnAt output (k + 1)
      · rw [if_pos on]
        exact ⟨⟨k + 1, below_scanEnd inside reached last, Nat.succ_pos k, on⟩, rfl⟩
      · rw [if_neg on]
        refine ⟨by omega, ?_, rfl⟩
        rw [entersBelow_succ output (Nat.succ_pos k)]
        exact fun enters => enters.elim on none
  · rintro state ⟨reached, none, rfl⟩
    have stop := scanEnd_bound reached
    exact ⟨stop ▸ none, by rw [stop]⟩
  · rintro ⟨i, below, above, _⟩
    omega

/-- The index is past the end of `shells`, so the flag cannot be looked up. -/
def UnlistedScanSpec (shells : Shells) (count : Nat) (output : Nat → Byte) :
    Outcome ScanState ScanState → Prop
  | .ret state => LeadsBelow output (scanEnd count) ∧ state.shells = shells
  | .done state => ¬ LeadsBelow output (scanEnd count) ∧
      state = ⟨scanEnd count, output, shells⟩

theorem unlisted_scan_spec (missing : shells.lookup shellIndex = none) {count : Nat}
    (positive : 1 ≤ count) :
    UnlistedScanSpec shells count output
      (forLoop (scanBody count shellIndex) 511 ⟨1, output, shells⟩) := by
  refine forLoop_rule (scanBody count shellIndex)
    (fun k state => k + 1 ≤ count ∧ ¬ LeadsBelow output (k + 1) ∧
      state = ⟨k + 1, output, shells⟩)
    (UnlistedScanSpec shells count output) 511 ?_ ?_ _ ⟨positive, ?_, rfl⟩
  · rintro k inside state ⟨reached, none, rfl⟩
    by_cases last : k + 1 = count
    · have stop := scanEnd_left inside last
      rw [scanBody, if_pos last]
      exact ⟨stop ▸ none, by rw [stop]⟩
    · rw [scanBody, if_neg last]
      by_cases lead : alternateScreen.LeadAt output (k + 1)
      · simp only [if_pos lead, missing]
        exact ⟨⟨k + 1, below_scanEnd inside reached last, Nat.succ_pos k, lead⟩, rfl⟩
      · simp only [if_neg lead]
        refine ⟨by omega, ?_, trivial⟩
        rw [leadsBelow_succ output (Nat.succ_pos k)]
        exact fun leads => leads.elim lead none
  · rintro state ⟨reached, none, rfl⟩
    have stop := scanEnd_bound reached
    exact ⟨stop ▸ none, by rw [stop]⟩
  · rintro ⟨i, below, above, _⟩
    omega

end Scan

section Record

variable {call : WriteCall} {found : Attribution} (room : Bool) {shells : Shells} {shell : Shell}
  {buffer : WriteBuffer}

def filled (call : WriteCall) (buffer : WriteBuffer) : Nat → Byte :=
  (fillBuffer call 0#64 buffer).output

theorem filled_eq (indicator : Long) :
    (fillBuffer call indicator buffer).output = filled call buffer := rfl

def windowEnd (call : WriteCall) : Nat := scanEnd (cappedCount call.count)

theorem record_enter (entry : shells.lookup found.shellIndex = some shell)
    (positive : 1 ≤ call.count) (enters : EntersBelow (filled call buffer) (windowEnd call)) :
    (record call found room shells buffer).shells = setOmit shells found.shellIndex 1#8 ∧
      (record call found room shells buffer).event = none := by
  have spec := scan_spec (filled call buffer) entry (cappedCount_pos positive)
  rw [record, filled_eq]
  cases outcome : forLoop (scanBody (cappedCount call.count) found.shellIndex) 511
      ⟨1, filled call buffer, shells⟩ with
  | ret state =>
      rw [outcome] at spec
      exact ⟨spec.2, rfl⟩
  | done state =>
      rw [outcome] at spec
      exact absurd enters spec.1

theorem record_pass (entry : shells.lookup found.shellIndex = some shell)
    (positive : 1 ≤ call.count) (none : ¬ EntersBelow (filled call buffer) (windowEnd call)) :
    (record call found room shells buffer).shells =
        afterLeaves shells found.shellIndex (filled call buffer) (windowEnd call) ∧
      (record call found room shells buffer).event =
        if (if LeavesBelow (filled call buffer) (windowEnd call) then 0#8 else shell.omitWrite) = 1#8
        then Option.none
        else emit room (cappedCount call.count)
          ⟨found.indicator, alternateScreen.erase (filled call buffer) 1 (windowEnd call)⟩ := by
  have spec := scan_spec (filled call buffer) entry (cappedCount_pos positive)
  rw [record, filled_eq]
  cases outcome : forLoop (scanBody (cappedCount call.count) found.shellIndex) 511
      ⟨1, filled call buffer, shells⟩ with
  | ret state =>
      rw [outcome] at spec
      exact absurd spec.1 none
  | done state =>
      rw [outcome] at spec
      obtain ⟨_, rfl⟩ := spec
      have flag := lookup_afterLeaves entry (filled call buffer) (windowEnd call)
      refine ⟨rfl, ?_⟩
      simp only [scanned, windowEnd] at flag ⊢
      simp only [flag, Option.any_some, decide_eq_true_eq]
      rfl

variable (buffer) in
theorem record_unlisted (missing : shells.lookup found.shellIndex = none)
    (positive : 1 ≤ call.count) :
    (record call found room shells buffer).shells = shells ∧
      (record call found room shells buffer).event =
        if LeadsBelow (filled call buffer) (windowEnd call) then none
        else emit room (cappedCount call.count) ⟨found.indicator, filled call buffer⟩ := by
  have spec := unlisted_scan_spec (filled call buffer) missing (cappedCount_pos positive)
  rw [record, filled_eq]
  cases outcome : forLoop (scanBody (cappedCount call.count) found.shellIndex) 511
      ⟨1, filled call buffer, shells⟩ with
  | ret state =>
      rw [outcome] at spec
      exact ⟨spec.2, (if_pos spec.1).symm⟩
  | done state =>
      rw [outcome] at spec
      obtain ⟨none, rfl⟩ := spec
      refine ⟨rfl, ?_⟩
      rw [windowEnd, if_neg none]
      simp only [missing, Option.any_none, Bool.false_eq_true, if_false]
      rfl

end Record

theorem ksysWrite_shells (call : WriteCall) (room : Bool) (maps : Maps) (buffer : WriteBuffer) :
    (ksysWrite call room maps buffer).shells = maps.shells ∨
      ∃ index shell flag, maps.shells.lookup index = some shell ∧
        (ksysWrite call room maps buffer).shells =
          maps.shells.update index { shell with omitWrite := flag } := by
  cases accepted : attributed call maps with
  | none => exact Or.inl (by rw [ksysWrite_ignored accepted])
  | some found =>
      obtain ⟨positive, recorded⟩ := ksysWrite_recorded accepted room buffer
      rw [recorded]
      cases entry : maps.shells.lookup found.shellIndex with
      | none => exact Or.inl (record_unlisted room buffer entry positive).1
      | some shell =>
          by_cases enters : EntersBelow (filled call buffer) (windowEnd call)
          · rw [(record_enter room entry positive enters).1, setOmit_eq entry]
            exact Or.inr ⟨_, shell, 1#8, entry, rfl⟩
          · rw [(record_pass room entry positive enters).1, afterLeaves]
            split
            · rw [setOmit_eq entry]
              exact Or.inr ⟨_, shell, 0#8, entry, rfl⟩
            · exact Or.inl rfl

theorem ksysWrite_keys (call : WriteCall) (room : Bool) (maps : Maps) (buffer : WriteBuffer) :
    (ksysWrite call room maps buffer).shells.slots.map Slot.key =
      maps.shells.slots.map Slot.key := by
  rcases ksysWrite_shells call room maps buffer with same | ⟨index, shell, flag, found, same⟩
  · rw [same]
  · rw [same]
    exact update_keys found rfl

end Nhi
