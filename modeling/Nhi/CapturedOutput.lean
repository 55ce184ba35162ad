import Nhi.EscapeScan
import Nhi.EventBytes

/-!
From the user buffer to the row of the session. `ksys_write` is attached to the
exit of the system call but is not given its return value, so what is recorded
is decided by the `count` that was asked for.
-/

namespace Nhi

open SlotTable

/-- What `handle_event` makes of a write event. -/
def deliverWrite (event : Event) (db : Database) : Database :=
  match handleEvent event.bytes event.bytes.length with
  | some (.handleWrite indicator output outputLen) => handleWrite indicator output outputLen db
  | _ => db

section Plain

variable {call : WriteCall} {readable : Text} (buffer : WriteBuffer)
  (given : call.buf = some readable) (enough : cappedCount call.count ≤ readable.length)

include given enough

theorem filled_payload {p : Nat} (inside : p < cappedCount call.count) :
    filled call buffer (p + 1) = readable[p] := by
  have copied : p + 1 < 1 + cappedCount call.count := by omega
  have inBytes : p < readable.length := by omega
  simp [filled, fillBuffer, given, probeReadUser, copied, enough, inBytes]

theorem plain_unescaped (plain : ∀ byte ∈ readable.take (cappedCount call.count), byte ≠ 27#8)
    {i : Nat} (below : i < windowEnd call) (above : 1 ≤ i) :
    ¬ alternateScreen.LeadAt (filled call buffer) i := by
  intro starts
  have window : windowEnd call ≤ cappedCount call.count := Nat.min_le_right _ _
  obtain ⟨p, rfl⟩ : ∃ p, i = p + 1 := ⟨i - 1, by omega⟩
  have byte := filled_payload buffer given enough (show p < cappedCount call.count by omega)
  have head : some (27#8) = some (filled call buffer (p + 1)) := starts.head
  rw [byte, Option.some.injEq] at head
  apply plain readable[p] _ head.symm
  exact List.mem_take_iff_getElem.mpr ⟨p, by omega, rfl⟩

theorem filled_output :
    ∃ extra, (call.count ≠ 7 → extra = []) ∧
      (List.range (outputSize (cappedCount call.count))).map (filled call buffer) =
        specificity call.fd :: (readable.take (cappedCount call.count) ++ extra) := by
  have marker : filled call buffer 0 = specificity call.fd := by
    simp [filled, fillBuffer, given, probeReadUser]
  have payload : (List.range (cappedCount call.count)).map (fun p => filled call buffer (p + 1)) =
      readable.take (cappedCount call.count) := by
    apply List.ext_getElem
    · simp [enough]
    · intro p insideRange insideTake
      have inside : p < cappedCount call.count := by simpa using insideRange
      simpa using filled_payload buffer given enough inside
  have known : (List.range (cappedCount call.count + 1)).map (filled call buffer) =
      specificity call.fd :: readable.take (cappedCount call.count) := by
    rw [List.range_succ_eq_map, List.map_cons, List.map_map, marker]
    exact congrArg _ payload
  by_cases seven : cappedCount call.count = 7
  · refine ⟨[filled call buffer 8], ?_, ?_⟩
    · intro other
      simp only [cappedCount, ksysWriteEventSize] at seven
      split at seven <;> omega
    · rw [seven] at known
      rw [outputSize, if_pos seven, seven, List.range_succ, List.map_append, known]
      rfl
  · refine ⟨[], fun _ => rfl, ?_⟩
    rw [outputSize, if_neg seven, known, List.append_nil]

end Plain

/-- What reaches the row of the session is the marker and the first
`cappedCount count` bytes of the buffer, however many of them were written. -/
theorem captured_output {maps : Maps} {shellIndex : Nat} {shell : Shell} {call : WriteCall}
    {readable : Text} (write : TrackedWrite maps shellIndex shell call) (nonempty : 1 ≤ call.count)
    (shown : shell.omitWrite ≠ 1#8) (given : call.buf = some readable)
    (enough : cappedCount call.count ≤ readable.length)
    (plain : ∀ byte ∈ readable.take (cappedCount call.count), byte ≠ 27#8) (buffer : WriteBuffer) :
    ∃ event extra, (ksysWrite call true maps buffer).event = some event ∧
      (call.count ≠ 7 → extra = []) ∧
      ∀ db row, db.lastRow shell.indicator = some row →
        (deliverWrite event db).lastRow shell.indicator = some { row with
          output := row.output ++
            specificity call.fd :: (readable.take (cappedCount call.count) ++ extra) } := by
  obtain ⟨positive, recorded⟩ := ksysWrite_recorded (write.attributed nonempty) true buffer
  have listed := (search_found write.registered).1
  have unescaped {i : Nat} (below : i < windowEnd call) (above : 1 ≤ i) :=
    plain_unescaped buffer given enough plain below above
  have passes : ¬ EntersBelow (filled call buffer) (windowEnd call) := by
    rintro ⟨i, below, above, on⟩
    exact unescaped below above on.1
  have stays : ¬ LeavesBelow (filled call buffer) (windowEnd call) := by
    rintro ⟨i, below, above, off⟩
    exact unescaped below above off.1
  have untouched : alternateScreen.erase (filled call buffer) 1 (windowEnd call) =
      filled call buffer :=
    Switch.erase_none fun i below above off => unescaped below above off.1
  obtain ⟨extra, whole, output⟩ := filled_output buffer given enough
  refine ⟨.write shell.indicator
    (specificity call.fd :: (readable.take (cappedCount call.count) ++ extra)), extra, ?_, whole, ?_⟩
  · rw [recorded, (record_pass true listed positive passes).2, if_neg stays, if_neg shown, untouched,
      emit, if_pos rfl, output]
  · intro db row last
    have emitted := output_length_apart positive output
    rw [deliverWrite, handleEvent_write _ _ emitted.1 emitted.2]
    simp only [handleWrite, List.take_length, Database.lastRow_addOutput, last, Option.map_some, if_true]

theorem captured_output_abc :
    ∃ event extra,
      (ksysWrite (ttyWrite 2#32 [97#8, 98#8, 99#8]) true (tablesOf [1#32] [2#32])
        ⟨0#64, fun _ => 0#8⟩).event = some event ∧
      ((3 : Nat) ≠ 7 → extra = []) ∧
      ∀ db row, db.lastRow 7#64 = some row →
        (deliverWrite event db).lastRow 7#64 = some { row with
          output := row.output ++ 255#8 :: ([97#8, 98#8, 99#8] ++ extra) } := by
  have write : TrackedWrite (tablesOf [1#32] [2#32]) 0 (Shell.plain 1#32 7#64)
      (ttyWrite 2#32 [97#8, 98#8, 99#8]) :=
    ⟨⟨0, ⟨2#32, 1#32⟩, rfl, rfl⟩, rfl, by decide⟩
  exact captured_output write (by decide) (by decide) rfl (by decide) (by decide) _

theorem short_write_appended_whole :
    (((ksysWrite (ttyWrite 2#32 [97#8, 98#8, 99#8]) true (tablesOf [1#32] [2#32])
        ⟨0#64, fun _ => 0#8⟩).event.bind fun event =>
          (deliverWrite event ((Database.empty.createTable 7#64).createRow 7#64)).lastRow 7#64).map
            fun row => row.output.drop 1) = some [97#8, 98#8, 99#8] ∧
      ([97#8, 98#8, 99#8] : Text) ≠ ([97#8, 98#8, 99#8] : Text).take (1 : Int).toNat ∧
      ([97#8, 98#8, 99#8] : Text) ≠ ([97#8, 98#8, 99#8] : Text).take (-11 : Int).toNat := by
  decide

end Nhi
