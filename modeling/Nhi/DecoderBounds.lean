import Nhi.FetchDepth

/-!
When the loop over an output stays within it. The branch of a 253 slices the 11
bytes behind it, and looks at the length of nothing. Here a slice has no
capacity beyond its length.
-/

namespace Nhi

open BoundedLoop RowidTable

/-- From left to right, every 253 has 11 bytes behind it, which are passed over. -/
def Bounded : Text → Prop := Linked fun _ => True

theorem bounded_byte {character : Byte} (apart : character ≠ 253#8) (rest : Text) :
    Bounded (character :: rest) ↔ Bounded rest := by
  constructor
  · intro bounded
    cases bounded with
    | byte _ others => exact others
    | link _ _ _ => exact absurd rfl apart
  · exact .byte apart

theorem bounded_link (rest : Text) :
    Bounded (253#8 :: rest) ↔ 11 ≤ rest.length ∧ Bounded (rest.drop 11) := by
  constructor
  · intro bounded
    cases bounded with
    | byte apart _ => exact absurd rfl apart
    | link eleven _ others => exact ⟨by simp [eleven], by rwa [List.drop_left' eleven]⟩
  · rintro ⟨eleven, others⟩
    rw [← List.take_append_drop 11 rest]
    exact .link (List.length_take_of_le eleven) trivial others

theorem bounded_zeros (count : Nat) (rest : Text) :
    Bounded (List.replicate count 0#8 ++ rest) ↔ Bounded rest := by
  induction count with
  | zero => rfl
  | succ count ih => rw [List.replicate_succ, List.cons_append, bounded_byte (by decide), ih]

theorem bounded_clear {rest : Text} : Bounded (clearIndicator rest) ↔ Bounded (rest.drop 11) := by
  rw [clearIndicator, bounded_zeros]

theorem printOutput_bounded (allowed : Finish → Prop) (fine : allowed .ok) {nested : Text → Fetched}
    {options : Options} {spare : Nat}
    (finishes : options.fetchChildShells = true → ∀ linked, allowed (nested linked).finish)
    {output : Text} (bounded : Bounded output) :
    allowed (printOutput nested options spare output).finish :=
  printOutput_linked fine (fun fetches linked _ => finishes fetches linked) bounded

section Unbounded

variable {nested : Text → Fetched} {options : Options}
  (returns : options.fetchChildShells = true → ∀ linked, (nested linked).finish = .ok)

include returns

theorem printPass_unbounded {state : PrintState} (unbounded : ¬ Bounded state.rest) :
    match printPass nested options 0 state with
    | .next after => ¬ Bounded after.rest ∧ after.rest.length + 1 = state.rest.length
    | .leave _ => False
    | .ret fetched => fetched.finish = .panicked := by
  obtain ⟨rest, writeStdout, stdoutOutput, stderrOutput, actions⟩ := state
  cases rest with
  | nil => exact absurd Linked.nil unbounded
  | cons character rest =>
      by_cases link : character = 253#8
      · subst link
        rcases Nat.lt_or_ge rest.length 11 with short | eleven
        · simp [printPass, branch, childIndicator, Nat.not_le.mpr short]
        · -- the zeros that take the place of the indicator are passed over
          have later : ¬ Bounded (clearIndicator rest) := fun bounded =>
            unbounded ((bounded_link rest).mpr ⟨eleven, bounded_clear.mp bounded⟩)
          have same : (clearIndicator rest).length = rest.length := by
            rw [clearIndicator, List.length_append, List.length_replicate, List.length_drop]
            omega
          cases fetches : options.fetchChildShells with
          | false => simp [printPass, branch, childIndicator, eleven, fetches, later, same]
          | true => simp [printPass, branch, childIndicator, eleven, fetches, returns fetches, later, same]
      · have later : ¬ Bounded rest := mt (bounded_byte link rest).mpr unbounded
        cases taken : branch 0 writeStdout character rest with
        | marker next => simp [printPass, taken, flush_rest, later]
        | text stream => cases stream <;> simp [printPass, taken, later]
        | child indicator =>
            rw [branch] at taken
            split_ifs at taken

theorem printOutput_unbounded {output : Text} (unbounded : ¬ Bounded output) :
    (printOutput nested options 0 output).finish = .panicked := by
  refine forLoop_rule (printPass nested options 0)
    (fun passes state => ¬ Bounded state.rest ∧ state.rest.length + passes = output.length)
    (fun outcome => (printEnd options outcome).finish = .panicked) output.length ?_ ?_ _ ⟨unbounded, rfl⟩
  · rintro k _ state ⟨later, length⟩
    have pass := printPass_unbounded returns later
    cases taken : printPass nested options 0 state with
    | next after =>
        rw [taken] at pass
        exact ⟨pass.1, by omega⟩
    | leave after =>
        rw [taken] at pass
        exact pass.elim
    | ret fetched => rwa [taken] at pass
  · rintro state ⟨later, length⟩
    have none : state.rest = [] := List.length_eq_zero_iff.mp (by omega)
    exact absurd (none ▸ Linked.nil) later

end Unbounded

def Platform.exact (platform : Platform) : Platform := { platform with spare := fun _ => 0 }

def plainOptions : Options := ⟨[], false, false⟩

def OutputsBounded (platform : Platform) (db : Database) : Prop :=
  ∀ indicator condition, ∀ rows ∈ query platform db indicator condition, ∀ row ∈ rows,
    (row.shown platform plainOptions).isSome → Bounded row.output

section Stored

variable {platform : Platform} {nested : Text → Fetched}

theorem shown_plainOptions {options : Options} {row : SelectedRow}
    (shown : (row.shown platform options).isSome) : (row.shown platform plainOptions).isSome := by
  obtain ⟨PS1, command, output⟩ := row
  cases PS1 with
  | none => cases shown
  | some PS1 =>
      cases command with
      | none => cases shown
      | some command =>
          by_cases empty : command = []
          · simp [SelectedRow.shown, empty] at shown
          · simp [SelectedRow.shown, plainOptions, empty]

theorem printRow_bounded (allowed : Finish → Prop) (fine : allowed .ok) {options : Options}
    (finishes : options.fetchChildShells = true → ∀ linked, allowed (nested linked).finish)
    {row : SelectedRow} (bounded : (row.shown platform plainOptions).isSome → Bounded row.output) :
    allowed (printRow platform nested options row).finish := by
  cases shown : row.shown platform options with
  | none => simpa only [printRow, shown] using fine
  | some texts =>
      have within : Bounded row.output := bounded (shown_plainOptions (by rw [shown]; rfl))
      simp only [printRow, shown]
      exact printOutput_bounded allowed fine finishes within

theorem printRows_bounded {options : Options}
    (finishes : ∀ linked, (nested linked).finish ≠ .panicked) {rows : List SelectedRow}
    (bounded : ∀ row ∈ rows, (row.shown platform plainOptions).isSome → Bounded row.output) :
    (printRows platform nested options rows).finish ≠ .panicked := by
  induction rows with
  | nil =>
      rw [printRows]
      decide
  | cons row rest ih =>
      obtain ⟨first, others⟩ := List.forall_mem_cons.mp bounded
      rw [printRows]
      split_ifs
      · exact ih others
      · exact printRow_bounded (· ≠ .panicked) (by decide) (fun _ => finishes) first

/-- Without child shells nothing ends the loop over the rows before the first
output that is not bounded. -/
theorem printRows_unbounded {rows : List SelectedRow} {row : SelectedRow} (member : row ∈ rows)
    (shown : (row.shown platform plainOptions).isSome) (unbounded : ¬ Bounded row.output) :
    (printRows platform.exact nested plainOptions rows).finish = .panicked := by
  induction rows with
  | nil => cases member
  | cons first rest ih =>
      rw [printRows]
      by_cases bounded : (first.shown platform plainOptions).isSome → Bounded first.output
      · have fine : (printRow platform.exact nested plainOptions first).finish = .ok :=
          printRow_bounded (· = .ok) rfl (fun fetches => by cases fetches) bounded
        rw [if_pos fine]
        rcases List.mem_cons.mp member with rfl | later
        · exact absurd (bounded shown) unbounded
        · exact ih later
      · obtain ⟨here, beyond⟩ := Classical.not_imp.mp bounded
        have panics : (printRow platform.exact nested plainOptions first).finish = .panicked := by
          obtain ⟨texts, texts_eq⟩ := Option.isSome_iff_exists.mp here
          have shows : first.shown platform.exact plainOptions = some texts := texts_eq
          simp only [printRow, shows]
          exact printOutput_unbounded (fun fetches => by cases fetches) beyond
        rw [if_neg (by rw [panics]; decide)]
        exact panics

theorem fetch_bounded {db : Database} (bounded : OutputsBounded platform db) (depth : Nat)
    (indicator : Text) (condition : Nat → Row → Bool) (options : Options) :
    (fetch platform.exact db depth indicator condition options).finish ≠ .panicked := by
  induction depth generalizing indicator condition options with
  | zero =>
      rw [fetch]
      decide
  | succ depth ih =>
      cases selected : query platform.exact db indicator condition with
      | none => simp [fetch, selected]
      | some rows =>
          rw [fetch_selected selected]
          exact printRows_bounded (fun linked => ih linked wholeRange options.nested)
            (bounded indicator condition rows selected)

end Stored

/-- The loop over an output stays within it exactly when the output is bounded,
with and without child shells, whatever their calls do that do not panic; and
no `Fetch` of a database panics exactly when all that can be shown is bounded. -/
theorem decoder_bounded_iff (options : Options) (output : Text) (platform : Platform) (db : Database) :
    ((∀ nested, (∀ linked, (nested linked).finish ≠ .panicked) →
        (printOutput nested options 0 output).finish ≠ .panicked) ↔ Bounded output) ∧
    ((∀ depth indicator condition options,
        (fetch platform.exact db depth indicator condition options).finish ≠ .panicked) ↔
      OutputsBounded platform db) := by
  refine ⟨⟨fun safe => ?_, fun bounded nested returns => ?_⟩, ⟨fun safe => ?_, fetch_bounded⟩⟩
  · by_contra unbounded
    exact safe (fun _ => ⟨[], .ok⟩) (fun _ => by decide) (printOutput_unbounded (fun _ _ => rfl) unbounded)
  · exact printOutput_bounded (· ≠ .panicked) (by decide) (fun _ => returns) bounded
  · intro indicator condition rows selected row member shown
    by_contra unbounded
    refine safe 1 indicator condition plainOptions ?_
    have same : query platform.exact db indicator condition = some rows := selected
    rw [fetch_selected same]
    exact printRows_unbounded member shown unbounded

def oneMarker : Database :=
  ⟨[(7#64, [⟨some [36#8], some [99#8, 97#8, 116#8], [255#8, 253#8], none, none, none, none, none⟩])], []⟩

theorem oneMarker_panics :
    (∀ fetchChildShells,
      (printOutput (fun _ => ⟨[], .ok⟩) ⟨[], fetchChildShells, false⟩ 0 [255#8, 253#8]).finish = .panicked) ∧
    (fetch samplePlatform.exact oneMarker 1 (decimal 7) wholeRange plainOptions).finish = .panicked := by
  decide

end Nhi
