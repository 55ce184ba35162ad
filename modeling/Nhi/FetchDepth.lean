import Nhi.Decimal
import Nhi.OutputEvents

/-!
How deep a call of `Fetch` goes. A bound that is not reached makes no
difference, and it is not reached when every link in a session leads to a
greater indicator.
-/

namespace Nhi

open BoundedLoop RowidTable

def Fetched.Le (less more : Fetched) : Prop := less.finish ≠ .unfinished → more = less

section Deeper

variable {less more : Text → Fetched} (deeper : ∀ linked, (less linked).Le (more linked))
  {options : Options} {spare : Nat}

include deeper

theorem printPass_deeper (state : PrintState) :
    printPass more options spare state = printPass less options spare state ∨
      ∃ fetched, printPass less options spare state = .ret fetched ∧ fetched.finish = .unfinished := by
  cases rest : state.rest with
  | nil => exact Or.inl (by simp only [printPass, rest])
  | cons character rest' =>
      cases taken : branch spare state.writeStdout character rest' with
      | marker next => exact Or.inl (by simp only [printPass, rest, taken])
      | text stream => cases stream <;> exact Or.inl (by simp only [printPass, rest, taken])
      | child indicator =>
          cases indicator with
          | none => exact Or.inl (by simp only [printPass, rest, taken])
          | some indicator =>
              -- an unfinished call matters only where it is made
              by_cases settled : (less indicator).finish = .unfinished
              · cases fetches : options.fetchChildShells
                · exact Or.inl (by simp [printPass, rest, taken, fetches])
                · exact Or.inr ⟨⟨state.actions ++ [.fetch indicator (less indicator).actions],
                    (less indicator).finish⟩, by simp [printPass, rest, taken, fetches, settled], settled⟩
              · have same := deeper indicator settled
                exact Or.inl (by simp only [printPass, rest, taken, same])

theorem printOutput_deeper (output : Text) :
    (printOutput less options spare output).Le (printOutput more options spare output) := by
  intro settled
  have loops (passes : Nat) (state : PrintState) :
      forLoop (printPass more options spare) passes state =
          forLoop (printPass less options spare) passes state ∨
        ∃ fetched, forLoop (printPass less options spare) passes state = .ret fetched ∧
          fetched.finish = .unfinished := by
    induction passes generalizing state with
    | zero => exact Or.inl rfl
    | succ passes ih =>
        rcases printPass_deeper deeper state with same | ⟨fetched, ret, unfinished⟩
        · rw [forLoop, forLoop, same]
          cases printPass less options spare state with
          | next after => exact ih after
          | leave after => exact Or.inl rfl
          | ret fetched => exact Or.inl rfl
        · exact Or.inr ⟨fetched, by rw [forLoop, ret], unfinished⟩
  rcases loops output.length ⟨output, false, [], [], []⟩ with same | ⟨fetched, ret, unfinished⟩
  · rw [printOutput, same, printOutput]
  · rw [printOutput, ret, printEnd] at settled
    exact absurd unfinished settled

theorem printRow_deeper (platform : Platform) (row : SelectedRow) :
    (printRow platform less options row).Le (printRow platform more options row) := by
  intro settled
  cases shown : row.shown platform options with
  | none => simp only [printRow, shown]
  | some texts =>
      simp only [printRow, shown] at settled ⊢
      rw [printOutput_deeper deeper row.output settled]

theorem printRows_deeper (platform : Platform) (rows : List SelectedRow) :
    (printRows platform less options rows).Le (printRows platform more options rows) := by
  induction rows with
  | nil => exact fun _ => rfl
  | cons row rest ih =>
      intro settled
      by_cases first : (printRow platform less options row).finish = .ok
      · have same := printRow_deeper deeper platform row (by rw [first]; decide)
        simp only [printRows, first, if_true] at settled
        simp only [printRows, same, first, if_true, ih settled]
      · simp only [printRows, first, if_false] at settled
        simp only [printRows, printRow_deeper deeper platform row settled, first, if_false]

end Deeper

theorem fetch_deeper (platform : Platform) (db : Database) (depth : Nat) (indicator : Text)
    (condition : Nat → Row → Bool) (options : Options) :
    (fetch platform db depth indicator condition options).Le
      (fetch platform db (depth + 1) indicator condition options) := by
  induction depth generalizing indicator condition options with
  | zero => exact fun settled => absurd rfl settled
  | succ depth ih =>
      cases selected : query platform db indicator condition with
      | none => exact fun _ => by rw [fetch, fetch, selected]
      | some rows =>
          rw [fetch_selected selected, fetch_selected selected]
          exact printRows_deeper (fun linked => ih linked wholeRange options.nested) platform rows

theorem fetch_settled {platform : Platform} {db : Database} {depth deeper : Nat} {indicator : Text}
    {condition : Nat → Row → Bool} {options : Options}
    (settled : (fetch platform db depth indicator condition options).finish ≠ .unfinished)
    (more : depth ≤ deeper) :
    fetch platform db deeper indicator condition options =
      fetch platform db depth indicator condition options := by
  induction deeper, more using Nat.le_induction with
  | base => rfl
  | succ deeper _ ih => rw [fetch_deeper platform db deeper indicator condition options (ih ▸ settled), ih]

/-- An output in which every 253 is the marker of a link, to a name that has
the property. -/
inductive Linked (target : Text → Prop) : Text → Prop where
  | nil : Linked target []
  | byte {character : Byte} {rest : Text} :
      character ≠ 253#8 → Linked target rest → Linked target (character :: rest)
  | link {child rest : Text} :
      child.length = 11 → target child → Linked target rest → Linked target (253#8 :: (child ++ rest))

section Linked

variable {target : Text → Prop}

theorem Linked.append {first second : Text} (linked : Linked target first)
    (also : Linked target second) : Linked target (first ++ second) := by
  induction linked with
  | nil => exact also
  | byte plain _ ih => exact .byte plain ih
  | link eleven reaches _ ih =>
      rw [List.cons_append, List.append_assoc]
      exact .link eleven reaches ih

theorem Linked.of_plain {text : Text} (plain : 253#8 ∉ text) : Linked target text := by
  induction text with
  | nil => exact .nil
  | cons character rest ih =>
      obtain ⟨apart, others⟩ := not_or.mp (mt List.mem_cons.mpr plain)
      exact .byte (Ne.symm apart) (ih others)

theorem flush_rest (stderrInRed : Bool) (state : PrintState) :
    (state.flush stderrInRed).rest = state.rest := by
  rw [PrintState.flush]
  split
  · rfl
  · split <;> rfl

/-! `allowed` is what the nested calls end with, where they are made. -/
variable {nested : Text → Fetched} {options : Options} {spare : Nat} {allowed : Finish → Prop}

theorem printPass_linked (spare : Nat)
    (finishes : options.fetchChildShells = true → ∀ child, target child → allowed (nested child).finish)
    {state : PrintState} (linked : Linked target state.rest) :
    match printPass nested options spare state with
    | .next after => Linked target after.rest
    | .leave _ => True
    | .ret fetched => allowed fetched.finish := by
  obtain ⟨rest, writeStdout, stdoutOutput, stderrOutput, actions⟩ := state
  cases linked with
  | nil => trivial
  | byte apart others =>
      rename_i character rest
      cases taken : branch spare writeStdout character rest with
      | marker next =>
          simp only [printPass, taken]
          rwa [flush_rest]
      | text stream => cases stream <;> simpa only [printPass, taken] using others
      | child indicator =>
          rw [branch] at taken
          split_ifs at taken
  | link eleven reaches others =>
      rename_i child rest
      have cleared : Linked target (clearIndicator (child ++ rest)) := by
        rw [clearIndicator_append eleven]
        exact (Linked.of_plain (by decide)).append others
      simp only [printPass, branch_child _ eleven]
      split_ifs with fetches succeeds
      · exact cleared
      · exact finishes fetches child reaches
      · exact cleared

theorem printOutput_linked (fine : allowed .ok)
    (finishes : options.fetchChildShells = true → ∀ child, target child → allowed (nested child).finish)
    {output : Text} (linked : Linked target output) :
    allowed (printOutput nested options spare output).finish := by
  refine forLoop_rule (printPass nested options spare) (fun _ state => Linked target state.rest)
    (fun outcome => allowed (printEnd options outcome).finish) output.length ?_ ?_ _ linked
  · intro k _ state linked
    have pass := printPass_linked spare finishes linked
    cases taken : printPass nested options spare state with
    | next after => rwa [taken] at pass
    | leave after => exact fine
    | ret fetched => rwa [taken] at pass
  · exact fun _ _ => fine

theorem printRow_linked (platform : Platform) (allowed : Finish → Prop) (fine : allowed .ok)
    (finishes : options.fetchChildShells = true → ∀ child, target child → allowed (nested child).finish)
    {row : SelectedRow} (linked : Linked target row.output) :
    allowed (printRow platform nested options row).finish := by
  rw [printRow]
  split
  · exact fine
  · exact printOutput_linked fine finishes linked

theorem printRows_linked (platform : Platform) (allowed : Finish → Prop) (fine : allowed .ok)
    (finishes : options.fetchChildShells = true → ∀ child, target child → allowed (nested child).finish)
    {rows : List SelectedRow} (linked : ∀ row ∈ rows, Linked target row.output) :
    allowed (printRows platform nested options rows).finish := by
  induction rows with
  | nil => exact fine
  | cons row rest ih =>
      obtain ⟨first, others⟩ := List.forall_mem_cons.mp linked
      rw [printRows]
      split_ifs
      · exact ih others
      · exact printRow_linked platform allowed fine finishes first

end Linked

/-- A name that can only be that of a session with a greater indicator, and is
nothing but a name in a query. -/
def Later (indicator : Long) (name : Text) : Prop :=
  96#8 ∉ name.takeWhile (· ≠ 0#8) ∧ ∀ other : Long, decimal other = name → indicator.toInt < other.toInt

def LinksAscend (db : Database) : Prop :=
  ∀ table ∈ db.tables, ∀ row ∈ table.2, Linked (Later table.1) row.output

section Ascend

variable {db : Database} {indicator : Text}

def laterSessions (db : Database) (indicator : Long) : Nat :=
  db.tables.countP fun table => indicator.toInt < table.1.toInt

theorem query_decimal (platform : Platform) (db : Database) (indicator : Long)
    (condition : Nat → Row → Bool) :
    query platform db (decimal indicator) condition = (db.rows indicator).map (selectRows condition) := by
  have noQuote := decimal_noQuote indicator
  have noNul := decimal_noNul indicator
  have same (other : Long) : decide (decimal other = decimal indicator) = decide (other = indicator) :=
    decide_eq_decide.mpr ⟨decimal_injective, fun equal => equal ▸ rfl⟩
  rw [query, if_neg fun quote => noQuote (List.takeWhile_subset _ quote), if_neg noNul]
  simp only [Database.rowsNamed, Database.rows, same]

theorem query_selected (platform : Platform) (unquoted : 96#8 ∉ indicator.takeWhile (· ≠ 0#8))
    {condition : Nat → Row → Bool} {rows : List SelectedRow}
    (selected : query platform db indicator condition = some rows) :
    ∃ table ∈ db.tables, decimal table.1 = indicator ∧
      ∀ row ∈ rows, ∃ stored ∈ table.2, row = stored.selected := by
  rw [query, if_neg unquoted] at selected
  split at selected
  · cases selected
  · obtain ⟨stored, named, rfl⟩ := Option.map_eq_some_iff.mp selected
    obtain ⟨table, found, rfl⟩ := Option.map_eq_some_iff.mp named
    refine ⟨table, List.mem_of_find?_eq_some found, by simpa using List.find?_some found, ?_⟩
    intro row member
    obtain ⟨entry, inside, rfl⟩ := List.mem_map.mp member
    obtain ⟨k, there, _⟩ := mem_number.mp (List.mem_of_mem_filter inside)
    exact ⟨entry.2, List.mem_of_getElem? there, rfl⟩

theorem laterSessions_lt {table other : Long × List Row} (member : other ∈ db.tables)
    (later : table.1.toInt < other.1.toInt) : laterSessions db other.1 < laterSessions db table.1 := by
  have fewer (list : List (Long × List Row)) :
      list.countP (fun last => other.1.toInt < last.1.toInt) ≤
        list.countP fun last => table.1.toInt < last.1.toInt := by
    refine List.countP_mono_left fun last _ after => ?_
    rw [decide_eq_true_eq] at after ⊢
    exact Int.lt_trans later after
  -- the greater session itself is only counted for the smaller one
  obtain ⟨before, after, split⟩ := List.append_of_mem member
  have front := fewer before
  have back := fewer after
  rw [laterSessions, laterSessions, split, List.countP_append, List.countP_append,
    List.countP_cons_of_neg (by simp), List.countP_cons_of_pos (by simpa using later)]
  omega

/-- Deep enough for every session there is after the one that is fetched. -/
theorem fetch_finishes (platform : Platform) (ascend : LinksAscend db) {depth : Nat}
    {condition : Nat → Row → Bool} {options : Options}
    (unquoted : 96#8 ∉ indicator.takeWhile (· ≠ 0#8)) (positive : 0 < depth)
    (deep : ∀ table ∈ db.tables, decimal table.1 = indicator → laterSessions db table.1 + 1 < depth) :
    (fetch platform db depth indicator condition options).finish ≠ .unfinished := by
  induction depth generalizing indicator condition options with
  | zero => exact absurd positive (by decide)
  | succ depth ih =>
      cases selected : query platform db indicator condition with
      | none => simp [fetch, selected]
      | some rows =>
          obtain ⟨table, member, named, stored⟩ := query_selected platform unquoted selected
          have enough := deep table member named
          rw [fetch_selected selected]
          -- a child has fewer sessions after it than the session it is linked from
          refine printRows_linked platform (· ≠ .unfinished) (by decide)
            (fun _ child (later : Later table.1 child) => ?_) fun row inside => ?_
          · refine ih later.1 (by omega) fun other there same => ?_
            have fewer := laterSessions_lt there (later.2 other.1 same)
            omega
          · obtain ⟨kept, inTable, rfl⟩ := stored row inside
            exact ascend table member kept inTable

end Ascend

end Nhi
