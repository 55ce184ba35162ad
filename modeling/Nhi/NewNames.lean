import Nhi.SessionArguments

/-!
Whether a renamed session answers to its new name. A name that is a number up
to a billion is a place when it is read back, and one in curly brackets loses
them; and where the argument denotes no session, the update of the indicator 0
succeeds.
-/

namespace Nhi

open Sql (ascii)

/-- What the manual has an argument denote; and a place in brackets, as the tests
of the commands write it, where the manual has it denote nothing. -/
inductive Means (rows : List (Nat × MetaRow)) (session : Text) (entry : Nat × MetaRow) : Prop where
  | manual : Denotes rows session entry → Means rows session entry
  | bracketed (inner : Text) (k : Int) : session = 123#8 :: (inner ++ [125#8]) → integerOf inner = some k →
      sessionAt rows k = some entry → (∀ other, ¬ Denotes rows session other) → Means rows session entry

structure Renamed (before after : RowidDatabase) (entry : Nat × MetaRow) (newName : Text) : Prop where
  tables : after.tables = before.tables
  metaTable : ∃ front back, before.metaTable = front ++ entry :: back ∧
    after.metaTable = front ++ (entry.1, { entry.2 with name := newName }) :: back

/-- The one session of the argument has the name and is found by it; without a
session there is an error. -/
structure Answers (engine : Engine) (db : RowidDatabase) (session newName : Text) : Prop where
  renamed : ∀ after, rename engine db session newName = (after, .ok ()) →
    ∃ entry, (∀ other, Means db.metaTable session other ↔ other = entry) ∧ Renamed db after entry newName ∧
      (getSessionIndicator engine after newName).2 = .ok (decimal entry.2.indicator)
  refused : (∀ entry, ¬ Means db.metaTable session entry) →
    ∃ message, rename engine db session newName = (db, .error message)

def Sole (db : RowidDatabase) (entry : Nat × MetaRow) : Prop :=
  ∀ other ∈ db.metaTable, other.2.indicator = entry.2.indicator → other = entry

/-- The name leads to the session: it is the number of its place, or no number
up to a billion and without brackets. What leads nowhere gives the indicator 0. -/
def Reaches (db : RowidDatabase) (entry : Nat × MetaRow) (newName : Text) : Prop :=
  match indexOf newName with
  | some index => foundIndicator (sessionAt db.metaTable index) = entry.2.indicator
  | none => unbraced newName = newName ∨
      (entry.2.indicator = 0#64 ∧ ∀ other ∈ db.metaTable, other.2.name = unbraced newName → other = entry)

/-- SQLite does not take the statement, and does nothing. -/
def Rejected (engine : Engine) (db : RowidDatabase) (text : Text) : Prop :=
  ∃ message, queryIndicators engine db text = (db, .error message)

/-- The name is refused, or the argument denotes one session and leads to it, the
name leads to it too, and no other has its indicator. -/
def NameFits (db : RowidDatabase) (session newName : Text) : Prop :=
  newName = ascii "meta" ∨ Used db newName ∨
    ∃ entry, (∀ other, Means db.metaTable session other ↔ other = entry) ∧
      StandsFor db.metaTable session entry.2.indicator ∧ Sole db entry ∧ Reaches db entry newName

/-- With a quote in an argument, when the first statement it stands in is refused. -/
def Answerable (engine : Engine) (db : RowidDatabase) (session newName : Text) : Prop :=
  (Plain session ∧ Plain newName ∧ NameFits db session newName) ∨
    Rejected engine db (indicatorQuery session) ∨ (Plain session ∧ Rejected engine db (usedQuery newName))

section Renaming

variable {db after : RowidDatabase} {entry : Nat × MetaRow} {newName : Text}

theorem Denotes.mem {rows : List (Nat × MetaRow)} {session : Text} (denotes : Denotes rows session entry) :
    entry ∈ rows := by
  cases denotes with
  | oldest k _ there => exact List.mem_of_getElem? there
  | latest k _ _ there => exact List.mem_reverse.mp (List.mem_of_getElem? there)
  | named member _ _ => exact member
  | indicated member _ => exact member

theorem Means.mem {rows : List (Nat × MetaRow)} {session : Text} (means : Means rows session entry) :
    entry ∈ rows := by
  cases means with
  | manual denotes => exact denotes.mem
  | bracketed inner k _ _ there _ =>
      rw [sessionAt] at there
      split at there
      · exact List.mem_reverse.mp (List.mem_of_getElem? there)
      · exact List.mem_of_getElem? there

theorem denotes_text {rows : List (Nat × MetaRow)} {session : Text} (text : integerOf session = none) :
    Denotes rows session entry ↔ entry ∈ rows ∧
      (entry.2.name = session ∨ session = 123#8 :: (decimal entry.2.indicator ++ [125#8])) := by
  constructor
  · intro denotes
    cases denotes with
    | oldest k read _ => cases text ▸ read
    | latest k _ read _ => cases text ▸ read
    | named member name _ => exact ⟨member, Or.inl name⟩
    | indicated member braces => exact ⟨member, Or.inr braces⟩
  · rintro ⟨member, name | braces⟩
    · exact .named member name (by rw [text]; rintro _ ⟨⟩)
    · exact .indicated member braces

theorem map_relabel_iff {rows : List (Nat × MetaRow)} {indicator : Long}
    (free : ∀ row ∈ rows, row.2.name ≠ newName) :
    rows.map (relabel indicator newName) = rows ↔ ∀ row ∈ rows, row.2.indicator ≠ indicator := by
  constructor
  · intro unchanged row member same
    have fixed := List.map_inj_left.mp (unchanged.trans (List.map_id rows).symm) row member
    rw [relabel, if_pos same] at fixed
    exact free row member (congrArg (fun row => row.2.name) fixed.symm)
  · intro apart
    exact (List.map_congr_left fun row member => if_neg (apart row member)).trans (List.map_id rows)

theorem parts_subset {rows front back : List (Nat × MetaRow)} (split : rows = front ++ entry :: back) :
    front ⊆ rows ∧ back ⊆ rows := by
  subst split
  exact ⟨fun row inside => List.mem_append_left _ inside, fun row inside => List.mem_append_right _ (.tail _ inside)⟩

theorem parts_apart {rows front back : List (Nat × MetaRow)} (names : (rows.map fun entry => entry.2.name).Nodup)
    (split : rows = front ++ entry :: back) : entry ∉ front ∧ entry ∉ back := by
  have distinct : rows.Nodup := List.Nodup.of_map _ names
  rw [split, List.nodup_append, List.nodup_cons] at distinct
  obtain ⟨_, ⟨behind, _⟩, before⟩ := distinct
  exact ⟨fun inside => before entry inside entry List.mem_cons_self rfl, behind⟩

theorem renamed_iff (names : (db.metaTable.map fun entry => entry.2.name).Nodup)
    (member : entry ∈ db.metaTable) (free : ¬ Used db newName) (indicator : Long) :
    Renamed db (db.renameWhere (withIndicator indicator) newName) entry newName ↔
      entry.2.indicator = indicator ∧ Sole db entry := by
  have unused {rows : List (Nat × MetaRow)} (among : rows ⊆ db.metaTable) : ∀ row ∈ rows, row.2.name ≠ newName :=
    fun row inside same => free ⟨row, among inside, same⟩
  constructor
  · intro renamed
    obtain ⟨front, back, split, result⟩ := renamed.metaTable
    obtain ⟨fronts, backs⟩ := parts_subset split
    rw [renameWhere_relabel, split, List.map_append, List.map_cons] at result
    obtain ⟨first, rest⟩ := List.append_inj result (List.length_map _)
    obtain ⟨here, last⟩ := List.cons.inj rest
    have own : entry.2.indicator = indicator := by
      by_contra apart
      rw [relabel, if_neg apart] at here
      exact free ⟨entry, member, congrArg (fun row => row.2.name) here⟩
    refine ⟨own, fun other inside same => ?_⟩
    rw [split] at inside
    rcases List.mem_append.mp inside with before | behind
    · exact absurd (same.trans own) ((map_relabel_iff (unused fronts)).mp first other before)
    · rcases List.mem_cons.mp behind with here | behind
      · exact here
      · exact absurd (same.trans own) ((map_relabel_iff (unused backs)).mp last other behind)
  · rintro ⟨rfl, sole⟩
    obtain ⟨front, back, split⟩ := List.append_of_mem member
    obtain ⟨fronts, backs⟩ := parts_subset split
    obtain ⟨before, behind⟩ := parts_apart names split
    refine ⟨rfl, front, back, split, ?_⟩
    have first : front.map (relabel entry.2.indicator newName) = front := by
      refine (map_relabel_iff (unused fronts)).mpr fun row inside same => ?_
      exact before (sole row (fronts inside) same ▸ inside)
    have last : back.map (relabel entry.2.indicator newName) = back := by
      refine (map_relabel_iff (unused backs)).mpr fun row inside same => ?_
      exact behind (sole row (backs inside) same ▸ inside)
    rw [renameWhere_relabel, split, List.map_append, List.map_cons, first, last, relabel, if_pos rfl]

end Renaming

/-! Where the new name leads. -/
section Reading

variable {db after : RowidDatabase} {entry : Nat × MetaRow} {newName : Text}

theorem foundIndicator_place {rows others : List (Nat × MetaRow)} (index : Int)
    (same : rows.map (fun entry => entry.2.indicator) = others.map fun entry => entry.2.indicator) :
    foundIndicator (sessionAt rows index) = foundIndicator (sessionAt others index) := by
  rw [sessionAt, sessionAt]
  split
  · rw [foundIndicator, foundIndicator, ← List.getElem?_map, ← List.getElem?_map, List.map_reverse,
      List.map_reverse, same]
  · rw [foundIndicator, foundIndicator, ← List.getElem?_map, ← List.getElem?_map, same]

theorem unnamed_iff (names : (db.metaTable.map fun entry => entry.2.name).Nodup)
    (renamed : Renamed db after entry newName) {other : Text} (apart : other ≠ newName) :
    sessionNamed after.metaTable other = none ↔ ∀ row ∈ db.metaTable, row.2.name = other → row = entry := by
  obtain ⟨front, back, split, result⟩ := renamed.metaTable
  obtain ⟨before, behind⟩ := parts_apart names split
  rw [sessionNamed, List.find?_eq_none, split, result]
  simp only [decide_eq_true_eq]
  constructor
  · intro absent row inside same
    rcases List.mem_append.mp inside with inside | inside
    · exact absurd same (absent row (List.mem_append_left _ inside))
    · rcases List.mem_cons.mp inside with here | inside
      · exact here
      · exact absurd same (absent row (List.mem_append_right _ (.tail _ inside)))
  · intro only row inside same
    rcases List.mem_append.mp inside with inside | inside
    · exact before (only row (List.mem_append_left _ inside) same ▸ inside)
    · rcases List.mem_cons.mp inside with rfl | inside
      · exact apart same.symm
      · exact behind (only row (List.mem_append_right _ (.tail _ inside)) same ▸ inside)

theorem reaches_iff (names : (db.metaTable.map fun entry => entry.2.name).Nodup) (free : ¬ Used db newName)
    (sole : Sole db entry) (renamed : Renamed db after entry newName) :
    foundIndicator (lookedUp after.metaTable newName) = entry.2.indicator ↔ Reaches db entry newName := by
  obtain ⟨front, back, split, result⟩ := renamed.metaTable
  obtain ⟨before, behind⟩ := parts_apart names split
  obtain ⟨fronts, backs⟩ := parts_subset split
  rw [lookedUp, Reaches]
  cases indexOf newName with
  | some index =>
      have indicators : after.metaTable.map (fun entry => entry.2.indicator) =
          db.metaTable.map fun entry => entry.2.indicator := by
        rw [split, result]
        simp
      simp only
      rw [foundIndicator_place index indicators]
  | none =>
      simp only
      by_cases bare : unbraced newName = newName
      · -- the row in front of which no other has the name
        have found : sessionNamed after.metaTable newName = some (entry.1, { entry.2 with name := newName }) := by
          rw [sessionNamed, result, List.find?_append, List.find?_eq_none.mpr, Option.none_or,
            List.find?_cons_of_pos (by simp)]
          intro row inside
          rw [decide_eq_true_eq]
          exact fun same => free ⟨row, split ▸ List.mem_append_left _ inside, same⟩
        rw [bare, found]
        exact iff_of_true rfl (Or.inl rfl)
      · cases found : sessionNamed after.metaTable (unbraced newName) with
        | none =>
            have only := (unnamed_iff names renamed bare).mp found
            exact ⟨fun zero => Or.inr ⟨zero.symm, only⟩, fun zero => (zero.resolve_left bare).1.symm⟩
        | some row =>
            have named : row.2.name = unbraced newName := by
              have test := List.find?_some found
              rwa [decide_eq_true_eq] at test
            refine iff_of_false (fun same => ?_) fun zero => ?_
            · -- it would be the renamed session, which has another name now
              have inside := List.mem_of_find?_eq_some found
              rw [result] at inside
              rcases List.mem_append.mp inside with inside | inside
              · exact before (sole row (fronts inside) same ▸ inside)
              · rcases List.mem_cons.mp inside with rfl | inside
                · exact bare named.symm
                · exact behind (sole row (backs inside) same ▸ inside)
            · rw [(unnamed_iff names renamed bare).mpr (zero.resolve_left bare).2] at found
              cases found

end Reading

section Answers

variable {engine : Engine} {db : RowidDatabase} {session newName : Text}

theorem answers_refused {message : Text} (error : rename engine db session newName = (db, .error message)) :
    Answers engine db session newName where
  renamed := by
    intro after done
    rw [error] at done
    cases done
  refused := fun _ => ⟨message, error⟩

theorem answers_rejected
    (rejected : Rejected engine db (indicatorQuery session) ∨
      (Plain session ∧ Rejected engine db (usedQuery newName))) : Answers engine db session newName := by
  rcases rejected with ⟨message, query⟩ | ⟨plain, message, query⟩
  · have error : rename engine db session newName = (db, .error message) := by
      rw [rename, getSessionIndicator, query]
      rfl
    exact answers_refused error
  · by_cases reserved : newName = ascii "meta"
    · have error : rename engine db session newName = (db, .error (ascii "Session can't be named meta")) := by
        rw [rename, getSessionIndicator_lookedUp engine db plain]
        exact if_pos reserved
      exact answers_refused error
    · have error : rename engine db session newName = (db, .error message) := by
        rw [rename, getSessionIndicator_lookedUp engine db plain]
        simp only [if_neg reserved, checkIfNameIsUsed, query]
      exact answers_refused error

theorem answers_plain_iff (names : (db.metaTable.map fun entry => entry.2.name).Nodup)
    (plainSession : Plain session) (plainName : Plain newName) :
    Answers engine db session newName ↔ NameFits db session newName := by
  rw [NameFits, ← or_assoc]
  by_cases refused : newName = ascii "meta" ∨ Used db newName
  · obtain ⟨message, same⟩ := rename_refused engine db plainSession plainName refused
    exact iff_of_true (answers_refused same) (Or.inl refused)
  · obtain ⟨other, free⟩ := not_or.mp refused
    have done := rename_free engine db plainSession plainName other free
    rw [or_iff_right refused]
    constructor
    · intro answers
      obtain ⟨entry, only, renamed, read⟩ := answers.renamed _ done
      have member := ((only entry).mpr rfl).mem
      obtain ⟨own, sole⟩ := (renamed_iff names member free _).mp renamed
      rw [getSessionIndicator_lookedUp engine _ plainName] at read
      exact ⟨entry, only, (foundIndicator_iff names _).mp own.symm, sole,
        (reaches_iff names free sole renamed).mp (decimal_injective (Except.ok.inj read))⟩
    · rintro ⟨entry, only, stands, sole, reaches⟩
      have means := (only entry).mpr rfl
      refine ⟨fun after same => ?_, fun none => absurd means (none entry)⟩
      obtain rfl := congrArg Prod.fst (done.symm.trans same)
      have renamed := (renamed_iff names means.mem free _).mpr ⟨((foundIndicator_iff names _).mpr stands).symm, sole⟩
      refine ⟨entry, only, renamed, ?_⟩
      rw [getSessionIndicator_lookedUp engine _ plainName]
      exact congrArg (fun indicator => Except.ok (decimal indicator))
        ((reaches_iff names free sole renamed).mpr reaches)

end Answers

/-- A rename does what it should when the name is refused, or belongs to nobody
and leads to the session of the argument, which the argument leads to; or when a
statement is rejected. With plain arguments it does in no other case. -/
theorem rename_answers_iff (engine : Engine) {db : RowidDatabase}
    (names : (db.metaTable.map fun entry => entry.2.name).Nodup) (session newName : Text) :
    (Answerable engine db session newName → Answers engine db session newName) ∧
      (Plain session → Plain newName →
        (Answers engine db session newName ↔ Answerable engine db session newName)) := by
  have enough : Answerable engine db session newName → Answers engine db session newName := by
    rintro (⟨plainSession, plainName, fits⟩ | rejected)
    · exact (answers_plain_iff names plainSession plainName).mpr fits
    · exact answers_rejected rejected
  refine ⟨enough, fun plainSession plainName => ⟨fun answers => ?_, enough⟩⟩
  exact Or.inl ⟨plainSession, plainName, (answers_plain_iff names plainSession plainName).mp answers⟩

section Samples

def twoSessions : RowidDatabase :=
  ⟨[(10#64, []), (20#64, [])],
    [(1, ⟨10#64, ascii "10", 1#64, none⟩), (2, ⟨20#64, ascii "work", 2#64, none⟩)]⟩

theorem twoSessions_denotes {session : Text} (text : integerOf session = none) (other : Nat × MetaRow) :
    Denotes twoSessions.metaTable session other ↔ other ∈ twoSessions.metaTable.filter fun entry =>
      entry.2.name = session ∨ session = 123#8 :: (decimal entry.2.indicator ++ [125#8]) := by
  rw [denotes_text text, List.mem_filter, decide_eq_true_eq]

theorem rename_answers_latest :
    Answers silent twoSessions (123#8 :: (ascii "-1" ++ [125#8])) (ascii "done") := by
  have names : (twoSessions.metaTable.map fun entry => entry.2.name).Nodup := by decide
  have text : integerOf (123#8 :: (ascii "-1" ++ [125#8])) = none := by decide
  have nothing (other : Nat × MetaRow) : ¬ Denotes twoSessions.metaTable (123#8 :: (ascii "-1" ++ [125#8])) other := by
    rw [twoSessions_denotes text]
    exact List.eq_nil_iff_forall_not_mem.mp (by decide +kernel) other
  have latest (other : Nat × MetaRow) : Means twoSessions.metaTable (123#8 :: (ascii "-1" ++ [125#8])) other ↔
      other = (2, ⟨20#64, ascii "work", 2#64, none⟩) := by
    constructor
    · intro means
      cases means with
      | manual denotes => exact absurd denotes (nothing other)
      | bracketed inner k braces read there _ =>
          obtain rfl := List.append_cancel_right (List.tail_eq_of_cons_eq braces)
          obtain rfl : k = -1 := Option.some.inj (read.symm.trans (by decide))
          exact (Option.some.inj there).symm
    · rintro rfl
      exact .bracketed (ascii "-1") (-1) rfl (by decide) rfl nothing
  refine (rename_answers_iff silent names _ _).1 (Or.inl ⟨by decide, by decide, Or.inr (Or.inr ⟨_, latest, ?_⟩)⟩)
  refine ⟨rfl, ?_, Or.inl rfl⟩
  unfold Sole
  decide

/-- A number is a place when it is read back, an indicator in brackets is not
looked up, and no session is needed for an update. -/
theorem rename_answers_number :
    ¬ Answers silent twoSessions (ascii "work") (ascii "0") ∧
      ¬ Answers silent twoSessions (ascii "\x7b20\x7d") (ascii "other") ∧
      ¬ Answers silent twoSessions (ascii "nobody") (ascii "other") := by
  have plainZero : Plain (ascii "0") := by decide
  have plainWork : Plain (ascii "work") := by decide
  have plainOther : Plain (ascii "other") := by decide
  have plainNobody : Plain (ascii "nobody") := by decide
  have plainBraces : Plain (ascii "\x7b20\x7d") := by decide
  refine ⟨?_, ?_, ?_⟩
  · intro answers
    have done := rename_free silent twoSessions plainWork plainZero (by decide) (by unfold Used; decide)
    obtain ⟨entry, only, _, read⟩ := answers.renamed _ done
    have work : Denotes twoSessions.metaTable (ascii "work") (2, ⟨20#64, ascii "work", 2#64, none⟩) :=
      (twoSessions_denotes (by decide) _).mpr (by decide +kernel)
    obtain rfl := (only _).mp (.manual work)
    rw [getSessionIndicator_lookedUp silent _ plainZero] at read
    exact absurd (Except.ok.inj read) (by decide)
  · intro answers
    have done := rename_free silent twoSessions plainBraces plainOther (by decide) (by unfold Used; decide)
    obtain ⟨entry, only, renamed, _⟩ := answers.renamed _ done
    have free : ¬ Used twoSessions (ascii "other") := by
      unfold Used
      decide
    have names : (twoSessions.metaTable.map fun entry => entry.2.name).Nodup := by decide
    have sole := (renamed_iff names ((only entry).mpr rfl).mem free _).mp renamed
    have zero : ∀ row ∈ twoSessions.metaTable,
        row.2.indicator ≠ foundIndicator (lookedUp twoSessions.metaTable (ascii "\x7b20\x7d")) := by
      decide +kernel
    exact zero entry ((only entry).mpr rfl).mem sole.1
  · intro answers
    have done := rename_free silent twoSessions plainNobody plainOther (by decide) (by unfold Used; decide)
    obtain ⟨message, same⟩ := answers.refused fun entry means => by
      cases means with
      | manual denotes =>
          rw [twoSessions_denotes (by decide)] at denotes
          exact List.eq_nil_iff_forall_not_mem.mp (by decide +kernel) entry denotes
      | bracketed inner k braces _ _ _ => exact absurd (List.head_eq_of_cons_eq braces) (by decide)
    cases (congrArg Prod.snd done).symm.trans (congrArg Prod.snd same)

end Samples

end Nhi
