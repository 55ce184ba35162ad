import Nhi.Rename

/-!
pkg/utils/gets.go: which session an argument should lead to, and which it leads
to. Curly brackets are taken off before anything is decided, what was in them is
looked up among the names, and a query without a row gives the indicator 0.
-/

namespace Nhi

open Sql (ascii)

/-- `meta`: the oldest session first, and no two of one name. -/
structure SessionTable (db : RowidDatabase) : Prop where
  ascending : (db.metaTable.map Prod.fst).Pairwise (· < ·)
  distinct : (db.metaTable.map fun entry => entry.2.name).Nodup
  unquoted : ∀ entry ∈ db.metaTable, 39#8 ∉ entry.2.name

/-- The four notations of the manual. -/
inductive Denotes (rows : List (Nat × MetaRow)) (session : Text) (entry : Nat × MetaRow) : Prop where
  | oldest (k : Nat) : integerOf session = some (k : Int) → rows[k]? = some entry → Denotes rows session entry
  | latest (k : Nat) : 1 ≤ k → integerOf session = some (-k : Int) → rows.reverse[k - 1]? = some entry →
      Denotes rows session entry
  | named : entry ∈ rows → entry.2.name = session → (∀ k ∈ integerOf session, 1000000000 < k) →
      Denotes rows session entry
  | indicated : entry ∈ rows → session = 123#8 :: (decimal entry.2.indicator ++ [125#8]) →
      Denotes rows session entry

/-- An argument that denotes sessions gives their indicator, every other one an
error. -/
def Resolved (rows : List (Nat × MetaRow)) (session : Text) (result : Except Text Text) : Prop :=
  (∀ entry, Denotes rows session entry → result = .ok (decimal entry.2.indicator)) ∧
  ((∀ entry, ¬ Denotes rows session entry) → ∃ message, result = .error message)

/-- Without its brackets the argument is the place of a session with this
indicator, or the name of one. What leads nowhere has the indicator 0. -/
def StandsFor (rows : List (Nat × MetaRow)) (session : Text) (indicator : Long) : Prop :=
  match indexOf session with
  | some index => foundIndicator (sessionAt rows index) = indicator
  | none => (∃ entry ∈ rows, entry.2.name = unbraced session ∧ entry.2.indicator = indicator) ∨
      (indicator = 0#64 ∧ ∀ entry ∈ rows, entry.2.name ≠ unbraced session)

structure Resolvable (rows : List (Nat × MetaRow)) (session : Text) : Prop where
  denotes : ∃ entry, Denotes rows session entry
  stands : ∀ entry, Denotes rows session entry → StandsFor rows session entry.2.indicator

def Refused (engine : Engine) (db : RowidDatabase) (session : Text) : Prop :=
  ∃ message, (queryIndicators engine db (indicatorQuery session)).2 = .error message

section Arguments

variable {engine : Engine} {db : RowidDatabase} {session : Text}

theorem Denotes.unquoted (table : SessionTable db) {entry : Nat × MetaRow}
    (denotes : Denotes db.metaTable session entry) : 39#8 ∉ session := by
  cases denotes with
  | oldest k read _ => exact integerOf_apart read (by decide)
  | latest k _ read _ => exact integerOf_apart read (by decide)
  | named member name _ => exact name ▸ table.unquoted entry member
  | indicated _ braces =>
      have plain := (decimal_plain entry.2.indicator).1
      simp [braces, plain]

theorem foundIndicator_iff (distinct : (db.metaTable.map fun entry => entry.2.name).Nodup) (indicator : Long) :
    foundIndicator (lookedUp db.metaTable session) = indicator ↔ StandsFor db.metaTable session indicator := by
  rw [lookedUp, StandsFor]
  cases found : indexOf session with
  | some index => rfl
  | none =>
      simp only [sessionNamed]
      cases named : db.metaTable.find? fun entry => entry.2.name = unbraced session with
      | none =>
          have absent : ∀ entry ∈ db.metaTable, entry.2.name ≠ unbraced session := by simpa using named
          constructor
          · exact fun zero => Or.inr ⟨zero.symm, absent⟩
          · rintro (⟨entry, member, name, _⟩ | ⟨zero, _⟩)
            · exact absurd name (absent entry member)
            · exact zero.symm
      | some entry =>
          have member := List.mem_of_find?_eq_some named
          have name : entry.2.name = unbraced session := by simpa using List.find?_some named
          constructor
          · exact fun same => Or.inl ⟨entry, member, name, same⟩
          · rintro (⟨other, inside, same, there⟩ | ⟨_, absent⟩)
            · have one : other = entry :=
                List.inj_on_of_nodup_map distinct inside member (same.trans name.symm)
              exact one ▸ there
            · exact absurd name (absent entry member)

theorem resolved_unquoted_iff (table : SessionTable db) (plain : Plain session) :
    Resolved db.metaTable session (getSessionIndicator engine db session).2 ↔
      Resolvable db.metaTable session := by
  rw [getSessionIndicator_lookedUp engine db plain, Resolved]
  have same (entry : Nat × MetaRow) :
      Except.ok (decimal (foundIndicator (lookedUp db.metaTable session))) =
          (Except.ok (decimal entry.2.indicator) : Except Text Text) ↔
        StandsFor db.metaTable session entry.2.indicator := by
    rw [← foundIndicator_iff table.distinct, Except.ok.injEq]
    exact ⟨fun equal => decimal_injective equal, congrArg decimal⟩
  constructor
  · rintro ⟨found, error⟩
    refine ⟨?_, fun entry denotes => (same entry).mp (found entry denotes)⟩
    by_contra none
    obtain ⟨message, refused⟩ := error (not_exists.mp none)
    cases refused
  · rintro ⟨⟨entry, denotes⟩, stands⟩
    exact ⟨fun entry denotes => (same entry).mpr (stands entry denotes), fun none => absurd denotes (none entry)⟩

theorem integer_unbraced {value : Int} (read : integerOf session = some value) : unbraced session = session := by
  have opens : session.head? ≠ some 123#8 := fun brace =>
    integerOf_apart read (by decide) (List.mem_of_head? brace)
  have closes : session.getLast? ≠ some 125#8 := fun brace =>
    integerOf_apart read (by decide) (List.mem_of_getLast? brace)
  rw [unbraced, trimPrefix, if_neg opens, trimSuffix, if_neg closes]

theorem resolvable_place {k : Int} (read : atoi session = some k) (low : -db.metaTable.length ≤ k)
    (high : k < db.metaTable.length) (small : k ≤ 1000000000) : Resolvable db.metaTable session := by
  have whole := integerOf_atoi read
  have index : indexOf session = some k := by
    rw [indexOf, integer_unbraced whole, read, Option.filter_some, if_pos (by simpa using small)]
  have place : ∃ entry, sessionAt db.metaTable k = some entry := by
    rw [sessionAt]
    split
    · exact ⟨_, List.getElem?_eq_getElem (by rw [List.length_reverse]; omega)⟩
    · exact ⟨_, List.getElem?_eq_getElem (by omega)⟩
  obtain ⟨entry, found⟩ := place
  -- an integer denotes the one session in its place
  have only (other : Nat × MetaRow) (denotes : Denotes db.metaTable session other) :
      sessionAt db.metaTable k = some other := by
    cases denotes with
    | oldest j read' there =>
        obtain rfl := Option.some.inj (whole.symm.trans read')
        rwa [sessionAt, if_neg (by omega), Int.toNat_natCast]
    | latest j positive read' there =>
        obtain rfl := Option.some.inj (whole.symm.trans read')
        rw [sessionAt, if_pos (by omega)]
        rwa [show (-1 * (-(j : Int)) - 1).toNat = j - 1 by omega]
    | named _ _ great => exact absurd (great k whole) (by omega)
    | indicated _ braces =>
        have bracketed : 123#8 ∈ session := by
          rw [braces]
          exact List.mem_cons_self
        exact absurd bracketed (integerOf_apart whole (by decide))
  refine ⟨⟨entry, ?_⟩, fun other denotes => ?_⟩
  · rw [sessionAt] at found
    split at found
    · refine .latest (-k).toNat (by omega) (by rw [whole]; congr; omega) ?_
      rwa [show (-k).toNat - 1 = (-1 * k - 1).toNat by omega]
    · exact .oldest k.toNat (by rw [whole]; congr; omega) found
  · rw [StandsFor, index]
    simp only [foundIndicator, only other denotes, Option.map_some, Option.getD_some]

theorem resolvable_name {entry : Nat × MetaRow} (member : entry ∈ db.metaTable) (name : entry.2.name = session)
    (opens : session.head? ≠ some 123#8) (closes : session.getLast? ≠ some 125#8)
    (text : integerOf session = none) : Resolvable db.metaTable session := by
  have same : unbraced session = session := by
    rw [unbraced, trimPrefix, if_neg opens, trimSuffix, if_neg closes]
  have index : indexOf session = none := by
    rw [indexOf, same]
    cases read : atoi session with
    | none => rfl
    | some value => cases text ▸ integerOf_atoi read
  refine ⟨⟨entry, .named member name (by rw [text]; rintro _ ⟨⟩)⟩, fun other denotes => ?_⟩
  have one : other.2.name = session ∧ other ∈ db.metaTable := by
    cases denotes with
    | oldest j read _ => cases text ▸ read
    | latest j _ read _ => cases text ▸ read
    | named inside named' _ => exact ⟨named', inside⟩
    | indicated _ braces => exact absurd (by rw [braces]; rfl) opens
  rw [StandsFor, index]
  exact Or.inl ⟨other, one.2, one.1.trans same.symm, rfl⟩

/-- An indicator above a billion is found in brackets only under its own digits
as a name. -/
theorem resolvable_indicator_iff {entry : Nat × MetaRow} (member : entry ∈ db.metaTable)
    (braces : session = 123#8 :: (decimal entry.2.indicator ++ [125#8]))
    (great : 1000000000 < entry.2.indicator.toInt) (free : ∀ other ∈ db.metaTable, other.2.name ≠ session) :
    Resolvable db.metaTable session ↔
      ∃ other ∈ db.metaTable, other.2.name = decimal entry.2.indicator ∧ other.2.indicator = entry.2.indicator := by
  have inner : unbraced session = decimal entry.2.indicator := by
    rw [unbraced, braces, trimPrefix, List.head?_cons, if_pos rfl, List.tail_cons, trimSuffix,
      List.getLast?_concat, if_pos rfl, List.dropLast_concat]
  have index : indexOf session = none := by
    have read : atoi (decimal entry.2.indicator) = some entry.2.indicator.toInt :=
      (decimal_spelled entry.2.indicator).read
    rw [indexOf, inner, read, Option.filter_some, if_neg (by simpa using great)]
  have bracketed : 123#8 ∈ session := by
    rw [braces]
    exact List.mem_cons_self
  have number {value : Int} (read : integerOf session = some value) : False :=
    integerOf_apart read (by decide) bracketed
  have denoted : Denotes db.metaTable session entry := .indicated member braces
  have nonzero : entry.2.indicator ≠ 0#64 := by
    intro zero
    rw [zero] at great
    revert great
    decide
  have stands : StandsFor db.metaTable session entry.2.indicator ↔
      ∃ other ∈ db.metaTable, other.2.name = decimal entry.2.indicator ∧
        other.2.indicator = entry.2.indicator := by
    rw [StandsFor, index]
    simp only [inner, nonzero, false_and, or_false]
  rw [← stands]
  constructor
  · exact fun resolvable => resolvable.stands entry denoted
  · -- whatever else it denotes has the same digits
    refine fun found => ⟨⟨entry, denoted⟩, fun other denotes => ?_⟩
    have same : other.2.indicator = entry.2.indicator := by
      cases denotes with
      | oldest k read _ => exact (number read).elim
      | latest k _ read _ => exact (number read).elim
      | named inside name _ => exact absurd name (free other inside)
      | indicated _ braces' =>
          have digits := List.tail_eq_of_cons_eq (braces.symm.trans braces')
          exact (decimal_injective (List.append_cancel_right digits)).symm
    rw [same]
    exact found

end Arguments

/-- An argument leads to the session it denotes, or to an error, exactly when it
stands for what it denotes; with a quote, when the statement is refused. Places
and names do, and an indicator in brackets only if the session has it as its name. -/
theorem sessionArgument_iff (engine : Engine) {db : RowidDatabase} (table : SessionTable db) {session : Text}
    (noNul : 0#8 ∉ session) :
    (Resolved db.metaTable session (getSessionIndicator engine db session).2 ↔
      (39#8 ∉ session → Resolvable db.metaTable session) ∧ (39#8 ∈ session → Refused engine db session)) ∧
    (∀ k, atoi session = some k → -db.metaTable.length ≤ k → k < db.metaTable.length → k ≤ 1000000000 →
      Resolved db.metaTable session (getSessionIndicator engine db session).2) ∧
    (∀ entry ∈ db.metaTable, entry.2.name = session → session.head? ≠ some 123#8 → session.getLast? ≠ some 125#8 →
      integerOf session = none → Resolved db.metaTable session (getSessionIndicator engine db session).2) ∧
    ∀ entry ∈ db.metaTable, session = 123#8 :: (decimal entry.2.indicator ++ [125#8]) →
      1000000000 < entry.2.indicator.toInt → (∀ other ∈ db.metaTable, other.2.name ≠ session) →
      (Resolved db.metaTable session (getSessionIndicator engine db session).2 ↔
        ∃ other ∈ db.metaTable, other.2.name = decimal entry.2.indicator ∧
          other.2.indicator = entry.2.indicator) := by
  have unquoted {entry : Nat × MetaRow} (denotes : Denotes db.metaTable session entry) :
      Resolved db.metaTable session (getSessionIndicator engine db session).2 ↔ Resolvable db.metaTable session :=
    resolved_unquoted_iff table ⟨denotes.unquoted table, noNul⟩
  refine ⟨?_, ?_, ?_, ?_⟩
  · by_cases quote : 39#8 ∈ session
    · simp only [quote, not_true_eq_false, false_implies, true_and, true_implies]
      have nothing : ∀ entry, ¬ Denotes db.metaTable session entry :=
        fun entry denotes => denotes.unquoted table quote
      rw [Refused, getSessionIndicator]
      constructor
      · rintro ⟨_, error⟩
        obtain ⟨message, refused⟩ := error nothing
        cases result : (queryIndicators engine db (indicatorQuery session)).2 with
        | error message => exact ⟨message, rfl⟩
        | ok indicators => simp [result, Except.map] at refused
      · rintro ⟨message, refused⟩
        exact ⟨fun entry denotes => absurd denotes (nothing entry), fun _ => ⟨message, by simp [refused, Except.map]⟩⟩
    · simp only [quote, not_false_eq_true, true_implies, false_implies, and_true]
      exact resolved_unquoted_iff table ⟨quote, noNul⟩
  · intro k read low high small
    have resolvable := resolvable_place read low high small
    obtain ⟨entry, denotes⟩ := resolvable.denotes
    exact (unquoted denotes).mpr resolvable
  · intro entry member name opens closes text
    have resolvable := resolvable_name member name opens closes text
    obtain ⟨entry, denotes⟩ := resolvable.denotes
    exact (unquoted denotes).mpr resolvable
  · intro entry member braces great free
    exact (unquoted (.indicated member braces)).trans (resolvable_indicator_iff member braces great free)

def renamedSession : RowidDatabase := ⟨[], [(1, ⟨16000000000#64, ascii "work", 1600000000#64, none⟩)]⟩

theorem renamedSession_table : SessionTable renamedSession := ⟨by simp [renamedSession], by simp [renamedSession],
  by decide⟩

theorem sessionArgument_work :
    Resolved renamedSession.metaTable (ascii "work") (getSessionIndicator silent renamedSession (ascii "work")).2 := by
  refine (sessionArgument_iff silent renamedSession_table (by decide)).1.mpr ⟨fun _ => ?_, fun quote => ?_⟩
  · exact resolvable_name (List.mem_singleton.mpr rfl) rfl (by decide) (by decide) rfl
  · exact absurd quote (by decide)

/-- The session is not found by its indicator, and a place that is not there is
no error. -/
theorem renamedSession_lost :
    ¬ Resolved renamedSession.metaTable (ascii "\x7b16000000000\x7d")
        (getSessionIndicator silent renamedSession (ascii "\x7b16000000000\x7d")).2 ∧
    ¬ Resolved renamedSession.metaTable (ascii "7") (getSessionIndicator silent renamedSession (ascii "7")).2 := by
  rw [getSessionIndicator_lookedUp silent renamedSession (by decide),
    getSessionIndicator_lookedUp silent renamedSession (by decide)]
  constructor
  · intro resolved
    have given := resolved.1 _ (.indicated (List.mem_singleton.mpr rfl) rfl)
    exact absurd (decimal_injective (Except.ok.inj given)) (by decide +kernel)
  · intro resolved
    obtain ⟨message, error⟩ := resolved.2 fun entry denotes => by
      have seven : integerOf (ascii "7") = some 7 := rfl
      cases denotes with
      | oldest k read there =>
          obtain rfl : k = 7 := Int.natCast_inj.mp (Option.some.inj (read.symm.trans seven))
          cases there
      | latest k _ read _ =>
          have negative := Option.some.inj (read.symm.trans seven)
          omega
      | named _ _ great => exact absurd (great 7 seven) (by decide)
      | indicated _ braces => exact absurd (List.head_eq_of_cons_eq braces) (by decide)
    cases error

end Nhi
