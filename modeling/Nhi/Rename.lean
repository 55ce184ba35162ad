import Nhi.Gets
import Nhi.MetaStatements

/-!
pkg/rename/rename.go, and how pkg/utils/gets.go finds the session of an
argument: by its place, or by its name. Both arguments stand in the texts of
statements as they are.
-/

namespace Nhi

open Sql (ascii Numeral Tail Phrase)

/-- What SQLite does with a text that is not a plain statement: the database
after it, and the indicators it gives or an error. -/
abbrev Engine := RowidDatabase → Text → RowidDatabase × Except Text (List Long)

def queryIndicators (engine : Engine) (db : RowidDatabase) (text : Text) :
    RowidDatabase × Except Text (List Long) :=
  match selectMeta db [ascii "indicator"] text with
  | .rows rows => (db, .ok (rows.map fun entry => entry.2.indicator))
  | .noSuchTable | .unread => engine db text

def exec (engine : Engine) (db : RowidDatabase) (text : Text) : RowidDatabase × Except Text Unit :=
  match db.execute text with
  | .done after => (after, .ok ())
  | .failed => (db, .error (ascii "no such table"))
  | .unread => let (after, result) := engine db text
      (after, result.map fun _ => ())

def unbraced (session : Text) : Text := trimSuffix 125#8 (trimPrefix 123#8 session)

/-- A number up to a billion is a place. -/
def indexOf (session : Text) : Option Int := (atoi (unbraced session)).filter (· ≤ 1000000000)

def indicatorQuery (session : Text) : Text :=
  match indexOf session with
  | none => ascii "SELECT indicator FROM `meta` WHERE name = '" ++ unbraced session ++ ascii "';"
  | some index =>
      if index < 0 then
        ascii "SELECT indicator FROM `meta` ORDER BY rowid DESC LIMIT 1 OFFSET " ++
          itoa (-1 * index - 1) ++ ascii ";"
      else ascii "SELECT indicator FROM `meta` LIMIT 1 OFFSET " ++ itoa index ++ ascii ";"

/-- `Scan` leaves the 0 where there is no row. -/
def getSessionIndicator (engine : Engine) (db : RowidDatabase) (session : Text) :
    RowidDatabase × Except Text Text :=
  let (after, result) := queryIndicators engine db (indicatorQuery session)
  (after, result.map fun indicators => decimal (indicators.head?.getD 0#64))

def usedQuery (newName : Text) : Text :=
  ascii "SELECT indicator FROM meta WHERE name = '" ++ newName ++ ascii "';"

def checkIfNameIsUsed (engine : Engine) (db : RowidDatabase) (newName : Text) :
    RowidDatabase × Except Text Unit :=
  match queryIndicators engine db (usedQuery newName) with
  | (after, .error message) => (after, .error message)
  | (after, .ok []) => (after, .ok ())
  | (after, .ok (_ :: _)) => (after, .error (ascii "The session name is already in use"))

def rename (engine : Engine) (db : RowidDatabase) (session newName : Text) :
    RowidDatabase × Except Text Unit :=
  match getSessionIndicator engine db session with
  | (db, .error message) => (db, .error message)
  | (db, .ok indicator) =>
      if newName = ascii "meta" then (db, .error (ascii "Session can't be named meta"))
      else
        match checkIfNameIsUsed engine db newName with
        | (db, .error message) => (db, .error message)
        | (db, .ok ()) => exec engine db (updateText newName indicator)

/-! Where an argument leads. -/
section LookedUp

def sessionAt (rows : List (Nat × MetaRow)) (index : Int) : Option (Nat × MetaRow) :=
  if index < 0 then rows.reverse[(-1 * index - 1).toNat]? else rows[index.toNat]?

def sessionNamed (rows : List (Nat × MetaRow)) (name : Text) : Option (Nat × MetaRow) :=
  rows.find? fun entry => entry.2.name = name

def lookedUp (rows : List (Nat × MetaRow)) (session : Text) : Option (Nat × MetaRow) :=
  match indexOf session with
  | some index => sessionAt rows index
  | none => sessionNamed rows (unbraced session)

/-- The indicator that is scanned. Where there is no row it stays 0. -/
def foundIndicator (entry : Option (Nat × MetaRow)) : Long := (entry.map fun entry => entry.2.indicator).getD 0#64

end LookedUp

/-! The queries as they are read. -/
section Queries

variable (engine : Engine) (db : RowidDatabase)

def nameIs (name : Text) : Sql.Comparison := ⟨ascii "name", .equal, .text name⟩

theorem parse_namedText {name : Text} (plain : Plain name) :
    Sql.parseText (ascii "SELECT indicator FROM `meta` WHERE name = '" ++ name ++ ascii "';") =
      some (.select ⟨[ascii "indicator"], ascii "meta", [nameIs name], false, none⟩) := by
  have opened : Sql.run ⟨[], .start⟩ (ascii "SELECT indicator FROM `meta` WHERE name = '") =
      ⟨[.symbol .equal, .word (ascii "name"), Sql.keyword "where", .name (ascii "meta"),
        Sql.keyword "from", .word (ascii "indicator"), Sql.keyword "select"], .text []⟩ := rfl
  rw [Sql.parseText, Sql.lex, List.append_assoc, Sql.run_append, opened, Sql.run_append,
    Sql.run_text plain.1 plain.2]
  rfl

theorem parse_usedQuery {name : Text} (plain : Plain name) :
    Sql.parseText (usedQuery name) =
      some (.select ⟨[ascii "indicator"], ascii "meta", [nameIs name], false, none⟩) := by
  have opened : Sql.run ⟨[], .start⟩ (ascii "SELECT indicator FROM meta WHERE name = '") =
      ⟨[.symbol .equal, .word (ascii "name"), Sql.keyword "where", .word (ascii "meta"),
        Sql.keyword "from", .word (ascii "indicator"), Sql.keyword "select"], .text []⟩ := rfl
  rw [Sql.parseText, Sql.lex, usedQuery, List.append_assoc, Sql.run_append, opened, Sql.run_append,
    Sql.run_text plain.1 plain.2]
  rfl

theorem nameIs_test (name : Text) :
    Sql.conditionTest metaSchema db.rowids [nameIs name] = some fun _ row => decide (row.name = name) := by
  have found : Sql.columnOf metaSchema (ascii "name") = some ⟨.text, fun _ row => .text row.name⟩ := rfl
  refine Sql.conditionTest_singleton ((test_text name found rfl).trans ?_)
  congr 1
  funext rowid row
  rw [decide_eq_decide, Sql.equal_text]
  exact ⟨Sql.Value.text.inj, congrArg Sql.Value.text⟩

theorem queryIndicators_named {text name : Text} (parsed : Sql.parseText text =
      some (.select ⟨[ascii "indicator"], ascii "meta", [nameIs name], false, none⟩)) :
    queryIndicators engine db text =
      (db, .ok ((db.metaTable.filter fun entry => entry.2.name = name).map fun entry => entry.2.indicator)) := by
  have known : [ascii "indicator"].all fun column => (Sql.columnOf metaSchema column).isSome := rfl
  have here : RowidDatabase.isMeta (ascii "meta") = true := rfl
  have answer : selectMeta db [ascii "indicator"] text =
      .rows (db.metaTable.filter fun entry => entry.2.name = name) := by
    rw [selectMeta, parsed]
    simp only [here, and_self, if_true, Sql.Select.rows, known, guard_true]
    simp only [bind, pure, Option.bind_some, nameIs_test, Option.map_some, Option.getD_some]
    rfl
  rw [queryIndicators, answer]

theorem queryIndicators_place (numeral : Numeral) (descending : Bool) :
    queryIndicators engine db (ascii "SELECT indicator FROM `meta`" ++ (numeral.tail descending).text) =
      (db, .ok ((((if descending then db.metaTable.reverse else db.metaTable).drop
        numeral.value.toNat).take 1).map fun entry => entry.2.indicator)) := by
  have known : [ascii "indicator"].all fun column => (Sql.columnOf metaSchema column).isSome := rfl
  have here : RowidDatabase.isMeta (ascii "meta") = true := rfl
  have parsed : Sql.parseText (ascii "SELECT indicator FROM `meta`" ++ (numeral.tail descending).text) =
      some (.select ⟨[ascii "indicator"], ascii "meta", [], descending, some numeral.value⟩) := by
    have opens : Sql.run ⟨[], .start⟩ (ascii "SELECT indicator FROM `") =
      ⟨(Sql.keyword "select" :: (Sql.columnTokens [ascii "indicator"] ++ [Sql.keyword "from"])).reverse, .name []⟩ :=
        rfl
    have read := Sql.parseText_select (by simp) opens (show 96#8 ∉ ascii "meta" by decide) (by decide) []
      (numeral.tail descending)
    exact read
  have all : Sql.matching (fun (_ : Nat) (_ : MetaRow) => true) db.metaTable = db.metaTable :=
    List.filter_eq_self.mpr fun _ _ => rfl
  have answer : selectMeta db [ascii "indicator"]
      (ascii "SELECT indicator FROM `meta`" ++ (numeral.tail descending).text) =
        .rows (((if descending then db.metaTable.reverse else db.metaTable).drop
          numeral.value.toNat).take 1) := by
    rw [selectMeta, parsed]
    simp only [here, and_self, if_true, Sql.Select.rows, known, guard_true]
    simp only [bind, pure, Option.bind_some, Sql.conditionTest, all, Option.map_some, Option.getD_some]
  rw [queryIndicators, answer]

end Queries

/-! What the two functions give for arguments without a quote. -/
section Answers

variable (engine : Engine) (db : RowidDatabase)

theorem plain_unbraced {session : Text} (plain : Plain session) : Plain (unbraced session) := by
  have inside : ∀ byte ∈ unbraced session, byte ∈ session := by
    intro byte member
    have trimmed : byte ∈ trimPrefix 123#8 session := by
      rw [unbraced, trimSuffix] at member
      split at member
      · exact List.dropLast_subset _ member
      · exact member
    rw [trimPrefix] at trimmed
    split at trimmed
    · exact List.mem_of_mem_tail trimmed
    · exact trimmed
  exact ⟨fun quote => plain.1 (inside _ quote), fun nul => plain.2 (inside _ nul)⟩

theorem indexOf_spelled {session : Text} {index : Int} (found : indexOf session = some index) :
    Sql.Spelled (unbraced session) index :=
  Sql.plainInteger_spelled (Option.filter_eq_some_iff.mp found).1

theorem head_take_drop {α : Type} (rows : List α) (place : Nat) :
    ((rows.drop place).take 1).head? = rows[place]? := by
  rw [List.head?_take, if_neg (by simp), List.head?_drop]

theorem getSessionIndicator_lookedUp {session : Text} (plain : Plain session) :
    getSessionIndicator engine db session =
      (db, .ok (decimal (foundIndicator (lookedUp db.metaTable session)))) := by
  rw [getSessionIndicator, indicatorQuery, lookedUp]
  cases found : indexOf session with
  | none =>
      rw [queryIndicators_named engine db (parse_namedText (plain_unbraced plain))]
      simp only [Except.map, List.head?_map, List.head?_filter, sessionNamed, foundIndicator]
  | some index =>
      have spelled := indexOf_spelled found
      simp only
      rw [sessionAt]
      split
      · have numeral := backward_spelled spelled
        have placed := queryIndicators_place engine db (Numeral.ofText numeral) true
        have text : ascii "SELECT indicator FROM `meta` ORDER BY rowid DESC LIMIT 1 OFFSET " ++
            itoa (-1 * index - 1) ++ ascii ";" =
              ascii "SELECT indicator FROM `meta`" ++ ((Numeral.ofText numeral).tail true).text := rfl
        rw [text, placed]
        simp only [Except.map, List.head?_map, head_take_drop, foundIndicator]
        rfl
      · have numeral := itoa_spelled spelled.bounds.1 spelled.bounds.2
        have placed := queryIndicators_place engine db (Numeral.ofText numeral) false
        have text : ascii "SELECT indicator FROM `meta` LIMIT 1 OFFSET " ++ itoa index ++ ascii ";" =
            ascii "SELECT indicator FROM `meta`" ++ ((Numeral.ofText numeral).tail false).text := rfl
        rw [text, placed]
        simp only [Except.map, List.head?_map, head_take_drop, foundIndicator]
        rfl

def Used (db : RowidDatabase) (name : Text) : Prop := ∃ entry ∈ db.metaTable, entry.2.name = name

theorem checkIfNameIsUsed_free {newName : Text} (plain : Plain newName) (free : ¬ Used db newName) :
    checkIfNameIsUsed engine db newName = (db, .ok ()) := by
  have none : db.metaTable.filter (fun entry => entry.2.name = newName) = [] := by
    rw [List.filter_eq_nil_iff]
    intro entry member
    rw [decide_eq_true_eq]
    exact fun same => free ⟨entry, member, same⟩
  unfold checkIfNameIsUsed
  rw [queryIndicators_named engine db (parse_usedQuery plain), none]
  rfl

theorem checkIfNameIsUsed_used {newName : Text} (plain : Plain newName) (used : Used db newName) :
    checkIfNameIsUsed engine db newName = (db, .error (ascii "The session name is already in use")) := by
  obtain ⟨entry, member, same⟩ := used
  have chosen : entry ∈ db.metaTable.filter fun entry => entry.2.name = newName :=
    List.mem_filter.mpr ⟨member, decide_eq_true same⟩
  obtain ⟨first, rest, shape⟩ := List.exists_cons_of_ne_nil (List.ne_nil_of_mem chosen)
  unfold checkIfNameIsUsed
  rw [queryIndicators_named engine db (parse_usedQuery plain), shape]
  rfl

variable {session newName : Text} (plainSession : Plain session) (plainName : Plain newName)

include plainSession plainName

theorem rename_refused (refused : newName = ascii "meta" ∨ Used db newName) :
    ∃ message, rename engine db session newName = (db, .error message) := by
  unfold rename
  rw [getSessionIndicator_lookedUp engine db plainSession]
  simp only
  split
  · exact ⟨_, rfl⟩
  · rename_i other
    rw [checkIfNameIsUsed_used engine db plainName (refused.resolve_left other)]
    exact ⟨_, rfl⟩

theorem rename_free (other : newName ≠ ascii "meta") (free : ¬ Used db newName) :
    rename engine db session newName =
      (db.renameWhere (withIndicator (foundIndicator (lookedUp db.metaTable session))) newName, .ok ()) := by
  unfold rename
  rw [getSessionIndicator_lookedUp engine db plainSession]
  simp only
  rw [if_neg other, checkIfNameIsUsed_free engine db plainName free]
  simp only
  rw [exec, execute_updateText _ _ plainName]

end Answers

def relabel (indicator : Long) (newName : Text) (row : Nat × MetaRow) : Nat × MetaRow :=
  if row.2.indicator = indicator then (row.1, { row.2 with name := newName }) else row

theorem renameWhere_relabel (db : RowidDatabase) (indicator : Long) (newName : Text) :
    (db.renameWhere (withIndicator indicator) newName).metaTable =
      db.metaTable.map (relabel indicator newName) := by
  rw [RowidDatabase.renameWhere]
  apply List.map_congr_left
  intro row _
  simp only [relabel, withIndicator, decide_eq_true_eq]

def silent : Engine := fun db _ => (db, .error (ascii "syntax error"))

end Nhi
