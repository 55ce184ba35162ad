import Mathlib.Data.List.MinMax
import Nhi.SqlSelect

/-!
What plain statements mean on a table, a list of rows in the order of their
rowids. A comparison with null is neither true nor false, and a row is selected
when every condition is true of it. A column of numbers turns a text it is
compared with into a number, where the text is one; other conversions are left
open, as are columns that are not there.
-/

namespace Sql

inductive Value where
  | null
  | integer (value : Int)
  | text (bytes : List Byte)
  deriving DecidableEq

inductive Affinity where
  | integer
  | text
  | blob

structure Column (ρ : Type) where
  affinity : Affinity
  value : Nat → ρ → Value

abbrev Schema (ρ : Type) := List Byte → Option (Column ρ)

variable {ρ : Type}

def columnOf (schema : Schema ρ) (name : List Byte) : Option (Column ρ) :=
  if name = ascii "rowid" then some ⟨.integer, fun rowid _ => .integer rowid⟩ else schema name

/-- The other side of a comparison with a column. -/
def convert : Affinity → Value → Option Value
  | .integer, .text bytes => (plainInteger bytes).map .integer
  | .text, .integer _ => none
  | _, value => some value

def orderOf {α : Type} [DecidableEq α] [LT α] [DecidableLT α] (first second : α) : Ordering :=
  if first = second then .eq else if first < second then .lt else .gt

/-- Numbers come before texts. -/
def order : Value → Value → Option Ordering
  | .null, _ | _, .null => none
  | .integer first, .integer second => some (orderOf first second)
  | .integer _, .text _ => some .lt
  | .text _, .integer _ => some .gt
  | .text first, .text second => some (orderOf first second)

def Operator.accepts : Operator → Ordering → Bool
  | .equal, result => result = .eq
  | .notEqual, result => result ≠ .eq
  | .less, result => result = .lt
  | .lessEqual, result => result ≠ .gt
  | .greater, result => result = .gt
  | .greaterEqual, result => result ≠ .lt

def compare (operator : Operator) (first second : Value) : Option Bool :=
  (order first second).map operator.accepts

section Queries

variable (schema : Schema ρ) (rowids : List Byte → Option (List Nat))

def Operand.value : Operand → Option Value
  | .integer value => some (.integer value)
  | .text bytes => some (.text bytes)
  | .highest offset table =>
      (rowids table).map fun numbers =>
        (numbers.max?.map fun most => Value.integer (most + offset)).getD .null
  | .nth descending offset table =>
      (rowids table).map fun numbers =>
        let ordered := if descending then numbers.reverse else numbers
        (ordered[offset.toNat]?.map fun (rowid : Nat) => Value.integer rowid).getD .null

/-- The rows a comparison is true of; none where it is left open. -/
def Comparison.test (comparison : Comparison) : Option (Nat → ρ → Bool) := do
  let column ← columnOf schema comparison.column
  let value ← comparison.operand.value rowids
  let value ← convert column.affinity value
  return fun rowid row => compare comparison.operator (column.value rowid row) value = some true

def conditionTest : List Comparison → Option (Nat → ρ → Bool)
  | [] => some fun _ _ => true
  | comparison :: rest => do
      let first ← comparison.test schema rowids
      let others ← conditionTest rest
      return fun rowid row => first rowid row && others rowid row

def matching (test : Nat → ρ → Bool) (table : List (Nat × ρ)) : List (Nat × ρ) :=
  table.filter fun entry => test entry.1 entry.2

def Select.rows (query : Select) (table : List (Nat × ρ)) : Option (List (Nat × ρ)) := do
  guard (query.columns.all fun column => (columnOf schema column).isSome)
  let test ← conditionTest schema rowids query.conditions
  let passed := matching test table
  let ordered := if query.descending then passed.reverse else passed
  return match query.offset with
    | some offset => (ordered.drop offset.toNat).take 1
    | none => ordered

end Queries

section Tests

variable {schema : Schema ρ} {rowids : List Byte → Option (List Nat)}

theorem conditionTest_append {front back : List Comparison} {first second : Nat → ρ → Bool}
    (one : conditionTest schema rowids front = some first)
    (two : conditionTest schema rowids back = some second) :
    conditionTest schema rowids (front ++ back) =
      some fun rowid row => first rowid row && second rowid row := by
  induction front generalizing first with
  | nil =>
      obtain rfl := Option.some.inj one
      simpa using two
  | cons comparison rest ih =>
      simp only [conditionTest, bind, Option.bind_eq_some_iff, pure] at one
      obtain ⟨test, here, others, later, same⟩ := one
      obtain rfl := Option.some.inj same
      simp only [List.cons_append, conditionTest, bind, here, Option.bind_some, ih later, pure,
        Bool.and_assoc]

theorem conditionTest_singleton {comparison : Comparison} {test : Nat → ρ → Bool}
    (found : comparison.test schema rowids = some test) :
    conditionTest schema rowids [comparison] = some test := by
  simp [conditionTest, found]

theorem conditionTest_mem {conditions : List Comparison} {test one : Nat → ρ → Bool} {comparison : Comparison}
    (all : conditionTest schema rowids conditions = some test) (inside : comparison ∈ conditions)
    (tested : comparison.test schema rowids = some one) {rowid : Nat} {row : ρ}
    (passes : test rowid row = true) : one rowid row = true := by
  induction conditions generalizing test with
  | nil => cases inside
  | cons first rest ih =>
      simp only [conditionTest, bind, Option.bind_eq_some_iff, pure] at all
      obtain ⟨here, found, others, later, same⟩ := all
      obtain rfl := Option.some.inj same
      obtain ⟨now, then'⟩ := Bool.and_eq_true_iff.mp passes
      rcases List.mem_cons.mp inside with rfl | behind
      · rw [Option.some.inj (tested.symm.trans found)]
        exact now
      · exact ih later behind then'

theorem Select.rows_meet {query : Select} {table rows : List (Nat × ρ)}
    (answer : query.rows schema rowids table = some rows) {entry : Nat × ρ} (member : entry ∈ rows)
    {comparison : Comparison} (inside : comparison ∈ query.conditions) {one : Nat → ρ → Bool}
    (tested : comparison.test schema rowids = some one) : one entry.1 entry.2 = true := by
  simp only [Select.rows, bind, Option.bind_eq_some_iff, pure, Option.some.injEq] at answer
  obtain ⟨_, _, test, all, same⟩ := answer
  have passed : entry ∈ matching test table := by
    have ordered : entry ∈ if query.descending then (matching test table).reverse else matching test table := by
      rw [← same] at member
      cases offset : query.offset with
      | none => simpa only [offset] using member
      | some place =>
          simp only [offset] at member
          exact List.mem_of_mem_drop (List.mem_of_mem_take member)
    split at ordered
    · exact List.mem_reverse.mp ordered
    · exact ordered
  exact conditionTest_mem all inside tested (List.mem_filter.mp passed).2

def Operator.Holds (first second : Int) : Operator → Prop
  | .equal => first = second
  | .notEqual => first ≠ second
  | .less => first < second
  | .lessEqual => first ≤ second
  | .greater => second < first
  | .greaterEqual => second ≤ first

instance (first second : Int) (operator : Operator) : Decidable (operator.Holds first second) :=
  match operator with
  | .equal => inferInstanceAs (Decidable (first = second))
  | .notEqual => inferInstanceAs (Decidable (first ≠ second))
  | .less => inferInstanceAs (Decidable (first < second))
  | .lessEqual => inferInstanceAs (Decidable (first ≤ second))
  | .greater => inferInstanceAs (Decidable (second < first))
  | .greaterEqual => inferInstanceAs (Decidable (second ≤ first))

theorem compare_integer {operator : Operator} {first second : Int} :
    compare operator (.integer first) (.integer second) = some true ↔ operator.Holds first second := by
  simp only [compare, order, orderOf, Option.map_some, Option.some.injEq]
  split_ifs with same below
  · cases operator <;> simp [Operator.accepts, Operator.Holds] <;> omega
  · cases operator <;> simp [Operator.accepts, Operator.Holds] <;> omega
  · cases operator <;> simp [Operator.accepts, Operator.Holds] <;> omega

theorem compare_null {operator : Operator} {value : Value} :
    compare operator .null value ≠ some true ∧ compare operator value .null ≠ some true := by
  cases value <;> exact ⟨nofun, nofun⟩

theorem equal_text {value : Value} {bytes : List Byte} :
    compare .equal value (.text bytes) = some true ↔ value = .text bytes := by
  cases value with
  | null => simp [compare, order]
  | integer value => simp [compare, order, Operator.accepts]
  | text other =>
      simp only [compare, order, orderOf, Option.map_some, Option.some.injEq, Operator.accepts,
        decide_eq_true_eq, Value.text.injEq]
      split_ifs <;> simp_all

theorem notEqual_text {value : Value} {bytes : List Byte} :
    compare .notEqual value (.text bytes) = some true ↔ value ≠ .null ∧ value ≠ .text bytes := by
  cases value with
  | null => simp [compare, order]
  | integer value => simp [compare, order, Operator.accepts]
  | text other =>
      simp only [compare, order, orderOf, Option.map_some, Option.some.injEq, Operator.accepts,
        decide_eq_true_eq, ne_eq, Value.text.injEq]
      split_ifs <;> simp_all

end Tests

end Sql
