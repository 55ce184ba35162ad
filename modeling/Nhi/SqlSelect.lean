import Nhi.SqlTokens

/-!
The syntax of plain statements: a selection whose condition compares columns
with literals, with the greatest rowid of a table and with the rowid at some
place, and the deletions and updates with such conditions. Of any other
statement the parser gives nothing, which again says nothing about SQLite.

A parsed statement has the string literals of its tokens, in their order: what
stands between quotes in a text cannot be read as anything else.
-/

namespace Sql

inductive Operator where
  | equal
  | notEqual
  | less
  | lessEqual
  | greater
  | greaterEqual
  deriving DecidableEq

inductive Operand where
  | integer (value : Int)
  | text (bytes : List Byte)
  /-- `(SELECT max(rowid)+n FROM t)` -/
  | highest (offset : Int) (table : List Byte)
  /-- `(SELECT rowid FROM t ORDER BY rowid DESC LIMIT 1 OFFSET n)`, or without the order -/
  | nth (descending : Bool) (offset : Int) (table : List Byte)
  deriving DecidableEq

structure Comparison where
  column : List Byte
  operator : Operator
  operand : Operand
  deriving DecidableEq

/-- An offset comes with a limit of 1. -/
structure Select where
  columns : List (List Byte)
  table : List Byte
  conditions : List Comparison
  descending : Bool
  offset : Option Int
  deriving DecidableEq

inductive Statement where
  | select (query : Select)
  | dropTable (table : List Byte)
  | delete (table : List Byte) (conditions : List Comparison)
  | update (table column text : List Byte) (conditions : List Comparison)
  deriving DecidableEq

section Parser

def keyword (letters : String) : Token := .word (ascii letters)

def expect : List Token → List Token → Option (List Token)
  | [], tokens => some tokens
  | _ :: _, [] => none
  | wanted :: others, token :: rest => if token = wanted then expect others rest else none

def signed : List Token → Option (Int × List Token)
  | .integer value :: rest => if value ≤ maxInteger then some (value, rest) else none
  | .symbol .plus :: .integer value :: rest => if value ≤ maxInteger then some (value, rest) else none
  | .symbol .minus :: .integer value :: rest =>
      if value ≤ maxInteger + 1 then some (-value, rest) else none
  | _ => none

def tableName : List Token → Option (List Byte × List Token)
  | .name bytes :: rest => some (bytes, rest)
  | .word letters :: rest => some (letters, rest)
  | _ => none

def ordering (tokens : List Token) : Bool × List Token :=
  match expect [keyword "order", keyword "by", keyword "rowid", keyword "desc"] tokens with
  | some rest => (true, rest)
  | none => (false, tokens)

def highest (tokens : List Token) : Option (Operand × List Token) := do
  let rest ← expect [.symbol .leftParen, keyword "select", keyword "max", .symbol .leftParen,
    keyword "rowid", .symbol .rightParen, .symbol .plus] tokens
  let (offset, rest) ← signed rest
  let (table, rest) ← (expect [keyword "from"] rest).bind tableName
  let rest ← expect [.symbol .rightParen] rest
  return (.highest offset table, rest)

def nth (tokens : List Token) : Option (Operand × List Token) := do
  let rest ← expect [.symbol .leftParen, keyword "select", keyword "rowid", keyword "from"] tokens
  let (table, rest) ← tableName rest
  let (descending, rest) := ordering rest
  let (offset, rest) ← (expect [keyword "limit", .integer 1, keyword "offset"] rest).bind signed
  let rest ← expect [.symbol .rightParen] rest
  return (.nth descending offset table, rest)

def operand (tokens : List Token) : Option (Operand × List Token) :=
  match tokens with
  | .text bytes :: rest => some (.text bytes, rest)
  | .symbol .leftParen :: _ => (highest tokens).or (nth tokens)
  | _ => (signed tokens).map fun (value, rest) => (.integer value, rest)

def operator : Symbol → Option Operator
  | .equal => some .equal
  | .notEqual => some .notEqual
  | .less => some .less
  | .lessEqual => some .lessEqual
  | .greater => some .greater
  | .greaterEqual => some .greaterEqual
  | .leftParen | .rightParen | .comma | .semicolon | .plus | .minus => none

def Operator.symbol : Operator → Symbol
  | .equal => .equal
  | .notEqual => .notEqual
  | .less => .less
  | .lessEqual => .lessEqual
  | .greater => .greater
  | .greaterEqual => .greaterEqual

theorem operator_symbol (written : Operator) : operator written.symbol = some written := by
  cases written <;> rfl

def comparison : List Token → Option (Comparison × List Token)
  | .word column :: .symbol symbol :: rest => do
      let operator ← operator symbol
      let (operand, rest) ← operand rest
      return (⟨column, operator, operand⟩, rest)
  | _ => none

/-- Comparisons with `AND` between them; each pass reads one. -/
def conjunction : Nat → List Token → Option (List Comparison × List Token)
  | 0, _ => none
  | passes + 1, tokens => do
      let (first, rest) ← comparison tokens
      match expect [keyword "and"] rest with
      | some rest =>
          let (others, rest) ← conjunction passes rest
          return (first :: others, rest)
      | none => return ([first], rest)

def whereClause (tokens : List Token) : Option (List Comparison × List Token) :=
  match expect [keyword "where"] tokens with
  | some rest => conjunction rest.length rest
  | none => some ([], tokens)

def columnList : Nat → List Token → Option (List (List Byte) × List Token)
  | 0, _ => none
  | passes + 1, .word column :: .symbol .comma :: rest =>
      (columnList passes rest).map fun (others, rest) => (column :: others, rest)
  | _ + 1, .word column :: rest => some ([column], rest)
  | _ + 1, _ => none

def limit (tokens : List Token) : Option (Option Int × List Token) :=
  match expect [keyword "limit", .integer 1, keyword "offset"] tokens with
  | some rest => (signed rest).map fun (offset, rest) => (some offset, rest)
  | none => some (none, tokens)

def selectStatement (tokens : List Token) : Option (Select × List Token) := do
  let rest ← expect [keyword "select"] tokens
  let (columns, rest) ← columnList rest.length rest
  let (table, rest) ← (expect [keyword "from"] rest).bind tableName
  let (conditions, rest) ← whereClause rest
  let (descending, rest) := ordering rest
  let (offset, rest) ← limit rest
  return (⟨columns, table, conditions, descending, offset⟩, rest)

def dropStatement (tokens : List Token) : Option (List Byte × List Token) :=
  (expect [keyword "drop", keyword "table"] tokens).bind tableName

def deleteStatement (tokens : List Token) : Option ((List Byte × List Comparison) × List Token) := do
  let (table, rest) ← (expect [keyword "delete", keyword "from"] tokens).bind tableName
  let (conditions, rest) ← whereClause rest
  return ((table, conditions), rest)

def updateStatement (tokens : List Token) :
    Option ((List Byte × List Byte × List Byte × List Comparison) × List Token) := do
  let (table, rest) ← (expect [keyword "update"] tokens).bind tableName
  let rest ← expect [keyword "set"] rest
  match rest with
  | .word column :: .symbol .equal :: .text bytes :: rest => do
      let (conditions, rest) ← whereClause rest
      return ((table, column, bytes, conditions), rest)
  | _ => none

/-- One statement, which a semicolon may end. -/
def whole {α : Type} (parsed : Option (α × List Token)) : Option α :=
  match parsed with
  | some (result, []) | some (result, [.symbol .semicolon]) => some result
  | _ => none

def parse (tokens : List Token) : Option Statement :=
  ((whole (selectStatement tokens)).map .select).or <|
  ((whole (dropStatement tokens)).map .dropTable).or <|
  ((whole (deleteStatement tokens)).map fun (table, conditions) => .delete table conditions).or <|
  (whole (updateStatement tokens)).map fun (table, column, bytes, conditions) =>
    .update table column bytes conditions

def parseText (text : List Byte) : Option Statement := (lex text).bind parse

end Parser

theorem expect_append (wanted rest : List Token) : expect wanted (wanted ++ rest) = some rest := by
  induction wanted with
  | nil => rfl
  | cons token others ih => rw [List.cons_append, expect, if_pos rfl, ih]

theorem expect_some {wanted tokens rest : List Token} (found : expect wanted tokens = some rest) :
    tokens = wanted ++ rest := by
  induction wanted generalizing tokens with
  | nil => exact Option.some.inj found
  | cons token others ih =>
      cases tokens with
      | nil => cases found
      | cons first more =>
          rw [expect] at found
          split at found
          · rename_i same
            rw [same, List.cons_append, ih found]
          · cases found

/-! The string literals. -/
section LiteralOrder

def literals (tokens : List Token) : List (List Byte) :=
  tokens.filterMap fun token => match token with
    | .text bytes => some bytes
    | _ => none

def Operand.literals : Operand → List (List Byte)
  | .text bytes => [bytes]
  | .integer _ | .highest _ _ | .nth _ _ _ => []

def conditionLiterals (conditions : List Comparison) : List (List Byte) :=
  conditions.flatMap fun comparison => comparison.operand.literals

def Statement.literals : Statement → List (List Byte)
  | .select query => conditionLiterals query.conditions
  | .dropTable _ => []
  | .delete _ conditions => conditionLiterals conditions
  | .update _ _ text conditions => text :: conditionLiterals conditions

theorem literals_append (front back : List Token) :
    literals (front ++ back) = literals front ++ literals back := List.filterMap_append

variable {tokens rest : List Token}

theorem expect_literals {wanted : List Token} (plain : literals wanted = [])
    (found : expect wanted tokens = some rest) : literals tokens = literals rest := by
  rw [expect_some found, literals_append, plain, List.nil_append]

theorem signed_literals {value : Int} (found : signed tokens = some (value, rest)) :
    literals tokens = literals rest := by
  rw [signed.eq_def] at found
  split at found
  · split at found
    · obtain ⟨_, rfl⟩ := Prod.mk.inj (Option.some.inj found); rfl
    · cases found
  · split at found
    · obtain ⟨_, rfl⟩ := Prod.mk.inj (Option.some.inj found); rfl
    · cases found
  · split at found
    · obtain ⟨_, rfl⟩ := Prod.mk.inj (Option.some.inj found); rfl
    · cases found
  · cases found

theorem tableName_literals {table : List Byte} (found : tableName tokens = some (table, rest)) :
    literals tokens = literals rest := by
  rw [tableName.eq_def] at found
  split at found
  · obtain ⟨_, rfl⟩ := Prod.mk.inj (Option.some.inj found); rfl
  · obtain ⟨_, rfl⟩ := Prod.mk.inj (Option.some.inj found); rfl
  · cases found

theorem ordering_literals (tokens : List Token) : literals tokens = literals (ordering tokens).2 := by
  rw [ordering]
  split
  · rename_i found
    exact expect_literals rfl found
  · rfl

theorem highest_literals {operand : Operand} (found : highest tokens = some (operand, rest)) :
    literals tokens = operand.literals ++ literals rest := by
  simp only [highest, bind, Option.bind_eq_some_iff, pure, Option.some.injEq, Prod.mk.injEq,
    Prod.exists] at found
  obtain ⟨opened, start, offset, added, number, table, last, ⟨named, source, inside⟩, closed, ends, rfl, rfl⟩ := found
  rw [expect_literals rfl start, signed_literals number, expect_literals rfl source,
    tableName_literals inside, expect_literals rfl ends]
  rfl

theorem nth_literals {operand : Operand} (found : nth tokens = some (operand, rest)) :
    literals tokens = operand.literals ++ literals rest := by
  simp only [nth, bind, Option.bind_eq_some_iff, pure, Option.some.injEq, Prod.mk.injEq,
    Prod.exists] at found
  obtain ⟨opened, start, table, named, inside, offset, last, ⟨limited, place, number⟩, closed, ends, rfl, rfl⟩ := found
  rw [expect_literals rfl start, tableName_literals inside, ordering_literals named,
    expect_literals rfl place, signed_literals number, expect_literals rfl ends]
  rfl

theorem operand_literals {result : Operand} (found : operand tokens = some (result, rest)) :
    literals tokens = result.literals ++ literals rest := by
  rw [operand.eq_def] at found
  split at found
  · obtain ⟨rfl, rfl⟩ := Prod.mk.inj (Option.some.inj found)
    rfl
  · rcases Option.or_eq_some_iff.mp found with first | ⟨_, second⟩
    · exact highest_literals first
    · exact nth_literals second
  · obtain ⟨⟨value, _⟩, number, same⟩ := Option.map_eq_some_iff.mp found
    obtain ⟨rfl, rfl⟩ := Prod.mk.inj same
    exact signed_literals number

theorem comparison_literals {result : Comparison} (found : comparison tokens = some (result, rest)) :
    literals tokens = result.operand.literals ++ literals rest := by
  rw [comparison.eq_def] at found
  split at found
  · simp only [bind, Option.bind_eq_some_iff, pure, Option.some.injEq, Prod.mk.injEq,
      Prod.exists] at found
    obtain ⟨_, _, _, _, right, rfl, rfl⟩ := found
    have inside := operand_literals right
    exact inside
  · cases found

theorem conjunction_literals {passes : Nat} {conditions : List Comparison}
    (found : conjunction passes tokens = some (conditions, rest)) :
    literals tokens = conditionLiterals conditions ++ literals rest := by
  induction passes generalizing tokens conditions with
  | zero => cases found
  | succ passes ih =>
      simp only [conjunction, bind, Option.bind_eq_some_iff, Prod.exists] at found
      obtain ⟨first, more, one, found⟩ := found
      rw [comparison_literals one]
      split at found
      · rename_i joined
        simp only [Option.bind_eq_some_iff, pure, Option.some.injEq, Prod.mk.injEq,
          Prod.exists] at found
        obtain ⟨others, last, later, rfl, rfl⟩ := found
        rw [expect_literals rfl joined, ih later, conditionLiterals, conditionLiterals,
          List.flatMap_cons, List.append_assoc]
      · obtain ⟨rfl, rfl⟩ := Prod.mk.inj (Option.some.inj found)
        rw [conditionLiterals, List.flatMap_cons, List.flatMap_nil, List.append_nil]

theorem whereClause_literals {conditions : List Comparison}
    (found : whereClause tokens = some (conditions, rest)) :
    literals tokens = conditionLiterals conditions ++ literals rest := by
  rw [whereClause] at found
  split at found
  · rename_i opened
    rw [expect_literals rfl opened, conjunction_literals found]
  · obtain ⟨rfl, rfl⟩ := Prod.mk.inj (Option.some.inj found)
    rfl

theorem columnList_literals {passes : Nat} {columns : List (List Byte)}
    (found : columnList passes tokens = some (columns, rest)) : literals tokens = literals rest := by
  induction passes generalizing tokens columns with
  | zero => cases found
  | succ passes ih =>
      rw [columnList.eq_def] at found
      split at found
      · cases found
      · rename_i same
        obtain rfl := Nat.succ.inj same
        obtain ⟨⟨others, _⟩, later, last⟩ := Option.map_eq_some_iff.mp found
        obtain ⟨_, rfl⟩ := Prod.mk.inj last
        have inside := ih later
        exact inside
      · obtain ⟨_, rfl⟩ := Prod.mk.inj (Option.some.inj found)
        rfl
      · cases found

theorem limit_literals {offset : Option Int} (found : limit tokens = some (offset, rest)) :
    literals tokens = literals rest := by
  rw [limit] at found
  split at found
  · rename_i opened
    obtain ⟨⟨value, _⟩, number, same⟩ := Option.map_eq_some_iff.mp found
    obtain ⟨_, rfl⟩ := Prod.mk.inj same
    rw [expect_literals rfl opened, signed_literals number]
  · obtain ⟨_, rfl⟩ := Prod.mk.inj (Option.some.inj found)
    rfl

theorem whole_some {α : Type} {parsed : Option (α × List Token)} {result : α}
    (found : whole parsed = some result) : ∃ last, parsed = some (result, last) ∧ literals last = [] := by
  rw [whole.eq_def] at found
  split at found
  · exact ⟨_, congrArg (fun result => some (result, _)) (Option.some.inj found), rfl⟩
  · exact ⟨_, congrArg (fun result => some (result, _)) (Option.some.inj found), rfl⟩
  · cases found

theorem parse_literals {statement : Statement} (found : parse tokens = some statement) :
    literals tokens = statement.literals := by
  simp only [parse, Option.or_eq_some_iff, Option.map_eq_some_iff] at found
  rcases found with ⟨parsed, whole, rfl⟩ | ⟨_, ⟨parsed, whole, rfl⟩ | ⟨_, found⟩⟩
  · obtain ⟨last, found, none⟩ := whole_some whole
    simp only [selectStatement, bind, Option.bind_eq_some_iff, pure, Option.some.injEq, Prod.mk.injEq,
      Prod.exists] at found
    obtain ⟨_, start, _, _, columns, _, _, ⟨_, source, table⟩, _, ordered, conditions, _, _, limited, rfl, rfl⟩ :=
      found
    rw [expect_literals rfl start, columnList_literals columns, expect_literals rfl source,
      tableName_literals table, whereClause_literals conditions, ordering_literals ordered,
      limit_literals limited, none, List.append_nil]
    rfl
  · obtain ⟨last, found, none⟩ := whole_some whole
    obtain ⟨_, start, table⟩ := Option.bind_eq_some_iff.mp found
    rw [expect_literals rfl start, tableName_literals table, none]
    rfl
  · rcases found with ⟨parsed, whole, rfl⟩ | ⟨_, parsed, whole, rfl⟩
    · obtain ⟨last, found, none⟩ := whole_some whole
      simp only [deleteStatement, bind, Option.bind_eq_some_iff, pure, Option.some.injEq, Prod.mk.injEq,
        Prod.exists] at found
      obtain ⟨_, _, ⟨_, start, table⟩, _, _, conditions, rfl, rfl⟩ := found
      rw [expect_literals rfl start, tableName_literals table, whereClause_literals conditions, none,
        List.append_nil]
      rfl
    · obtain ⟨last, found, none⟩ := whole_some whole
      simp only [updateStatement, bind, Option.bind_eq_some_iff, Prod.exists] at found
      obtain ⟨_, _, ⟨_, start, table⟩, _, set, found⟩ := found
      split at found
      · simp only [Option.bind_eq_some_iff, pure, Option.some.injEq, Prod.mk.injEq,
          Prod.exists] at found
        obtain ⟨_, _, conditions, rfl, rfl⟩ := found
        have later := whereClause_literals conditions
        rw [none, List.append_nil] at later
        rw [expect_literals rfl start, tableName_literals table, expect_literals rfl set,
          Statement.literals, ← later]
        rfl
      · cases found

end LiteralOrder

end Sql
