import Nhi.SqlSelect

/-!
Statements put together from texts that are known to be read in one way. A
`Phrase` is the text of a comparison, a `Numeral` that of an integer with or
without a sign; phrases with ` AND ` between them are the conjunction of their
comparisons, and a selection is read as its parts are.
-/

namespace Sql

/-- A text that is read as an integer, whatever follows. -/
structure Numeral where
  text : List Byte
  tokens : List Token
  value : Int
  reads : Reads text tokens
  parses : ∀ rest, signed (tokens ++ rest) = some (value, rest)

/-- A text that is read as a comparison, whatever follows. -/
structure Phrase where
  text : List Byte
  tokens : List Token
  comparison : Comparison
  reads : Reads text tokens
  parses : ∀ rest, Sql.comparison (tokens ++ rest) = some (comparison, rest)

section Numerals

def numeralTokens (text : List Byte) : List Token :=
  if text.head? = some 45#8 then [.symbol .minus, .integer (digitsNumber 0 (unsigned text))]
  else if text.head? = some 43#8 then [.symbol .plus, .integer (digitsNumber 0 (unsigned text))]
  else [.integer (digitsNumber 0 (unsigned text))]

theorem plain_numeralTokens {digits : List Byte} (nonempty : digits ≠ [])
    (all : ∀ digit ∈ digits, isDigit digit) :
    numeralTokens digits = [.integer (digitsNumber 0 digits)] := by
  obtain ⟨first, rest, rfl⟩ := List.exists_cons_of_ne_nil nonempty
  have apart : first ≠ 43#8 ∧ first ≠ 45#8 := by
    constructor <;> rintro rfl <;> exact absurd (all _ List.mem_cons_self) (by decide)
  simp [numeralTokens, unsigned, apart.1, apart.2]

theorem Spelled.reads {text : List Byte} {value : Int} (spelled : Spelled text value) :
    Reads text (numeralTokens text) := by
  cases spelled with
  | plain digits nonempty all _ =>
      rw [plain_numeralTokens nonempty all]
      exact reads_digits all nonempty
  | plus digits nonempty all _ =>
      have opens : Opens [43#8] [.symbol .plus] := fun _ => rfl
      exact opens.reads (reads_digits all nonempty)
  | minus digits nonempty all _ =>
      -- the sign is not the first character of a comment
      obtain ⟨first, rest, rfl⟩ := List.exists_cons_of_ne_nil nonempty
      intro before delimiter ends
      have digit := all first List.mem_cons_self
      have apart : first ≠ 45#8 := by
        rintro rfl
        exact absurd digit (by decide)
      have sign : step ⟨before, .operator 45#8⟩ first = step ⟨.symbol .minus :: before, .start⟩ first := by
        have noSymbol : double 45#8 first = none := by simp [double]
        rw [step, step, if_neg (digit_apart first digit).2.2, if_neg (digit_apart first digit).2.2]
        simp [noSymbol, apart, Ne.symm apart, single]
      have read := reads_digits all nonempty (.symbol .minus :: before) delimiter ends
      rw [List.cons_append, run_cons] at read
      have opened : step ⟨before, .start⟩ 45#8 = ⟨before, .operator 45#8⟩ := rfl
      rw [List.cons_append, List.cons_append, run_cons, opened, run_cons, sign, read]
      rfl

theorem Spelled.parses {text : List Byte} {value : Int} (spelled : Spelled text value)
    (rest : List Token) : signed (numeralTokens text ++ rest) = some (value, rest) := by
  cases spelled with
  | plain digits nonempty all bound =>
      rw [plain_numeralTokens nonempty all]
      exact if_pos bound
  | plus digits nonempty all bound => exact if_pos bound
  | minus digits nonempty all bound => exact if_pos bound

def Numeral.ofText {text : List Byte} {value : Int} (spelled : Spelled text value) : Numeral where
  text := text
  tokens := numeralTokens text
  value := value
  reads := spelled.reads
  parses := spelled.parses

end Numerals

/-! Phrases from a column, an operator and what comes after it. -/
section Phrases

structure Comparator where
  text : List Byte
  column : List Byte
  operator : Operator
  opens : Opens text [.word column, .symbol operator.symbol]

structure Right where
  text : List Byte
  tokens : List Token
  operand : Operand
  reads : Reads text tokens
  parses : ∀ rest, Sql.operand (tokens ++ rest) = some (operand, rest)

def Comparator.phrase (comparator : Comparator) (right : Right) : Phrase where
  text := comparator.text ++ right.text
  tokens := .word comparator.column :: .symbol comparator.operator.symbol :: right.tokens
  comparison := ⟨comparator.column, comparator.operator, right.operand⟩
  reads := comparator.opens.reads right.reads
  parses rest := by
    simp only [List.cons_append, comparison, operator_symbol, right.parses, bind, Option.bind_some, pure]

theorem operand_signed {tokens rest : List Token} {value : Int}
    (read : signed tokens = some (value, rest)) :
    Sql.operand tokens = some (.integer value, rest) := by
  have number {ρ : Type} (use : Int × List Token → ρ) (same : signed tokens = some (value, rest)) :
      (signed tokens).map use = some (use (value, rest)) := by rw [same]; rfl
  rw [signed.eq_def] at read
  split at read
  · exact number _ (by rw [signed]; exact read)
  · exact number _ (by rw [signed]; exact read)
  · exact number _ (by rw [signed]; exact read)
  · cases read

def Numeral.right (numeral : Numeral) : Right where
  text := numeral.text
  tokens := numeral.tokens
  operand := .integer numeral.value
  reads := numeral.reads
  parses rest := operand_signed (numeral.parses rest)

def quoted (bytes : List Byte) (noQuote : 39#8 ∉ bytes) (noNul : 0#8 ∉ bytes) : Right where
  text := 39#8 :: (bytes ++ [39#8])
  tokens := [.text bytes]
  operand := .text bytes
  reads := reads_text noQuote noNul
  parses _ := rfl

variable {table : List Byte} (noQuote : 96#8 ∉ table) (noNul : 0#8 ∉ table)

include noQuote noNul

theorem run_table (before : List Token) (rest : List Byte) :
    run ⟨before, .name []⟩ (table ++ rest) = run ⟨before, .name table⟩ rest := by
  rw [run_append, run_name noQuote noNul, List.nil_append]

theorem opens_from : Opens (ascii "FROM `" ++ table ++ ascii "`)")
    [keyword "from", .name table, .symbol .rightParen] := by
  intro before
  have opened : run ⟨before, .start⟩ (ascii "FROM `") = ⟨keyword "from" :: before, .name []⟩ := rfl
  rw [List.append_assoc, run_append, opened, run_table noQuote noNul]
  rfl

theorem opens_place (descending : Bool) :
    Opens (ascii "(SELECT rowid FROM `" ++ table ++
        (if descending then ascii "` ORDER BY rowid DESC LIMIT 1 OFFSET " else ascii "` LIMIT 1 OFFSET "))
      ([.symbol .leftParen, keyword "select", keyword "rowid", keyword "from", .name table] ++
        (if descending then [keyword "order", keyword "by", keyword "rowid", keyword "desc"] else []) ++
        [keyword "limit", .integer 1, keyword "offset"]) := by
  intro before
  have opened : run ⟨before, .start⟩ (ascii "(SELECT rowid FROM `") =
      ⟨keyword "from" :: keyword "rowid" :: keyword "select" :: .symbol .leftParen :: before, .name []⟩ :=
    rfl
  rw [List.append_assoc, run_append, opened, run_table noQuote noNul]
  cases descending <;> rfl

omit noQuote noNul

def Numeral.highest (numeral : Numeral) (noQuote : 96#8 ∉ table) (noNul : 0#8 ∉ table) : Right where
  text := ascii "(SELECT max(rowid)+" ++ numeral.text ++ ascii " FROM `" ++ table ++ ascii "`)"
  tokens := [.symbol .leftParen, keyword "select", keyword "max", .symbol .leftParen, keyword "rowid",
      .symbol .rightParen, .symbol .plus] ++ numeral.tokens ++
    [keyword "from", .name table, .symbol .rightParen]
  operand := .highest numeral.value table
  reads := by
    have opens : Opens (ascii "(SELECT max(rowid)+") [.symbol .leftParen, keyword "select",
        keyword "max", .symbol .leftParen, keyword "rowid", .symbol .rightParen, .symbol .plus] :=
      fun _ => rfl
    have space : ascii " FROM `" = [32#8] ++ ascii "FROM `" := rfl
    have whole := ((opens.append numeral.reads.opens).append (opens_from noQuote noNul)).ends
    rw [space]
    simpa only [List.append_assoc] using whole
  parses rest := by
    have start (rest : List Token) : expect [.symbol .leftParen, keyword "select", keyword "max",
        .symbol .leftParen, keyword "rowid", .symbol .rightParen, .symbol .plus]
        ([.symbol .leftParen, keyword "select", keyword "max", .symbol .leftParen, keyword "rowid",
          .symbol .rightParen, .symbol .plus] ++ rest) = some rest := expect_append _ rest
    have inside : Sql.highest ([.symbol .leftParen, keyword "select", keyword "max",
        .symbol .leftParen, keyword "rowid", .symbol .rightParen, .symbol .plus] ++
          (numeral.tokens ++ ([keyword "from", .name table, .symbol .rightParen] ++ rest))) =
        some (.highest numeral.value table, rest) := by
      simp only [Sql.highest, start, numeral.parses, bind, Option.bind_some]
      rfl
    rw [List.append_assoc, List.append_assoc]
    exact congrArg (Option.or · _) inside

def Numeral.nth (numeral : Numeral) (descending : Bool) (noQuote : 96#8 ∉ table)
    (noNul : 0#8 ∉ table) : Right where
  text := ascii "(SELECT rowid FROM `" ++ table ++
    (if descending then ascii "` ORDER BY rowid DESC LIMIT 1 OFFSET " else ascii "` LIMIT 1 OFFSET ") ++
    numeral.text ++ ascii ")"
  tokens := ([.symbol .leftParen, keyword "select", keyword "rowid", keyword "from", .name table] ++
      (if descending then [keyword "order", keyword "by", keyword "rowid", keyword "desc"] else []) ++
      [keyword "limit", .integer 1, keyword "offset"]) ++ numeral.tokens ++ [.symbol .rightParen]
  operand := .nth descending numeral.value table
  reads := by
    have closed : Opens (numeral.text ++ ascii ")") (numeral.tokens ++ [.symbol .rightParen]) := by
      intro before
      rw [List.reverse_append]
      exact numeral.reads before 41#8 (Or.inr (Or.inl rfl))
    have whole := ((opens_place noQuote noNul descending).append closed).ends
    simpa only [List.append_assoc] using whole
  parses rest := by
    have other (tokens : List Token) : Sql.highest (.symbol .leftParen :: keyword "select" ::
        keyword "rowid" :: tokens) = none := rfl
    have inside : Sql.nth (.symbol .leftParen :: keyword "select" :: keyword "rowid" ::
        keyword "from" :: .name table :: ((if descending then
          [keyword "order", keyword "by", keyword "rowid", keyword "desc"] else []) ++
          keyword "limit" :: .integer 1 :: keyword "offset" ::
            (numeral.tokens ++ .symbol .rightParen :: rest))) =
        some (.nth descending numeral.value table, rest) := by
      have place (rest : List Token) : expect [keyword "limit", .integer 1, keyword "offset"]
          (keyword "limit" :: .integer 1 :: keyword "offset" :: rest) = some rest :=
        expect_append [keyword "limit", .integer 1, keyword "offset"] rest
      have start (rest : List Token) : expect [.symbol .leftParen, keyword "select", keyword "rowid",
          keyword "from"] (.symbol .leftParen :: keyword "select" :: keyword "rowid" ::
            keyword "from" :: rest) = some rest :=
        expect_append [.symbol .leftParen, keyword "select", keyword "rowid", keyword "from"] rest
      have ordered : ordering ((if descending then
          [keyword "order", keyword "by", keyword "rowid", keyword "desc"] else []) ++
          keyword "limit" :: .integer 1 :: keyword "offset" ::
            (numeral.tokens ++ .symbol .rightParen :: rest)) =
          (descending, keyword "limit" :: .integer 1 :: keyword "offset" ::
            (numeral.tokens ++ .symbol .rightParen :: rest)) := by
        cases descending <;> rfl
      simp only [Sql.nth, start, tableName, ordered, place, numeral.parses, bind, Option.bind_some]
      rfl
    simpa [Sql.operand, other] using inside

end Phrases

section Conjunction

def conjoin : List Phrase → List Byte
  | [] => []
  | [phrase] => phrase.text
  | phrase :: rest => phrase.text ++ ascii " AND " ++ conjoin rest

def conjoinTokens : List Phrase → List Token
  | [] => []
  | [phrase] => phrase.tokens
  | phrase :: rest => phrase.tokens ++ keyword "and" :: conjoinTokens rest

theorem conjoin_cons (phrase : Phrase) {rest : List Phrase} (more : rest ≠ []) :
    conjoin (phrase :: rest) = phrase.text ++ ascii " AND " ++ conjoin rest := by
  obtain ⟨next, others, rfl⟩ := List.exists_cons_of_ne_nil more
  rfl

theorem conjoinTokens_cons (phrase : Phrase) {rest : List Phrase} (more : rest ≠ []) :
    conjoinTokens (phrase :: rest) = phrase.tokens ++ keyword "and" :: conjoinTokens rest := by
  obtain ⟨next, others, rfl⟩ := List.exists_cons_of_ne_nil more
  rfl

theorem opens_and : Opens (ascii "AND ") [keyword "and"] := fun _ => rfl

theorem conjoin_reads {phrases : List Phrase} (nonempty : phrases ≠ []) :
    Reads (conjoin phrases) (conjoinTokens phrases) := by
  induction phrases with
  | nil => exact absurd rfl nonempty
  | cons first rest ih =>
      by_cases more : rest = []
      · subst more
        exact first.reads
      · have joined := (first.reads.opens.append opens_and).reads (ih more)
        have space : ascii " AND " = [32#8] ++ ascii "AND " := rfl
        rw [conjoin_cons first more, conjoinTokens_cons first more, space]
        simpa only [List.append_assoc, List.singleton_append] using joined

theorem conjunction_phrases {phrases : List Phrase} (nonempty : phrases ≠ []) {passes : Nat}
    (enough : phrases.length ≤ passes) {rest : List Token}
    (stops : expect [keyword "and"] rest = none) :
    conjunction passes (conjoinTokens phrases ++ rest) =
      some (phrases.map Phrase.comparison, rest) := by
  induction phrases generalizing passes with
  | nil => exact absurd rfl nonempty
  | cons first others ih =>
      obtain ⟨passes, rfl⟩ : ∃ fewer, passes = fewer + 1 :=
        ⟨passes - 1, by rw [List.length_cons] at enough; omega⟩
      by_cases more : others = []
      · subst more
        simp [conjunction, conjoinTokens, first.parses, stops]
      · have joined : expect [keyword "and"] (keyword "and" :: (conjoinTokens others ++ rest)) =
            some (conjoinTokens others ++ rest) := expect_append [keyword "and"] _
        have later := ih more (Nat.le_of_succ_le_succ enough)
        rw [conjoinTokens_cons first more, List.append_assoc, List.cons_append]
        simp [conjunction, first.parses, joined, later]

theorem conjoinTokens_length {phrases : List Phrase} (nonempty : phrases ≠ []) :
    phrases.length ≤ (conjoinTokens phrases).length + 1 := by
  induction phrases with
  | nil => exact absurd rfl nonempty
  | cons first rest ih =>
      by_cases more : rest = []
      · subst more
        simp
      · have later := ih more
        rw [conjoinTokens_cons first more, List.length_append, List.length_cons, List.length_cons]
        omega

def whereText (phrases : List Phrase) : List Byte :=
  if phrases = [] then [] else ascii " WHERE " ++ conjoin phrases

def whereTokens (phrases : List Phrase) : List Token :=
  if phrases = [] then [] else keyword "where" :: conjoinTokens phrases

theorem whereClause_phrases (phrases : List Phrase) {rest : List Token}
    (more : rest ≠ []) (noWhere : expect [keyword "where"] rest = none)
    (noAnd : expect [keyword "and"] rest = none) :
    whereClause (whereTokens phrases ++ rest) = some (phrases.map Phrase.comparison, rest) := by
  rw [whereTokens]
  split
  · rename_i none
    rw [none, List.nil_append, whereClause, noWhere]
    rfl
  · rename_i nonempty
    have enough := conjoinTokens_length nonempty
    have positive := List.length_pos_of_ne_nil more
    have opened : expect [keyword "where"] (keyword "where" :: (conjoinTokens phrases ++ rest)) =
        some (conjoinTokens phrases ++ rest) := expect_append [keyword "where"] _
    rw [List.cons_append, whereClause, opened]
    exact conjunction_phrases nonempty (by rw [List.length_append]; omega) noAnd

end Conjunction

section Selection

def columnTokens : List (List Byte) → List Token
  | [] => []
  | [column] => [.word column]
  | column :: rest => .word column :: .symbol .comma :: columnTokens rest

theorem columnList_tokens {columns : List (List Byte)} (nonempty : columns ≠ []) {passes : Nat}
    (enough : columns.length ≤ passes) (rest : List Token) :
    columnList passes (columnTokens columns ++ keyword "from" :: rest) =
      some (columns, keyword "from" :: rest) := by
  induction columns generalizing passes with
  | nil => exact absurd rfl nonempty
  | cons column others ih =>
      obtain ⟨passes, rfl⟩ : ∃ fewer, passes = fewer + 1 :=
        ⟨passes - 1, by rw [List.length_cons] at enough; omega⟩
      cases others with
      | nil => rfl
      | cons next others =>
          have later := ih (by simp) (Nat.le_of_succ_le_succ enough)
          exact congrArg (Option.map _) later

theorem columnTokens_length (columns : List (List Byte)) :
    columns.length ≤ (columnTokens columns).length := by
  induction columns with
  | nil => exact Nat.le_refl _
  | cons column others ih =>
      cases others with
      | nil => exact Nat.le_refl _
      | cons next others =>
          simp only [columnTokens, List.length_cons] at ih ⊢
          omega

/-- What comes after the conditions. -/
structure Tail where
  text : List Byte
  tokens : List Token
  descending : Bool
  offset : Option Int
  closes : ∃ first rest, text = first :: rest ∧ Delimiter first ∧
    ∀ before, (run (begin before first) rest).finish = some (tokens.reverse ++ before)
  nonempty : tokens ≠ []
  noWhere : expect [keyword "where"] tokens = none
  noAnd : expect [keyword "and"] tokens = none
  ordered : (ordering tokens).1 = descending
  limited : limit (ordering tokens).2 = some (offset, [.symbol .semicolon])

def Tail.plain : Tail where
  text := ascii ";"
  tokens := [.symbol .semicolon]
  descending := false
  offset := none
  closes := ⟨59#8, [], rfl, Or.inr (Or.inr rfl), fun _ => rfl⟩
  nonempty := by simp
  noWhere := rfl
  noAnd := rfl
  ordered := rfl
  limited := rfl

def Tail.newestFirst : Tail where
  text := ascii " ORDER BY rowid DESC;"
  tokens := [keyword "order", keyword "by", keyword "rowid", keyword "desc", .symbol .semicolon]
  descending := true
  offset := none
  closes := ⟨32#8, ascii "ORDER BY rowid DESC;", rfl, Or.inl rfl, fun _ => rfl⟩
  nonempty := by simp
  noWhere := rfl
  noAnd := rfl
  ordered := rfl
  limited := rfl

def Numeral.tail (numeral : Numeral) (descending : Bool) : Tail where
  text := (if descending then ascii " ORDER BY rowid DESC LIMIT 1 OFFSET " else ascii " LIMIT 1 OFFSET ") ++
    numeral.text ++ ascii ";"
  tokens := (if descending then [keyword "order", keyword "by", keyword "rowid", keyword "desc"] else []) ++
    ([keyword "limit", .integer 1, keyword "offset"] ++ (numeral.tokens ++ [.symbol .semicolon]))
  descending := descending
  offset := some numeral.value
  closes := by
    refine ⟨32#8, (if descending then ascii "ORDER BY rowid DESC LIMIT 1 OFFSET " else ascii "LIMIT 1 OFFSET ") ++
      (numeral.text ++ ascii ";"), ?_, Or.inl rfl, fun before => ?_⟩
    · cases descending <;> simp only [List.append_assoc] <;> rfl
    · have placed : run (begin before 32#8) (if descending then ascii "ORDER BY rowid DESC LIMIT 1 OFFSET "
          else ascii "LIMIT 1 OFFSET ") =
          ⟨((if descending then [keyword "order", keyword "by", keyword "rowid", keyword "desc"] else []) ++
            [keyword "limit", .integer 1, keyword "offset"]).reverse ++ before, .start⟩ := by
        cases descending <;> rfl
      have ended := numeral.reads (((if descending then
          [keyword "order", keyword "by", keyword "rowid", keyword "desc"] else []) ++
          [keyword "limit", .integer 1, keyword "offset"]).reverse ++ before) 59#8 (Or.inr (Or.inr rfl))
      have semicolon : ascii ";" = [59#8] := rfl
      rw [run_append, placed, semicolon, ended]
      simp [begin, isSpace, isLetter, isDigit, LexState.finish]
  nonempty := by simp
  noWhere := by cases descending <;> rfl
  noAnd := by cases descending <;> rfl
  ordered := by cases descending <;> rfl
  limited := by
    have rest : ∀ rest, limit ([keyword "limit", .integer 1, keyword "offset"] ++ (numeral.tokens ++ rest)) =
        some (some numeral.value, rest) := by
      intro rest
      rw [limit, expect_append]
      simp only [numeral.parses, Option.map_some]
    cases descending
    · exact rest [.symbol .semicolon]
    · exact rest [.symbol .semicolon]

theorem selectStatement_tokens {columns : List (List Byte)} (nonempty : columns ≠ [])
    (table : List Byte) (phrases : List Phrase) (tail : Tail) :
    parse (keyword "select" :: (columnTokens columns ++ keyword "from" :: .name table ::
        (whereTokens phrases ++ tail.tokens))) =
      some (.select ⟨columns, table, phrases.map Phrase.comparison, tail.descending, tail.offset⟩) := by
  have conditions := whereClause_phrases phrases tail.nonempty tail.noWhere tail.noAnd
  have enough : columns.length ≤ (columnTokens columns ++ keyword "from" :: .name table ::
      (whereTokens phrases ++ tail.tokens)).length := by
    rw [List.length_append]
    exact Nat.le_add_right_of_le (columnTokens_length columns)
  have list := columnList_tokens nonempty enough (.name table :: (whereTokens phrases ++ tail.tokens))
  have start (rest : List Token) : expect [keyword "select"] (keyword "select" :: rest) = some rest :=
    expect_append [keyword "select"] rest
  have source (rest : List Token) : expect [keyword "from"] (keyword "from" :: rest) = some rest :=
    expect_append [keyword "from"] rest
  have read : selectStatement (keyword "select" :: (columnTokens columns ++ keyword "from" ::
      .name table :: (whereTokens phrases ++ tail.tokens))) =
        some (⟨columns, table, phrases.map Phrase.comparison, tail.descending, tail.offset⟩,
          [.symbol .semicolon]) := by
    simp only [selectStatement, start, list, source, tableName, conditions, tail.limited, tail.ordered,
      bind, Option.bind_some, pure]
  rw [parse, read]
  rfl

/-- The text of a selection: `head` goes up to the quote that opens the name of
the table. -/
theorem parseText_select {columns : List (List Byte)} (nonempty : columns ≠ []) {head : List Byte}
    (opens : run ⟨[], .start⟩ head =
      ⟨(keyword "select" :: (columnTokens columns ++ [keyword "from"])).reverse, .name []⟩)
    {table : List Byte} (noQuote : 96#8 ∉ table) (noNul : 0#8 ∉ table) (phrases : List Phrase)
    (tail : Tail) :
    parseText (head ++ table ++ ascii "`" ++ whereText phrases ++ tail.text) =
      some (.select ⟨columns, table, phrases.map Phrase.comparison, tail.descending, tail.offset⟩) := by
  obtain ⟨first, rest, text, ends, closes⟩ := tail.closes
  have named (before : List Token) : run ⟨before, .name table⟩ (ascii "`" ++ [first]) =
      begin (.name table :: before) first := by
    rcases ends with rfl | rfl | rfl <;> rfl
  have filtered (before : List Token) :
      run ⟨before, .name table⟩ (ascii "`" ++ (whereText phrases ++ [first])) =
        begin ((whereTokens phrases).reverse ++ .name table :: before) first := by
    rw [whereText, whereTokens]
    split
    · exact named before
    · rename_i nonempty
      have opened : run ⟨before, .name table⟩ (ascii "`" ++ ascii " WHERE ") =
          ⟨keyword "where" :: .name table :: before, .start⟩ := rfl
      rw [List.append_assoc, ← List.append_assoc, run_append, opened, conjoin_reads nonempty _ _ ends]
      simp
  have whole : head ++ table ++ ascii "`" ++ whereText phrases ++ tail.text =
      head ++ (table ++ ((ascii "`" ++ (whereText phrases ++ [first])) ++ rest)) := by
    simp [text]
  rw [parseText, lex, whole, run_append, opens, run_append, run_name noQuote noNul, run_append,
    List.nil_append, filtered, closes]
  have tokens := selectStatement_tokens nonempty table phrases tail
  simpa using tokens

theorem parse_unquoted {columns : List (List Byte)} (nonempty : columns ≠ []) (table : List Byte) (rest : List Token) :
    parse (keyword "select" :: (columnTokens columns ++ keyword "from" :: .word table :: rest)) =
      parse (keyword "select" :: (columnTokens columns ++ keyword "from" :: .name table :: rest)) := by
  have start (rest : List Token) : expect [keyword "select"] (keyword "select" :: rest) = some rest :=
    expect_append [keyword "select"] rest
  have list (source : Token) : columnList (columnTokens columns ++ keyword "from" :: source :: rest).length
      (columnTokens columns ++ keyword "from" :: source :: rest) = some (columns, keyword "from" :: source :: rest) := by
    refine columnList_tokens nonempty ?_ (source :: rest)
    rw [List.length_append]
    exact Nat.le_add_right_of_le (columnTokens_length columns)
  have source (rest : List Token) : expect [keyword "from"] (keyword "from" :: rest) = some rest :=
    expect_append [keyword "from"] rest
  have same : selectStatement (keyword "select" :: (columnTokens columns ++ keyword "from" :: .word table :: rest)) =
      selectStatement (keyword "select" :: (columnTokens columns ++ keyword "from" :: .name table :: rest)) := by
    simp only [selectStatement, start, list, source, tableName, bind, Option.bind_some]
  rw [parse, parse, same]
  rfl

theorem parseText_unquoted {columns : List (List Byte)} (nonempty : columns ≠ []) {head table : List Byte}
    (opens : run ⟨[], .start⟩ head =
      ⟨(keyword "select" :: (columnTokens columns ++ [keyword "from"])).reverse, .word table⟩)
    (phrases : List Phrase) (tail : Tail) :
    parseText (head ++ whereText phrases ++ tail.text) =
      some (.select ⟨columns, table, phrases.map Phrase.comparison, tail.descending, tail.offset⟩) := by
  obtain ⟨first, rest, text, ends, closes⟩ := tail.closes
  have word {byte : Byte} (ends : Delimiter byte) (before : List Token) :
      step ⟨before, .word table⟩ byte = begin (.word table :: before) byte := by
    rcases ends with rfl | rfl | rfl <;> simp [step, isLetter, isDigit]
  have filtered (before : List Token) : run ⟨before, .word table⟩ (whereText phrases ++ [first]) =
      begin ((whereTokens phrases).reverse ++ .word table :: before) first := by
    rw [whereText, whereTokens]
    split
    · exact word ends before
    · rename_i some
      have space : ascii " WHERE " = 32#8 :: ascii "WHERE " := rfl
      have opened : run (begin (.word table :: before) 32#8) (ascii "WHERE ") =
          ⟨keyword "where" :: .word table :: before, .start⟩ := rfl
      rw [List.append_assoc, run_append, space, run_cons, word (Or.inl rfl), opened, conjoin_reads some _ _ ends]
      simp
  have whole : head ++ whereText phrases ++ tail.text = head ++ ((whereText phrases ++ [first]) ++ rest) := by
    simp [text]
  have tokens := (parse_unquoted nonempty table _).trans (selectStatement_tokens nonempty table phrases tail)
  rw [parseText, lex, whole, run_append, opens, run_append, filtered, closes]
  simpa using tokens

end Selection

end Sql
