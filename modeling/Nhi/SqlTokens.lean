import Mathlib.Data.List.Basic

/-!
The tokens of SQL as SQLite reads them, for the part of the language that plain
queries use: words, quoted names, string literals with doubled quotes, unsigned
integers, the comparison operators and comments. A text ends at its first NUL.
A text with any other character outside a literal is given up, which says
nothing about what SQLite does with it.

The tokenizer is a fold over the bytes, so a text put together from pieces is
read piece by piece.
-/

namespace Sql

abbrev Byte := BitVec 8

def ascii (characters : String) : List Byte :=
  characters.toList.map fun character => BitVec.ofNat 8 character.toNat

inductive Symbol where
  | leftParen
  | rightParen
  | comma
  | semicolon
  | plus
  | minus
  | equal
  | notEqual
  | less
  | lessEqual
  | greater
  | greaterEqual
  deriving DecidableEq

/-- Words are kept in lower case. -/
inductive Token where
  | word (letters : List Byte)
  | name (bytes : List Byte)
  | text (bytes : List Byte)
  | integer (value : Nat)
  | symbol (symbol : Symbol)
  deriving DecidableEq

/-- What is being read. A quote inside quotes is the end, unless another follows;
an operator can be longer than its first character. -/
inductive Mode where
  | start
  | word (letters : List Byte)
  | number (value : Nat)
  | text (bytes : List Byte)
  | textQuote (bytes : List Byte)
  | name (bytes : List Byte)
  | nameQuote (bytes : List Byte)
  | operator (first : Byte)
  | comment
  | ended
  | illegal

/-- The tokens so far are in reverse. -/
structure LexState where
  tokens : List Token
  mode : Mode

def isSpace (byte : Byte) : Bool := byte = 32#8 || byte = 9#8 || byte = 10#8 || byte = 12#8 || byte = 13#8

def isDigit (byte : Byte) : Bool := 48#8 ≤ byte && byte ≤ 57#8

def isLetter (byte : Byte) : Bool :=
  (97#8 ≤ byte && byte ≤ 122#8) || (65#8 ≤ byte && byte ≤ 90#8) || byte = 95#8

def lower (byte : Byte) : Byte := if 65#8 ≤ byte && byte ≤ 90#8 then byte + 32#8 else byte

def begin (tokens : List Token) (byte : Byte) : LexState :=
  if isSpace byte then ⟨tokens, .start⟩
  else if isLetter byte then ⟨tokens, .word [lower byte]⟩
  else if isDigit byte then ⟨tokens, .number (byte.toNat - 48)⟩
  else if byte = 39#8 then ⟨tokens, .text []⟩
  else if byte = 96#8 then ⟨tokens, .name []⟩
  else if byte = 40#8 then ⟨.symbol .leftParen :: tokens, .start⟩
  else if byte = 41#8 then ⟨.symbol .rightParen :: tokens, .start⟩
  else if byte = 44#8 then ⟨.symbol .comma :: tokens, .start⟩
  else if byte = 59#8 then ⟨.symbol .semicolon :: tokens, .start⟩
  else if byte = 43#8 then ⟨.symbol .plus :: tokens, .start⟩
  else if byte = 45#8 ∨ byte = 60#8 ∨ byte = 61#8 ∨ byte = 62#8 ∨ byte = 33#8 then
    ⟨tokens, .operator byte⟩
  else ⟨tokens, .illegal⟩

def single (first : Byte) : Option Symbol :=
  if first = 45#8 then some .minus
  else if first = 60#8 then some .less
  else if first = 61#8 then some .equal
  else if first = 62#8 then some .greater
  else none

def double (first second : Byte) : Option Symbol :=
  if first = 60#8 ∧ second = 61#8 then some .lessEqual
  else if first = 60#8 ∧ second = 62#8 then some .notEqual
  else if first = 61#8 ∧ second = 61#8 then some .equal
  else if first = 62#8 ∧ second = 61#8 then some .greaterEqual
  else if first = 33#8 ∧ second = 61#8 then some .notEqual
  else none

def LexState.finish (state : LexState) : Option (List Token) :=
  match state.mode with
  | .start | .comment | .ended => some state.tokens
  | .word letters => some (.word letters :: state.tokens)
  | .number value => some (.integer value :: state.tokens)
  | .textQuote bytes => some (.text bytes :: state.tokens)
  | .nameQuote bytes => some (.name bytes :: state.tokens)
  | .operator first => (single first).map fun symbol => .symbol symbol :: state.tokens
  | .text _ | .name _ | .illegal => none

def step (state : LexState) (byte : Byte) : LexState :=
  if byte = 0#8 then
    match state.finish with
    | some tokens => ⟨tokens, .ended⟩
    | none => ⟨state.tokens, .illegal⟩
  else
    match state.mode with
    | .start => begin state.tokens byte
    | .word letters =>
        if isLetter byte || isDigit byte then ⟨state.tokens, .word (letters ++ [lower byte])⟩
        -- other bytes of an identifier, and a literal of bytes
        else if byte = 36#8 ∨ 128#8 ≤ byte ∨ (letters = [120#8] ∧ byte = 39#8) then
          ⟨state.tokens, .illegal⟩
        else begin (.word letters :: state.tokens) byte
    | .number value =>
        if isDigit byte then ⟨state.tokens, .number (10 * value + (byte.toNat - 48))⟩
        -- a fraction, an exponent or a base
        else if isLetter byte || byte = 46#8 || byte = 36#8 || 128#8 ≤ byte then
          ⟨state.tokens, .illegal⟩
        else begin (.integer value :: state.tokens) byte
    | .text bytes =>
        if byte = 39#8 then ⟨state.tokens, .textQuote bytes⟩
        else ⟨state.tokens, .text (bytes ++ [byte])⟩
    | .textQuote bytes =>
        if byte = 39#8 then ⟨state.tokens, .text (bytes ++ [39#8])⟩
        else begin (.text bytes :: state.tokens) byte
    | .name bytes =>
        if byte = 96#8 then ⟨state.tokens, .nameQuote bytes⟩
        else ⟨state.tokens, .name (bytes ++ [byte])⟩
    | .nameQuote bytes =>
        if byte = 96#8 then ⟨state.tokens, .name (bytes ++ [96#8])⟩
        else begin (.name bytes :: state.tokens) byte
    | .operator first =>
        if first = 45#8 ∧ byte = 45#8 then ⟨state.tokens, .comment⟩
        else match double first byte with
          | some symbol => ⟨.symbol symbol :: state.tokens, .start⟩
          | none =>
              -- a shift, which is an operator of its own
              if first = byte then ⟨state.tokens, .illegal⟩
              else match single first with
                | some symbol => begin (.symbol symbol :: state.tokens) byte
                | none => ⟨state.tokens, .illegal⟩
    | .comment => if byte = 10#8 then ⟨state.tokens, .start⟩ else state
    | .ended | .illegal => state

def run (state : LexState) (piece : List Byte) : LexState := piece.foldl step state

def lex (text : List Byte) : Option (List Token) :=
  ((run ⟨[], .start⟩ text).finish).map List.reverse

theorem run_append (state : LexState) (first second : List Byte) :
    run state (first ++ second) = run (run state first) second := List.foldl_append

theorem run_cons (state : LexState) (byte : Byte) (rest : List Byte) :
    run state (byte :: rest) = run (step state byte) rest := rfl

/-! A piece that is followed by something that ends its last token. -/
section Reads

def Delimiter (byte : Byte) : Prop := byte = 32#8 ∨ byte = 41#8 ∨ byte = 59#8

def Reads (piece : List Byte) (tokens : List Token) : Prop :=
  ∀ before delimiter, Delimiter delimiter →
    run ⟨before, .start⟩ (piece ++ [delimiter]) = begin (tokens.reverse ++ before) delimiter

/-- A piece after which a new token begins. -/
def Opens (piece : List Byte) (tokens : List Token) : Prop :=
  ∀ before, run ⟨before, .start⟩ piece = ⟨tokens.reverse ++ before, .start⟩

theorem Opens.reads {first second : List Byte} {front back : List Token} (opens : Opens first front)
    (reads : Reads second back) : Reads (first ++ second) (front ++ back) := by
  intro before delimiter ends
  rw [List.append_assoc, run_append, opens, reads _ _ ends, List.reverse_append, List.append_assoc]

theorem Reads.opens {piece : List Byte} {tokens : List Token} (reads : Reads piece tokens) :
    Opens (piece ++ [32#8]) tokens := by
  intro before
  rw [reads before 32#8 (Or.inl rfl)]
  rfl

theorem Opens.ends {piece : List Byte} {tokens : List Token} (opens : Opens piece tokens) :
    Reads piece tokens := by
  intro before delimiter ends
  rw [run_append, opens]
  rcases ends with rfl | rfl | rfl <;> rfl

theorem Opens.append {first second : List Byte} {front back : List Token} (opens : Opens first front)
    (also : Opens second back) : Opens (first ++ second) (front ++ back) := by
  intro before
  rw [run_append, opens, also, List.reverse_append, List.append_assoc]

end Reads

/-! Literals. -/
section Literals

variable {tokens : List Token}

theorem run_text {bytes : List Byte} (noQuote : 39#8 ∉ bytes) (noNul : 0#8 ∉ bytes)
    (begun : List Byte) : run ⟨tokens, .text begun⟩ bytes = ⟨tokens, .text (begun ++ bytes)⟩ := by
  induction bytes generalizing begun with
  | nil => rw [List.append_nil]; rfl
  | cons byte rest ih =>
      obtain ⟨apart, others⟩ := not_or.mp (mt List.mem_cons.mpr noQuote)
      obtain ⟨nonzero, rests⟩ := not_or.mp (mt List.mem_cons.mpr noNul)
      have next : step ⟨tokens, .text begun⟩ byte = ⟨tokens, .text (begun ++ [byte])⟩ := by
        rw [step, if_neg (Ne.symm nonzero)]
        exact if_neg (Ne.symm apart)
      rw [run_cons, next, ih others rests, List.append_assoc]
      rfl

theorem run_name {bytes : List Byte} (noQuote : 96#8 ∉ bytes) (noNul : 0#8 ∉ bytes)
    (begun : List Byte) : run ⟨tokens, .name begun⟩ bytes = ⟨tokens, .name (begun ++ bytes)⟩ := by
  induction bytes generalizing begun with
  | nil => rw [List.append_nil]; rfl
  | cons byte rest ih =>
      obtain ⟨apart, others⟩ := not_or.mp (mt List.mem_cons.mpr noQuote)
      obtain ⟨nonzero, rests⟩ := not_or.mp (mt List.mem_cons.mpr noNul)
      have next : step ⟨tokens, .name begun⟩ byte = ⟨tokens, .name (begun ++ [byte])⟩ := by
        rw [step, if_neg (Ne.symm nonzero)]
        exact if_neg (Ne.symm apart)
      rw [run_cons, next, ih others rests, List.append_assoc]
      rfl

theorem reads_text {bytes : List Byte} (noQuote : 39#8 ∉ bytes) (noNul : 0#8 ∉ bytes) :
    Reads (39#8 :: (bytes ++ [39#8])) [.text bytes] := by
  intro before delimiter ends
  have whole : 39#8 :: (bytes ++ [39#8]) ++ [delimiter] = [39#8] ++ (bytes ++ [39#8, delimiter]) := by simp
  rw [whole, run_append, run_append]
  have opened : run ⟨before, .start⟩ [39#8] = ⟨before, .text []⟩ := rfl
  rw [opened, run_text noQuote noNul, List.nil_append]
  rcases ends with rfl | rfl | rfl <;> rfl

def digitsNumber (begun : Nat) (digits : List Byte) : Nat :=
  digits.foldl (fun value digit => 10 * value + (digit.toNat - 48)) begun

theorem digit_apart : ∀ byte, isDigit byte → isSpace byte = false ∧ isLetter byte = false ∧ byte ≠ 0#8 := by
  decide

theorem begin_digit {digit : Byte} (all : isDigit digit) (before : List Token) :
    begin before digit = ⟨before, .number (digit.toNat - 48)⟩ := by
  obtain ⟨noSpace, noLetter, _⟩ := digit_apart digit all
  rw [begin, noSpace, noLetter, all]
  rfl

theorem run_digits {digits : List Byte} (all : ∀ digit ∈ digits, isDigit digit) (begun : Nat) :
    run ⟨tokens, .number begun⟩ digits = ⟨tokens, .number (digitsNumber begun digits)⟩ := by
  induction digits generalizing begun with
  | nil => rfl
  | cons digit rest ih =>
      obtain ⟨first, others⟩ := List.forall_mem_cons.mp all
      have next : step ⟨tokens, .number begun⟩ digit = ⟨tokens, .number (10 * begun + (digit.toNat - 48))⟩ := by
        rw [step, if_neg (digit_apart digit first).2.2]
        exact if_pos first
      rw [run_cons, next, ih others]
      rfl

theorem reads_digits {digits : List Byte} (all : ∀ digit ∈ digits, isDigit digit)
    (nonempty : digits ≠ []) : Reads digits [.integer (digitsNumber 0 digits)] := by
  intro before delimiter ends
  obtain ⟨digit, rest, rfl⟩ := List.exists_cons_of_ne_nil nonempty
  obtain ⟨first, others⟩ := List.forall_mem_cons.mp all
  have opened : step ⟨before, .start⟩ digit = ⟨before, .number (digit.toNat - 48)⟩ := by
    rw [step, if_neg (digit_apart digit first).2.2]
    exact begin_digit first before
  have value : digitsNumber (digit.toNat - 48) rest = digitsNumber 0 (digit :: rest) := by
    simp [digitsNumber]
  rw [List.cons_append, run_cons, opened, run_append, run_digits others, value]
  rcases ends with rfl | rfl | rfl <;> rfl

end Literals

/-! Integers of 64 bits with a sign or without, as texts. -/
section Integers

def maxInteger : Nat := 9223372036854775807

def unsigned : List Byte → List Byte
  | [] => []
  | first :: rest => if first = 43#8 ∨ first = 45#8 then rest else first :: rest

def signedNumber (text : List Byte) : Int :=
  if text.head? = some 45#8 then -(digitsNumber 0 (unsigned text)) else digitsNumber 0 (unsigned text)

def plainInteger (text : List Byte) : Option Int :=
  if unsigned text ≠ [] ∧ (unsigned text).all isDigit ∧ -(maxInteger + 1) ≤ signedNumber text ∧
      signedNumber text ≤ maxInteger then
    some (signedNumber text)
  else none

inductive Spelled : List Byte → Int → Prop where
  | plain (digits : List Byte) : digits ≠ [] → (∀ digit ∈ digits, isDigit digit) →
      digitsNumber 0 digits ≤ maxInteger → Spelled digits (digitsNumber 0 digits)
  | plus (digits : List Byte) : digits ≠ [] → (∀ digit ∈ digits, isDigit digit) →
      digitsNumber 0 digits ≤ maxInteger → Spelled (43#8 :: digits) (digitsNumber 0 digits)
  | minus (digits : List Byte) : digits ≠ [] → (∀ digit ∈ digits, isDigit digit) →
      digitsNumber 0 digits ≤ maxInteger + 1 → Spelled (45#8 :: digits) (-(digitsNumber 0 digits))

theorem plainInteger_spelled {text : List Byte} {value : Int} (read : plainInteger text = some value) :
    Spelled text value := by
  rw [plainInteger, Option.ite_none_right_eq_some] at read
  obtain ⟨⟨nonempty, all, low, high⟩, same⟩ := read
  obtain rfl := Option.some.inj same
  rw [List.all_eq_true] at all
  cases text with
  | nil => exact absurd rfl nonempty
  | cons first rest =>
      by_cases minus : first = 45#8
      · subst minus
        have digits : unsigned (45#8 :: rest) = rest := rfl
        have value : signedNumber (45#8 :: rest) = -(digitsNumber 0 rest) := rfl
        rw [digits] at nonempty all
        rw [value] at low high ⊢
        exact .minus rest nonempty all (by omega)
      · have value : signedNumber (first :: rest) = digitsNumber 0 (unsigned (first :: rest)) := by
          rw [signedNumber, List.head?_cons, if_neg fun same => minus (Option.some.inj same)]
        rw [value] at low high ⊢
        by_cases plus : first = 43#8
        · subst plus
          have digits : unsigned (43#8 :: rest) = rest := rfl
          rw [digits] at nonempty all high ⊢
          exact .plus rest nonempty all (by omega)
        · have digits : unsigned (first :: rest) = first :: rest := by
            rw [unsigned, if_neg (not_or.mpr ⟨plus, minus⟩)]
          rw [digits] at nonempty all high ⊢
          exact .plain (first :: rest) nonempty all (by omega)

theorem Spelled.read {text : List Byte} {value : Int} (spelled : Spelled text value) :
    plainInteger text = some value := by
  rw [plainInteger, Option.ite_none_right_eq_some]
  cases spelled with
  | plain digits nonempty all bound =>
      obtain ⟨first, rest, rfl⟩ := List.exists_cons_of_ne_nil nonempty
      have apart : first ≠ 43#8 ∧ first ≠ 45#8 := by
        constructor <;> rintro rfl <;> exact absurd (all _ List.mem_cons_self) (by decide)
      have digits : unsigned (first :: rest) = first :: rest :=
        if_neg (not_or.mpr apart)
      have value : signedNumber (first :: rest) = digitsNumber 0 (first :: rest) := by
        rw [signedNumber, digits, List.head?_cons, if_neg fun same => apart.2 (Option.some.inj same)]
      rw [digits, value]
      exact ⟨⟨nonempty, List.all_eq_true.mpr all, by omega, by omega⟩, rfl⟩
  | plus digits nonempty all bound =>
      have value : signedNumber (43#8 :: digits) = digitsNumber 0 digits := rfl
      rw [value]
      exact ⟨⟨nonempty, List.all_eq_true.mpr all, by omega, by omega⟩, rfl⟩
  | minus digits nonempty all bound =>
      have value : signedNumber (45#8 :: digits) = -(digitsNumber 0 digits) := rfl
      rw [value]
      exact ⟨⟨nonempty, List.all_eq_true.mpr all, by omega, by omega⟩, rfl⟩

theorem Spelled.bounds {text : List Byte} {value : Int} (spelled : Spelled text value) :
    -(maxInteger + 1) ≤ value ∧ value ≤ maxInteger := by
  cases spelled <;> omega

theorem Spelled.bytes {text : List Byte} {value : Int} (spelled : Spelled text value) :
    ∀ byte ∈ text, byte = 43#8 ∨ byte = 45#8 ∨ isDigit byte := by
  cases spelled with
  | plain digits _ all _ => exact fun byte member => Or.inr (Or.inr (all byte member))
  | plus digits _ all _ =>
      intro byte member
      rcases List.mem_cons.mp member with rfl | digit
      · exact Or.inl rfl
      · exact Or.inr (Or.inr (all byte digit))
  | minus digits _ all _ =>
      intro byte member
      rcases List.mem_cons.mp member with rfl | digit
      · exact Or.inr (Or.inl rfl)
      · exact Or.inr (Or.inr (all byte digit))

end Integers

end Sql
