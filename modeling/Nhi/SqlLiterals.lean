import Mathlib.Data.List.Induction
import Nhi.SqlClauses

/-!
What a value becomes that stands between quotes as it is. The first quote that
is not doubled ends the literal, so a value with a quote in it is never read
back as itself, whatever follows, as long as that is no further quote.
-/

namespace Sql

/-! The literal behind an opening quote. -/
section Content

def literal : List Byte → Option (List Byte)
  | [] => none
  | [byte] => if byte = 39#8 then some [] else none
  | byte :: next :: rest =>
      if byte = 39#8 then
        if next = 39#8 then (literal rest).map (39#8 :: ·) else some []
      else if byte = 0#8 then none
      else (literal (next :: rest)).map (byte :: ·)

theorem literal_byte {byte : Byte} (apart : byte ≠ 39#8) (rest : List Byte) :
    literal (byte :: rest) = if byte = 0#8 then none else (literal rest).map (byte :: ·) := by
  cases rest with
  | nil => simp [literal, apart]
  | cons next rest => rw [literal, if_neg apart]

theorem literal_begins {rest content : List Byte} (follow : rest.head? ≠ some 39#8)
    (read : literal rest = some content) : ∃ byte more, content = byte :: more ∧ byte ≠ 39#8 := by
  cases rest with
  | nil => cases read
  | cons byte rest =>
      have apart : byte ≠ 39#8 := fun same => follow (congrArg some same)
      rw [literal_byte apart] at read
      split at read
      · cases read
      · obtain ⟨more, _, rfl⟩ := Option.map_eq_some_iff.mp read
        exact ⟨byte, more, rfl, apart⟩

/-- Each quote of a value takes two of the text, so the reading would fall behind;
`behind` counts by how many. -/
theorem literal_behind {rest : List Byte} (follow : rest.head? ≠ some 39#8) (value : List Byte)
    (behind : Nat)
    (read : literal (value ++ 39#8 :: rest) = some (List.replicate behind 39#8 ++ value)) :
    behind = 0 ∧ 39#8 ∉ value ∧ 0#8 ∉ value := by
  have empty (behind : Nat) (read : literal (39#8 :: rest) = some (List.replicate behind 39#8 ++ [])) :
      behind = 0 ∧ 39#8 ∉ ([] : List Byte) ∧ 0#8 ∉ ([] : List Byte) := by
    have ended : literal (39#8 :: rest) = some [] := by
      cases rest with
      | nil => rfl
      | cons next rest =>
          have apart : next ≠ 39#8 := fun same => follow (congrArg some same)
          rw [literal, if_pos rfl, if_neg apart]
    rw [ended, Option.some.injEq, List.append_nil, eq_comm, List.replicate_eq_nil_iff] at read
    exact ⟨read, List.not_mem_nil, List.not_mem_nil⟩
  have other (byte : Byte) (value : List Byte) (apart : byte ≠ 39#8)
      (ih : ∀ behind, literal (value ++ 39#8 :: rest) = some (List.replicate behind 39#8 ++ value) →
        behind = 0 ∧ 39#8 ∉ value ∧ 0#8 ∉ value) (behind : Nat)
      (read : literal (byte :: (value ++ 39#8 :: rest)) = some (List.replicate behind 39#8 ++ byte :: value)) :
      behind = 0 ∧ 39#8 ∉ byte :: value ∧ 0#8 ∉ byte :: value := by
    rw [literal_byte apart] at read
    split at read
    · cases read
    · rename_i nonzero
      obtain ⟨more, later, same⟩ := Option.map_eq_some_iff.mp read
      cases behind with
      | zero =>
          obtain ⟨_, noQuote, noNul⟩ := ih 0 (later.trans (congrArg some (List.cons.inj same).2))
          exact ⟨rfl, List.not_mem_cons_of_ne_of_not_mem (Ne.symm apart) noQuote,
            List.not_mem_cons_of_ne_of_not_mem (Ne.symm nonzero) noNul⟩
      | succ behind => exact absurd (List.cons.inj same).1 apart
  induction value using List.twoStepInduction generalizing behind with
  | nil =>
      exact empty behind read
  | singleton byte =>
      by_cases quote : byte = 39#8
      · -- the value's quote and the closing one are read as one
        subst quote
        rw [List.singleton_append, literal, if_pos rfl, if_pos rfl] at read
        obtain ⟨more, later, same⟩ := Option.map_eq_some_iff.mp read
        obtain ⟨first, others, rfl, apart⟩ := literal_begins follow later
        have quotes : ∀ byte ∈ List.replicate behind 39#8 ++ [39#8], byte = 39#8 := by
          intro byte member
          rcases List.mem_append.mp member with front | last
          · exact List.eq_of_mem_replicate front
          · exact List.mem_singleton.mp last
        rw [← same] at quotes
        exact absurd (quotes first (.tail _ List.mem_cons_self)) apart
      · exact other byte [] quote empty behind read
  | cons_cons byte next value ih ih' =>
      by_cases quote : byte = 39#8
      · subst quote
        rw [List.cons_append, List.cons_append, literal, if_pos rfl] at read
        split at read
        · rename_i doubled
          subst doubled
          obtain ⟨more, later, same⟩ := Option.map_eq_some_iff.mp read
          have shifted : List.replicate behind 39#8 ++ 39#8 :: 39#8 :: value =
              39#8 :: (List.replicate (behind + 1) 39#8 ++ value) := by
            rw [List.append_cons, ← List.replicate_succ', List.append_cons, ← List.replicate_succ']
            rfl
          rw [shifted] at same
          have none := ih (behind + 1) (later.trans (congrArg some (List.cons.inj same).2))
          cases none.1
        · simp at read
      · exact other byte (next :: value) quote (ih' next) behind read

end Content

/-! The tokens a text has once a literal was opened in it. -/
section Tokens

theorem ite_tokens {condition : Prop} [Decidable condition] {tokens : List Token} {first second : LexState}
    (one : tokens <:+ first.tokens) (two : tokens <:+ second.tokens) :
    tokens <:+ (if condition then first else second).tokens := by
  split
  · exact one
  · exact two

theorem begin_tokens (tokens : List Token) (byte : Byte) : tokens <:+ (begin tokens byte).tokens := by
  rw [begin]
  repeat' refine ite_tokens ?_ ?_
  all_goals first | exact List.suffix_rfl | exact List.suffix_cons _ _

theorem finish_tokens {state : LexState} {tokens : List Token} (ended : state.finish = some tokens) :
    state.tokens <:+ tokens := by
  obtain ⟨before, mode⟩ := state
  cases mode with
  | start | comment | ended =>
      obtain rfl := Option.some.inj ended
      exact List.suffix_rfl
  | word letters | number value | textQuote bytes | nameQuote bytes =>
      obtain rfl := Option.some.inj ended
      exact List.suffix_cons _ _
  | operator first =>
      obtain ⟨symbol, _, rfl⟩ := Option.map_eq_some_iff.mp ended
      exact List.suffix_cons _ _
  | text bytes | name bytes | illegal => cases ended

theorem step_tokens (state : LexState) (byte : Byte) : state.tokens <:+ (step state byte).tokens := by
  have later (token : Token) : state.tokens <:+ (begin (token :: state.tokens) byte).tokens :=
    (List.suffix_cons _ _).trans (begin_tokens _ byte)
  rw [step]
  split
  · cases ended : state.finish with
    | none => exact List.suffix_rfl
    | some tokens => exact finish_tokens ended
  · obtain ⟨before, mode⟩ := state
    cases mode with
    | start => exact begin_tokens before byte
    | word letters | number value => exact ite_tokens List.suffix_rfl (ite_tokens List.suffix_rfl (later _))
    | text bytes | name bytes | comment => exact ite_tokens List.suffix_rfl List.suffix_rfl
    | textQuote bytes | nameQuote bytes => exact ite_tokens List.suffix_rfl (later _)
    | operator first =>
        refine ite_tokens List.suffix_rfl ?_
        cases double first byte with
        | some symbol => exact List.suffix_cons _ _
        | none =>
            refine ite_tokens List.suffix_rfl ?_
            cases single first with
            | some symbol => exact later _
            | none => exact List.suffix_rfl
    | ended | illegal => exact List.suffix_rfl

theorem run_tokens (state : LexState) (piece : List Byte) : state.tokens <:+ (run state piece).tokens := by
  induction piece generalizing state with
  | nil => exact List.suffix_rfl
  | cons byte rest ih => exact (step_tokens state byte).trans (ih (step state byte))

theorem run_finish {state : LexState} {piece : List Byte} {tokens : List Token}
    (ended : (run state piece).finish = some tokens) : state.tokens <:+ tokens :=
  (run_tokens state piece).trans (finish_tokens ended)

theorem run_closed {before tokens : List Token} {bytes piece : List Byte} (follow : piece.head? ≠ some 39#8)
    (ended : (run ⟨before, .textQuote bytes⟩ piece).finish = some tokens) :
    .text bytes :: before <:+ tokens := by
  cases piece with
  | nil =>
      obtain rfl := Option.some.inj ended
      exact List.suffix_rfl
  | cons byte rest =>
      have apart : byte ≠ 39#8 := fun same => follow (congrArg some same)
      rw [run_cons] at ended
      refine List.IsSuffix.trans ?_ (run_finish ended)
      by_cases nul : byte = 0#8
      · rw [step, if_pos nul]
        exact List.suffix_rfl
      · have next : step ⟨before, .textQuote bytes⟩ byte = begin (.text bytes :: before) byte := by
          rw [step, if_neg nul]
          exact if_neg apart
        rw [next]
        exact begin_tokens _ byte

theorem run_illegal (tokens : List Token) (piece : List Byte) :
    (run ⟨tokens, .illegal⟩ piece).finish = none := by
  induction piece with
  | nil => rfl
  | cons byte rest ih =>
      have next : step ⟨tokens, .illegal⟩ byte = ⟨tokens, .illegal⟩ := by
        rw [step]
        split <;> rfl
      rw [run_cons, next, ih]

theorem run_literal {before tokens : List Token} (piece begun : List Byte)
    (ended : (run ⟨before, .text begun⟩ piece).finish = some tokens) :
    ∃ content, literal piece = some content ∧ .text (begun ++ content) :: before <:+ tokens := by
  have other (byte : Byte) (rest begun : List Byte) (apart : byte ≠ 39#8)
      (ih : ∀ begun, (run ⟨before, .text begun⟩ rest).finish = some tokens →
        ∃ content, literal rest = some content ∧ .text (begun ++ content) :: before <:+ tokens)
      (ended : (run ⟨before, .text begun⟩ (byte :: rest)).finish = some tokens) :
      ∃ content, literal (byte :: rest) = some content ∧ .text (begun ++ content) :: before <:+ tokens := by
    rw [run_cons] at ended
    by_cases nul : byte = 0#8
    · have next : step ⟨before, .text begun⟩ byte = ⟨before, .illegal⟩ := by rw [step, if_pos nul]; rfl
      rw [next, run_illegal] at ended
      cases ended
    · have next : step ⟨before, .text begun⟩ byte = ⟨before, .text (begun ++ [byte])⟩ := by
        rw [step, if_neg nul]
        exact if_neg apart
      rw [next] at ended
      obtain ⟨content, read, found⟩ := ih _ ended
      refine ⟨byte :: content, ?_, ?_⟩
      · rw [literal_byte apart, if_neg nul, read, Option.map_some]
      · rwa [List.append_cons]
  have empty (begun : List Byte) (ended : (run ⟨before, .text begun⟩ []).finish = some tokens) :
      ∃ content, literal [] = some content ∧ .text (begun ++ content) :: before <:+ tokens := by
    cases ended
  -- two bytes at a time, since two quotes are one byte of the literal
  induction piece using List.twoStepInduction generalizing begun with
  | nil => exact empty begun ended
  | singleton byte =>
      by_cases quote : byte = 39#8
      · subst quote
        refine ⟨[], rfl, ?_⟩
        rw [List.append_nil]
        exact run_closed (show ([] : List Byte).head? ≠ some 39#8 by simp) ended
      · exact other byte [] begun quote empty ended
  | cons_cons byte next rest ih ih' =>
      by_cases quote : byte = 39#8
      · subst quote
        by_cases doubled : next = 39#8
        · subst doubled
          obtain ⟨content, read, found⟩ := ih (begun ++ [39#8]) ended
          refine ⟨39#8 :: content, ?_, ?_⟩
          · rw [literal, if_pos rfl, if_pos rfl, read, Option.map_some]
          · rwa [List.append_cons]
        · have follow : (next :: rest).head? ≠ some 39#8 := fun same => doubled (Option.some.inj same)
          refine ⟨[], ?_, ?_⟩
          · rw [literal, if_pos rfl, if_neg doubled]
          · rw [List.append_nil]
            exact run_closed follow ended
      · exact other byte (next :: rest) begun quote (ih' next) ended

end Tokens

/-! Texts that lead into a literal. -/
section Openings

/-- Behind this text a literal begins; these were the literals before it. -/
def Awaits (opening : List Byte) (values : List (List Byte)) : Prop :=
  ∃ before, run ⟨[], .start⟩ opening = ⟨before, .text []⟩ ∧ literals before.reverse = values

theorem Awaits.plain {opening : List Byte} {values : List (List Byte)} (awaits : Awaits opening values)
    {value rest : List Byte} (follow : rest.head? ≠ some 39#8) {statement : Statement}
    (read : parseText (opening ++ (value ++ 39#8 :: rest)) = some statement)
    (itself : statement.literals[values.length]? = some value) : 39#8 ∉ value ∧ 0#8 ∉ value := by
  obtain ⟨before, opened, same⟩ := awaits
  obtain ⟨tokens, lexed, parsed⟩ := Option.bind_eq_some_iff.mp read
  obtain ⟨reversed, ended, rfl⟩ := Option.map_eq_some_iff.mp lexed
  rw [run_append, opened] at ended
  obtain ⟨content, found, more, split⟩ := run_literal _ _ ended
  have all : statement.literals = values ++ content :: literals more.reverse := by
    rw [← parse_literals parsed, ← split, List.reverse_append, literals_append, List.reverse_cons,
      literals_append, same, List.append_assoc]
    rfl
  rw [all, List.getElem?_append_right (Nat.le_refl _), Nat.sub_self, List.getElem?_cons_zero,
    Option.some.injEq] at itself
  rw [itself] at found
  exact (literal_behind follow value 0 found).2

theorem phrase_literals (phrase : Phrase) : literals phrase.tokens = phrase.comparison.operand.literals := by
  have read := comparison_literals (phrase.parses [])
  have none : literals [] = [] := rfl
  rwa [List.append_nil, none, List.append_nil] at read

def leading (front : List Phrase) : List Byte := front.flatMap fun phrase => phrase.text ++ ascii " AND "

theorem leading_opens (front : List Phrase) :
    Opens (leading front) (front.flatMap fun phrase => phrase.tokens ++ [keyword "and"]) := by
  induction front with
  | nil => exact fun _ => rfl
  | cons phrase rest ih =>
      have joined := (phrase.reads.opens.append opens_and).append ih
      have space : ascii " AND " = [32#8] ++ ascii "AND " := rfl
      rw [leading, List.flatMap_cons, List.flatMap_cons, space, ← List.append_assoc phrase.text]
      exact joined

theorem leading_literals (front : List Phrase) :
    literals (front.flatMap fun phrase => phrase.tokens ++ [keyword "and"]) =
      conditionLiterals (front.map Phrase.comparison) := by
  induction front with
  | nil => rfl
  | cons phrase rest ih =>
      have joint : literals [keyword "and"] = [] := rfl
      rw [List.flatMap_cons, literals_append, literals_append, phrase_literals, joint, List.append_nil, ih]
      rfl

theorem awaits_value {head : List Byte} {before : List Token}
    (opens : run ⟨[], .start⟩ head = ⟨before, .start⟩) (none : literals before.reverse = [])
    (front : List Phrase) (comparator : Comparator) :
    Awaits (head ++ (leading front ++ (comparator.text ++ [39#8])))
      (conditionLiterals (front.map Phrase.comparison)) := by
  have opened (tokens : List Token) : run ⟨tokens, .start⟩ [39#8] = ⟨tokens, .text []⟩ := rfl
  have compared : literals [.word comparator.column, .symbol comparator.operator.symbol] = [] := rfl
  have read : run ⟨[], .start⟩ (head ++ (leading front ++ (comparator.text ++ [39#8]))) =
      ⟨[.word comparator.column, .symbol comparator.operator.symbol].reverse ++
        ((front.flatMap fun phrase => phrase.tokens ++ [keyword "and"]).reverse ++ before), .text []⟩ := by
    rw [run_append, opens, run_append, leading_opens, run_append, comparator.opens, opened]
  refine ⟨_, read, ?_⟩
  rw [List.reverse_append, List.reverse_append, literals_append, literals_append, List.reverse_reverse,
    List.reverse_reverse, none, leading_literals, compared, List.append_nil]
  rfl

end Openings

/-! Conditions as texts, of which some may not be phrases. -/
section Joined

def joined : List (List Byte) → List Byte
  | [] => []
  | [condition] => condition
  | condition :: rest => condition ++ ascii " AND " ++ joined rest

def trailing (back : List (List Byte)) : List Byte := back.flatMap fun condition => ascii " AND " ++ condition

theorem joined_cons (condition : List Byte) (back : List (List Byte)) :
    joined (condition :: back) = condition ++ trailing back := by
  induction back generalizing condition with
  | nil => simp [joined, trailing]
  | cons next rest ih =>
      have more : trailing (next :: rest) = ascii " AND " ++ next ++ trailing rest := rfl
      rw [joined, ih, more]
      · simp only [List.append_assoc]
      · simp

theorem joined_leading (front : List Phrase) (condition : List Byte) (back : List (List Byte)) :
    joined (front.map Phrase.text ++ condition :: back) = leading front ++ (condition ++ trailing back) := by
  induction front with
  | nil => exact joined_cons condition back
  | cons phrase rest ih =>
      have first : leading (phrase :: rest) = phrase.text ++ ascii " AND " ++ leading rest := rfl
      rw [List.map_cons, List.cons_append, joined, ih, first]
      · simp only [List.append_assoc]
      · simp

theorem joined_phrases (phrases : List Phrase) : joined (phrases.map Phrase.text) = conjoin phrases := by
  induction phrases with
  | nil => rfl
  | cons first rest ih =>
      cases rest with
      | nil => rfl
      | cons second rest => exact congrArg (first.text ++ ascii " AND " ++ ·) ih

theorem joined_concat {conditions : List (List Byte)} (nonempty : conditions ≠ []) (last : List Byte) :
    joined (conditions ++ [last]) = joined conditions ++ ascii " AND " ++ last := by
  obtain ⟨first, rest, rfl⟩ := List.exists_cons_of_ne_nil nonempty
  rw [List.cons_append, joined_cons, joined_cons, trailing, trailing, List.flatMap_append]
  simp

/-- A value among the conditions is read as itself only when it has no quote. -/
theorem value_plain {head : List Byte} {before : List Token}
    (opens : run ⟨[], .start⟩ head = ⟨before, .start⟩) (none : literals before.reverse = [])
    (front : List Phrase) (comparator : Comparator) (value : List Byte) (back : List (List Byte))
    {tail : List Byte} (follow : tail.head? ≠ some 39#8) {statement : Statement}
    (read : parseText (head ++ (joined (front.map Phrase.text ++
      (comparator.text ++ 39#8 :: (value ++ [39#8])) :: back) ++ tail)) = some statement)
    (itself : statement.literals[(conditionLiterals (front.map Phrase.comparison)).length]? = some value) :
    39#8 ∉ value ∧ 0#8 ∉ value := by
  have behind : (trailing back ++ tail).head? ≠ some 39#8 := by
    cases back with
    | nil => exact follow
    | cons next rest =>
        have space : (trailing (next :: rest) ++ tail).head? = some 32#8 := rfl
        rw [space]
        decide
  have text : head ++ (joined (front.map Phrase.text ++
      (comparator.text ++ 39#8 :: (value ++ [39#8])) :: back) ++ tail) =
      head ++ (leading front ++ (comparator.text ++ [39#8])) ++ (value ++ 39#8 :: (trailing back ++ tail)) := by
    rw [joined_leading]
    simp
  rw [text] at read
  exact (awaits_value opens none front comparator).plain behind read itself

end Joined

end Sql
