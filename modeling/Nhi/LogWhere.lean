import Nhi.FetchWhere
import Nhi.FilterConjunction
import Nhi.SqlLiterals

/-!
pkg/log/log.go and pkg/logSession/logSession.go: the queries for the commands of
a session. Both clauses begin without a condition, so each filter looks whether
there is one already.
-/

namespace Nhi

open Sql (ascii Phrase Tail joined)

def also (clause condition : Text) : Text :=
  if clause = [] then condition else clause ++ ascii " AND " ++ condition

def getContentWhere (exitStatus directory : Text) : Text :=
  let clause := if exitStatus ≠ [] then exitStatusCondition exitStatus else []
  if directory ≠ [] then also clause (directoryCondition directory) else clause

/-- `getWhere` of `log`, which looks at `meta`. -/
def logWhere (localTime : LocalTime) (before after : Text) : Except Text Text := do
  let clause ←
    if before ≠ [] then do
      let civil ← dateTime (ascii "before") before
      pure (beforeCondition (localTime civil))
    else pure []
  if after ≠ [] then do
    let civil ← dateTime (ascii "after") after
    return also clause (afterCondition (localTime civil))
  else return clause

def logSessionWhere (localTime : LocalTime) (exitStatus directory before after : Text) :
    Except Text Text := do
  let clause := if exitStatus ≠ [] then exitStatusCondition exitStatus else []
  let clause := if directory ≠ [] then also clause (directoryCondition directory) else clause
  let clause ←
    if before ≠ [] then do
      let civil ← dateTime (ascii "before") before
      pure (also clause (beforeCondition (localTime civil)))
    else pure clause
  if after ≠ [] then do
    let civil ← dateTime (ascii "after") after
    return also clause (afterCondition (localTime civil))
  else return clause

def contentColumns : List Text :=
  [ascii "indicator", ascii "start_time", ascii "finish_time", ascii "exit_status", ascii "pwd", ascii "command"]

def contentQuery (indicator clause : Text) : Text :=
  if clause = [] then
    ascii "SELECT indicator, start_time, finish_time, exit_status, pwd, command FROM `" ++ indicator ++
      ascii "` ORDER BY rowid DESC;"
  else
    ascii "SELECT indicator, start_time, finish_time, exit_status, pwd, command FROM `" ++ indicator ++
      ascii "` WHERE " ++ clause ++ ascii " ORDER BY rowid DESC;"

def logSessionQuery (localTime : LocalTime) (indicator exitStatus directory before after : Text) :
    Except Text Text :=
  (logSessionWhere localTime exitStatus directory before after).map (contentQuery indicator)

/-! The clauses as lists of conditions. -/
section Clauses

theorem joined_nil_iff {conditions : List Text} (given : ∀ condition ∈ conditions, condition ≠ []) :
    joined conditions = [] ↔ conditions = [] := by
  cases conditions with
  | nil => exact iff_of_true rfl rfl
  | cons first rest =>
      refine iff_of_false (fun none => ?_) (List.cons_ne_nil _ _)
      rw [Sql.joined_cons] at none
      exact given first List.mem_cons_self (List.append_eq_nil_iff.mp none).1

theorem also_joined {conditions : List Text} (given : ∀ condition ∈ conditions, condition ≠ [])
    (last : Text) : also (joined conditions) last = joined (conditions ++ [last]) := by
  rw [also]
  split
  · rename_i none
    rw [(joined_nil_iff given).mp none]
    rfl
  · rename_i some
    exact (Sql.joined_concat (mt (joined_nil_iff given).mpr some) last).symm

theorem exitStatusCondition_nonempty (exitStatus : Text) : exitStatusCondition exitStatus ≠ [] := by
  rw [exitStatusCondition]
  split <;> exact List.cons_ne_nil _ _

theorem filterConditions_nonempty (localTime : LocalTime) (exitStatus directory : Text)
    (latest earliest : Option Civil) :
    ∀ condition ∈ filterConditions localTime exitStatus directory latest earliest, condition ≠ [] := by
  intro condition member
  simp only [filterConditions, List.mem_append] at member
  rcases member with ((exits | directories) | befores) | afters
  · split at exits
    · cases exits
    · rw [List.mem_singleton.mp exits]
      exact exitStatusCondition_nonempty exitStatus
  · split at directories
    · cases directories
    · rw [List.mem_singleton.mp directories]
      exact List.cons_ne_nil _ _
  · obtain ⟨civil, _, rfl⟩ := Option.map_eq_some_iff.mp (Option.mem_toList.mp befores)
    exact List.cons_ne_nil _ _
  · obtain ⟨civil, _, rfl⟩ := Option.map_eq_some_iff.mp (Option.mem_toList.mp afters)
    exact List.cons_ne_nil _ _

variable (localTime : LocalTime) (exitStatus directory : Text)

theorem getContentWhere_joined :
    getContentWhere exitStatus directory =
      joined (filterConditions localTime exitStatus directory none none) := by
  have exits : (if exitStatus ≠ [] then exitStatusCondition exitStatus else []) =
      joined (filterConditions localTime exitStatus [] none none) := by
    by_cases omitted : exitStatus = [] <;> simp [omitted, filterConditions, joined]
  simp only [getContentWhere, exits]
  by_cases omitted : directory = []
  · rw [if_neg (not_not.mpr omitted), omitted]
  · rw [if_pos omitted, also_joined (filterConditions_nonempty _ _ _ _ _)]
    simp [filterConditions, omitted]

theorem logSessionWhere_joined (before after : Text) :
    logSessionWhere localTime exitStatus directory before after = (do
      let latest ← momentOf (ascii "before") before
      let earliest ← momentOf (ascii "after") after
      return joined (filterConditions localTime exitStatus directory latest earliest)) := by
  rw [← dates_joined localTime also fun latest earliest =>
    joined (filterConditions localTime exitStatus directory latest earliest)]
  · rw [← getContentWhere_joined localTime]
    rfl
  · intro civil
    rw [also_joined (filterConditions_nonempty _ _ _ _ _)]
    simp [filterConditions]
  · intro latest civil
    rw [also_joined (filterConditions_nonempty _ _ _ _ _)]
    simp [filterConditions]

end Clauses

/-! The queries as selections. -/
section Selections

variable (localTime : LocalTime) {exitStatus directory : Text} (plainExit : Plain exitStatus)
  (plainDirectory : Plain directory) (latest earliest : Option Civil)

def contentHead : Text :=
  ascii "SELECT indicator, start_time, finish_time, exit_status, pwd, command FROM `"

theorem run_contentHead :
    Sql.run ⟨[], .start⟩ contentHead =
      ⟨(Sql.keyword "select" :: (Sql.columnTokens contentColumns ++ [Sql.keyword "from"])).reverse, .name []⟩ := by
  have first : Sql.run ⟨[], .start⟩ (ascii "SELECT indicator, start_time, ") =
      ⟨[.symbol .comma, .word (ascii "start_time"), .symbol .comma, .word (ascii "indicator"),
        Sql.keyword "select"], .start⟩ := rfl
  have second (before : List Sql.Token) : Sql.run ⟨before, .start⟩ (ascii "finish_time, exit_status, ") =
      ⟨[.symbol .comma, .word (ascii "exit_status"), .symbol .comma, .word (ascii "finish_time")] ++ before,
        .start⟩ := rfl
  have third (before : List Sql.Token) : Sql.run ⟨before, .start⟩ (ascii "pwd, command FROM `") =
      ⟨[Sql.keyword "from", .word (ascii "command"), .symbol .comma, .word (ascii "pwd")] ++ before,
        .name []⟩ := rfl
  have text : contentHead = ascii "SELECT indicator, start_time, " ++
      (ascii "finish_time, exit_status, " ++ ascii "pwd, command FROM `") := rfl
  rw [text, Sql.run_append, first, Sql.run_append, second, third]
  rfl

theorem contentQuery_select (indicator : Long) :
    Sql.parseText (contentQuery (decimal indicator)
        (joined (filterConditions localTime exitStatus directory latest earliest))) =
      some (.select ⟨contentColumns, decimal indicator, (clausePhrases localTime [] plainExit plainDirectory
        latest earliest).map Phrase.comparison, true, none⟩) := by
  have texts := clausePhrases_texts localTime plainExit plainDirectory latest earliest []
  have none : (if exitStatus = [] then ([] : List Phrase).map Phrase.text else []) = [] := by split <;> rfl
  rw [none, List.nil_append] at texts
  generalize clausePhrases localTime [] plainExit plainDirectory latest earliest = phrases at texts
  have empty := joined_nil_iff (filterConditions_nonempty localTime exitStatus directory latest earliest)
  rw [← texts, List.map_eq_nil_iff, Sql.joined_phrases] at empty
  have text : contentQuery (decimal indicator) (Sql.conjoin phrases) =
      contentHead ++ decimal indicator ++ ascii "`" ++ Sql.whereText phrases ++ Tail.newestFirst.text := by
    rw [contentQuery, Sql.whereText]
    by_cases given : phrases = []
    · rw [if_pos (empty.mpr given), if_pos given, List.append_nil, List.append_assoc, List.append_assoc,
        List.append_assoc]
      rfl
    · have space : ascii "` WHERE " = ascii "`" ++ ascii " WHERE " := rfl
      rw [if_neg (mt empty.mp given), if_neg given, space]
      simp only [List.append_assoc]
      rfl
  rw [← texts, Sql.joined_phrases, text]
  exact Sql.parseText_select (by simp [contentColumns]) run_contentHead (decimal_noQuote indicator)
    (decimal_noNul indicator) phrases Tail.newestFirst

end Selections

end Nhi
