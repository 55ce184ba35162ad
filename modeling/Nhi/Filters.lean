import Nhi.GoText
import Nhi.SqlClauses

/-!
The filters of `fetch`, `log` and `log-session`. All three spell the same code
for the exit status, for the directory and for the two dates; they differ in how
they put the conditions together.
-/

namespace Nhi

open Sql (ascii Comparator Phrase Numeral quoted)

structure Civil where
  year : Int
  month : Int
  day : Int
  hour : Int
  minute : Int
  second : Int

/-- `time.Date(..., time.Now().Location()).Unix()`. -/
abbrev LocalTime := Civil → Long

def exitStatusCondition (exitStatus : Text) : Text :=
  if 3 ≤ exitStatus.length ∧ exitStatus.take 3 = ascii "not" then
    ascii "exit_status != '" ++ exitStatus.drop 3 ++ ascii "'"
  else ascii "exit_status = '" ++ exitStatus ++ ascii "'"

def trimmedDirectory (directory : Text) : Text :=
  if directory ≠ ascii "/" ∧ directory ≠ ascii "//" then trimSuffix 47#8 directory else directory

def directoryCondition (directory : Text) : Text :=
  ascii "pwd = '" ++ trimmedDirectory directory ++ ascii "'"

def specify (label part : Text) : Text :=
  ascii "Please specify " ++ label ++ ascii " " ++ part ++ ascii " correctly"

def datePart (label part text : Text) : Except Text Int :=
  match atoi text with
  | some value => .ok value
  | none => .error (specify label part)

/-- The argument of `--before` or `--after`. -/
def dateTime (label argument : Text) : Except Text Civil :=
  match splitN 32#8 2 argument with
  | [date, time] =>
      match splitN 45#8 3 date with
      | [year, month, day] => do
          let year ← datePart label (ascii "year") year
          let month ← datePart label (ascii "month") month
          let day ← datePart label (ascii "day") day
          match splitN 58#8 3 time with
          | [hour, minute, second] => do
              let hour ← datePart label (ascii "hour") hour
              let minute ← datePart label (ascii "minute") minute
              let second ← datePart label (ascii "second") second
              return ⟨year, month, day, hour, minute, second⟩
          | _ => .error (specify label (ascii "time"))
      | _ => .error (specify label (ascii "date"))
  | _ => .error (specify label (ascii "date and time"))

def beforeCondition (seconds : Long) : Text := ascii "start_time < '" ++ decimal seconds ++ ascii "'"

def afterCondition (seconds : Long) : Text := ascii "start_time > '" ++ decimal seconds ++ ascii "'"

section Phrases

/-- A value that ends neither the literal it stands in nor the text of the query.
An argument of a process has no NUL. -/
def Plain (value : Text) : Prop := 39#8 ∉ value ∧ 0#8 ∉ value

instance (value : Text) : Decidable (Plain value) := inferInstanceAs (Decidable (_ ∧ _))

def exitIs : Comparator :=
  ⟨ascii "exit_status = ", ascii "exit_status", .equal, fun _ => rfl⟩
def exitIsNot : Comparator :=
  ⟨ascii "exit_status != ", ascii "exit_status", .notEqual, fun _ => rfl⟩
def pwdIs : Comparator := ⟨ascii "pwd = ", ascii "pwd", .equal, fun _ => rfl⟩
def startBefore : Comparator := ⟨ascii "start_time < ", ascii "start_time", .less, fun _ => rfl⟩
def startAfter : Comparator :=
  ⟨ascii "start_time > ", ascii "start_time", .greater, fun _ => rfl⟩

theorem Plain.drop {value : Text} (plain : Plain value) (count : Nat) : Plain (value.drop count) :=
  ⟨fun member => plain.1 (List.mem_of_mem_drop member), fun member => plain.2 (List.mem_of_mem_drop member)⟩

theorem Plain.trimmed {directory : Text} (plain : Plain directory) : Plain (trimmedDirectory directory) := by
  have inside : ∀ byte ∈ trimmedDirectory directory, byte ∈ directory := by
    intro byte member
    rw [trimmedDirectory] at member
    split at member
    · rw [trimSuffix] at member
      split at member
      · exact List.dropLast_subset _ member
      · exact member
    · exact member
  exact ⟨fun member => plain.1 (inside _ member), fun member => plain.2 (inside _ member)⟩

theorem decimal_plain (value : Long) : Plain (decimal value) :=
  ⟨spelled_apart (decimal_spelled value) (by decide), decimal_noNul value⟩

def exitPhrase (exitStatus : Text) (plain : Plain exitStatus) : Phrase :=
  if 3 ≤ exitStatus.length ∧ exitStatus.take 3 = ascii "not" then
    exitIsNot.phrase (quoted (exitStatus.drop 3) (plain.drop 3).1 (plain.drop 3).2)
  else exitIs.phrase (quoted exitStatus plain.1 plain.2)

def directoryPhrase (directory : Text) (plain : Plain directory) : Phrase :=
  pwdIs.phrase (quoted (trimmedDirectory directory) plain.trimmed.1 plain.trimmed.2)

def beforePhrase (seconds : Long) : Phrase :=
  startBefore.phrase (quoted (decimal seconds) (decimal_plain seconds).1 (decimal_plain seconds).2)

def afterPhrase (seconds : Long) : Phrase :=
  startAfter.phrase (quoted (decimal seconds) (decimal_plain seconds).1 (decimal_plain seconds).2)

theorem exitPhrase_text (exitStatus : Text) (plain : Plain exitStatus) :
    (exitPhrase exitStatus plain).text = exitStatusCondition exitStatus := by
  rw [exitPhrase, exitStatusCondition]
  split <;> rfl

theorem directoryPhrase_text (directory : Text) (plain : Plain directory) :
    (directoryPhrase directory plain).text = directoryCondition directory := rfl

theorem beforePhrase_text (seconds : Long) : (beforePhrase seconds).text = beforeCondition seconds := rfl

theorem afterPhrase_text (seconds : Long) : (afterPhrase seconds).text = afterCondition seconds := rfl

end Phrases

end Nhi
