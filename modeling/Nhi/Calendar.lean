import Mathlib.Algebra.BigOperators.Group.List.Basic
import Mathlib.Tactic.IntervalCases

/-!
The Gregorian calendar, extended to all years. The days between two dates are
counted year by year and month by month; the day number by cycles of 400, 100
and 4 years is the same count. Nothing here depends on what the dates are for.
-/

namespace Calendar

def Leap (year : Int) : Prop := year % 4 = 0 ∧ (year % 100 ≠ 0 ∨ year % 400 = 0)

instance (year : Int) : Decidable (Leap year) := inferInstanceAs (Decidable (_ ∧ _))

def yearDays (year : Int) : Int := if Leap year then 366 else 365

def monthDays (year month : Int) : Int :=
  if month = 2 then if Leap year then 29 else 28
  else if month = 4 ∨ month = 6 ∨ month = 9 ∨ month = 11 then 30
  else 31

def daysToYear (year : Int) : Int :=
  ((List.range (year - 1970).toNat).map fun k : Nat => yearDays (1970 + k)).sum -
    ((List.range (1970 - year).toNat).map fun k : Nat => yearDays (1969 - k)).sum

def daysToMonth (year month : Int) : Int :=
  ((List.range (month - 1).toNat).map fun k : Nat => monthDays year (k + 1)).sum

def daysSinceEpoch (year : Int) : Int :=
  let years := year - 1
  let inFourHundred := years % 400
  let inHundred := inFourHundred % 100
  146097 * (years / 400) + 36524 * (inFourHundred / 100) + 1461 * (inHundred / 4) + 365 * (inHundred % 4) - 719162

/-- A table for a common year, and one day more behind February of a leap year. -/
def daysBefore (year month : Int) : Int :=
  ([0, 31, 59, 90, 120, 151, 181, 212, 243, 273, 304, 334].getD (month - 1).toNat 0) +
    if Leap year ∧ 2 < month then 1 else 0

theorem daysSinceEpoch_succ (year : Int) : daysSinceEpoch (year + 1) = daysSinceEpoch year + yearDays year := by
  simp only [daysSinceEpoch, yearDays, Leap]
  split_ifs with leap
  · omega
  · omega

theorem daysSinceEpoch_since (k : Nat) :
    daysSinceEpoch (1970 + k) = ((List.range k).map fun k : Nat => yearDays (1970 + k)).sum := by
  induction k with
  | zero => rfl
  | succ k ih =>
      rw [show (1970 : Int) + (k + 1 : Nat) = 1970 + k + 1 by omega, daysSinceEpoch_succ, ih, List.range_succ,
        List.map_append, List.sum_append, List.map_singleton, List.sum_singleton]

theorem daysSinceEpoch_until (k : Nat) :
    daysSinceEpoch (1970 - k) = -((List.range k).map fun k : Nat => yearDays (1969 - k)).sum := by
  induction k with
  | zero => rfl
  | succ k ih =>
      have step := daysSinceEpoch_succ (1969 - k)
      rw [show (1969 - (k : Int)) + 1 = 1970 - k by omega, ih] at step
      rw [show (1970 : Int) - (k + 1 : Nat) = 1969 - k by omega, List.range_succ, List.map_append,
        List.sum_append, List.map_singleton, List.sum_singleton]
      omega

theorem daysSinceEpoch_counted (year : Int) : daysSinceEpoch year = daysToYear year := by
  -- one of the two sums of `daysToYear` is empty
  rcases Int.le_total 1970 year with since | until'
  · obtain ⟨k, rfl⟩ : ∃ k : Nat, year = 1970 + k := ⟨(year - 1970).toNat, by omega⟩
    have none : (1970 - (1970 + (k : Int))).toNat = 0 := by omega
    have all : (1970 + (k : Int) - 1970).toNat = k := by omega
    rw [daysSinceEpoch_since, daysToYear, none, all]
    simp
  · obtain ⟨k, rfl⟩ : ∃ k : Nat, year = 1970 - k := ⟨(1970 - year).toNat, by omega⟩
    have none : ((1970 - (k : Int)) - 1970).toNat = 0 := by omega
    have all : (1970 - (1970 - (k : Int))).toNat = k := by omega
    rw [daysSinceEpoch_until, daysToYear, none, all]
    simp

theorem daysBefore_counted (year : Int) {month : Int} (low : 1 ≤ month) (high : month ≤ 12) :
    daysBefore year month = daysToMonth year month := by
  obtain ⟨k, rfl⟩ : ∃ k : Nat, month = k + 1 := ⟨(month - 1).toNat, by omega⟩
  have few : k < 12 := by omega
  by_cases leap : Leap year <;> interval_cases k <;>
    simp [daysBefore, daysToMonth, monthDays, leap, List.range_succ]

end Calendar
