import Nhi.RunHistory

/-!
Runs of one transition function that follow those of another. `action` tells
which step of the upper system a step of the lower one stands for, where it
stands for one; it may look at the past. What a step stands for may depend on a
condition that holds at every step of the run.
-/

namespace Simulation

open RunHistory

variable {σ ℓ τ μ : Type}

def actions (action : List (σ × ℓ) → σ → ℓ → Option μ) : List (σ × ℓ) → List μ
  | [] => []
  | (before, label) :: past => (action past before label).toList ++ actions action past

/-- A step is matched by its action, or by standing still. -/
def Matches (upper : τ → μ → Option τ) (related : List (σ × ℓ) → σ → τ → Prop)
    (taken : List (σ × ℓ)) (after : σ) (above : τ) : Option μ → Prop
  | none => related taken after above
  | some action => ∃ next, upper above action = some next ∧ related taken after next

variable {lower : σ → ℓ → Option σ} {upper : τ → μ → Option τ} {start : σ} {top : τ}
  {condition : List (σ × ℓ) → σ → ℓ → Prop} {related : List (σ × ℓ) → σ → τ → Prop}
  {action : List (σ × ℓ) → σ → ℓ → Option μ}

/-- The simulation rule: a run of the lower system has one of the upper system
above it, with exactly the actions of its steps. -/
theorem run_simulates (initial : related [] start top)
    (matched : ∀ past before label after above, Run lower start past before → related past before above →
      condition past before label → lower before label = some after →
      Matches upper related ((before, label) :: past) after above (action past before label))
    {past : List (σ × ℓ)} {last : σ} (run : Run lower start past last) (always : Always condition past) :
    ∃ abovePast above, Run upper top abovePast above ∧ abovePast.map Prod.snd = actions action past ∧
      related past last above := by
  induction run with
  | start => exact ⟨[], top, .start, rfl, initial⟩
  | next earlier taken ih =>
      rename_i past before after label
      obtain ⟨abovePast, above, upperRun, same, here⟩ := ih always.2
      have step := matched past before label after above earlier here always.1 taken
      rw [actions]
      cases shown : action past before label with
      | none =>
          rw [shown] at step
          exact ⟨abovePast, above, upperRun, by simpa using same, step⟩
      | some performed =>
          rw [shown] at step
          obtain ⟨next, moved, kept⟩ := step
          exact ⟨(above, performed) :: abovePast, next, upperRun.next moved, by simp [same], kept⟩

end Simulation
