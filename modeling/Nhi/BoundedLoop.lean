import Mathlib.Logic.Basic

/-!
A C `for` loop with a fixed number of passes. A pass falls through to the next
one, leaves the loop with `break`, or leaves the whole function with `return`
(a `goto` out of the loop is the same thing). A loop that runs out of passes
ends like one that was left with `break`, so code after the loop cannot tell
the two apart. Nothing here depends on what the loop is used for.
-/

namespace BoundedLoop

inductive PassEnd (σ ρ : Type) where
  | next (state : σ)
  | leave (state : σ)
  | ret (value : ρ)

inductive Outcome (σ ρ : Type) where
  | done (state : σ)
  | ret (value : ρ)

variable {σ ρ : Type}

def forLoop (body : σ → PassEnd σ ρ) : Nat → σ → Outcome σ ρ
  | 0, state => .done state
  | passes + 1, state =>
      match body state with
      | .next after => forLoop body passes after
      | .leave after => .done after
      | .ret value => .ret value

/-- The loop rule. `inv k` holds before the pass that follows `k` passes; each
way out of the loop, and running out of passes, must give the postcondition. -/
theorem forLoop_rule (body : σ → PassEnd σ ρ) (inv : Nat → σ → Prop)
    (post : Outcome σ ρ → Prop) (passes : Nat)
    (step : ∀ k < passes, ∀ state, inv k state →
      match body state with
      | .next after => inv (k + 1) after
      | .leave after => post (.done after)
      | .ret value => post (.ret value))
    (bound : ∀ state, inv passes state → post (.done state))
    (state : σ) (start : inv 0 state) :
    post (forLoop body passes state) := by
  suffices general : ∀ rest k state, k + rest = passes → inv k state →
      post (forLoop body rest state) from
    general passes 0 state (Nat.zero_add passes) start
  -- on the passes that are left, with the passes already made as `k`
  intro rest
  induction rest with
  | zero =>
      intro k state total holds
      have last : k = passes := by omega
      subst last
      exact bound state holds
  | succ rest ih =>
      intro k state total holds
      have pass := step k (by omega) state holds
      rw [forLoop]
      cases taken : body state with
      | next after =>
          rw [taken] at pass
          exact ih (k + 1) after (by omega) pass
      | leave after =>
          rw [taken] at pass
          exact pass
      | ret value =>
          rw [taken] at pass
          exact pass

end BoundedLoop
