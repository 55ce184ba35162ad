import Mathlib.Data.List.Basic

/-!
Runs of a labelled transition function together with their history: the states
passed and the labels taken there, newest first. Facts about the past of a run
(who acted, in which state) are read off the history, so a system needs no
ghost state of its own. `Always` puts a condition on every step of a run.
-/

namespace RunHistory

variable {σ ℓ : Type}

inductive Run (step : σ → ℓ → Option σ) (start : σ) : List (σ × ℓ) → σ → Prop where
  | start : Run step start [] start
  | next {past : List (σ × ℓ)} {before after : σ} {label : ℓ} :
      Run step start past before → step before label = some after →
      Run step start ((before, label) :: past) after

def Always (condition : List (σ × ℓ) → σ → ℓ → Prop) : List (σ × ℓ) → Prop
  | [] => True
  | (before, label) :: past => condition past before label ∧ Always condition past

instance decidableAlways {condition : List (σ × ℓ) → σ → ℓ → Prop}
    [∀ past before label, Decidable (condition past before label)] :
    ∀ past, Decidable (Always condition past)
  | [] => inferInstanceAs (Decidable True)
  | (before, label) :: past =>
      have : Decidable (Always condition past) := decidableAlways past
      inferInstanceAs (Decidable (condition past before label ∧ Always condition past))

/-- The property holds of every state of the run and of its past there. -/
def Throughout (property : List (σ × ℓ) → σ → Prop) : List (σ × ℓ) → σ → Prop
  | [], last => property [] last
  | (before, label) :: past, last =>
      property ((before, label) :: past) last ∧ Throughout property past before

def visited (past : List (σ × ℓ)) (last : σ) : List σ := last :: past.map Prod.fst

theorem Always.and {condition other : List (σ × ℓ) → σ → ℓ → Prop} {past : List (σ × ℓ)}
    (first : Always condition past) (second : Always other past) :
    Always (fun past before label => condition past before label ∧ other past before label) past := by
  induction past with
  | nil => trivial
  | cons taken past ih => exact ⟨⟨first.1, second.1⟩, ih first.2 second.2⟩

theorem Always.mem {condition : σ → ℓ → Prop} {past : List (σ × ℓ)}
    (always : Always (fun _ before label => condition before label) past) :
    ∀ taken ∈ past, condition taken.1 taken.2 := by
  induction past with
  | nil => exact nofun
  | cons first past ih =>
      intro taken member
      rcases List.mem_cons.mp member with rfl | earlier
      · exact always.1
      · exact ih always.2 taken earlier

theorem Throughout.last {property : List (σ × ℓ) → σ → Prop} {past : List (σ × ℓ)} {last : σ}
    (all : Throughout property past last) : property past last := by
  cases past with
  | nil => exact all
  | cons taken past => exact all.1

variable {step : σ → ℓ → Option σ} {start : σ}

/-- The invariant rule. The step may use the condition that holds at it. -/
theorem Run.invariant {condition : List (σ × ℓ) → σ → ℓ → Prop}
    {inv : List (σ × ℓ) → σ → Prop} (initial : inv [] start)
    (preserved : ∀ past before label after, Run step start past before →
      inv past before → condition past before label → step before label = some after →
      inv ((before, label) :: past) after)
    {past : List (σ × ℓ)} {last : σ} (run : Run step start past last)
    (always : Always condition past) : inv past last := by
  induction run with
  | start => exact initial
  | next earlier taken ih =>
      exact preserved _ _ _ _ earlier (ih always.2) always.1 taken

theorem Run.always_imp {condition other : List (σ × ℓ) → σ → ℓ → Prop}
    (implies : ∀ past before label, Run step start past before → (step before label).isSome →
      condition past before label → other past before label)
    {past : List (σ × ℓ)} {last : σ} (run : Run step start past last)
    (always : Always condition past) : Always other past := by
  induction run with
  | start => trivial
  | next earlier taken ih =>
      exact ⟨implies _ _ _ earlier (by simp [taken]) always.1, ih always.2⟩

theorem Run.always_congr {condition other : List (σ × ℓ) → σ → ℓ → Prop} {past : List (σ × ℓ)}
    {last : σ} (run : Run step start past last)
    (same : ∀ past before label after, Run step start past before →
      step before label = some after → (condition past before label ↔ other past before label)) :
    Always condition past ↔ Always other past := by
  induction run with
  | start => exact Iff.rfl
  | next earlier taken ih => exact and_congr (same _ _ _ _ earlier taken) ih

/-- A property that each step keeps precisely when a condition holds at it. -/
theorem Run.throughout_iff {condition : List (σ × ℓ) → σ → ℓ → Prop}
    {property : List (σ × ℓ) → σ → Prop} (initial : property [] start)
    (kept_iff : ∀ past before label after, Run step start past before →
      property past before → step before label = some after →
      (property ((before, label) :: past) after ↔ condition past before label))
    {past : List (σ × ℓ)} {last : σ} (run : Run step start past last) :
    Throughout property past last ↔ Always condition past := by
  induction run with
  | start => exact iff_of_true initial trivial
  | next earlier taken ih =>
      rename_i past before after label
      rw [Throughout, Always, ih]
      apply and_congr_left
      intro always
      exact kept_iff _ _ _ _ earlier (ih.mpr always).last taken

/-- Executable runs: the history a list of labels leads through. -/
def replay (step : σ → ℓ → Option σ) : List (σ × ℓ) → σ → List ℓ → Option (List (σ × ℓ) × σ)
  | past, state, [] => some (past, state)
  | past, state, label :: rest =>
      (step state label).bind fun after => replay step ((state, label) :: past) after rest

theorem replay_run {labels : List ℓ} {past : List (σ × ℓ)} {state : σ}
    (run : Run step start past state) {history : List (σ × ℓ)} {last : σ}
    (replayed : replay step past state labels = some (history, last)) :
    Run step start history last := by
  induction labels generalizing past state with
  | nil =>
      obtain ⟨rfl, rfl⟩ : past = history ∧ state = last := by simpa [replay] using replayed
      exact run
  | cons label rest ih =>
      cases taken : step state label with
      | none => simp [replay, taken] at replayed
      | some after =>
          rw [replay, taken, Option.bind_some] at replayed
          exact ih (run.next taken) replayed

theorem replay_some (step : σ → ℓ → Option σ) (start : σ) (labels : List ℓ)
    (holds : List (σ × ℓ) → σ → Prop) [∀ past last, Decidable (holds past last)]
    (evaluated : (replay step [] start labels).any fun result => holds result.1 result.2) :
    ∃ past last, Run step start past last ∧ holds past last := by
  cases replayed : replay step [] start labels with
  | none => simp [replayed] at evaluated
  | some result =>
      exact ⟨result.1, result.2, replay_run .start replayed, by simpa [replayed] using evaluated⟩

end RunHistory
