import Nhi.DaemonRuns
import Nhi.GhostShells

/-!
The daemon does not get stuck and does not go in circles. A record in the ring
buffer owes it at most four steps, and whatever it learns from outside in these,
it comes to the end of what was sent, unless an unset variable ends it.
-/

namespace Nhi

open RunHistory

structure Inputs where
  outside : Outside
  opening : Opening
  closing : Closing

/-- The daemon's next step; none when it waits for a record or has ended. -/
def World.nextStep (inputs : Inputs) (world : World) : Option Label :=
  match world.daemon, world.ring with
  | .idle, [] => none
  | .idle, _ :: _ => some (.take inputs.outside)
  | .taken _, _ => some (.create inputs.opening)
  | .created _ _, _ => some .scan
  | .scanned _ _ _, _ => some (.register inputs.closing)
  | .crashed, _ => none

def Phase.work : Phase → Nat
  | .idle | .crashed => 0
  | .taken _ => 3
  | .created _ _ => 2
  | .scanned _ _ _ => 1

def World.work (world : World) : Nat := 4 * world.events.length + world.daemon.work

def drain (inputs : Nat → Inputs) : Nat → List (World × Label) → World → List (World × Label) × World
  | 0, past, world => (past, world)
  | passes + 1, past, world =>
      match world.nextStep (inputs passes) with
      | none => (past, world)
      | some label =>
          match step world label with
          | none => (past, world)
          | some after => drain inputs passes ((world, label) :: past) after

def Label.isDaemon (label : Label) : Bool := label.actor.isNone

def daemonSteps (past : List (World × Label)) : Nat := past.countP fun taken => taken.2.isDaemon

variable {past : List (World × Label)} {before after world : World} {label : Label}

theorem nextStep_enabled (inputs : Inputs) (next : world.nextStep inputs = some label) :
    (step world label).isSome ∧ label.isDaemon := by
  unfold World.nextStep at next
  split at next
  · cases next
  · obtain rfl := Option.some.inj next
    rename_i idle ring
    simp [step, idle, ring, Label.isDaemon, Label.actor]
  · obtain rfl := Option.some.inj next
    rename_i taken
    simp [step, taken, Label.isDaemon, Label.actor]
  · obtain rfl := Option.some.inj next
    rename_i created
    simp [step, created, Label.isDaemon, Label.actor]
  · obtain rfl := Option.some.inj next
    rename_i scanned
    simp [step, scanned, Label.isDaemon, Label.actor]
  · cases next

theorem nextStep_none (inputs : Inputs) (none : world.nextStep inputs = none) :
    world.daemon = .crashed ∨ world.Quiet := by
  unfold World.nextStep at none
  split at none
  · rename_i idle ring
    exact Or.inr ⟨idle, ring⟩
  · cases none
  · cases none
  · cases none
  · cases none
  · rename_i crashed
    exact Or.inl crashed

/-- A step of the daemon is work done, and a record is work for four steps. -/
theorem work_step (taken : step before label = some after) :
    after.work + (if label.isDaemon then 1 else 0) ≤ before.work + 4 * (label.sends before).length := by
  by_cases kernel : label.actor.isSome
  · obtain ⟨daemon, _, events⟩ := kernel_step taken kernel
    have other : label.isDaemon = false := by simpa [Label.isDaemon] using kernel
    rw [World.work, World.work, daemon, events, List.length_append, other, if_neg Bool.false_ne_true]
    omega
  cases label with
  | kill | fork | exit | write => exact absurd rfl kernel
  | take outside =>
      obtain ⟨idle, record, rest, ring, rfl⟩ := step_take taken
      have waiting : before.events.length = rest.length + 1 := by simp [World.events, ring]
      have left : (takeRecord outside record rest before).events.length = rest.length ∧
          (takeRecord outside record rest before).daemon.work ≤ 3 := by
        cases announced : record.event.announced with
        | some pid =>
            obtain ⟨_, _, same⟩ := takeRecord_announced outside before rest announced
            rw [same]
            exact ⟨List.length_map _, Nat.le_refl 3⟩
        | none =>
            obtain ⟨_, left, phase, _⟩ := takeRecord_handled outside before rest idle announced
            refine ⟨by rw [World.events, left, List.length_map], ?_⟩
            rcases phase with done | dead
            · rw [done]
              exact Nat.zero_le 3
            · rw [dead]
              exact Nat.zero_le 3
      have daemon : Label.isDaemon (.take outside) = true := rfl
      have silent : Label.sends before (.take outside) = [] := rfl
      rw [World.work, World.work, idle, waiting, left.1, daemon, if_pos rfl, silent, Phase.work]
      omega
  | create opening =>
      obtain ⟨killEvent, phase, rfl⟩ := step_create taken
      simp [World.work, World.events, phase, Phase.work, Label.isDaemon, Label.actor, Label.sends]
  | scan =>
      obtain ⟨killEvent, indicator, phase, rfl⟩ := step_scan taken
      simp [World.work, World.events, phase, Phase.work, Label.isDaemon, Label.actor, Label.sends]
  | register closing =>
      obtain ⟨killEvent, indicator, slot, phase, rfl⟩ := step_register taken
      rcases finish_cases closing killEvent indicator slot before with ⟨same, _⟩ | ⟨same, _⟩ | ⟨_, _, _, _, same⟩
      all_goals
        rw [same]
        simp [World.work, World.events, phase, Phase.work, Label.isDaemon, Label.actor, Label.sends]

theorem daemonSteps_bounded (run : Run step World.start past world) :
    daemonSteps past + world.work ≤ 4 * (sent past).length := by
  induction run with
  | start => exact Nat.le_refl 0
  | next earlier taken ih =>
      have done := work_step taken
      simp only [daemonSteps, List.countP_cons, sent, List.length_append] at ih ⊢
      omega

theorem drain_run (inputs : Nat → Inputs) (passes : Nat) (run : Run step World.start past world) :
    Run step World.start (drain inputs passes past world).1 (drain inputs passes past world).2 ∧
      sent (drain inputs passes past world).1 = sent past ∧
      (world.work ≤ passes →
        (drain inputs passes past world).2.daemon = .crashed ∨ (drain inputs passes past world).2.Quiet) := by
  induction passes generalizing past world with
  | zero =>
      refine ⟨run, rfl, fun little => ?_⟩
      have idle : world.events = [] ∧ world.daemon.work = 0 := by
        rw [World.work] at little
        constructor
        · apply List.length_eq_zero_iff.mp
          omega
        · omega
      rw [drain]
      cases phase : world.daemon with
      | idle => exact Or.inr ⟨phase, List.map_eq_nil_iff.mp idle.1⟩
      | crashed => exact Or.inl rfl
      | taken | created | scanned => simp [phase, Phase.work] at idle
  | succ passes ih =>
      rw [drain]
      cases next : world.nextStep (inputs passes) with
      | none => exact ⟨run, rfl, fun _ => nextStep_none (inputs passes) next⟩
      | some label =>
          obtain ⟨enabled, daemon⟩ := nextStep_enabled (inputs passes) next
          obtain ⟨after, taken⟩ := Option.isSome_iff_exists.mp enabled
          simp only [taken]
          have silent : label.sends world = [] := by
            cases label with
            | kill | fork | exit | write => cases daemon
            | take | create | scan | register => rfl
          obtain ⟨further, same, ends⟩ := ih (run.next taken)
          refine ⟨further, ?_, fun enough => ends ?_⟩
          · rw [same, sent, silent, List.append_nil]
          · have done := work_step taken
            rw [silent, daemon] at done
            simp only [if_true, List.length_nil] at done
            omega

/-- In every run the daemon has done at most four steps for a record, and after the
steps that are owed, whatever it learns in them, it has ended or every record
that was sent is handled. -/
theorem daemon_drains (run : Run step World.start past world) (inputs : Nat → Inputs) :
    daemonSteps past + world.work ≤ 4 * (sent past).length ∧
      ∃ later last, drain inputs world.work past world = (later, last) ∧ Run step World.start later last ∧
        (last.daemon = .crashed ∨ last.Quiet ∧
          (sent past).filterMap Event.handler = (handlings later).reverse.map Handling.call) := by
  obtain ⟨further, same, ends⟩ := drain_run inputs world.work run
  refine ⟨daemonSteps_bounded run, _, _, rfl, further, (ends (Nat.le_refl _)).imp_right fun quiet => ⟨quiet, ?_⟩⟩
  have ordered := inOrder_run further (by simp [quiet.1])
  rw [InOrderSent, same, World.inHand, quiet.1, World.events, quiet.2] at ordered
  simpa using ordered

theorem daemon_drains_waiting :
    ∃ past world, Run step World.start past world ∧ world.work = 10 ∧
      ∃ later last, drain (fun _ => ⟨sampleOutside, sampleOpening, sampleClosing⟩) world.work past world = (later, last) ∧
        last.Quiet ∧ (sent past).filterMap Event.handler = (handlings later).reverse.map Handling.call := by
  obtain ⟨past, world, run, ten, alive⟩ := replay_some step World.start
    [.kill 1#32 SIGUSR1 nhidHash true, .take sampleOutside, .kill 2#32 SIGUSR1 nhidHash true, .create sampleOpening,
      .exit 1#32 true, .kill 2#32 SIGUSR2 nhidHash true]
    (fun past world => world.work = 10 ∧
      (drain (fun _ => ⟨sampleOutside, sampleOpening, sampleClosing⟩) world.work past world).2.Quiet) (by decide +kernel)
  obtain ⟨_, later, last, ends, _, handled⟩ := daemon_drains run fun _ => ⟨sampleOutside, sampleOpening, sampleClosing⟩
  rw [ends] at alive
  rcases handled with crashed | done
  · exact absurd (alive.1.symm.trans crashed) nofun
  · exact ⟨past, world, run, ten, later, last, ends, done⟩

end Nhi
