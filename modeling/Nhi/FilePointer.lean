import Nhi.KsysWrite
import Nhi.RunHistory

/-!
The file a write is checked by. `__fdget_pos` leaves its result in the array of
the CPU it returns on, and `ksys_write` takes from the array of its own CPU what
was left there last. In between other tasks run, and a task can be moved to
another CPU. Tasks and CPUs are any types.
-/

namespace Nhi

open RunHistory

variable {Task Cpu : Type} [DecidableEq Task] [DecidableEq Cpu]

structure Probes (Task Cpu : Type) where
  fdgetPosPos : Cpu → Long
  inWrite : Task → Bool

inductive Probe (Task Cpu : Type) where
  | fdgetPos (task : Task) (cpu : Cpu) (fdPos : Long)
  | ksysWrite (task : Task) (cpu : Cpu)

def Probes.start : Probes Task Cpu := ⟨fun _ => 0#64, fun _ => false⟩

def probeStep (probes : Probes Task Cpu) : Probe Task Cpu → Option (Probes Task Cpu)
  | .fdgetPos task cpu fdPos =>
      some ⟨fun other => if other = cpu then fdPos else probes.fdgetPosPos other,
        fun other => if other = task then true else probes.inWrite other⟩
  | .ksysWrite task _ =>
      if probes.inWrite task then
        some { probes with
          inWrite := fun other => if other = task then false else probes.inWrite other }
      else none

/-- The call with what `ksys_write` reads through the pointer it is given. The
two low bits of the pointer are flags. -/
def throughPointer (files : Long → Dentry) (fdPos : Long) (call : WriteCall) : WriteCall :=
  { call with dentry := files (fdPos &&& ~~~3#64) }

def latest (task : Task) : List (Probes Task Cpu × Probe Task Cpu) → Option Long
  | [] => none
  | (_, .fdgetPos other _ fdPos) :: past => if other = task then some fdPos else latest task past
  | (_, .ksysWrite _ _) :: past => latest task past

def newestOn (cpu : Cpu) : List (Probes Task Cpu × Probe Task Cpu) → Option Long
  | [] => none
  | (_, .fdgetPos _ there fdPos) :: past => if there = cpu then some fdPos else newestOn cpu past
  | (_, .ksysWrite _ _) :: past => newestOn cpu past

/-- Going back, the first store by the task or on the CPU is both. -/
def Undisturbed (task : Task) (cpu : Cpu) : List (Probes Task Cpu × Probe Task Cpu) → Prop
  | [] => False
  | (_, .fdgetPos other there _) :: past =>
      if other = task then there = cpu else there ≠ cpu ∧ Undisturbed task cpu past
  | (_, .ksysWrite _ _) :: past => Undisturbed task cpu past

def stored : List (Probes Task Cpu × Probe Task Cpu) → List Long
  | [] => []
  | (_, .fdgetPos _ _ fdPos) :: past => fdPos :: stored past
  | (_, .ksysWrite _ _) :: past => stored past

/-- The pointer a write is handled with is the one its task stored for it. -/
def ReadsOwn (past : List (Probes Task Cpu × Probe Task Cpu)) (before : Probes Task Cpu) :
    Probe Task Cpu → Prop
  | .ksysWrite task cpu => latest task past = some (before.fdgetPosPos cpu)
  | .fdgetPos .. => True

def StaysAlone (past : List (Probes Task Cpu × Probe Task Cpu)) (_before : Probes Task Cpu) :
    Probe Task Cpu → Prop
  | .ksysWrite task cpu => Undisturbed task cpu past
  | .fdgetPos .. => True

instance decidableUndisturbed (task : Task) (cpu : Cpu) :
    ∀ past : List (Probes Task Cpu × Probe Task Cpu), Decidable (Undisturbed task cpu past)
  | [] => inferInstanceAs (Decidable False)
  | (_, .fdgetPos other there _) :: past =>
      have : Decidable (Undisturbed task cpu past) := decidableUndisturbed task cpu past
      inferInstanceAs (Decidable (if other = task then there = cpu else _ ∧ _))
  | (_, .ksysWrite _ _) :: past => decidableUndisturbed task cpu past

instance (past : List (Probes Task Cpu × Probe Task Cpu)) (before : Probes Task Cpu)
    (probe : Probe Task Cpu) : Decidable (ReadsOwn past before probe) :=
  match probe with
  | .ksysWrite task cpu =>
      inferInstanceAs (Decidable (latest task past = some (before.fdgetPosPos cpu)))
  | .fdgetPos .. => .isTrue trivial

instance (past : List (Probes Task Cpu × Probe Task Cpu)) (before : Probes Task Cpu)
    (probe : Probe Task Cpu) : Decidable (StaysAlone past before probe) :=
  match probe with
  | .ksysWrite task cpu => inferInstanceAs (Decidable (Undisturbed task cpu past))
  | .fdgetPos .. => .isTrue trivial

section History

variable {past : List (Probes Task Cpu × Probe Task Cpu)} {task : Task} {cpu : Cpu} {fdPos : Long}

omit [DecidableEq Cpu] in
theorem latest_stored (found : latest task past = some fdPos) : fdPos ∈ stored past := by
  induction past with
  | nil => cases found
  | cons taken past ih =>
      obtain ⟨_, probe⟩ := taken
      cases probe with
      | ksysWrite other there => exact ih found
      | fdgetPos other there value =>
          by_cases own : other = task
          · obtain rfl : value = fdPos := by simpa [latest, own] using found
            exact List.mem_cons_self
          · exact List.mem_cons_of_mem _ (ih (by simpa [latest, own] using found))

omit [DecidableEq Task] in
theorem newestOn_stored (found : newestOn cpu past = some fdPos) : fdPos ∈ stored past := by
  induction past with
  | nil => cases found
  | cons taken past ih =>
      obtain ⟨_, probe⟩ := taken
      cases probe with
      | ksysWrite other there => exact ih found
      | fdgetPos other there value =>
          by_cases here : there = cpu
          · obtain rfl : value = fdPos := by simpa [newestOn, here] using found
            exact List.mem_cons_self
          · exact List.mem_cons_of_mem _ (ih (by simpa [newestOn, here] using found))

theorem Undisturbed.same (undisturbed : Undisturbed task cpu past) :
    newestOn cpu past = latest task past := by
  induction past with
  | nil => cases undisturbed
  | cons taken past ih =>
      obtain ⟨_, probe⟩ := taken
      cases probe with
      | ksysWrite other there => exact ih undisturbed
      | fdgetPos other there value =>
          simp only [Undisturbed] at undisturbed
          by_cases own : other = task
          · rw [if_pos own] at undisturbed
            simp [newestOn, latest, own, undisturbed]
          · rw [if_neg own] at undisturbed
            simp [newestOn, latest, own, undisturbed.1, ih undisturbed.2]

theorem undisturbed_of_same (apart : (stored past).Nodup) (own : latest task past = some fdPos)
    (here : newestOn cpu past = some fdPos) : Undisturbed task cpu past := by
  induction past with
  | nil => cases own
  | cons taken past ih =>
      obtain ⟨_, probe⟩ := taken
      cases probe with
      | ksysWrite other there => exact ih apart own here
      | fdgetPos other there value =>
          obtain ⟨fresh, apart⟩ := List.nodup_cons.mp apart
          simp only [latest] at own
          simp only [newestOn] at here
          by_cases mine : other = task
          · rw [if_pos mine] at own
            obtain rfl := Option.some.inj own
            have on_cpu : there = cpu := by
              by_contra elsewhere
              rw [if_neg elsewhere] at here
              exact fresh (newestOn_stored here)
            simpa [Undisturbed, mine] using on_cpu
          · rw [if_neg mine] at own
            have elsewhere : there ≠ cpu := by
              intro on_cpu
              rw [if_pos on_cpu] at here
              obtain rfl := Option.some.inj here
              exact fresh (latest_stored own)
            rw [if_neg elsewhere] at here
            simpa [Undisturbed, mine, elsewhere] using ih apart own here

end History

section Runs

variable {past : List (Probes Task Cpu × Probe Task Cpu)} {last : Probes Task Cpu}

theorem slot_newest (run : Run probeStep Probes.start past last) (cpu : Cpu) :
    last.fdgetPosPos cpu = (newestOn cpu past).getD 0#64 := by
  induction run with
  | start => rfl
  | next earlier taken ih =>
      rename_i past before after probe
      cases probe with
      | fdgetPos task there fdPos =>
          obtain rfl := Option.some.inj taken
          by_cases here : there = cpu
          · simp [newestOn, here]
          · simpa [newestOn, here, Ne.symm here] using ih
      | ksysWrite task there =>
          simp only [probeStep] at taken
          split at taken
          · obtain rfl := Option.some.inj taken
            exact ih
          · cases taken

theorem inWrite_latest (run : Run probeStep Probes.start past last) (task : Task)
    (inside : last.inWrite task = true) : (latest task past).isSome := by
  induction run with
  | start => cases inside
  | next earlier taken ih =>
      rename_i past before after probe
      cases probe with
      | fdgetPos other there fdPos =>
          obtain rfl := Option.some.inj taken
          by_cases own : other = task
          · simp [latest, own]
          · simpa [latest, own] using ih (by simpa [Ne.symm own] using inside)
      | ksysWrite other there =>
          simp only [probeStep] at taken
          split at taken
          · obtain rfl := Option.some.inj taken
            by_cases own : task = other
            · simp [own] at inside
            · exact ih (by simpa [own] using inside)
          · cases taken

theorem readsOwn_of_staysAlone (run : Run probeStep Probes.start past last) {probe : Probe Task Cpu}
    (enabled : (probeStep last probe).isSome) (alone : StaysAlone past last probe) :
    ReadsOwn past last probe := by
  cases probe with
  | fdgetPos => trivial
  | ksysWrite task cpu =>
      have inside : last.inWrite task = true := by
        by_contra outside
        simp [probeStep, outside] at enabled
      obtain ⟨fdPos, own⟩ := Option.isSome_iff_exists.mp (inWrite_latest run task inside)
      have same : newestOn cpu past = some fdPos := (Undisturbed.same alone).trans own
      rw [ReadsOwn, own, slot_newest run cpu, same, Option.getD_some]

theorem staysAlone_of_readsOwn (run : Run probeStep Probes.start past last) {probe : Probe Task Cpu}
    (apart : (0#64 :: stored past).Nodup) (own : ReadsOwn past last probe) :
    StaysAlone past last probe := by
  obtain ⟨nonzero, apart⟩ := List.nodup_cons.mp apart
  cases probe with
  | fdgetPos => trivial
  | ksysWrite task cpu =>
      have found : latest task past = some (last.fdgetPosPos cpu) := own
      rw [slot_newest run cpu] at found
      cases newest : newestOn cpu past with
      | none =>
          rw [newest] at found
          exact absurd (latest_stored found) nonzero
      | some fdPos =>
          rw [newest] at found
          exact undisturbed_of_same apart found newest

end Runs

/-- Every write reads the pointer of its own file when, since its own store, the
task has stayed on that CPU and no other has stored there. Where all the stored
pointers differ, only then. -/
theorem write_reads_own_file {past : List (Probes Task Cpu × Probe Task Cpu)}
    {last : Probes Task Cpu} (run : Run probeStep Probes.start past last) :
    (Always StaysAlone past → Always ReadsOwn past) ∧
    (Always (fun past _ _ => (0#64 :: stored past).Nodup) past →
      Always ReadsOwn past → Always StaysAlone past) := by
  constructor
  · intro alone
    exact run.always_imp (fun _ _ _ earlier enabled => readsOwn_of_staysAlone earlier enabled) alone
  · intro apart own
    exact run.always_imp (fun _ _ _ earlier _ both => staysAlone_of_readsOwn earlier both.1 both.2)
      (apart.and own)

theorem write_reads_own_file_apart :
    ∃ (past : List (Probes Nat Nat × Probe Nat Nat)) (last : Probes Nat Nat),
      Run probeStep Probes.start past last ∧ past.length = 4 ∧ Always ReadsOwn past := by
  obtain ⟨past, last, run, length, alone⟩ := replay_some probeStep (Probes.start : Probes Nat Nat)
    [.fdgetPos 1 0 16#64, .fdgetPos 2 1 32#64, .ksysWrite 1 0, .ksysWrite 2 1]
    (fun past _ => past.length = 4 ∧ Always StaysAlone past) (by decide)
  exact ⟨past, last, run, length, (write_reads_own_file run).1 alone⟩

def sampleFiles (fdPos : Long) : Dentry :=
  if fdPos = 16#64 then (ttyWrite 2#32 [97#8]).dentry else ⟨0#32, 0#32, []⟩

/-- Task 1 writes to its terminal, and task 2 starts a write to a plain file on
the same CPU before task 1 is through: the output of task 1 is dropped. -/
theorem write_reads_other_file :
    (∃ (past : List (Probes Nat Nat × Probe Nat Nat)) (last : Probes Nat Nat),
      Run probeStep Probes.start past last ∧ latest 1 past = some 16#64 ∧
      last.fdgetPosPos 0 = 32#64 ∧ ¬ Always ReadsOwn past) ∧
    (ksysWrite (throughPointer sampleFiles 16#64 (ttyWrite 2#32 [97#8])) true
      (tablesOf [1#32] [2#32]) ⟨0#64, fun _ => 0#8⟩).event =
        some (.write 7#64 [255#8, 97#8]) ∧
    (ksysWrite (throughPointer sampleFiles 32#64 (ttyWrite 2#32 [97#8])) true
      (tablesOf [1#32] [2#32]) ⟨0#64, fun _ => 0#8⟩).event = none := by
  refine ⟨replay_some probeStep (Probes.start : Probes Nat Nat)
    [.fdgetPos 1 0 16#64, .fdgetPos 2 0 32#64, .ksysWrite 1 0]
    (fun past last => latest 1 past = some 16#64 ∧ last.fdgetPosPos 0 = 32#64 ∧
      ¬ Always ReadsOwn past) (by decide), by decide, by decide⟩

end Nhi
