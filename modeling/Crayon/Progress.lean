import Crayon.Changes
import Crayon.Dependencies

/-!
Progress. No task waits in vain: no tasks wait for each other in a circle, and what one
waits for leads, through tasks that wait themselves, to one that is queued or that a
worker has (`run_waits_on_active`). And
nothing is dispatched for ever: every dispatch uses up an attempt that a submission
granted (`run_dispatches_bounded`).
-/
namespace Crayon.CoordinatorState
open Command

section
variable {s s' : CoordinatorState} {op : Op} {id : TaskId} {task : TaskRecord}

/-! ### Chains of tasks that wait -/

/-- The object is the output of a live task that does not wait: one that is queued, or that a worker has. -/
def Active (s : CoordinatorState) (oid : ObjectId) : Prop :=
  ∃ k other, s.tasks.get k = some other ∧ other.output = oid ∧ other.state.is_terminal = false ∧ other.state ≠ .Waiting

theorem waits_on_active {rank : ObjectId → Nat} (inv : Consistent s) (reconciled : Reconciled s) (ranked : Ranked rank s)
    (found : s.tasks.get id = some task) (waiting : task.state = .Waiting) : ∃ oid, Needs s id oid ∧ Active s oid := by
  induction height : rank task.output using Nat.strong_induction_on generalizing id task with
  | _ n ih =>
    subst height
    obtain ⟨_,found',⟨oid,argument,object,there,reserved⟩,_⟩ :=
      blocked_iff.mp (reconciled id ((inv.waiting_iff found).mpr waiting))
    obtain rfl := Option.some.inj (found.symm.trans found')
    obtain ⟨k,other,produced,rfl⟩ := inv.reserved oid object there reserved
    have live := (inv.reserved_iff produced there).mp reserved
    by_cases blocked : other.state = .Waiting
    · obtain ⟨last,needs,active⟩ := ih _ (ranked id task found waiting _ argument) produced blocked rfl
      exact ⟨last,.through found waiting produced argument needs,active⟩
    · exact ⟨_,.direct found waiting argument,k,other,produced,rfl,live,blocked⟩

theorem Needs.ranked {rank : ObjectId → Nat} (ranked : Ranked rank s) {oid : ObjectId} (needs : Needs s id oid)
    (found : s.tasks.get id = some task) : rank oid < rank task.output := by
  induction needs generalizing task with
  | direct found' waiting argument =>
    obtain rfl := Option.some.inj (found.symm.trans found')
    exact ranked _ _ found waiting _ argument
  | through found' waiting produced argument _ ih =>
    obtain rfl := Option.some.inj (found.symm.trans found')
    exact (ih produced).trans (ranked _ _ found waiting _ argument)

/-- There is no deadlock: in every state of a run a task that waits does not need its own output, and it needs, directly or
    through other tasks that wait, the output of a task that is queued or that a worker has. -/
theorem run_waits_on_active {blake3 : List UInt8 → Checksum} {epoch : CoordinatorEpoch} {past : List Step}
    (run : Run blake3 epoch past s) (found : s.tasks.get id = some task) (waiting : task.state = .Waiting) :
    ¬ Needs s id task.output ∧ ∃ oid, Needs s id oid ∧ Active s oid := by
  obtain ⟨rank,ranked⟩ := run.ranked
  exact ⟨fun needs => lt_irrefl _ (needs.ranked ranked found),
    waits_on_active run.inv.consistent run.reconciled ranked found waiting⟩

theorem chain_waits_on_active : chainState.tasks.get chainThird.id = some chainThird ∧
    ¬ Needs chainState chainThird.id chainThird.output ∧ ∃ oid, Needs chainState chainThird.id oid ∧ Active chainState oid := by
  have third : chainState.tasks.get chainThird.id = some chainThird := by decide +kernel
  exact ⟨third,run_waits_on_active chain_run third rfl⟩

/-! ### Attempts that are left -/

/-- The attempts that a task may still be dispatched for. -/
def spare (task : TaskRecord) : Nat := if task.state.is_terminal then 0 else task.max_attempts.toNat - task.attempt.toNat

/-- The attempts that are left to all tasks. -/
def budget (s : CoordinatorState) : Nat := s.tasks.sum spare

/-- What an operation grants if it succeeds. -/
def Op.granted : Op → Nat
  | .submit _ _ _ max_attempts _ _ => max_attempts.toNat
  | _ => 0

def Reply.dispatched : Reply → Nat
  | .Assignment (some _) => 1
  | _ => 0

theorem spare_live (live : task.state.is_terminal = false) : spare task = task.max_attempts.toNat - task.attempt.toNat := by
  rw [spare,live]
  rfl

theorem spare_le_max (task : TaskRecord) : spare task ≤ task.max_attempts.toNat := by
  rw [spare]
  split
  · exact Nat.zero_le _
  · exact Nat.sub_le _ _

theorem spare_ended (ended : task.state.is_terminal = true) : spare task = 0 := by
  rw [spare,if_pos ended]

/-- The budget falls by what a change of one task takes from it. -/
theorem budget_modify {f : TaskRecord → TaskRecord} {c : Nat} (found : s.tasks.get id = some task)
    (less : spare (f task) + c ≤ spare task) (tasks : s'.tasks = s.tasks.modify id f) : s'.budget + c ≤ s.budget := by
  have moved := Table.sum_modify found f spare
  rw [budget,budget,tasks]
  omega

/-- A task that changes its state only, while it is live, has no more attempts left than before. -/
theorem spare_le {task' : TaskRecord} (live : task.state.is_terminal = false)
    (same : task'.max_attempts = task.max_attempts ∧ task'.attempt = task.attempt) : spare task' ≤ spare task := by
  rw [spare_live live,spare,same.1,same.2]
  split <;> omega

/-- A dispatch uses up an attempt. -/
theorem spare_next {task' : TaskRecord} (live : task.state.is_terminal = false) (room : task.attempt < task.max_attempts)
    (next : task'.max_attempts = task.max_attempts ∧ task'.attempt = task.attempt + 1) : spare task' + 1 ≤ spare task := by
  have below := UInt32.lt_iff_toNat_lt.mp room
  have bound := task.max_attempts.toNat_lt
  have counted : (task.attempt + 1).toNat = task.attempt.toNat + 1 := by
    rw [UInt32.toNat_add,UInt32.toNat_one,Nat.mod_eq_of_lt (by omega)]
  rw [spare_live live,spare,next.1,next.2,counted]
  split <;> omega

theorem Consistent.spare (inv : Consistent s) (found : s.tasks.get id = some task)
    (idle : task.state = .Waiting ∨ task.state = .Runnable) : task.attempt < task.max_attempts := by
  have legal := inv.legal id task found
  rcases idle with state | state <;>
    · simp only [view,View.Legal,state,decide_eq_true_eq] at legal
      exact legal.2.1

/-- Only a submission grants attempts. -/
theorem Move.budget (move : Move op s s') (inv : Consistent s) (unsubmitted : ∀ id, .task id ∉ op.minted) :
    s'.budget ≤ s.budget := by
  have changed : ∀ {k : TaskId} {task : TaskRecord} {f : TaskRecord → TaskRecord} {t : CoordinatorState},
      s.tasks.get k = some task → task.state.is_terminal = false →
      (f task).max_attempts = task.max_attempts ∧ (f task).attempt = task.attempt → t.tasks = s.tasks.modify k f →
      t.budget ≤ s.budget := fun found live same tasks => budget_modify (c := 0) found (spare_le live same) tasks
  cases move with
  | submit codec newTask unqueued newOutput submitted => exact absurd submitted.minted (unsubmitted _)
  | assign head found runnable =>
    exact le_trans (Nat.le_succ _)
      (budget_modify found (spare_next (by rw [runnable]; rfl) (inv.spare found (.inr runnable)) ⟨rfl,rfl⟩) rfl)
  | start found assigned => exact changed found (by rw [assigned]; rfl) ⟨rfl,rfl⟩ rfl
  | complete asked found state => exact changed found (live_of_dispatched state) ⟨rfl,rfl⟩ rfl
  | retry not_before_ms found state => exact changed found (live_of_dispatched state) ⟨rfl,rfl⟩ rfl
  | fail message found state => exact changed found (live_of_dispatched state) ⟨rfl,rfl⟩ rfl
  | acknowledge found state => exact changed found (by rw [state]; rfl) ⟨rfl,rfl⟩ rfl
  | request_cancel found state => exact changed found (live_of_dispatched state) ⟨rfl,rfl⟩ rfl
  | cancel found state => exact changed found (live_of_blocked state) ⟨rfl,rfl⟩ rfl
  | starve found state => exact changed found (by rw [state]; rfl) ⟨rfl,rfl⟩ rfl
  | wake found state => exact changed found (by rw [state]; rfl) ⟨rfl,rfl⟩ rfl
  | release => 
    refine Table.sum_le_of_part (fun k task found => ?_) _
    exact (Option.filter_eq_some_iff.mp ((Table.get_retain _ _ _).symm.trans found)).1
  | stamp now =>
    refine le_of_eq (Table.sum_eq_of_contributions fun k => ?_)
    rw [Table.get_mapValues]
    cases s.tasks.get k with
    | none => rfl
    | some task =>
      rw [Option.map_some,CoordinatorState.stamp]
      split <;> rfl
  | _ => exact le_rfl

/-- An operation dispatches from the budget, and a submission adds to it. -/
theorem Effect.budget {blake3 : List UInt8 → Checksum} {reply : Reply} (effect : Effect blake3 op s reply s')
    (inv : Consistent s) (newTo : op.NewTo s) : reply.dispatched + s'.budget ≤ s.budget + op.granted := by
  have others : (∀ id, .task id ∉ op.minted) → s'.budget ≤ s.budget := fun unsubmitted =>
    (effect.moves newTo).with_consistent (P := fun t => t.budget ≤ s.budget) inv
      (fun _ _ inv move before => le_trans (move.budget inv unsubmitted) before) le_rfl
  cases effect with
  | @submitted _ operation args resources max_attempts id output descriptor blocked =>
    refine (Nat.zero_add _).trans_le ?_
    rw [CoordinatorState.budget,Table.sum_insert_new newTo.1,Nat.add_comm]
    exact Nat.add_le_add_left (spare_le_max _) _
  | assigned requeued found at_worker alive free servable room =>
    rw [Nat.add_comm]
    exact budget_modify found (spare_next (by rw [servable.runnable]; rfl) room ⟨rfl,rfl⟩) rfl
  | _ => exact (Nat.zero_add _).trans_le (others (by simp [Op.minted]))

/-- What the operation of a step granted and what it dispatched; an operation that failed did neither. -/
def Step.granted (step : Step) : Nat :=
  match step.outcome with
  | .ok _ _ => step.op.granted
  | .error _ _ => 0

def Step.dispatched (step : Step) : Nat :=
  match step.outcome with
  | .ok reply _ => reply.dispatched
  | .error _ _ => 0

/-- Nothing is dispatched for ever: in any part of a run there are at most as many dispatches as attempts were left to
    the tasks before it or were granted to tasks submitted in it, and what was not used is still left. -/
theorem run_dispatches_bounded {blake3 : List UInt8 → Checksum} {epoch : CoordinatorEpoch} {past later : List Step}
    (earlier : Run blake3 epoch past s) (run : Run blake3 epoch (later ++ past) s') :
    (later.map Step.dispatched).sum + s'.budget ≤ s.budget + (later.map Step.granted).sum := by
  induction later generalizing s' with
  | nil =>
    obtain rfl := earlier.unique run
    simp
  | cons last later ih =>
    cases run with
    | @step _ t run order op fresh =>
      have before := ih run
      have atomic := apply_effect blake3 order run.inv.consistent run.inv.alive op
      simp only [List.map_cons,List.sum_cons,Step.dispatched,Step.granted]
      rcases atomic.returned_or_failed with ⟨reply,t',ran,effect⟩ | ⟨error,ran⟩
      · have spent := effect.budget run.inv.consistent (run.newTo fresh)
        rw [ran]
        simp only [Outcome.state_ok]
        omega
      · rw [ran]
        simp only [Outcome.state_error]
        omega

/-- In the small run one of two attempts that were granted is dispatched, and the other one is left. -/
theorem small_dispatches_bounded : (smallPast.map Step.dispatched).sum = 1 ∧ smallState.budget = 1 ∧
    (smallPast.map Step.granted).sum = 2 ∧
    (smallPast.map Step.dispatched).sum + smallState.budget ≤ (new smallEpoch).budget + (smallPast.map Step.granted).sum := by
  have run : Run smallHash smallEpoch (smallPast ++ []) smallState := by
    rw [List.append_nil]
    exact small_run
  exact ⟨by decide +kernel,by decide +kernel,by decide +kernel,run_dispatches_bounded .start run⟩

end
end Crayon.CoordinatorState
