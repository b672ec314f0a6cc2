import Crayon.Runs

/-!
Fencing. A worker's report names the dispatch it speaks of by worker, session,
lease and attempt. A report that does not speak of the current dispatch of its
task changes nothing, and one dispatch is settled by at most one report: once a
task is taken from a lease, that lease never holds it again, since leases are
not drawn twice.
-/
namespace Crayon.CoordinatorState
open Command

/-- The task is dispatched under the lease. -/
def Holds (s : CoordinatorState) (id : TaskId) (lease : LeaseId) : Prop :=
  ∃ task a, s.tasks.get id = some task ∧ task.assigned = some a ∧ a.lease = lease

section
variable {s s' : CoordinatorState} {op : Op} {identity : WorkerIdentity} {fence : TaskFence} {id : TaskId}

theorem Matches.holds (matching : Matches s identity fence) : Holds s fence.task_id fence.lease_id := by
  obtain ⟨task,found,assigned,_⟩ := matching
  exact ⟨task,_,found,assigned,rfl⟩

theorem Ended.holds_nothing (ended : Ended id s) (lease : LeaseId) : ¬ Holds s id lease := by
  rintro ⟨task,a,found,assigned,_⟩
  rw [ended task found] at assigned
  cases assigned

/-- A change of one task that keeps or ends its dispatch starts no other. -/
theorem holds_of_modify {k : TaskId} {f : TaskRecord → TaskRecord} {lease : LeaseId}
    (tasks : s'.tasks = s.tasks.modify k f)
    (kept : ∀ task, s.tasks.get k = some task → (f task).assigned = none ∨ (f task).assigned = task.assigned)
    (holds : Holds s' id lease) : Holds s id lease := by
  obtain ⟨task,a,found,assigned,same⟩ := holds
  rw [tasks,Table.get_modify] at found
  split at found
  case isTrue here =>
    subst here
    obtain ⟨before,there,rfl⟩ := Option.map_eq_some_iff.mp found
    rcases kept before there with none | still
    · rw [none] at assigned
      cases assigned
    · exact ⟨before,a,there,still ▸ assigned,same⟩
  case isFalse => exact ⟨task,a,found,assigned,same⟩

/-- A task comes to be held by a lease only in a dispatch that draws the lease. -/
theorem Move.holds (move : Move op s s') {lease : LeaseId} (holds : Holds s' id lease) :
    Holds s id lease ∨ .lease lease ∈ op.minted := by
  cases move with
  | @assign k queue task node worker available drawn head found runnable at_worker alive free fits taken minted =>
    obtain ⟨t,a,there,assigned,same⟩ := holds
    rw [Table.get_modify_of found] at there
    split at there
    · cases there
      cases assigned
      exact .inr (same ▸ minted)
    · exact .inl ⟨t,a,there,assigned,same⟩
  | submit codec newTask unqueued newOutput submitted =>
    obtain ⟨t,a,there,assigned,same⟩ := holds
    rw [Table.get_insert] at there
    split at there
    · cases there
      rw [submitted.assigned] at assigned
      cases assigned
    · exact .inl ⟨t,a,there,assigned,same⟩
  | release pending_deletes found settled unused =>
    obtain ⟨t,a,there,assigned,same⟩ := holds
    rw [Table.get_retain,Option.filter_eq_some_iff] at there
    exact .inl ⟨t,a,there.1,assigned,same⟩
  | stamp now =>
    obtain ⟨t,a,there,assigned,same⟩ := holds
    rw [Table.get_mapValues] at there
    obtain ⟨before,found,rfl⟩ := Option.map_eq_some_iff.mp there
    have unchanged : (CoordinatorState.stamp now before).assigned = before.assigned := by
      unfold CoordinatorState.stamp
      split <;> rfl
    exact .inl ⟨before,a,found,unchanged ▸ assigned,same⟩
  | start | request_cancel | cancel | starve | wake =>
    refine .inl (holds_of_modify rfl ?_ holds)
    exact fun _ _ => .inr rfl
  | complete | retry | fail | acknowledge =>
    refine .inl (holds_of_modify rfl ?_ holds)
    exact fun _ _ => .inl rfl
  | _ => exact .inl holds

theorem Moves.holds (moves : Moves op s s') {lease : LeaseId} (holds : Holds s' id lease) :
    Holds s id lease ∨ .lease lease ∈ op.minted :=
  moves.origin (fun _ _ move => move.holds) holds

/-! ### Reports -/

theorem apply_reports (blake3 : List UInt8 → Checksum) (order : HashOrder) (inv : Inv s)
    (report : op.report = some (identity,fence)) :
    Reports op s identity fence (fun t => op.settles.isSome = true → Ended fence.task_id t) (apply blake3 order op s) := by
  have atomic := apply_effect blake3 order inv.consistent inv.alive op
  match apply blake3 order op s,atomic with
  | .ok _ _,effect => exact Effect.reports effect report
  | .error (.Err _) _,same => exact same

/-- A report that does not speak of the current dispatch changes nothing. -/
theorem stale_report (blake3 : List UInt8 → Checksum) (order : HashOrder) (inv : Inv s)
    (report : op.report = some (identity,fence))
    (stale : ¬ Matches s identity fence) : Outcome.state (apply blake3 order op s) = s := by
  have reports := apply_reports blake3 order inv report
  match apply blake3 order op s,reports with
  | .ok _ _,.inl same => exact same
  | .ok _ _,.inr ⟨matching,_⟩ => exact absurd matching stale
  | .error (.Err _) _,same => exact same

/-- A report that settles its task's dispatch was held, and leaves the task free. -/
theorem settled_report (blake3 : List UInt8 → Checksum) (order : HashOrder) (inv : Inv s)
    (settles : op.settles = some fence) (changed : Outcome.state (apply blake3 order op s) ≠ s) :
    Holds s fence.task_id fence.lease_id ∧
      ¬ Holds (Outcome.state (apply blake3 order op s)) fence.task_id fence.lease_id := by
  obtain ⟨identity,report⟩ : ∃ identity, op.report = some (identity,fence) := by
    cases op <;> cases settles <;> exact ⟨_,rfl⟩
  have draws : op.minted = [] := by cases op <;> cases settles <;> rfl
  have reports := apply_reports blake3 order inv report
  match outcome : apply blake3 order op s,reports with
  | .ok _ s',.inl same => rw [outcome] at changed; exact absurd same changed
  | .ok _ s',.inr ⟨matching,t,_,ended,rest⟩ =>
    refine ⟨matching.holds,fun holds => ?_⟩
    have free : Ended fence.task_id t := ended (by rw [settles]; rfl)
    rcases Moves.holds rest holds with held | drawn
    · exact free.holds_nothing _ held
    · rw [draws] at drawn
      cases drawn
  | .error (.Err _) s',same => rw [outcome] at changed; exact absurd same changed

end

/-! ### Runs -/

/-- The step is a report that settled the dispatch of the fence, and changed the state. -/
def Step.settled (fence : TaskFence) (step : Step) : Bool :=
  decide (step.op.settles = some fence ∧ Outcome.state step.outcome ≠ step.before)

section
variable {blake3 : List UInt8 → Checksum} {epoch : CoordinatorEpoch} {past : List Step} {s : CoordinatorState}

/-- A lease that holds a task was drawn by the run. -/
theorem Run.leases (run : Run blake3 epoch past s) {id : TaskId} {lease : LeaseId} (holds : Holds s id lease) :
    ∃ step ∈ past, .lease lease ∈ step.op.minted := by
  induction run with
  | start =>
    obtain ⟨task,a,found,_⟩ := holds
    cases found
  | step run order op fresh ih =>
    rcases (apply_moves blake3 order run.inv (run.newTo fresh)).holds holds with held | drawn
    · obtain ⟨step,member,drawn⟩ := ih held
      exact ⟨step,List.mem_cons_of_mem _ member,drawn⟩
    · exact ⟨_,List.mem_cons_self,drawn⟩

/-- Once the dispatch of a fence is settled, the lease is spent: it was drawn, and does not hold
    the task. -/
theorem Run.settled_once (run : Run blake3 epoch past s) (fence : TaskFence) :
    past.countP (Step.settled fence) = 0 ∨
      past.countP (Step.settled fence) = 1 ∧ (∃ step ∈ past, .lease fence.lease_id ∈ step.op.minted) ∧
        ¬ Holds s fence.task_id fence.lease_id := by
  induction run with
  | start => exact .inl rfl
  | @step past s run order op fresh ih =>
    by_cases settled : op.settles = some fence ∧ Outcome.state (apply blake3 order op s) ≠ s
    · obtain ⟨held,free⟩ := settled_report blake3 order run.inv settled.1 settled.2
      obtain ⟨step,member,drawn⟩ := run.leases held
      have counted : Step.settled fence ⟨order,op,s,apply blake3 order op s⟩ = true := decide_eq_true settled
      rcases ih with none | ⟨_,_,spent⟩
      · refine .inr ⟨?_,⟨step,List.mem_cons_of_mem _ member,drawn⟩,free⟩
        rw [List.countP_cons_of_pos counted,none]
      · exact absurd held spent
    · have uncounted : ¬ Step.settled fence ⟨order,op,s,apply blake3 order op s⟩ = true := by
        simpa [Step.settled] using settled
      rw [List.countP_cons_of_neg uncounted]
      refine ih.imp (fun none => none) ?_
      rintro ⟨one,⟨step,member,drawn⟩,spent⟩
      refine ⟨one,⟨step,List.mem_cons_of_mem _ member,drawn⟩,fun holds => ?_⟩
      -- The lease is not drawn again.
      rcases (apply_moves blake3 order run.inv (run.newTo fresh)).holds holds with held | again
      · exact spent held
      · exact (fresh _ again).1 step member drawn

/-- In every state of a run a report that does not speak of the current dispatch of its task
    changes nothing; and in the whole run at most one report settles the dispatch of a fence. -/
theorem run_fenced (run : Run blake3 epoch past s) :
    (∀ order op identity fence, op.report = some (identity,fence) → ¬ Matches s identity fence →
        Outcome.state (apply blake3 order op s) = s) ∧
      ∀ fence, past.countP (Step.settled fence) ≤ 1 := by
  refine ⟨fun order op identity fence report stale => ?_,fun fence => ?_⟩
  · exact stale_report blake3 order run.inv report stale
  · have once := run.settled_once fence
    omega

end

/-- The small run, in which the worker then reports a failure, and reports it again. -/
def repeatedOps : List Op :=
  .fail smallWorker ⟨smallTask,1,smallLease⟩ "boom" .Permanent 20 ::
    .fail smallWorker ⟨smallTask,1,smallLease⟩ "boom" .Permanent 20 :: smallOps

theorem repeated_settles_once :
    (replay smallHash smallEpoch repeatedOps).1.countP (Step.settled ⟨smallTask,1,smallLease⟩) = 1 ∧
      ∀ fence, (replay smallHash smallEpoch repeatedOps).1.countP (Step.settled fence) ≤ 1 :=
  ⟨by decide +kernel,(run_fenced (replay_run smallHash smallEpoch repeatedOps
    ⟨⟨⟨⟨⟨trivial,by decide⟩,by decide⟩,by decide⟩,by decide⟩,by decide⟩)).2⟩

end Crayon.CoordinatorState
