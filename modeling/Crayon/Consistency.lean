import Crayon.Moves

/-!
How the coordinator's tables and indices fit together. For each task its state
settles what its output, its dispatch and its entries in the indices are
(`View.Legal`); between tables, outputs are not shared, reserved objects belong
to tasks, and dispatched tasks name registered workers (`Consistent`). Every
move keeps this: most moves touch one task and what belongs to it, and then only
that task's view has to be looked at again (`Consistent.touch`).
-/
namespace Crayon.CoordinatorState
open Command

/-- What the tables and the indices say about one task. -/
structure View where
  state : TaskState
  dispatched : Bool
  /-- Another attempt is allowed. -/
  spare : Bool
  output : Option ObjectState
  waiting : Bool
  cancelling : Bool
  queued : Nat

/-- What the state of a task says about the rest. Terminal tasks may be left in the
    queue. -/
def View.Legal (v : View) : Prop :=
  match v.state with
  | .Waiting => v.dispatched = false ∧ v.spare = true ∧ v.output = some .Reserved ∧ v.waiting = true ∧
      v.cancelling = false ∧ v.queued = 0
  | .Runnable => v.dispatched = false ∧ v.spare = true ∧ v.output = some .Reserved ∧ v.waiting = false ∧
      v.cancelling = false ∧ v.queued = 1
  | .Assigned | .Running => v.dispatched = true ∧ v.output = some .Reserved ∧ v.waiting = false ∧
      v.cancelling = false ∧ v.queued = 0
  | .CancelRequested => v.dispatched = true ∧ v.output = some .Reserved ∧ v.waiting = false ∧
      v.cancelling = true ∧ v.queued = 0
  | .Succeeded => v.dispatched = false ∧ (v.output = some .Available ∨ v.output = some .Lost) ∧ v.waiting = false ∧
      v.cancelling = false
  | .Failed _ => v.dispatched = false ∧ v.output = some .Failed ∧ v.waiting = false ∧ v.cancelling = false
  | .Cancelled => v.dispatched = false ∧ v.output = some .Cancelled ∧ v.waiting = false ∧ v.cancelling = false

/-- The view of a task in a state. -/
def view (s : CoordinatorState) (id : TaskId) (task : TaskRecord) : View where
  state := task.state
  dispatched := task.assigned.isSome
  spare := decide (task.attempt < task.max_attempts)
  output := (s.objects.get task.output).map (·.state)
  waiting := decide (id ∈ s.waiting)
  cancelling := decide (id ∈ s.cancel_requested)
  queued := s.runnable.count id

/-- The worker that a dispatch names is registered under the same identity. -/
def Serves (workers : Table NodeId WorkerRecord) (a : Assigned) : Prop :=
  ∃ worker, workers.get a.node = some worker ∧ worker.identity.worker_epoch = a.epoch ∧
    worker.identity.session_id = a.session

/-- Whatever a reader of an available object is told is there. -/
def Whole (object : ObjectRecord) : Prop :=
  object.codec.isSome = true ∧ object.size_bytes.isSome = true ∧ object.checksum.isSome = true ∧
    object.location.isSome = true

/-- The tables and the indices agree. -/
structure Consistent (s : CoordinatorState) : Prop where
  task_ids : ∀ id task, s.tasks.get id = some task → task.id = id
  worker_ids : ∀ node worker, s.workers.get node = some worker → worker.identity.node_id = node
  legal : ∀ id task, s.tasks.get id = some task → (s.view id task).Legal
  outputs : ∀ id₁ id₂ task₁ task₂, s.tasks.get id₁ = some task₁ → s.tasks.get id₂ = some task₂ →
    task₁.output = task₂.output → id₁ = id₂
  reserved : ∀ oid object, s.objects.get oid = some object → object.state = .Reserved →
    ∃ id task, s.tasks.get id = some task ∧ task.output = oid
  waiting : ∀ id ∈ s.waiting, ∃ task, s.tasks.get id = some task
  cancelling : ∀ id ∈ s.cancel_requested, ∃ task, s.tasks.get id = some task
  served : ∀ id task a, s.tasks.get id = some task → task.assigned = some a → Serves s.workers a
  whole : ∀ oid object, s.objects.get oid = some object → object.state = .Available → Whole object

theorem new_consistent (epoch : CoordinatorEpoch) : Consistent (new epoch) := by
  constructor <;> simp [new]

namespace Consistent
variable {s : CoordinatorState} {task : TaskRecord} {id : TaskId}

/-- The output of a task is there. -/
theorem output (inv : Consistent s) (found : s.tasks.get id = some task) :
    ∃ object, s.objects.get task.output = some object := by
  have legal := inv.legal id task found
  cases there : s.objects.get task.output with
  | some object => exact ⟨object,rfl⟩
  | none => cases state : task.state <;> simp [View.Legal,view,state,there] at legal

/-- The output of a task is reserved for as long as the task is live. -/
theorem reserved_iff (inv : Consistent s) {object : ObjectRecord}
    (found : s.tasks.get id = some task) (output : s.objects.get task.output = some object) :
    object.state = .Reserved ↔ task.state.is_terminal = false := by
  have legal := inv.legal id task found
  cases state : task.state <;> simp [View.Legal,view,state,output] at legal <;>
    simp [TaskState.is_terminal,legal]
  rcases legal.2.1 with settled | settled <;> simp [settled]

theorem waiting_iff (inv : Consistent s) (found : s.tasks.get id = some task) :
    id ∈ s.waiting ↔ task.state = .Waiting := by
  have legal := inv.legal id task found
  cases state : task.state <;> simp [View.Legal,view,state] at legal <;> simp [legal]

theorem cancelling_iff (inv : Consistent s) (found : s.tasks.get id = some task) :
    id ∈ s.cancel_requested ↔ task.state = .CancelRequested := by
  have legal := inv.legal id task found
  cases state : task.state <;> simp [View.Legal,view,state] at legal <;> simp [legal]

theorem dispatched_iff (inv : Consistent s) (found : s.tasks.get id = some task) :
    task.assigned.isSome = true ↔ task.state = .Assigned ∨ task.state = .Running ∨ task.state = .CancelRequested := by
  have legal := inv.legal id task found
  cases state : task.state <;> simp [View.Legal,view,state] at legal <;> simp [legal]

end Consistent

/-! ### Moves of one task -/

/-- Every worker is still registered under its identity, and no other is. -/
def SameWorkers (workers workers' : Table NodeId WorkerRecord) : Prop :=
  ∀ node, (workers'.get node).map (·.identity) = (workers.get node).map (·.identity)

theorem sameWorkers_refl (workers : Table NodeId WorkerRecord) : SameWorkers workers workers := fun _ => rfl

theorem sameWorkers_modify (workers : Table NodeId WorkerRecord) (node : NodeId) (f : WorkerRecord → WorkerRecord)
    (kept : ∀ worker, (f worker).identity = worker.identity) : SameWorkers workers (workers.modify node f) := by
  intro other
  rw [Table.get_modify]
  split
  · cases workers.get other <;> simp [kept]
  · rfl

variable {workers workers' : Table NodeId WorkerRecord} {s s' : CoordinatorState}

theorem Freed.sameWorkers {node : NodeId} {resources : ResourceSet}
    (freed : Freed workers node resources workers') : SameWorkers workers workers' := by
  cases freed with
  | returned => exact sameWorkers_modify _ _ _ fun _ => rfl
  | dropped => exact sameWorkers_refl _

theorem SameWorkers.serves (same : SameWorkers workers workers')
    {a : Assigned} (serves : Serves workers a) : Serves workers' a := by
  obtain ⟨worker,found,epoch,session⟩ := serves
  have there := same a.node
  rw [found] at there
  obtain ⟨worker',found',identity⟩ := Option.map_eq_some_iff.mp there
  exact ⟨worker',found',by rw [identity]; exact epoch,by rw [identity]; exact session⟩

theorem SameWorkers.node_id (same : SameWorkers workers workers')
    (ids : ∀ node worker, workers.get node = some worker → worker.identity.node_id = node) :
    ∀ node worker, workers'.get node = some worker → worker.identity.node_id = node := by
  intro node worker' found'
  obtain ⟨worker,found,identity⟩ := Option.map_eq_some_iff.mp ((same node).symm.trans (congrArg _ found'))
  change worker.identity = worker'.identity at identity
  rw [← identity]
  exact ids node worker found

/-- Only one task, its output and its entries in the indices differ. -/
structure Touches (s s' : CoordinatorState) (id : TaskId) (task task' : TaskRecord) : Prop where
  before : s.tasks.get id = some task
  tasks : ∀ k, s'.tasks.get k = if k = id then some task' else s.tasks.get k
  same_id : task'.id = task.id
  same_output : task'.output = task.output
  objects : ∀ k, k ≠ task.output → s'.objects.get k = s.objects.get k
  waiting : ∀ k, k ≠ id → (k ∈ s'.waiting ↔ k ∈ s.waiting)
  cancelling : ∀ k, k ≠ id → (k ∈ s'.cancel_requested ↔ k ∈ s.cancel_requested)
  queued : ∀ k, k ≠ id → s'.runnable.count k = s.runnable.count k
  workers : SameWorkers s.workers s'.workers

/-- When only one task is touched, only that task has to be looked at again. -/
theorem Consistent.touch {id : TaskId} {task task' : TaskRecord} (inv : Consistent s)
    (touches : Touches s s' id task task') (legal : (s'.view id task').Legal)
    (served : ∀ a, task'.assigned = some a → Serves s.workers a)
    (whole : ∀ object, s'.objects.get task.output = some object → object.state = .Available → Whole object) :
    Consistent s' := by
  obtain ⟨before,tasks,sameId,sameOutput,objects,waiting,cancelling,queued,workers⟩ := touches
  have here : s'.tasks.get id = some task' := by rw [tasks id,if_pos rfl]
  have elsewhere : ∀ k, k ≠ id → s'.tasks.get k = s.tasks.get k := fun k other => by rw [tasks k,if_neg other]
  have stays : ∀ k, (∃ t, s.tasks.get k = some t) → ∃ t, s'.tasks.get k = some t := by
    intro k there
    by_cases same : k = id
    · exact ⟨task',same ▸ here⟩
    · rwa [elsewhere k same]
  -- A task of the new state has the id and the output of a task of the old one.
  have came : ∀ k t, s'.tasks.get k = some t → ∃ t₀, s.tasks.get k = some t₀ ∧ t.id = t₀.id ∧ t.output = t₀.output := by
    intro k t found
    by_cases same : k = id
    · subst same
      rw [here] at found
      cases found
      exact ⟨task,before,sameId,sameOutput⟩
    · exact ⟨t,by rw [← elsewhere k same]; exact found,rfl,rfl⟩
  refine ⟨?_,workers.node_id inv.worker_ids,?_,?_,?_,?_,?_,?_,?_⟩
  · intro k t found
    obtain ⟨t₀,found₀,ids,_⟩ := came k t found
    rw [ids]
    exact inv.task_ids k t₀ found₀
  · intro k t found
    by_cases same : k = id
    · subst same
      rw [here] at found
      cases found
      exact legal
    · rw [elsewhere k same] at found
      have apart : t.output ≠ task.output := fun shared => same (inv.outputs k id t task found before shared)
      have unchanged : s'.view k t = s.view k t := by
        simp only [view,objects _ apart,waiting k same,cancelling k same,queued k same]
      rw [unchanged]
      exact inv.legal k t found
  · intro k₁ k₂ t₁ t₂ found₁ found₂ shared
    obtain ⟨u₁,was₁,_,out₁⟩ := came k₁ t₁ found₁
    obtain ⟨u₂,was₂,_,out₂⟩ := came k₂ t₂ found₂
    exact inv.outputs k₁ k₂ u₁ u₂ was₁ was₂ (by rw [← out₁,← out₂]; exact shared)
  · intro oid object found state
    by_cases same : oid = task.output
    · exact ⟨id,task',here,sameOutput.trans same.symm⟩
    · rw [objects oid same] at found
      obtain ⟨k,t,there,out⟩ := inv.reserved oid object found state
      have other : k ≠ id := by
        rintro rfl
        rw [before] at there
        cases there
        exact same out.symm
      exact ⟨k,t,by rw [elsewhere k other]; exact there,out⟩
  · intro k member
    by_cases same : k = id
    · exact ⟨task',same ▸ here⟩
    · exact stays k (inv.waiting k ((waiting k same).mp member))
  · intro k member
    by_cases same : k = id
    · exact ⟨task',same ▸ here⟩
    · exact stays k (inv.cancelling k ((cancelling k same).mp member))
  · intro k t a found assigned
    refine workers.serves ?_
    by_cases same : k = id
    · subst same
      rw [here] at found
      cases found
      exact served a assigned
    · rw [elsewhere k same] at found
      exact inv.served k t a found assigned
  · intro oid object found state
    by_cases same : oid = task.output
    · subst same
      exact whole object found state
    · rw [objects oid same] at found
      exact inv.whole oid object found state

/-! ### Every move keeps the tables consistent -/

namespace Consistent
variable {s : CoordinatorState} {op : Op} {workers : Table NodeId WorkerRecord} {node : NodeId} {id : TaskId}
variable {object : ObjectRecord} {task : TaskRecord}

/-- Moves that leave the tables' objects, tasks and indices alone. -/
theorem of_workers (inv : Consistent s) (same : SameWorkers s.workers workers) : Consistent { s with workers } :=
  { inv with
    worker_ids := same.node_id inv.worker_ids
    served := fun id task a found assigned => same.serves (inv.served id task a found assigned) }

theorem enroll (inv : Consistent s) {worker : WorkerRecord} (absent : s.workers.get node = none)
    (node_id : worker.identity.node_id = node) (operations : Table OperationKey OperationDescriptor) :
    Consistent { s with operations, workers := s.workers.insert node worker } := by
  refine { inv with worker_ids := ?_, served := ?_ }
  · intro other record found
    by_cases same : other = node
    · simp only [Table.get_insert,same,if_true,Option.some.injEq] at found
      rw [← found,node_id,same]
    · simp only [Table.get_insert,same,if_false] at found
      exact inv.worker_ids other record found
  · intro id task a found assigned
    obtain ⟨record,there,identity⟩ := inv.served id task a found assigned
    have apart : a.node ≠ node := fun same => by rw [same,absent] at there; cases there
    exact ⟨record,by simp [apart,there],identity⟩

theorem store (inv : Consistent s) {id : ObjectId} (absent : s.objects.get id = none) (codec : Codec)
    (size_bytes : UInt64) (checksum : Checksum) (bytes : Option (List UInt8)) :
    Consistent { s with objects := s.objects.insert id (put_record id codec size_bytes checksum bytes) } := by
  refine { inv with legal := ?_, reserved := ?_, whole := ?_ }
  · intro k task found
    obtain ⟨object,there⟩ := inv.output found
    have apart : task.output ≠ id := fun same => by rw [same,absent] at there; cases there
    simpa [view,apart] using inv.legal k task found
  · intro oid object found state
    by_cases same : oid = id
    · simp only [Table.get_insert,same,if_true,Option.some.injEq] at found
      simp [← found,put_record] at state
    · simp only [Table.get_insert,same,if_false] at found
      exact inv.reserved oid object found state
  · intro oid object found state
    by_cases same : oid = id
    · simp only [Table.get_insert,same,if_true,Option.some.injEq] at found
      simp [← found,put_record,Whole]
    · simp only [Table.get_insert,same,if_false] at found
      exact inv.whole oid object found state

theorem submit (inv : Consistent s) {output : ObjectId} {blocked : Bool} (newTask : s.tasks.get id = none)
    (unqueued : id ∉ s.runnable) (newOutput : s.objects.get output = none)
    (submitted : Submitted op id output blocked task) (state : object.state = .Reserved) :
    Consistent { s with
      objects := s.objects.insert output object
      tasks := s.tasks.insert id task
      waiting := if blocked then insert id s.waiting else s.waiting
      runnable := if blocked then s.runnable else s.runnable ++ [id] } := by
  have unwaiting : id ∉ s.waiting := fun member => by
    obtain ⟨old,found⟩ := inv.waiting id member
    rw [newTask] at found
    cases found
  have uncancelling : id ∉ s.cancel_requested := fun member => by
    obtain ⟨old,found⟩ := inv.cancelling id member
    rw [newTask] at found
    cases found
  have apart : ∀ k old, s.tasks.get k = some old → k ≠ id ∧ old.output ≠ output := by
    intro k old found
    obtain ⟨there,present⟩ := inv.output found
    refine ⟨?_,?_⟩
    · rintro rfl
      rw [newTask] at found
      cases found
    · intro same
      rw [same,newOutput] at present
      cases present
  -- A task of the new state is the new one or an old one.
  have came : ∀ k t, (s.tasks.insert id task).get k = some t → k = id ∧ t = task ∨ k ≠ id ∧ s.tasks.get k = some t := by
    intro k t found
    by_cases same : k = id
    · simp only [Table.get_insert,same,if_true,Option.some.injEq] at found
      exact .inl ⟨same,found.symm⟩
    · simp only [Table.get_insert,same,if_false] at found
      exact .inr ⟨same,found⟩
  refine { inv with task_ids := ?_, legal := ?_, outputs := ?_, reserved := ?_, waiting := ?_, cancelling := ?_, served := ?_, whole := ?_ }
  · intro k t found
    obtain ⟨rfl,rfl⟩ | ⟨_,old⟩ := came k t found
    · exact submitted.id
    · exact inv.task_ids k t old
  · intro k t found
    obtain ⟨rfl,rfl⟩ | ⟨other,old⟩ := came k t found
    · have budget := submitted.budget
      have count : s.runnable.count k = 0 := List.count_eq_zero.mpr unqueued
      cases blocked <;>
        simp [view,View.Legal,submitted.state,submitted.output,submitted.assigned,state,budget,unwaiting,uncancelling,
          count]
    · have away : t.output ≠ output := (apart k t old).2
      have legal := inv.legal k t old
      cases blocked <;> simpa [view,away,other,Ne.symm other,List.count_append] using legal
  · intro k₁ k₂ t₁ t₂ found₁ found₂ shared
    obtain ⟨rfl,rfl⟩ | ⟨_,old₁⟩ := came k₁ t₁ found₁ <;> obtain ⟨rfl,rfl⟩ | ⟨_,old₂⟩ := came k₂ t₂ found₂
    · rfl
    · exact absurd (shared.symm.trans submitted.output) (apart k₂ t₂ old₂).2
    · exact absurd (shared.trans submitted.output) (apart k₁ t₁ old₁).2
    · exact inv.outputs k₁ k₂ t₁ t₂ old₁ old₂ shared
  · intro oid record found reserved
    by_cases same : oid = output
    · exact ⟨id,task,by simp,submitted.output.trans same.symm⟩
    · simp only [Table.get_insert,same,if_false] at found
      obtain ⟨k,t,there,out⟩ := inv.reserved oid record found reserved
      exact ⟨k,t,by simp [(apart k t there).1,there],out⟩
  · intro k member
    by_cases same : k = id
    · exact ⟨task,by simp [same]⟩
    · obtain ⟨t,found⟩ := inv.waiting k (by cases blocked <;> simpa [same] using member)
      exact ⟨t,by simp [same,found]⟩
  · intro k member
    obtain ⟨t,found⟩ := inv.cancelling k member
    exact ⟨t,by simp [(apart k t found).1,found]⟩
  · intro k t a found assigned
    obtain ⟨rfl,rfl⟩ | ⟨_,old⟩ := came k t found
    · rw [submitted.assigned] at assigned
      cases assigned
    · exact inv.served k t a old assigned
  · intro oid record found available
    by_cases same : oid = output
    · simp only [Table.get_insert,same,if_true,Option.some.injEq] at found
      rw [← found,state] at available
      cases available
    · simp only [Table.get_insert,same,if_false] at found
      exact inv.whole oid record found available

theorem requeue (inv : Consistent s) {queue : List TaskId} (same : Requeued s queue) :
    Consistent { s with runnable := queue } := by
  refine { inv with legal := ?_ }
  intro id task found
  have legal := inv.legal id task found
  have bounded := same.bounded id
  have kept := same.kept id task found
  cases state : task.state <;> simp_all [view,View.Legal]

/-- Orphaning an object keeps its state, except that an available one may be lost. -/
theorem orphan_state (node : NodeId) (object : ObjectRecord) :
    (orphan node object).state = object.state ∨ object.state = .Available ∧ (orphan node object).state = .Lost := by
  unfold orphan
  split
  case isTrue owned =>
    simp only [owned_by,Bool.and_eq_true,decide_eq_true_eq] at owned
    cases object.bytes <;> simp [owned.2]
  case isFalse => exact .inl rfl

theorem orphan_whole (whole : Whole object)
    (available : (orphan node object).state = .Available) : Whole (orphan node object) := by
  unfold orphan at available ⊢
  split
  case isTrue owned =>
    rw [if_pos owned] at available
    cases bytes : object.bytes with
    | none => simp [bytes] at available
    | some content => exact ⟨whole.1,whole.2.1,whole.2.2.1,by simp⟩
  case isFalse => exact whole

theorem evict (inv : Consistent s) (idle : ∀ id task, s.tasks.get id = some task → task.on node = false)
    (pending_deletes : Table NodeId (List ObjectId)) :
    Consistent { s with objects := s.objects.mapValues (orphan node), workers := s.workers.remove node, pending_deletes } := by
  refine { inv with worker_ids := ?_, legal := ?_, reserved := ?_, served := ?_, whole := ?_ }
  · intro other worker found
    by_cases same : other = node
    · simp [same] at found
    · simp only [Table.get_remove,same,if_false] at found
      exact inv.worker_ids other worker found
  · intro id task found
    obtain ⟨object,there⟩ := inv.output found
    have legal := inv.legal id task found
    rcases orphan_state node object with kept | ⟨available,lost⟩
    · simpa [view,there,kept] using legal
    · cases state : task.state <;> simp_all [view,View.Legal]
  · intro oid object found state
    simp only [Table.get_mapValues,Option.map_eq_some_iff] at found
    obtain ⟨before,there,rfl⟩ := found
    rcases orphan_state node before with kept | ⟨_,lost⟩
    · exact inv.reserved oid before there (kept ▸ state)
    · rw [lost] at state
      cases state
  · intro id task a found assigned
    obtain ⟨worker,there,identity⟩ := inv.served id task a found assigned
    have apart : a.node ≠ node := fun same => by
      have off := idle id task found
      simp [TaskRecord.on,assigned,same] at off
    exact ⟨worker,by simp [apart,there],identity⟩
  · intro oid object found available
    simp only [Table.get_mapValues,Option.map_eq_some_iff] at found
    obtain ⟨before,there,rfl⟩ := found
    rcases orphan_state node before with kept | ⟨_,lost⟩
    · exact orphan_whole (inv.whole oid before there (kept ▸ available)) available
    · rw [lost] at available
      cases available

theorem release (inv : Consistent s) {id : ObjectId} (found : s.objects.get id = some object)
    (settled : object.state ≠ .Reserved) (pending_deletes : Table NodeId (List ObjectId)) :
    Consistent { s with
      pending_deletes, objects := s.objects.remove id, tasks := s.tasks.retain fun task => task.output ≠ id } := by
  have came : ∀ k t, (s.tasks.retain fun task => task.output ≠ id).get k = some t →
      s.tasks.get k = some t ∧ t.output ≠ id := by
    intro k t kept
    simpa [Option.filter_eq_some_iff] using kept
  -- The task that goes is terminal, so no index names it.
  have stays : ∀ k t, s.tasks.get k = some t → t.state.is_terminal = false →
      (s.tasks.retain fun task => task.output ≠ id).get k = some t := by
    intro k t there live
    have apart : t.output ≠ id := by
      intro same
      exact settled ((inv.reserved_iff there (same ▸ found)).mpr live)
    simp [there,apart]
  have objects : ∀ oid record, (s.objects.remove id).get oid = some record →
      oid ≠ id ∧ s.objects.get oid = some record := by
    intro oid record there
    by_cases same : oid = id
    · simp [same] at there
    · exact ⟨same,by simpa [same] using there⟩
  refine { inv with task_ids := ?_, legal := ?_, outputs := ?_, reserved := ?_, waiting := ?_, cancelling := ?_, served := ?_, whole := ?_ }
  · intro k t kept
    exact inv.task_ids k t (came k t kept).1
  · intro k t kept
    obtain ⟨there,apart⟩ := came k t kept
    simpa [view,apart] using inv.legal k t there
  · intro k₁ k₂ t₁ t₂ kept₁ kept₂ shared
    exact inv.outputs k₁ k₂ t₁ t₂ (came k₁ t₁ kept₁).1 (came k₂ t₂ kept₂).1 shared
  · intro oid record there reserved
    obtain ⟨other,before⟩ := objects oid record there
    obtain ⟨k,t,at_k,out⟩ := inv.reserved oid record before reserved
    exact ⟨k,t,by simp [at_k,out,other],out⟩
  · intro k member
    obtain ⟨t,there⟩ := inv.waiting k member
    exact ⟨t,stays k t there (by rw [(inv.waiting_iff there).mp member]; rfl)⟩
  · intro k member
    obtain ⟨t,there⟩ := inv.cancelling k member
    exact ⟨t,stays k t there (by rw [(inv.cancelling_iff there).mp member]; rfl)⟩
  · intro k t a kept assigned
    exact inv.served k t a (came k t kept).1 assigned
  · intro oid record there available
    exact inv.whole oid record (objects oid record there).2 available

theorem stamp (inv : Consistent s) (now : Nat) : Consistent { s with tasks := s.tasks.mapValues (stamp now) } := by
  have came : ∀ k t, (s.tasks.mapValues (CoordinatorState.stamp now)).get k = some t →
      ∃ t₀, s.tasks.get k = some t₀ ∧ t.id = t₀.id ∧ t.output = t₀.output ∧ t.assigned = t₀.assigned ∧
        ∀ s' : CoordinatorState, s'.view k t = s'.view k t₀ := by
    intro k t found
    simp only [Table.get_mapValues,Option.map_eq_some_iff] at found
    obtain ⟨t₀,there,rfl⟩ := found
    refine ⟨t₀,there,?_⟩
    unfold CoordinatorState.stamp
    split <;> simp [view]
  have stays : ∀ k, (∃ t, s.tasks.get k = some t) → ∃ t, (s.tasks.mapValues (CoordinatorState.stamp now)).get k = some t := by
    rintro k ⟨t,there⟩
    exact ⟨CoordinatorState.stamp now t,by simp [there]⟩
  refine { inv with task_ids := ?_, legal := ?_, outputs := ?_, reserved := ?_, waiting := ?_, cancelling := ?_, served := ?_ }
  · intro k t found
    obtain ⟨t₀,there,ids,_⟩ := came k t found
    rw [ids]
    exact inv.task_ids k t₀ there
  · intro k t found
    obtain ⟨t₀,there,_,_,_,same⟩ := came k t found
    rw [same]
    exact inv.legal k t₀ there
  · intro k₁ k₂ t₁ t₂ found₁ found₂ shared
    obtain ⟨u₁,there₁,_,out₁,_⟩ := came k₁ t₁ found₁
    obtain ⟨u₂,there₂,_,out₂,_⟩ := came k₂ t₂ found₂
    exact inv.outputs k₁ k₂ u₁ u₂ there₁ there₂ (by rw [← out₁,← out₂]; exact shared)
  · intro oid object found reserved
    obtain ⟨k,t,there,out⟩ := inv.reserved oid object found reserved
    obtain ⟨t',there'⟩ := stays k ⟨t,there⟩
    obtain ⟨t₀,there₀,_,out₀,_⟩ := came k t' there'
    rw [there] at there₀
    cases there₀
    exact ⟨k,t',there',out₀.trans out⟩
  · intro k member
    exact stays k (inv.waiting k member)
  · intro k member
    exact stays k (inv.cancelling k member)
  · intro k t a found assigned
    obtain ⟨t₀,there,_,_,same,_⟩ := came k t found
    exact inv.served k t₀ a there (same ▸ assigned)

/-! ### Moves of a single task -/

theorem assign (inv : Consistent s) {queue : List TaskId} {worker : WorkerRecord} (attempt : Attempt)
    (lease : LeaseId) (head : s.runnable = id :: queue) (found : s.tasks.get id = some task)
    (runnable : task.state = .Runnable) (at_worker : s.workers.get node = some worker)
    (same : SameWorkers s.workers workers) :
    Consistent { s with
      runnable := queue
      workers
      tasks := s.tasks.modify id fun task => { task with
        attempt
        state := .Assigned
        assigned := some ⟨node,worker.identity.worker_epoch,worker.identity.session_id,lease⟩ } } := by
  have legal := inv.legal id task found
  refine inv.touch ⟨found,Table.get_modify_of found _,rfl,rfl,fun _ _ => rfl,fun _ _ => Iff.rfl,fun _ _ => Iff.rfl,?_,same⟩
    ?_ ?_ ?_
  · intro k other
    simp [head,Ne.symm other]
  · simp only [view,View.Legal,runnable,head,List.count_cons_self] at legal
    simpa [view,View.Legal] using legal.2.2
  · rintro a ⟨⟩
    exact ⟨worker,at_worker,rfl,rfl⟩
  · exact inv.whole task.output

theorem start (inv : Consistent s) (found : s.tasks.get id = some task) (assigned : task.state = .Assigned) :
    Consistent { s with tasks := s.tasks.modify id fun task => { task with state := .Running } } := by
  have legal := inv.legal id task found
  refine inv.touch ⟨found,Table.get_modify_of found _,rfl,rfl,fun _ _ => rfl,fun _ _ => Iff.rfl,fun _ _ => Iff.rfl,
    fun _ _ => rfl,sameWorkers_refl _⟩ ?_ (fun a => inv.served id task a found) (inv.whole task.output)
  simpa [view,View.Legal,assigned] using legal

/-- A dispatched task is over, and so is the wait for its output. -/
theorem settle (inv : Consistent s) {f : TaskRecord → TaskRecord}
    {g : ObjectRecord → ObjectRecord} (found : s.tasks.get id = some task)
    (state : task.state = .Assigned ∨ task.state = .Running ∨ task.state = .CancelRequested)
    (same : SameWorkers s.workers workers) (kept : (f task).id = task.id ∧ (f task).output = task.output)
    (assigned : (f task).assigned = none) (whole : ∀ object, (g object).state = .Available → Whole (g object))
    (ending : (f task).state = .Succeeded ∧ (∀ object, (g object).state = .Available) ∨
      (∃ message, (f task).state = .Failed message) ∧ (∀ object, (g object).state = .Failed) ∨
      (f task).state = .Cancelled ∧ (∀ object, (g object).state = .Cancelled))
    (cancelling : Finset TaskId) (erased : cancelling = s.cancel_requested ∧ task.state ≠ .CancelRequested ∨
      cancelling = s.cancel_requested.erase id) :
    Consistent { s with
      workers
      cancel_requested := cancelling
      tasks := s.tasks.modify id f
      objects := s.objects.modify task.output g } := by
  have legal := inv.legal id task found
  obtain ⟨object,there⟩ := inv.output found
  refine inv.touch ⟨found,Table.get_modify_of found _,kept.1,kept.2,?_,fun _ _ => Iff.rfl,?_,fun _ _ => rfl,same⟩ ?_ ?_ ?_
  · intro k other
    simp [other]
  · intro k other
    rcases erased with ⟨rfl,_⟩ | rfl
    · rfl
    · simp [other]
  · have unwaiting : id ∉ s.waiting := by
      rw [inv.waiting_iff found]
      rcases state with now | now | now <;> simp [now]
    have gone : id ∉ cancelling := by
      rcases erased with ⟨rfl,other⟩ | rfl
      · rw [inv.cancelling_iff found]
        exact other
      · simp
    rcases ending with ⟨state',output⟩ | ⟨⟨message,state'⟩,output⟩ | ⟨state',output⟩ <;>
      simp [view,View.Legal,state',assigned,kept.2,there,output,unwaiting,gone]
  · intro a some
    rw [assigned] at some
    cases some
  · intro record found' available
    simp only [Table.get_modify,if_true,there,Option.map_some,Option.some.injEq] at found'
    subst found'
    exact whole object available

theorem retry (inv : Consistent s) (not_before_ms : Nat) (found : s.tasks.get id = some task)
    (state : task.state = .Assigned ∨ task.state = .Running) (budget : task.attempt < task.max_attempts)
    (same : SameWorkers s.workers workers) :
    Consistent { s with
      workers
      tasks := s.tasks.modify id fun task => { task with state := .Runnable, assigned := none, not_before_ms }
      waiting := s.waiting.erase id
      runnable := s.runnable ++ [id] } := by
  have legal := inv.legal id task found
  refine inv.touch ⟨found,Table.get_modify_of found _,rfl,rfl,fun _ _ => rfl,?_,fun _ _ => Iff.rfl,?_,same⟩ ?_ ?_
    (inv.whole task.output)
  · intro k other
    simp [other]
  · intro k other
    simp [List.count_append,Ne.symm other]
  · rcases state with now | now <;> simp_all [view,View.Legal]
  · rintro a ⟨⟩

theorem request_cancel (inv : Consistent s) (found : s.tasks.get id = some task)
    (state : task.state = .Assigned ∨ task.state = .Running) :
    Consistent { s with
      tasks := s.tasks.modify id fun task => { task with state := .CancelRequested }
      cancel_requested := insert id s.cancel_requested } := by
  have legal := inv.legal id task found
  refine inv.touch ⟨found,Table.get_modify_of found _,rfl,rfl,fun _ _ => rfl,fun _ _ => Iff.rfl,?_,fun _ _ => rfl,
    sameWorkers_refl _⟩ ?_ (fun a => inv.served id task a found) (inv.whole task.output)
  · intro k other
    simp [other]
  · rcases state with now | now <;> simp_all [view,View.Legal]

/-- A task that was never dispatched is over. -/
theorem drop (inv : Consistent s) (state' : TaskState) (output' : ObjectState)
    (found : s.tasks.get id = some task) (state : task.state = .Waiting ∨ task.state = .Runnable)
    (ending : (∃ message, state' = .Failed message) ∧ output' = .Failed ∨ state' = .Cancelled ∧ output' = .Cancelled) :
    Consistent { s with
      tasks := s.tasks.modify id fun task => { task with state := state' }
      waiting := s.waiting.erase id
      objects := s.objects.modify task.output fun object => { object with state := output' } } := by
  have legal := inv.legal id task found
  obtain ⟨object,there⟩ := inv.output found
  refine inv.touch ⟨found,Table.get_modify_of found _,rfl,rfl,?_,?_,fun _ _ => Iff.rfl,fun _ _ => rfl,sameWorkers_refl _⟩
    ?_ (fun a => inv.served id task a found) ?_
  · intro k other
    simp [other]
  · intro k other
    simp [other]
  · obtain ⟨⟨message,rfl⟩,rfl⟩ | ⟨rfl,rfl⟩ := ending <;> rcases state with now | now <;>
      simp_all [view,View.Legal]
  · intro record found' available
    simp only [Table.get_modify,if_true,there,Option.map_some,Option.some.injEq] at found'
    subst found'
    obtain ⟨_,rfl⟩ | ⟨_,rfl⟩ := ending <;> cases available

theorem wake (inv : Consistent s) (found : s.tasks.get id = some task) (state : task.state = .Waiting) :
    Consistent { s with
      tasks := s.tasks.modify id fun task => { task with state := .Runnable }
      waiting := s.waiting.erase id
      runnable := s.runnable ++ [id] } := by
  have legal := inv.legal id task found
  refine inv.touch ⟨found,Table.get_modify_of found _,rfl,rfl,fun _ _ => rfl,?_,fun _ _ => Iff.rfl,?_,sameWorkers_refl _⟩
    ?_ (fun a => inv.served id task a found) (inv.whole task.output)
  · intro k other
    simp [other]
  · intro k other
    simp [List.count_append,Ne.symm other]
  · simp_all [view,View.Legal]

end Consistent

/-- Every move keeps the tables consistent. -/
theorem Move.consistent {op : Op} (move : Move op s s') (inv : Consistent s) : Consistent s' := by
  cases move with
  | renew deadline => exact inv.of_workers (sameWorkers_modify _ _ _ fun _ => rfl)
  | enroll absent enrolled => exact inv.enroll absent enrolled.node_id _
  | drain found living => exact inv.of_workers (sameWorkers_modify _ _ _ fun _ => rfl)
  | store absent source => exact inv.store absent _ _ _ _
  | submit codec newTask unqueued newOutput submitted => exact inv.submit newTask unqueued newOutput submitted rfl
  | requeue same => exact inv.requeue same
  | assign head found runnable at_worker alive free fits taken minted =>
    exact inv.assign _ _ head found runnable at_worker (sameWorkers_modify _ _ _ fun _ => rfl)
  | start found assigned => exact inv.start found assigned
  | complete asked found state assigned at_worker living location small freed =>
    refine inv.settle found (by tauto) freed.sameWorkers ⟨rfl,rfl⟩ rfl ?_ (.inl ⟨rfl,fun _ => rfl⟩) _ (.inl ⟨rfl,?_⟩)
    · exact fun object _ => ⟨rfl,rfl,rfl,rfl⟩
    · rcases state with now | now <;> simp [now]
  | retry not_before_ms found state assigned budget freed =>
    exact inv.retry _ found state budget freed.sameWorkers
  | fail message found state assigned freed =>
    refine inv.settle found (by tauto) freed.sameWorkers ⟨rfl,rfl⟩ rfl ?_ (.inr (.inl ⟨⟨message,rfl⟩,fun _ => rfl⟩)) _
      (.inl ⟨rfl,?_⟩)
    · rintro object ⟨⟩
    · rcases state with now | now <;> simp [now]
  | acknowledge found state assigned freed =>
    refine inv.settle found (by tauto) freed.sameWorkers ⟨rfl,rfl⟩ rfl ?_ (.inr (.inr ⟨rfl,fun _ => rfl⟩)) _ (.inr rfl)
    rintro object ⟨⟩
  | request_cancel found state => exact inv.request_cancel found state
  | cancel found state => exact inv.drop _ _ found state (.inr ⟨rfl,rfl⟩)
  | starve found state failed => exact inv.drop _ _ found (.inl state) (.inl ⟨⟨_,rfl⟩,rfl⟩)
  | wake found state available => exact inv.wake found state
  | expire sweep => exact inv.of_workers (sameWorkers_modify _ _ _ fun _ => rfl)
  | evict idle => exact inv.evict idle _
  | release pending_deletes found settled unused => exact inv.release found settled _
  | stamp now => exact inv.stamp now
  | take_deletes node => exact { inv with }
  | count later => exact { inv with }

theorem Moves.consistent {op : Op} (moves : Moves op s s') (inv : Consistent s) : Consistent s' :=
  moves.keeps (fun _ _ move => move.consistent) inv

/-- What survives every move of a consistent state survives any number of them. -/
theorem Moves.with_consistent {op : Op} {P : CoordinatorState → Prop} (moves : Moves op s s')
    (inv : Consistent s) (step : ∀ t t', Consistent t → Move op t t' → P t → P t') (start : P s) : P s' :=
  (moves.keeps (P := fun t => Consistent t ∧ P t) (fun t t' move now => ⟨move.consistent now.1,step t t' now.1 move now.2⟩)
    ⟨inv,start⟩).2

end Crayon.CoordinatorState
