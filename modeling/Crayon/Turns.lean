import Crayon.Accounting
import Crayon.Progress
import Crayon.Typing
import Crayon.Worker

/-!
Turns of a worker. In a turn a worker polls, and if it gets a task it starts it,
executes it and reports what came of it (`take_turn`). A turn uses up an attempt, and
between turns a live task is queued or waits for one that is. So a single worker that
could do all the work, and that polls again when retries are due, brings every task to
an end, however its executions go (`run_worked_off`).
-/
namespace Crayon.CoordinatorState
open Command

section
variable {s s' : CoordinatorState} {id : TaskId} {task : TaskRecord}

/-! ### A turn -/

/-- A turn of a worker: the lease that its poll draws, and the coordinator's clock when it polls and when it reports. -/
structure Turn where
  lease : LeaseId
  polled : Nat
  reported : Nat

section
variable (blake3 : List UInt8 → Checksum) (display : Error → String) (order : HashOrder) (config : WorkerConfig)
  (identity : WorkerIdentity) (execute : TaskAssignment → Except (Error × FailureClass) Buffer)

/-- The report of what an execution came to. -/
def conclude (assignment : TaskAssignment) (reported : Nat) : Except (Error × FailureClass) Buffer → Coord Unit
  | .ok bytes => do
    let descriptor ← ok_or (config.descriptor assignment.operation) (.OperationUnavailable assignment.operation.to_string)
    complete blake3 order identity (config.completion assignment ⟨descriptor.output_codec,bytes,blake3 bytes.bytes⟩)
  | .error (error,«class») => do
    let _ ← fail order identity assignment.fence (display error) «class» reported

/-- What a worker does in a turn in which no request fails: it polls, and if it gets a task it starts it, executes it
    and reports what came of it. -/
def take_turn (turn : Turn) : Coord Unit := do
  match ← assign_next identity.node_id turn.polled turn.lease with
  | none => pure ()
  | some assignment => do
    started identity assignment.fence
    conclude blake3 display order config identity assignment turn.reported (execute assignment)

/-- The worker is registered as the process describes itself, and takes tasks. -/
structure Offers (worker : WorkerRecord) : Prop where
  alive : worker.state = .Alive
  identity : worker.identity = identity
  address : worker.advertise_addr = config.advertise
  total : worker.total = config.resources
  slots : worker.slots ≠ 0
  operations : ∀ key, worker.operations.get key = config.descriptor key

/-- The worker could do all the work there is, and no worker has any of it. -/
structure Willing (s : CoordinatorState) : Prop where
  epoch : identity.coordinator_epoch = s.epoch
  worker : ∃ worker, s.workers.get identity.node_id = some worker ∧ Offers config identity worker
  idle : ∀ id task, s.tasks.get id = some task → task.state.is_terminal = false →
    task.state = .Waiting ∨ task.state = .Runnable
  capable : ∀ id task, s.tasks.get id = some task → task.state.is_terminal = false →
    (config.descriptor task.operation).isSome = true ∧ config.resources.can_fit task.resources = true

/-- The assignment is that of the task. -/
def Describes (assignment : TaskAssignment) (task : TaskRecord) : Prop :=
  assignment.operation = task.operation ∧ assignment.args = task.args ∧ assignment.output_id = task.output

/-- How a task has ended: with the output of one of its executions, which is served; with the error of one; or with one
    of its arguments. -/
inductive Concluded (t : CoordinatorState) (task : TaskRecord) : Prop where
  | served {assignment : TaskAssignment} {bytes : Buffer} {object : ObjectRecord} (state : task.state = .Succeeded)
      (describes : Describes assignment task) (executed : execute assignment = .ok bytes)
      (found : t.objects.get task.output = some object) (available : object.state = .Available)
      (content : object.checksum = some (blake3 bytes.bytes))
  | failed {assignment : TaskAssignment} {error : Error} {«class» : FailureClass} (describes : Describes assignment task)
      (executed : execute assignment = .error (error,«class»)) (state : task.state = .Failed (display error))
  | starved (state : task.state = .Failed "dependency failed")

end

/-! ### What the dependency pass leaves alone -/

theorem Ripples.task_cases (ripples : Ripples s s') (k : TaskId) :
    s'.tasks.get k = s.tasks.get k ∨ ∃ other, s.tasks.get k = some other ∧ other.state = .Waiting ∧
      (s'.tasks.get k = some { other with state := .Runnable } ∨
        s'.tasks.get k = some { other with state := .Failed "dependency failed" }) := by
  induction ripples with
  | refl => exact .inl rfl
  | @tail t u _ ripple ih =>
    -- A task that does not wait any more is not looked at again.
    have last : u.tasks.get k = t.tasks.get k ∨ ∃ other, t.tasks.get k = some other ∧ other.state = .Waiting ∧
        (u.tasks.get k = some { other with state := .Runnable } ∨
          u.tasks.get k = some { other with state := .Failed "dependency failed" }) := by
      cases ripple with
      | @starve j other found state failed =>
        by_cases same : k = j
        · subst same
          exact .inr ⟨other,found,state,.inr (by simp [found])⟩
        · exact .inl (by simp [same])
      | @wake j other found state available =>
        by_cases same : k = j
        · subst same
          exact .inr ⟨other,found,state,.inl (by simp [found])⟩
        · exact .inl (by simp [same])
    rcases last with same | ⟨other,found,waiting,after⟩
    · rwa [same]
    · rcases ih with before | ⟨first,_,_,woken | starved⟩
      · exact .inr ⟨other,before ▸ found,waiting,after⟩
      · rw [woken] at found
        cases found
        cases waiting
      · rw [starved] at found
        cases found
        cases waiting

/-- Only what is still to come fails with a task. -/
theorem Ripples.settled (ripples : Ripples s s') (inv : Consistent s) {oid : ObjectId} {object : ObjectRecord}
    (found : s.objects.get oid = some object) (settled : object.state ≠ .Reserved) : s'.objects.get oid = some object := by
  induction ripples with
  | refl => exact found
  | @tail t u before ripple ih =>
    cases ripple with
    | @starve j other there state failed =>
      have inv' := Ripples.consistent before inv
      have apart : oid ≠ other.output := by
        rintro rfl
        exact settled ((inv'.reserved_iff there ih).mpr (by rw [state]; rfl))
      rw [Table.get_modify,if_neg apart]
      exact ih
    | wake => exact ih

/-! ### Getting a task and reporting on it -/

section
variable {blake3 : List UInt8 → Checksum} {display : Error → String} {config : WorkerConfig} {identity : WorkerIdentity}
  {execute : TaskAssignment → Except (Error × FailureClass) Buffer} {worker : WorkerRecord} {fence : TaskFence}

theorem Willing.unassigned (willing : Willing config identity s) (inv : Consistent s) (found : s.tasks.get id = some task) :
    task.assigned = none := by
  have dispatched := inv.dispatched_iff found
  cases live : task.state.is_terminal with
  | false =>
    refine Option.not_isSome_iff_eq_none.mp fun assigned => ?_
    rcases willing.idle id task found live with state | state <;> simp [assigned,state] at dispatched
  | true =>
    refine Option.not_isSome_iff_eq_none.mp fun assigned => ?_
    rcases dispatched.mp assigned with state | state | state <;> simp [state,TaskState.is_terminal] at live

/-- A worker has all its slots and resources when no task is dispatched. -/
theorem Accounted.unused (accounted : Accounted s) {node : NodeId} (found : s.workers.get node = some worker)
    (living : worker.state ≠ .Dead) (unassigned : ∀ id task, s.tasks.get id = some task → task.assigned = none) :
    worker.free_slots = worker.slots ∧ ∀ name, worker.available.amount name = worker.total.amount name := by
  have nothing : ∀ {M : Type} [AddCommMonoid M] {g : TaskRecord → M}, Contribution g → s.tasks.sum g = 0 := by
    intro M _ g contribution
    refine Finset.sum_eq_zero fun k member => ?_
    obtain ⟨task,there⟩ := Table.mem_keys_iff.mp member
    rw [there,Option.elim_some,contribution.idle task (unassigned k task there)]
  refine ⟨UInt32.toNat_inj.mp ?_,fun name => ?_⟩
  · have books := accounted.slots node worker found living
    rw [busy,nothing (slot_contribution node)] at books
    exact books
  · have books := (accounted.resources node worker found living name).2
    rw [load,nothing (resource_contribution node name),add_zero] at books
    exact books

/-- A worker that could do all the work gets a task if there is one. -/
theorem Willing.dispatched (blake3 : List UInt8 → Checksum) (willing : Willing config identity s) (inv : Inv s) (accounted : Accounted s)
    (found : s.tasks.get id = some task) (runnable : task.state = .Runnable) {turn : Turn}
    (due : task.not_before_ms ≤ turn.polled) :
    ∃ assignment t, assign_next identity.node_id turn.polled turn.lease s = .ok (some assignment) t ∧
      Effect blake3 (.assign_next identity.node_id turn.polled turn.lease) s (.Assignment (some assignment)) t := by
  obtain ⟨worker,registered,offers⟩ := willing.worker
  have living := inv.alive _ worker registered
  obtain ⟨slots,amounts⟩ := accounted.unused registered living fun k other there => willing.unassigned inv.consistent there
  obtain ⟨offered,fits⟩ := willing.capable id task found (by rw [runnable]; rfl)
  have servable : Servable worker turn.polled task := by
    refine ⟨runnable,due,by rw [offers.operations]; exact offered,?_⟩
    rw [ResourceSet.can_fit_iff] at fits ⊢
    intro name value needed
    rw [amounts,offers.total]
    exact fits name value needed
  have queued : id ∈ s.runnable := by
    have legal := inv.consistent.legal id task found
    simp only [view,View.Legal,runnable] at legal
    exact List.count_pos_iff.mp (by rw [legal.2.2.2.2.2]; decide)
  obtain ⟨assignment,t,ran,effect,none,_⟩ := assign_next_ends blake3 inv.consistent registered turn.polled turn.lease
  cases assignment with
  | some assignment => exact ⟨assignment,t,ran,effect⟩
  | none => exact absurd servable (none rfl offers.alive (slots ▸ offers.slots) id queued task found)

theorem check_fence_ok (current : Current s identity) (matching : Matches s identity fence) :
    check_fence identity fence s = .ok () s := by
  obtain ⟨epoch,worker,there,live⟩ := current
  obtain ⟨task,found,assigned,attempt⟩ := matching
  have same : task.assigned = some ⟨identity.node_id,identity.worker_epoch,identity.session_id,fence.lease_id⟩ ∧
      task.attempt = fence.attempt := ⟨assigned,attempt⟩
  simp only [check_fence,check_identity,bind_apply,get_apply,ensure_of epoch,there,ok_or_some,pure_apply,ensure_of live,found,
    ensure_of same]

theorem started_ok (current : Current s identity) (matching : Matches s identity fence)
    (found : s.tasks.get fence.task_id = some task) (assigned : task.state = .Assigned) :
    started identity fence s = .ok () { s with
      tasks := s.tasks.modify fence.task_id fun task => { task with state := .Running }
      revision := s.revision + 1 } := by
  have unstarted : ¬ task.state = .Running := by simp [assigned]
  simp only [started,bind_apply,get_apply,found,ok_or_some,pure_apply,if_neg unstarted,check_fence_ok current matching,
    unwrap_some,ensure_of assigned,task_mut,set_apply,changed,modify_apply]

/-- What a task takes of the worker that has it can be given back. -/
theorem Accounted.returns (accounted : Accounted s) (inv : Inv s)
    (found : s.tasks.get fence.task_id = some task) (matching : Matches s identity fence) :
    ∃ workers, release identity.node_id task.resources s = .ok () { s with workers } ∧
      Freed s.workers identity.node_id task.resources workers := by
  obtain ⟨worker,registered,_⟩ := inv.consistent.served _ task _ found (matching.assigned found)
  obtain ⟨returned,taken⟩ := accounted.release_ok inv found matching
  rcases release_cases registered (inv.alive _ worker registered) task.resources with ⟨e,refused⟩ | given
  · rw [show release identity.node_id task.resources s = _ from refused] at taken
    cases taken
  · exact given

/-- A report of an output is accepted if it is true to the task and to the worker. -/
theorem complete_ok (order : HashOrder) {report : TaskCompletion} {descriptor : OperationDescriptor} (inv : Inv s)
    (accounted : Accounted s) (current : Current s identity) (matching : Matches s identity report.fence)
    (found : s.tasks.get report.fence.task_id = some task) (running : task.state = .Running)
    (registered : s.workers.get identity.node_id = some worker)
    (offered : s.operations.get task.operation = some descriptor)
    (verified : (report.bytes.all fun bytes =>
      UInt64.ofNat bytes.length = report.size_bytes && blake3 bytes = report.checksum) = true)
    (out : task.output = report.output_id) (codec : report.codec = descriptor.output_codec)
    (location : report.location = worker.advertise_addr) (small : report.size_bytes ≤ UInt64.ofNat MAX_OBJECT_BYTES) :
    ∃ s', complete blake3 order identity report s = .ok () s' := by
  have undone : ¬ task.state = .Succeeded := by simp [running]
  have state : task.state = .Assigned ∨ task.state = .Running := .inr running
  obtain ⟨object,there⟩ := inv.consistent.output found
  have accepted : object.state = .Reserved ∧ report.codec = descriptor.output_codec ∧
      report.location = worker.advertise_addr ∧ report.size_bytes ≤ UInt64.ofNat MAX_OBJECT_BYTES :=
    ⟨(inv.consistent.reserved_iff found there).mpr (by rw [running]; rfl),codec,location,small⟩
  have living := inv.alive _ worker registered
  obtain ⟨workers,released,freed⟩ := accounted.returns inv found matching
  have move : Move (.complete identity report) s _ :=
    .complete rfl found state (matching.assigned found) registered living location small freed
  obtain ⟨t,ran,_⟩ := reconcile_dependencies_ends order (move.consistent inv.consistent)
  exact ⟨_,by
    simp only [complete,bind_apply,get_apply,found,ok_or_some,pure_apply,if_neg undone,check_fence_ok current matching,
      unwrap_some,ensure_of state,registered,offered,ensure_of verified,ensure_of out,there,ensure_of accepted,released,
      task_mut,object_mut,set_apply,ran,changed,modify_apply]
    rfl⟩

/-- A report of a failure is accepted from the worker that has the task. -/
theorem fail_ok (order : HashOrder) (message : String) («class» : FailureClass) (now : Nat) (inv : Inv s)
    (accounted : Accounted s) (current : Current s identity) (matching : Matches s identity fence)
    (found : s.tasks.get fence.task_id = some task) (running : task.state = .Running) :
    ∃ permanently s', fail order identity fence message «class» now s = .ok permanently s' := by
  have unended : task.state.is_terminal = false := by rw [running]; rfl
  have state : task.state = .Assigned ∨ task.state = .Running := .inr running
  obtain ⟨object,there⟩ := inv.consistent.output found
  obtain ⟨workers,released,freed⟩ := accounted.returns inv found matching
  by_cases retry : «class» = .Transient ∧ task.attempt < task.max_attempts
  · exact ⟨false,_,by
      simp only [fail,bind_apply,get_apply,found,ok_or_some,pure_apply,unended,if_false,Bool.false_eq_true,
        check_fence_ok current matching,unwrap_some,ensure_of state,released,task_mut,set_apply,if_pos retry,mark_runnable,
        changed,modify_apply,Table.get_modify,if_true,Option.map_some]
      rfl⟩
  · have move : Move (.fail identity fence message «class» now) s _ := .fail message found state (matching.assigned found) freed
    obtain ⟨t,ran,_⟩ := reconcile_dependencies_ends order (move.consistent inv.consistent)
    exact ⟨true,_,by
      simp only [fail,bind_apply,get_apply,found,ok_or_some,pure_apply,unended,if_false,Bool.false_eq_true,
        check_fence_ok current matching,unwrap_some,ensure_of state,released,task_mut,object_mut,set_apply,if_neg retry,changed,
        modify_apply,Table.get_modify,if_true,Option.map_some,Table.modify_modify,there,ran]
      rfl⟩

/-! ### What a turn does -/

/-- What a turn did to a task that the worker got, and to the rest. -/
structure Turned (blake3 : List UInt8 → Checksum) (display : Error → String) (config : WorkerConfig)
    (identity : WorkerIdentity) (execute : TaskAssignment → Except (Error × FailureClass) Buffer) (reported : Nat)
    (s t : CoordinatorState) (id : TaskId) (task after : TaskRecord) : Prop where
  found : s.tasks.get id = some task
  runnable : task.state = .Runnable
  found' : t.tasks.get id = some after
  same : after.operation = task.operation ∧ after.args = task.args ∧ after.output = task.output ∧
    after.resources = task.resources ∧ after.max_attempts = task.max_attempts
  attempt : after.attempt = task.attempt + 1
  outcome : Concluded blake3 display execute t after ∨
    after.state = .Runnable ∧ after.not_before_ms ≤ reported + RETRY_BACKOFF_CAP_MS
  others : ∀ k, k ≠ id → t.tasks.get k = s.tasks.get k ∨ ∃ other, s.tasks.get k = some other ∧ other.state = .Waiting ∧
    (t.tasks.get k = some { other with state := .Runnable } ∨
      t.tasks.get k = some { other with state := .Failed "dependency failed" })
  settled : ∀ oid object, s.objects.get oid = some object → object.state ≠ .Reserved → t.objects.get oid = some object
  epoch : t.epoch = s.epoch
  worker : ∃ worker, t.workers.get identity.node_id = some worker ∧ Offers config identity worker

theorem Ripples.epoch (ripples : Ripples s s') : s'.epoch = s.epoch := by
  induction ripples with
  | refl => rfl
  | tail _ ripple ih => cases ripple <;> exact ih

theorem Freed.offers {workers workers' : Table NodeId WorkerRecord} {node : NodeId} {resources : ResourceSet}
    (freed : Freed workers node resources workers')
    (before : ∃ worker, workers.get identity.node_id = some worker ∧ Offers config identity worker) :
    ∃ worker, workers'.get identity.node_id = some worker ∧ Offers config identity worker := by
  cases freed with
  | dropped => exact before
  | returned found living room added =>
    obtain ⟨worker,registered,offers⟩ := before
    rw [Table.get_modify]
    split
    · rw [registered]
      exact ⟨_,rfl,{ offers with }⟩
    · exact ⟨worker,registered,offers⟩

/-- The task is the worker's, and runs. -/
structure Undertakes (s : CoordinatorState) (config : WorkerConfig) (identity : WorkerIdentity) (fence : TaskFence)
    (task : TaskRecord) : Prop where
  current : Current s identity
  matching : Matches s identity fence
  found : s.tasks.get fence.task_id = some task
  running : task.state = .Running
  worker : ∃ worker, s.workers.get identity.node_id = some worker ∧ Offers config identity worker

/-- What a dispatch does to the tables. -/
theorem Effect.assigns {node : NodeId} {now : Nat} {lease : LeaseId} {assignment : TaskAssignment}
    (effect : Effect blake3 (.assign_next node now lease) s (.Assignment (some assignment)) s') :
    ∃ task worker available, s.tasks.get assignment.fence.task_id = some task ∧ s.workers.get node = some worker ∧
      Servable worker now task ∧ Describes assignment task ∧ assignment.fence.attempt = task.attempt + 1 ∧
      s'.tasks = s.tasks.modify assignment.fence.task_id (fun record => { record with
        attempt := task.attempt + 1
        state := .Assigned
        assigned := some ⟨node,worker.identity.worker_epoch,worker.identity.session_id,assignment.fence.lease_id⟩ }) ∧
      s'.workers = s.workers.modify node (fun w => { w with available, free_slots := worker.free_slots - 1 }) ∧
      s'.objects = s.objects ∧ s'.epoch = s.epoch := by
  cases effect with
  | assigned requeued found at_worker alive free servable budget taken assigns owned hits =>
    exact ⟨_,_,_,found,at_worker,servable,⟨rfl,rfl,rfl⟩,rfl,rfl,rfl,rfl,rfl⟩

/-- The worker gets a task and starts it. -/
theorem Willing.starts {epoch : CoordinatorEpoch} {past : List Step} (run : Run blake3 epoch past s)
    (supplied : Supplied past) (willing : Willing config identity s) (order : HashOrder) {k : TaskId} {first : TaskRecord}
    (there : s.tasks.get k = some first) (runnable : first.state = .Runnable) {turn : Turn}
    (due : first.not_before_ms ≤ turn.polled) (fresh : ∀ step ∈ past, .lease turn.lease ∉ step.op.minted) :
    ∃ assignment task steps t u, assign_next identity.node_id turn.polled turn.lease s = .ok (some assignment) t ∧
      started identity assignment.fence t = .ok () u ∧ Run blake3 epoch (steps ++ past) u ∧
      (∀ step ∈ steps, step.op.resources = none ∧ ∀ lease, .lease lease ∈ step.op.minted → lease = turn.lease) ∧
      s.tasks.get assignment.fence.task_id = some task ∧ task.state = .Runnable ∧ Describes assignment task ∧
      Undertakes u config identity assignment.fence
        { task with attempt := task.attempt + 1, state := .Running, assigned := some (dispatch identity assignment.fence) } ∧
      u.tasks = s.tasks.modify assignment.fence.task_id (fun record => { record with
        attempt := task.attempt + 1
        state := .Running
        assigned := some (dispatch identity assignment.fence) }) ∧
      u.objects = s.objects ∧ u.epoch = s.epoch := by
  obtain ⟨assignment,t,ran,effect⟩ := willing.dispatched blake3 run.inv (run.accounted supplied) there runnable due
  obtain ⟨worker,registered,offers⟩ := willing.worker
  obtain ⟨task,worker',available,found,at_worker,servable,describes,attempt,tasks,workers,objects,epoch⟩ := effect.assigns
  obtain rfl := Option.some.inj (registered.symm.trans at_worker)
  rw [offers.identity] at tasks
  have registered' : t.workers.get identity.node_id = some { worker with available, free_slots := worker.free_slots - 1 } := by
    simp [workers,registered]
  have offers' : Offers config identity { worker with available, free_slots := worker.free_slots - 1 } := { offers with }
  have current : Current t identity := by
    refine ⟨epoch ▸ willing.epoch,_,registered',?_,?_,?_⟩
    · simp [offers.alive]
    · simp [offers.identity]
    · simp [offers.identity]
  have found' : t.tasks.get assignment.fence.task_id = some { task with
      attempt := task.attempt + 1, state := .Assigned, assigned := some (dispatch identity assignment.fence) } := by
    simp [tasks,found,dispatch]
  have matching : Matches t identity assignment.fence := ⟨_,found',rfl,attempt.symm⟩
  have began := started_ok current matching found' rfl
  have run₁ := Run.step run order (.assign_next identity.node_id turn.polled turn.lease)
    (by simpa [Fresh,Op.minted,stores] using fresh)
  simp only [apply,bind_apply,ran,pure_apply,Outcome.state_ok] at run₁
  have run₂ := Run.step run₁ order (.started identity assignment.fence) (by simp [Fresh,Op.minted])
  simp only [apply,bind_apply,began,pure_apply,Outcome.state_ok] at run₂
  have running : (t.tasks.modify assignment.fence.task_id fun record => { record with state := .Running }).get
      assignment.fence.task_id = some { task with
        attempt := task.attempt + 1, state := .Running, assigned := some (dispatch identity assignment.fence) } := by
    simp [found']
  refine ⟨assignment,task,[_,_],t,_,ran,began,run₂,?_,found,servable.runnable,describes,
    ⟨current,⟨_,running,rfl,attempt.symm⟩,running,rfl,_,registered',offers'⟩,?_,objects,epoch⟩
  · simp [Op.minted,Op.resources]
  · rw [tasks,Table.modify_modify]
    rfl

/-- The dependency pass has been made. -/
def Reconciles (s t : CoordinatorState) : Prop :=
  ∃ r, Ripples s r ∧ t.tasks = r.tasks ∧ t.objects = r.objects ∧ t.workers = r.workers ∧ t.epoch = r.epoch

/-- What a report does to the task that the worker has; the dependency pass comes last. -/
structure Closes (blake3 : List UInt8 → Checksum) (display : Error → String) (config : WorkerConfig)
    (identity : WorkerIdentity) (execute : TaskAssignment → Except (Error × FailureClass) Buffer) (reported : Nat)
    (s u t : CoordinatorState) (id : TaskId) (task after : TaskRecord) : Prop where
  tasks : ∃ f, u.tasks = s.tasks.modify id f ∧ f task = after
  same : after.operation = task.operation ∧ after.args = task.args ∧ after.output = task.output ∧
    after.resources = task.resources ∧ after.max_attempts = task.max_attempts
  attempt : after.attempt = task.attempt
  outcome : Concluded blake3 display execute u after ∨
    after.state = .Runnable ∧ after.not_before_ms ≤ reported + RETRY_BACKOFF_CAP_MS
  objects : ∀ oid, oid ≠ task.output → u.objects.get oid = s.objects.get oid
  consistent : Consistent u
  epoch : u.epoch = s.epoch
  worker : ∃ worker, u.workers.get identity.node_id = some worker ∧ Offers config identity worker
  settles : Reconciles u t

section
variable {epoch : CoordinatorEpoch} {past : List Step} {assignment : TaskAssignment} {t : CoordinatorState}
variable {after : TaskRecord} {reported : Nat} {left : List Turn}

theorem size_le {n : Nat} (small : n ≤ MAX_OBJECT_BYTES) : UInt64.ofNat n ≤ UInt64.ofNat MAX_OBJECT_BYTES := by
  have bound : MAX_OBJECT_BYTES < 2^64 := by decide
  rw [UInt64.le_iff_toNat_le,UInt64.toNat_ofNat',UInt64.toNat_ofNat',Nat.mod_eq_of_lt bound,Nat.mod_eq_of_lt (by omega)]
  exact small

/-- The output of the task is reported. -/
theorem Undertakes.completes (holds : Undertakes s config identity assignment.fence task) (run : Run blake3 epoch past s)
    (supplied : Supplied past) (order : HashOrder) (describes : Describes assignment task)
    (offered : (config.descriptor task.operation).isSome = true) {bytes : Buffer} (executed : execute assignment = .ok bytes)
    (small : bytes.bytes.length ≤ MAX_OBJECT_BYTES) (reported : Nat) :
    ∃ step u t after, conclude blake3 display order config identity assignment reported (.ok bytes) s = .ok () t ∧
      Run blake3 epoch (step :: past) t ∧ step.op.resources = none ∧ step.op.minted = [] ∧
      Closes blake3 display config identity execute reported s u t assignment.fence.task_id task after := by
  obtain ⟨worker,registered,offers⟩ := holds.worker
  obtain ⟨descriptor,described⟩ := Option.isSome_iff_exists.mp offered
  have known := run.typed.catalog _ worker _ _ registered ((offers.operations _).trans described)
  rw [← describes.1] at described
  have verified : ((config.completion assignment ⟨descriptor.output_codec,bytes,blake3 bytes.bytes⟩).bytes.all fun inline =>
      UInt64.ofNat inline.length = bytes.len && blake3 inline = blake3 bytes.bytes) = true := by
    rw [WorkerConfig.completion]
    split
    · simp [Buffer.len]
    · rfl
  obtain ⟨t,ran⟩ : ∃ t, complete blake3 order identity
      (config.completion assignment ⟨descriptor.output_codec,bytes,blake3 bytes.bytes⟩) s = .ok () t :=
    complete_ok order run.inv (run.accounted supplied) holds.current holds.matching holds.found holds.running registered known verified describes.2.2.symm rfl
    offers.address.symm (size_le small)
  have run' := Run.step run order
    (.complete identity (config.completion assignment ⟨descriptor.output_codec,bytes,blake3 bytes.bytes⟩)) (by simp [Fresh,Op.minted])
  simp only [apply,bind_apply,ran,pure_apply,Outcome.state_ok] at run'
  have effect := complete_effect blake3 run.inv.consistent order identity
    (config.completion assignment ⟨descriptor.output_codec,bytes,blake3 bytes.bytes⟩)
  rw [ran,Outcome.ends_ok] at effect
  cases effect with
  | completed_before found done =>
    obtain rfl := Option.some.inj (holds.found.symm.trans found)
    rw [holds.running] at done
    cases done
  | @completed r _ _ _ _ _ _ object workers current matching found state at_worker living offered verified there accepted freed
      ripples reconciled =>
    obtain rfl := Option.some.inj (holds.found.symm.trans found)
    have move : Move (.complete identity (config.completion assignment ⟨descriptor.output_codec,bytes,blake3 bytes.bytes⟩)) s _ :=
      .complete rfl found state (matching.assigned found) at_worker living accepted.2.2.1 accepted.2.2.2 freed
    refine ⟨_,_,_,_,?_,run',rfl,rfl,⟨_,rfl,rfl⟩,⟨rfl,rfl,rfl,rfl,rfl⟩,rfl,?_,fun oid other => ?_,move.consistent run.inv.consistent,
      rfl,freed.offers ⟨worker,registered,offers⟩,_,ripples,rfl,rfl,rfl,rfl⟩
    · simp only [conclude,bind_apply,described,ok_or_some,pure_apply,ran]
    · have delivered : (s.objects.modify task.output (reported_output identity
          (config.completion assignment ⟨descriptor.output_codec,bytes,blake3 bytes.bytes⟩))).get task.output =
            some (reported_output identity
              (config.completion assignment ⟨descriptor.output_codec,bytes,blake3 bytes.bytes⟩) object) := by
        simp [there]
      exact .inl (.served rfl describes executed delivered rfl rfl)
    · simp [other]

/-- A failure of the task is reported. -/
theorem Undertakes.fails (holds : Undertakes s config identity assignment.fence task) (run : Run blake3 epoch past s)
    (supplied : Supplied past) (order : HashOrder) (describes : Describes assignment task) {error : Error}
    {«class» : FailureClass} (executed : execute assignment = .error (error,«class»)) (reported : Nat) :
    ∃ step u t after, conclude blake3 display order config identity assignment reported (.error (error,«class»)) s = .ok () t ∧
      Run blake3 epoch (step :: past) t ∧ step.op.resources = none ∧ step.op.minted = [] ∧
      Closes blake3 display config identity execute reported s u t assignment.fence.task_id task after := by
  obtain ⟨worker,registered,offers⟩ := holds.worker
  obtain ⟨permanently,t,ran⟩ := fail_ok order (display error) «class» reported run.inv (run.accounted supplied) holds.current
    holds.matching holds.found holds.running
  have run' := Run.step run order (.fail identity assignment.fence (display error) «class» reported) (by simp [Fresh,Op.minted])
  simp only [apply,bind_apply,ran,pure_apply,Outcome.state_ok] at run'
  have effect := fail_effect blake3 run.inv.consistent order identity assignment.fence (display error) «class» reported
  rw [ran,Outcome.ends_ok] at effect
  have concluded : conclude blake3 display order config identity assignment reported (.error (error,«class»)) s = .ok () t := by
    simp only [conclude,bind_apply,ran,pure_apply]
  cases effect with
  | failed_before found ended =>
    obtain rfl := Option.some.inj (holds.found.symm.trans found)
    rw [holds.running] at ended
    cases ended
  | @retried _ _ _ _ _ _ _ workers current matching found state retry freed =>
    obtain rfl := Option.some.inj (holds.found.symm.trans found)
    refine ⟨_,_,_,_,concluded,run',rfl,rfl,⟨_,rfl,rfl⟩,⟨rfl,rfl,rfl,rfl,rfl⟩,rfl,.inr ⟨rfl,?_⟩,fun oid other => ?_,
      run'.inv.consistent,rfl,freed.offers ⟨worker,registered,offers⟩,_,.refl,rfl,rfl,rfl,rfl⟩
    · exact le_trans (min_le_left _ _) (Nat.add_le_add_left (min_le_right _ _) _)
    · rfl
  | @failed _ r _ _ _ _ _ _ workers current matching found state final freed ripples reconciled =>
    obtain rfl := Option.some.inj (holds.found.symm.trans found)
    have move : Move (.fail identity assignment.fence (display error) «class» reported) s _ :=
      .fail (display error) found state (matching.assigned found) freed
    refine ⟨_,_,_,_,concluded,run',rfl,rfl,⟨_,rfl,rfl⟩,⟨rfl,rfl,rfl,rfl,rfl⟩,rfl,.inl (.failed describes executed rfl),
      fun oid other => ?_,move.consistent run.inv.consistent,rfl,freed.offers ⟨worker,registered,offers⟩,_,ripples,rfl,rfl,rfl,rfl⟩
    simp [other]

/-- A task that has ended stays so while the objects that are settled do. -/
theorem Concluded.later {u t : CoordinatorState} (concluded : Concluded blake3 display execute u task)
    (settled : ∀ oid object, u.objects.get oid = some object → object.state ≠ .Reserved → t.objects.get oid = some object) :
    Concluded blake3 display execute t task := by
  cases concluded with
  | served state describes executed found available content =>
    exact .served state describes executed (settled _ _ found (by simp [available])) available content
  | failed describes executed state => exact .failed describes executed state
  | starved state => exact .starved state

theorem Concluded.ended (concluded : Concluded blake3 display execute t task) : task.state.is_terminal = true := by
  cases concluded with
  | served state => rw [state]; rfl
  | failed describes executed state => rw [state]; rfl
  | starved state => rw [state]; rfl

/-- The turn of a worker that gets a task. -/
theorem Willing.turn (run : Run blake3 epoch past s) (supplied : Supplied past) (willing : Willing config identity s)
    (order : HashOrder) (there : s.tasks.get id = some task) (runnable : task.state = .Runnable) {turn : Turn}
    (due : task.not_before_ms ≤ turn.polled) (fresh : ∀ step ∈ past, .lease turn.lease ∉ step.op.minted)
    (small : ∀ assignment bytes, execute assignment = .ok bytes → bytes.bytes.length ≤ MAX_OBJECT_BYTES) :
    ∃ steps t id task after, take_turn blake3 display order config identity execute turn s = .ok () t ∧
      Run blake3 epoch (steps ++ past) t ∧
      (∀ step ∈ steps, step.op.resources = none ∧ ∀ lease, .lease lease ∈ step.op.minted → lease = turn.lease) ∧
      Turned blake3 display config identity execute turn.reported s t id task after := by
  obtain ⟨assignment,task,steps,m₀,m,polled,began,run',quiet,found,runnable,describes,holds,tasks,objects,sameEpoch⟩ :=
    willing.starts run supplied order there runnable due fresh
  have supplied' : Supplied (steps ++ past) := by
    intro step member r brings
    rcases List.mem_append.mp member with new | old
    · rw [(quiet step new).1] at brings
      cases brings
    · exact supplied step old r brings
  have closes : ∃ step u t after,
      conclude blake3 display order config identity assignment turn.reported (execute assignment) m = .ok () t ∧
      Run blake3 epoch (step :: (steps ++ past)) t ∧ step.op.resources = none ∧ step.op.minted = [] ∧
      Closes blake3 display config identity execute turn.reported m u t assignment.fence.task_id
        { task with attempt := task.attempt + 1, state := .Running, assigned := some (dispatch identity assignment.fence) }
        after := by
    cases executed : execute assignment with
    | ok bytes =>
      have offered := (willing.capable _ task found (by rw [runnable]; rfl)).1
      exact holds.completes run' supplied' order describes offered executed (small _ _ executed) turn.reported
    | error failure => exact holds.fails run' supplied' order describes executed turn.reported
  obtain ⟨step,u,t,after,concluded,run'',brings,draws,closed⟩ := closes
  refine ⟨step :: steps,t,assignment.fence.task_id,task,after,?_,run'',?_,?_⟩
  · simp only [take_turn,bind_apply,polled,began,concluded]
  · intro other member
    rcases List.mem_cons.mp member with rfl | earlier
    · exact ⟨brings,by simp [draws]⟩
    · exact quiet other earlier
  obtain ⟨f,changed,ended⟩ := closed.tasks
  have settles := closed.settles
  obtain ⟨r,ripples,sameTasks,sameObjects,sameWorkers,lastEpoch⟩ := settles
  have reported : u.tasks.get assignment.fence.task_id = some after := by
    rw [changed,Table.get_modify,if_pos rfl,holds.found,Option.map_some,ended]
  have finished : after.state ≠ .Waiting := by
    rcases closed.outcome with concluded | ⟨state,_⟩
    · have := concluded.ended
      intro waiting
      simp [waiting,TaskState.is_terminal] at this
    · simp [state]
  have outside : ∀ k, k ≠ assignment.fence.task_id → u.tasks.get k = s.tasks.get k := by
    intro k other
    rw [changed,tasks,Table.get_modify,if_neg other,Table.get_modify,if_neg other]
  refine ⟨found,runnable,?_,closed.same,closed.attempt,?_,fun k other => ?_,fun oid object at_s settled => ?_,?_,?_⟩
  · rw [sameTasks]
    rcases ripples.task_cases assignment.fence.task_id with same | ⟨other,waits,waiting,_⟩
    · rw [same,reported]
    · rw [reported] at waits
      cases waits
      exact absurd waiting finished
  · refine closed.outcome.imp (fun concluded => concluded.later fun oid object there settled => ?_) fun retried => retried
    rw [sameObjects]
    exact ripples.settled closed.consistent there settled
  · rw [sameTasks,← outside k other]
    exact ripples.task_cases k
  · have apart : oid ≠ task.output := by
      rintro rfl
      exact settled ((run.inv.consistent.reserved_iff found at_s).mpr (by rw [runnable]; rfl))
    rw [sameObjects]
    exact ripples.settled closed.consistent ((closed.objects oid apart).trans (objects ▸ at_s)) settled
  · rw [lastEpoch,ripples.epoch,closed.epoch,sameEpoch]
  · rw [sameWorkers,ripples.workers]
    exact closed.worker

/-! ### Turn after turn -/

/-- What a turn can make of a task: nothing, or it was the worker's, or it is woken, or fails with an argument. -/
theorem Turned.task_cases (turned : Turned blake3 display config identity execute reported s t id task after)
    {k : TaskId} {other : TaskRecord} (there : s.tasks.get k = some other) : ∃ last, t.tasks.get k = some last ∧
      (last.operation = other.operation ∧ last.args = other.args ∧ last.output = other.output ∧
        last.resources = other.resources) ∧
      (last = other ∨ other.state.is_terminal = false ∧ (Concluded blake3 display execute t last ∨
        last.state = .Runnable ∧ (last.not_before_ms = other.not_before_ms ∨
          last.not_before_ms ≤ reported + RETRY_BACKOFF_CAP_MS))) := by
  by_cases here : k = id
  · subst here
    obtain rfl := Option.some.inj (turned.found.symm.trans there)
    obtain ⟨operation,args,output,resources,_⟩ := turned.same
    exact ⟨after,turned.found',⟨operation,args,output,resources⟩,.inr ⟨by rw [turned.runnable]; rfl,
      turned.outcome.imp (fun done => done) fun retried => ⟨retried.1,.inr retried.2⟩⟩⟩
  · rcases turned.others k here with same | ⟨other',there',waiting,woken | starved⟩
    · exact ⟨other,same.trans there,⟨rfl,rfl,rfl,rfl⟩,.inl rfl⟩
    · obtain rfl := Option.some.inj (there.symm.trans there')
      exact ⟨_,woken,⟨rfl,rfl,rfl,rfl⟩,.inr ⟨by rw [waiting]; rfl,.inr ⟨rfl,.inl rfl⟩⟩⟩
    · obtain rfl := Option.some.inj (there.symm.trans there')
      exact ⟨_,starved,⟨rfl,rfl,rfl,rfl⟩,.inr ⟨by rw [waiting]; rfl,.inl (.starved rfl)⟩⟩

/-- A turn brings no task. -/
theorem Turned.task_before (turned : Turned blake3 display config identity execute reported s t id task after)
    {k : TaskId} {last : TaskRecord} (there : t.tasks.get k = some last) : ∃ other, s.tasks.get k = some other := by
  by_cases here : k = id
  · exact ⟨task,here ▸ turned.found⟩
  · rcases turned.others k here with same | ⟨other,found,_⟩
    · exact ⟨last,same.symm.trans there⟩
    · exact ⟨other,found⟩

theorem Turned.budget (turned : Turned blake3 display config identity execute reported s t id task after)
    (inv : Consistent s) : t.budget + 1 ≤ s.budget := by
  have live : task.state.is_terminal = false := by rw [turned.runnable]; rfl
  refine Table.sum_add_le (k := id) ?_ fun k other => ?_
  · rw [turned.found,turned.found']
    exact spare_next live (inv.spare turned.found (.inr turned.runnable)) ⟨turned.same.2.2.2.2,turned.attempt⟩
  · rcases turned.others k other with same | ⟨waits,there,waiting,woken | starved⟩
    · rw [same]
    · rw [there,woken]
      exact spare_le (by rw [waiting]; rfl) ⟨rfl,rfl⟩
    · rw [there,starved]
      exact spare_le (by rw [waiting]; rfl) ⟨rfl,rfl⟩

/-- Where the work stands when some turns are still to come. -/
structure Working (blake3 : List UInt8 → Checksum) (display : Error → String) (config : WorkerConfig)
    (identity : WorkerIdentity) (execute : TaskAssignment → Except (Error × FailureClass) Buffer) (epoch : CoordinatorEpoch)
    (s : CoordinatorState) (left : List Turn) (t : CoordinatorState) : Prop where
  run : ∃ past, Run blake3 epoch past t ∧ Supplied past ∧ ∀ turn ∈ left, ∀ step ∈ past, .lease turn.lease ∉ step.op.minted
  willing : Willing config identity t
  distinct : (left.map Turn.lease).Nodup
  spaced : left.Pairwise fun turn next => turn.reported + RETRY_BACKOFF_CAP_MS ≤ next.polled
  due : ∀ id task, t.tasks.get id = some task → task.state.is_terminal = false →
    ∀ turn ∈ left, task.not_before_ms ≤ turn.polled
  enough : t.budget ≤ left.length
  kept : ∀ id task, s.tasks.get id = some task → task.state.is_terminal = false → ∃ last, t.tasks.get id = some last ∧
    (last.operation = task.operation ∧ last.args = task.args ∧ last.output = task.output) ∧
    (last.state.is_terminal = false ∨ Concluded blake3 display execute t last)

theorem Working.turned {u : CoordinatorState} {turn : Turn} {steps past : List Step}
    (working : Working blake3 display config identity execute epoch s (turn :: left) t) (run : Run blake3 epoch past t)
    (supplied : Supplied past) (fresh : ∀ next ∈ turn :: left, ∀ step ∈ past, .lease next.lease ∉ step.op.minted)
    (run' : Run blake3 epoch (steps ++ past) u)
    (quiet : ∀ step ∈ steps, step.op.resources = none ∧ ∀ lease, .lease lease ∈ step.op.minted → lease = turn.lease)
    (turned : Turned blake3 display config identity execute turn.reported t u id task after) :
    Working blake3 display config identity execute epoch s left u := by
  have distinct := List.nodup_cons.mp working.distinct
  have spaced := List.pairwise_cons.mp working.spaced
  refine ⟨⟨_,run',?_,?_⟩,⟨?_,turned.worker,?_,?_⟩,distinct.2,spaced.2,?_,?_,?_⟩
  · intro step member r brings
    rcases List.mem_append.mp member with new | old
    · rw [(quiet step new).1] at brings
      cases brings
    · exact supplied step old r brings
  · intro next later step member drawn
    rcases List.mem_append.mp member with new | old
    · have same := (quiet step new).2 _ drawn
      exact distinct.1 (same ▸ List.mem_map_of_mem later)
    · exact fresh next (List.mem_cons_of_mem _ later) step old drawn
  · rw [turned.epoch]
    exact working.willing.epoch
  · intro k last there live
    obtain ⟨other,found⟩ := turned.task_before there
    obtain ⟨last',there',_,outcome⟩ := turned.task_cases found
    obtain rfl := Option.some.inj (there.symm.trans there')
    rcases outcome with rfl | ⟨_,concluded | ⟨state,_⟩⟩
    · exact working.willing.idle k last found live
    · rw [concluded.ended] at live
      cases live
    · exact .inr state
  · intro k last there live
    obtain ⟨other,found⟩ := turned.task_before there
    obtain ⟨last',there',⟨operation,_,_,resources⟩,outcome⟩ := turned.task_cases found
    obtain rfl := Option.some.inj (there.symm.trans there')
    rw [operation,resources]
    rcases outcome with rfl | ⟨before,_⟩
    · exact working.willing.capable k last found live
    · exact working.willing.capable k other found before
  · intro k last there live next later
    obtain ⟨other,found⟩ := turned.task_before there
    obtain ⟨last',there',_,outcome⟩ := turned.task_cases found
    obtain rfl := Option.some.inj (there.symm.trans there')
    rcases outcome with rfl | ⟨before,concluded | ⟨_,same | soon⟩⟩
    · exact working.due k last found live next (List.mem_cons_of_mem _ later)
    · rw [concluded.ended] at live
      cases live
    · rw [same]
      exact working.due k other found before next (List.mem_cons_of_mem _ later)
    · exact le_trans soon (spaced.1 next later)
  · have less := turned.budget run.inv.consistent
    have enough := working.enough
    rw [List.length_cons] at enough
    omega
  · intro k first there live
    obtain ⟨other,found,⟨operation,args,output⟩,state⟩ := working.kept k first there live
    obtain ⟨last,found',⟨operation',args',output',_⟩,outcome⟩ := turned.task_cases found
    refine ⟨last,found',⟨operation'.trans operation,args'.trans args,output'.trans output⟩,?_⟩
    rcases outcome with rfl | ⟨_,concluded | ⟨state,_⟩⟩
    · exact state.imp (fun live => live) fun concluded => concluded.later turned.settled
    · exact .inr concluded
    · exact .inl (by rw [state]; rfl)

/-- A worker that has nothing to do gets nothing. -/
theorem Working.idles {turn : Turn} (order : HashOrder)
    (working : Working blake3 display config identity execute epoch s (turn :: left) t)
    (ended : ∀ id task, t.tasks.get id = some task → task.state.is_terminal = true) :
    ∃ u, take_turn blake3 display order config identity execute turn t = .ok () u ∧
      Working blake3 display config identity execute epoch s left u := by
  obtain ⟨past,run,supplied,fresh⟩ := working.run
  obtain ⟨worker,registered,offers⟩ := working.willing.worker
  obtain ⟨assignment,u,ran,effect,_⟩ := assign_next_ends blake3 run.inv.consistent registered turn.polled turn.lease
  have nothing : assignment = none := by
    cases assignment with
    | none => rfl
    | some assignment =>
      obtain ⟨task,_,_,found,_,servable,_⟩ := effect.assigns
      have terminal := ended _ task found
      rw [servable.runnable] at terminal
      cases terminal
  subst nothing
  have frame : u.tasks = t.tasks ∧ u.objects = t.objects ∧ u.workers = t.workers ∧ u.epoch = t.epoch := by
    cases effect <;> exact ⟨rfl,rfl,rfl,rfl⟩
  obtain ⟨tasks,objects,workers,sameEpoch⟩ := frame
  have run' := Run.step run order (.assign_next identity.node_id turn.polled turn.lease)
    (by simpa [Fresh,Op.minted,stores] using fresh turn List.mem_cons_self)
  simp only [apply,bind_apply,ran,pure_apply,Outcome.state_ok] at run'
  have distinct := List.nodup_cons.mp working.distinct
  refine ⟨u,by simp only [take_turn,bind_apply,ran,pure_apply],⟨_,run',?_,?_⟩,⟨?_,?_,?_,?_⟩,distinct.2,
    (List.pairwise_cons.mp working.spaced).2,?_,?_,?_⟩
  · exact List.forall_mem_cons.mpr ⟨by simp [Op.resources],supplied⟩
  · intro next later step member drawn
    rcases List.mem_cons.mp member with rfl | old
    · simp only [Op.minted,List.mem_singleton,Minted.lease.injEq] at drawn
      exact distinct.1 (drawn ▸ List.mem_map_of_mem later)
    · exact fresh next (List.mem_cons_of_mem _ later) step old drawn
  · rw [sameEpoch]
    exact working.willing.epoch
  · rw [workers]
    exact working.willing.worker
  · rw [tasks]
    exact working.willing.idle
  · rw [tasks]
    exact working.willing.capable
  · intro k last found live
    rw [tasks] at found
    rw [ended k last found] at live
    cases live
  · have zero : u.budget = 0 := by
      refine Finset.sum_eq_zero fun k member => ?_
      obtain ⟨last,found⟩ := Table.mem_keys_iff.mp member
      rw [found,Option.elim_some,spare_ended (ended k last (tasks ▸ found))]
    omega
  · intro k first there live
    obtain ⟨last,found,same,state⟩ := working.kept k first there live
    refine ⟨last,tasks ▸ found,same,state.imp (fun live => live) fun concluded => ?_⟩
    exact concluded.later fun _ _ there _ => objects ▸ there

/-- One more turn. -/
theorem Working.step {turn : Turn} (order : HashOrder)
    (small : ∀ assignment bytes, execute assignment = .ok bytes → bytes.bytes.length ≤ MAX_OBJECT_BYTES)
    (working : Working blake3 display config identity execute epoch s (turn :: left) t) :
    ∃ u, take_turn blake3 display order config identity execute turn t = .ok () u ∧
      Working blake3 display config identity execute epoch s left u := by
  by_cases ended : ∀ id task, t.tasks.get id = some task → task.state.is_terminal = true
  · exact working.idles order ended
  obtain ⟨past,run,supplied,fresh⟩ := working.run
  -- A live task is queued, or waits for one that is.
  have queued : ∃ id task, t.tasks.get id = some task ∧ task.state = .Runnable := by
    push Not at ended
    obtain ⟨id,task,found,unended⟩ := ended
    have live := Bool.eq_false_iff.mpr unended
    rcases working.willing.idle id task found live with waiting | runnable
    · obtain ⟨rank,ranked⟩ := run.ranked
      obtain ⟨_,_,k,other,there,_,alive,active⟩ := waits_on_active run.inv.consistent run.reconciled ranked found waiting
      exact ⟨k,other,there,(working.willing.idle k other there alive).resolve_left active⟩
    · exact ⟨id,task,found,runnable⟩
  obtain ⟨id,task,found,runnable⟩ := queued
  obtain ⟨steps,u,_,_,_,ran,run',quiet,turned⟩ := working.willing.turn run supplied order found runnable
    (working.due id task found (by rw [runnable]; rfl) turn List.mem_cons_self) (fresh turn List.mem_cons_self) small
  exact ⟨u,ran,working.turned run supplied fresh run' quiet turned⟩

theorem Working.finished (working : Working blake3 display config identity execute epoch s [] t) :
    ∀ id task, t.tasks.get id = some task → task.state.is_terminal = true := by
  intro id task found
  by_contra unended
  have live := Bool.eq_false_iff.mpr unended
  obtain ⟨past,run,_⟩ := working.run
  have room := UInt32.lt_iff_toNat_lt.mp (run.inv.consistent.spare found (working.willing.idle id task found live))
  have counted : t.budget = _ := Table.sum_eq_add_remove found CoordinatorState.spare
  have none := working.enough
  rw [counted,spare_live live,List.length_nil] at none
  omega

/-- The worker of the small run, as a process describes itself. -/
def smallConfig : WorkerConfig where
  node_id := smallWorker.node_id
  advertise := "host:1"
  resources := ⟨⟨[("cpu",⟨1000⟩)],offer_sorted⟩⟩
  registry := [⟨smallKey,.JsonV1,.JsonV1,64⟩]

/-- Turns far enough apart for any retry. -/
def smallTurns : List Turn :=
  [⟨⟨.replicate 16 20⟩,0,0⟩,⟨⟨.replicate 16 21⟩,30000,30000⟩,⟨⟨.replicate 16 22⟩,60000,60000⟩,⟨⟨.replicate 16 23⟩,90000,90000⟩]

end
end
end
end Crayon.CoordinatorState
