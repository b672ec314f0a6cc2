import Crayon.Sweep

/-!
The operations refine the abstract machine: from consistent tables an operation
either returns an error and leaves the state as it was, or returns a value after
some moves; it never panics, and its loops end. Each operation is first shown to
have its effects (`apply_effect`), and the effects to be made of moves.
-/
namespace Crayon.CoordinatorState
open Command
open Relation (ReflTransGen)
variable {s : CoordinatorState} {op : Op}

/-! ### Workers and objects have their effects -/

section
variable (blake3 : List UInt8 → Checksum)

theorem register_worker_effect (alive : NoDead s) (request : RegisterWorker) (now lease_ms : Nat)
    (session_id : WorkerSessionId) :
    Outcome.Atomic s (fun identity => Effect blake3 (.register_worker request now lease_ms session_id) s (.Identity identity))
      (register_worker request now lease_ms session_id s) := by
  cases address : validate_advertise_addr request.advertise_addr with
  | error e => simp [register_worker,address]
  | ok _ =>
    by_cases slots : request.slots ≠ 0
    · cases collected : collect_operations s.operations request.operations .empty with
      | error e => simp [register_worker,address,ensure_of slots,collected]
      | ok operations =>
        cases found : s.workers.get request.node_id with
        | none =>
          simp only [register_worker,bind_apply,get_apply,address,lift_ok,ensure_of slots,collected,found,Option.filter_none,
            pure_apply,set_apply,changed,modify_apply,Outcome.atomic_ok]
          exact .enrolled address collected found
        | some existing =>
          have active : (s.workers.get request.node_id).filter (·.state ≠ .Dead) = some existing := by
            simp [found,alive _ _ found]
          by_cases same : existing.identity.worker_epoch = request.worker_epoch ∧
              existing.advertise_addr = request.advertise_addr ∧ existing.total = request.resources ∧
              existing.slots = request.slots ∧ existing.operations = operations
          · simp only [register_worker,bind_apply,get_apply,address,lift_ok,ensure_of slots,collected,active,ensure_of same,
              pure_apply,set_apply,changed,modify_apply,Outcome.atomic_ok]
            exact .renewed collected found same
          · simp only [register_worker,bind_apply,get_apply,address,lift_ok,ensure_of slots,collected,active,ensure_not same,
              pure_apply,err_apply,Outcome.atomic_err]
    · simp [register_worker,address,ensure_not slots]

theorem heartbeat_effect (identity : WorkerIdentity) (now lease_ms : Nat) :
    Outcome.Atomic s (fun _ => Effect blake3 (.heartbeat identity now lease_ms) s .Done)
      (heartbeat identity now lease_ms s) := by
  rcases check_identity_cases s identity with stale | ⟨passed,current⟩
  · simp [heartbeat,stale]
  · obtain ⟨_,worker,found,_⟩ := id current
    simp only [heartbeat,bind_apply,passed,worker_mut,get_apply,found,unwrap_some,pure_apply,set_apply,Outcome.atomic_ok]
    exact .beat current

theorem drain_effect (identity : WorkerIdentity) :
    Outcome.Atomic s (fun _ => Effect blake3 (.drain identity) s .Done) (drain identity s) := by
  rcases check_identity_cases s identity with stale | ⟨passed,current⟩
  · simp [drain,stale]
  · obtain ⟨_,worker,found,_⟩ := id current
    simp only [drain,bind_apply,passed,worker_mut,get_apply,found,unwrap_some,pure_apply,set_apply,changed,modify_apply,
      Outcome.atomic_ok]
    exact .drained current

theorem admit_object_atomic (id : ObjectId) (codec : Codec) (size_bytes : UInt64) (checksum : Checksum)
    (bytes : Option (List UInt8)) :
    Outcome.Atomic s (fun id' s' => id' = id ∧ Admitted s id codec size_bytes checksum bytes s')
      (admit_object id codec size_bytes checksum bytes s) := by
  rcases admit_object_ends id codec size_bytes checksum bytes with ⟨_,s',ran,admitted⟩ | ⟨_,e,refused⟩
  · rw [ran]
    exact ⟨rfl,admitted⟩
  · simp [refused]

theorem put_effect (codec : Codec) (bytes : List UInt8) :
    Outcome.Atomic s (fun outcome => Effect blake3 (.put codec bytes) s (.Put outcome)) (put blake3 codec bytes s) := by
  refine atomic_map (fun _ => PutOutcome.mk (.from_checksum (blake3 bytes)) (blake3 bytes) bytes) ?_
  exact (admit_object_atomic _ _ _ _ _).mono fun _ _ taken => .put taken.2

theorem put_meta_effect (id : ObjectId) (codec : Codec) (size_bytes : UInt64) (checksum : Checksum) :
    Outcome.Atomic s (fun id' => Effect blake3 (.put_meta id codec size_bytes checksum) s (.Object id'))
      (put_meta id codec size_bytes checksum s) := by
  refine (admit_object_atomic id codec size_bytes checksum none).mono ?_
  rintro _ s' ⟨rfl,admitted⟩
  exact .put_meta admitted

theorem release_object_effect (id : ObjectId) :
    Outcome.Atomic s (fun _ => Effect blake3 (.release_object id) s .Done) (release_object id s) := by
  rcases release_object_cases id with ⟨_,s',ran,released⟩ | ⟨_,e,refused⟩
  · rw [ran]
    exact .released released
  · simp [refused]

theorem take_pending_deletes_effect (node : NodeId) :
    Outcome.Atomic s (fun ids => Effect blake3 (.take_pending_deletes node) s (.Deletes ids))
      (take_pending_deletes node s) := by
  simp only [take_pending_deletes,bind_apply,get_apply,set_apply,pure_apply,Outcome.atomic_ok]
  exact .taken

end

/-! ### Tasks have their effects -/

theorem completed_before_unchanged (s : CoordinatorState) (task : TaskRecord) (report : TaskCompletion) :
    completed_before s task report s = .ok () s ∨
      completed_before s task report s = .error (.Err (.ObjectConflict task.output)) s := by
  unfold completed_before
  cases s.objects.get task.output with
  | none => exact .inl rfl
  | some object =>
    by_cases same : object.state = .Available ∧ object.checksum = some report.checksum ∧
        object.size_bytes = some report.size_bytes
    · exact .inl (by simp [ensure_of same])
    · exact .inr (by simp only [ensure_not same,err_apply])

/-- Why a task is not admitted. -/
inductive Inadmissible (s : CoordinatorState) (operation : OperationKey) (args : List TaskArg) (max_attempts : UInt32) :
    Error → Prop where
  | attempts (none : max_attempts = 0) :
      Inadmissible s operation args max_attempts (.IllegalTransition "max_attempts must be positive")
  | tasks (positive : max_attempts ≠ 0) :
      Inadmissible s operation args max_attempts (.CapacityExceeded "task limit reached")
  | objects (positive : max_attempts ≠ 0) :
      Inadmissible s operation args max_attempts (.CapacityExceeded "object store limit reached")
  | operation (positive : max_attempts ≠ 0) :
      Inadmissible s operation args max_attempts (.OperationUnavailable operation.to_string)
  | args {descriptor : OperationDescriptor} {error : Error} (positive : max_attempts ≠ 0)
      (invalid : descriptor.validate_args args = .error error) : Inadmissible s operation args max_attempts error
  | workers (positive : max_attempts ≠ 0) :
      Inadmissible s operation args max_attempts (.InvalidResource "no registered worker can satisfy task resources")
  | inputs {input_codec : Codec} {error : Error} (positive : max_attempts ≠ 0)
      (refused : s.admit_args input_codec args false = .error error) : Inadmissible s operation args max_attempts error

section
variable (blake3 : List UInt8 → Checksum)

theorem submit_ends (operation : OperationKey) (args : List TaskArg) (resources : ResourceSet) (max_attempts : UInt32)
    (id : TaskId) (output : ObjectId) :
    Outcome.Ends s (fun ids => Effect blake3 (.submit operation args resources max_attempts id output) s
      (.Submitted ids.1 ids.2)) (Inadmissible s operation args max_attempts)
      (submit operation args resources max_attempts id output s) := by
  by_cases attempts : max_attempts ≠ 0
  swap
  · simpa [submit,ensure_not attempts] using Inadmissible.attempts (not_not.mp attempts)
  by_cases taskRoom : s.tasks.len < MAX_TASKS
  swap
  · simpa [submit,ensure_of attempts,ensure_not taskRoom] using Inadmissible.tasks attempts
  by_cases objectRoom : s.objects.len < MAX_OBJECTS
  swap
  · simpa [submit,ensure_of attempts,ensure_of taskRoom,ensure_not objectRoom] using Inadmissible.objects attempts
  cases offered : s.operations.get operation with
  | none =>
    simpa [submit,ensure_of attempts,ensure_of taskRoom,ensure_of objectRoom,offered] using Inadmissible.operation attempts
  | some descriptor =>
  cases valid : descriptor.validate_args args with
  | error e =>
    simpa [submit,ensure_of attempts,ensure_of taskRoom,ensure_of objectRoom,offered,valid] using
      Inadmissible.args attempts valid
  | ok _ =>
  by_cases capable : (s.workers.any fun worker => worker.state = .Alive && (worker.operations.get operation).isSome &&
      worker.total.can_fit resources) = true
  swap
  · simpa [submit,ensure_of attempts,ensure_of taskRoom,ensure_of objectRoom,offered,valid,ensure_not capable] using
      Inadmissible.workers attempts
  cases admitted : s.admit_args descriptor.input_codec args false with
  | error e =>
    simpa [submit,ensure_of attempts,ensure_of taskRoom,ensure_of objectRoom,offered,valid,ensure_of capable,admitted] using
      Inadmissible.inputs attempts admitted
  | ok blocked =>
  simp only [submit,bind_apply,get_apply,ensure_of attempts,ensure_of taskRoom,ensure_of objectRoom,offered,ok_or_some,valid,
    lift_ok,ensure_of capable,admitted,pure_apply,set_apply,changed,modify_apply,Outcome.ends_ok]
  exact .submitted attempts offered valid capable admitted

theorem submit_effect (operation : OperationKey) (args : List TaskArg) (resources : ResourceSet) (max_attempts : UInt32)
    (id : TaskId) (output : ObjectId) :
    Outcome.Atomic s (fun ids => Effect blake3 (.submit operation args resources max_attempts id output) s
      (.Submitted ids.1 ids.2)) (submit operation args resources max_attempts id output s) :=
  (submit_ends blake3 operation args resources max_attempts id output).atomic

theorem started_effect (identity : WorkerIdentity) (fence : TaskFence) :
    Outcome.Atomic s (fun _ => Effect blake3 (.started identity fence) s .Done) (started identity fence s) := by
  cases found : s.tasks.get fence.task_id with
  | none => simp [started,found]
  | some task =>
    by_cases running : task.state = .Running
    · simp only [started,bind_apply,get_apply,found,ok_or_some,pure_apply,running,if_true,Outcome.atomic_ok]
      exact .started_before found running
    · rcases check_fence_cases found identity with stale | ⟨passed,current,matching⟩
      · simp [started,found,running,stale]
      · by_cases assigned : task.state = .Assigned
        · simp only [started,bind_apply,get_apply,found,ok_or_some,pure_apply,running,if_false,passed,unwrap_some,
            ensure_of assigned,task_mut,set_apply,changed,modify_apply,Outcome.atomic_ok]
          exact .started current matching found assigned
        · simp [started,found,running,passed,ensure_not assigned]

theorem complete_effect (inv : Consistent s) (order : HashOrder) (identity : WorkerIdentity) (report : TaskCompletion) :
    Outcome.Ends s (fun _ => Effect blake3 (.complete identity report) s .Done) (Unreturned s identity report.fence)
      (complete blake3 order identity report s) := by
  cases found : s.tasks.get report.fence.task_id with
  | none => simp [complete,found,Unreturned]
  | some task =>
  by_cases done : task.state = .Succeeded
  · simp only [complete,bind_apply,get_apply,found,ok_or_some,pure_apply,done,if_true]
    rcases completed_before_unchanged s task report with same | conflict
    · rw [same]
      exact .completed_before found done
    · simp [conflict,Unreturned]
  rcases check_fence_cases found identity with stale | ⟨passed,current,matching⟩
  · simp [complete,found,done,stale,Unreturned]
  obtain ⟨_,worker,atWorker,living,_⟩ := id current
  by_cases state : task.state = .Assigned ∨ task.state = .Running
  swap
  · simp [complete,found,done,passed,ensure_not state,Unreturned]
  cases offered : s.operations.get task.operation with
  | none => simp [complete,found,done,passed,ensure_of state,atWorker,offered,Unreturned]
  | some descriptor =>
  by_cases verified : (report.bytes.all fun bytes =>
      UInt64.ofNat bytes.length = report.size_bytes && blake3 bytes = report.checksum) = true
  swap
  · simp [complete,found,done,passed,ensure_of state,atWorker,offered,ensure_not verified,Unreturned]
  by_cases out : task.output = report.output_id
  swap
  · simp [complete,found,done,passed,ensure_of state,atWorker,offered,ensure_of verified,ensure_not out,Unreturned]
  obtain ⟨object,there⟩ := inv.output found
  by_cases accepted : object.state = .Reserved ∧ report.codec = descriptor.output_codec ∧
      report.location = worker.advertise_addr ∧ report.size_bytes ≤ UInt64.ofNat MAX_OBJECT_BYTES
  swap
  · simp [complete,found,done,passed,ensure_of state,atWorker,offered,ensure_of verified,ensure_of out,there,
      ensure_not accepted,Unreturned]
  rcases release_cases atWorker living task.resources with ⟨e,refused⟩ | ⟨workers,released,freed⟩
  · simp only [complete,bind_apply,get_apply,found,ok_or_some,pure_apply,done,if_false,passed,unwrap_some,ensure_of state,
      atWorker,offered,ensure_of verified,ensure_of out,there,ensure_of accepted,refused,Outcome.ends_err]
    exact fun message _ => ⟨task,found,matching,refused⟩
  have move : Move (.complete identity report) s _ :=
    .complete rfl found state (matching.assigned found) atWorker living accepted.2.2.1 accepted.2.2.2 freed
  obtain ⟨t,ran,ripples,reconciled⟩ := reconcile_dependencies_ends order (move.consistent inv)
  simp only [complete,bind_apply,get_apply,found,ok_or_some,pure_apply,done,if_false,passed,unwrap_some,ensure_of state,
    atWorker,offered,ensure_of verified,ensure_of out,there,ensure_of accepted,released,task_mut,object_mut,set_apply,ran,
    changed,modify_apply,Outcome.ends_ok]
  exact .completed current matching found state atWorker living offered verified there accepted freed ripples reconciled

theorem fail_effect (inv : Consistent s) (order : HashOrder) (identity : WorkerIdentity) (fence : TaskFence)
    (message : String) («class» : FailureClass) (now : Nat) :
    Outcome.Ends s (fun permanently => Effect blake3 (.fail identity fence message «class» now) s (.Failed permanently))
      (Unreturned s identity fence) (fail order identity fence message «class» now s) := by
  cases found : s.tasks.get fence.task_id with
  | none => simp [fail,found,Unreturned]
  | some task =>
  by_cases ended : task.state.is_terminal = true
  · simp only [fail,bind_apply,get_apply,found,ok_or_some,pure_apply,ended,if_true,Outcome.ends_ok]
    exact .failed_before found ended
  rcases check_fence_cases found identity with stale | ⟨passed,current,matching⟩
  · simp [fail,found,ended,stale,Unreturned]
  obtain ⟨_,worker,atWorker,living,_⟩ := id current
  by_cases state : task.state = .Assigned ∨ task.state = .Running
  swap
  · simp [fail,found,ended,passed,ensure_not state,Unreturned]
  rcases release_cases atWorker living task.resources with ⟨e,refused⟩ | ⟨workers,released,freed⟩
  · simp only [fail,bind_apply,get_apply,found,ok_or_some,pure_apply,ended,if_false,Bool.false_eq_true,passed,unwrap_some,
      ensure_of state,refused,Outcome.ends_err]
    exact fun message _ => ⟨task,found,matching,refused⟩
  obtain ⟨object,there⟩ := inv.output found
  by_cases retry : «class» = .Transient ∧ task.attempt < task.max_attempts
  · simp only [fail,bind_apply,get_apply,found,ok_or_some,pure_apply,ended,if_false,Bool.false_eq_true,passed,unwrap_some,
      ensure_of state,released,task_mut,set_apply,if_pos retry,mark_runnable,changed,modify_apply,Table.get_modify,if_true,
      Option.map_some,Table.modify_modify,Outcome.ends_ok]
    exact .retried current matching found state retry freed
  · have move : Move (.fail identity fence message «class» now) s _ := .fail message found state (matching.assigned found) freed
    obtain ⟨t,ran,ripples,reconciled⟩ := reconcile_dependencies_ends order (move.consistent inv)
    simp only [fail,bind_apply,get_apply,found,ok_or_some,pure_apply,ended,if_false,Bool.false_eq_true,passed,unwrap_some,
      ensure_of state,released,task_mut,object_mut,set_apply,if_neg retry,changed,modify_apply,Table.get_modify,if_true,
      Option.map_some,Table.modify_modify,there,ran,Outcome.ends_ok]
    exact .failed current matching found state retry freed ripples reconciled

theorem acknowledge_cancel_effect (inv : Consistent s) (order : HashOrder) (identity : WorkerIdentity) (fence : TaskFence) :
    Outcome.Ends s (fun _ => Effect blake3 (.acknowledge_cancel identity fence) s .Done) (Unreturned s identity fence)
      (acknowledge_cancel order identity fence s) := by
  cases found : s.tasks.get fence.task_id with
  | none => simp [acknowledge_cancel,found,Unreturned]
  | some task =>
  by_cases ended : task.state = .Cancelled
  · simp only [acknowledge_cancel,bind_apply,get_apply,found,ok_or_some,pure_apply,ended,if_true,Outcome.ends_ok]
    exact .acknowledged_before found ended
  rcases check_fence_cases found identity with stale | ⟨passed,current,matching⟩
  · simp [acknowledge_cancel,found,ended,stale,Unreturned]
  obtain ⟨_,worker,atWorker,living,_⟩ := id current
  by_cases state : task.state = .CancelRequested
  swap
  · simp [acknowledge_cancel,found,ended,passed,ensure_not state,Unreturned]
  rcases release_cases atWorker living task.resources with ⟨e,refused⟩ | ⟨workers,released,freed⟩
  · simp only [acknowledge_cancel,bind_apply,get_apply,found,ok_or_some,pure_apply,ended,if_false,passed,unwrap_some,
      ensure_of state,refused,Outcome.ends_err]
    exact fun message _ => ⟨task,found,matching,refused⟩
  obtain ⟨object,there⟩ := inv.output found
  have move : Move (.acknowledge_cancel identity fence) s _ := .acknowledge found state (matching.assigned found) freed
  obtain ⟨t,ran,ripples,reconciled⟩ := reconcile_dependencies_ends order (move.consistent inv)
  simp only [acknowledge_cancel,bind_apply,get_apply,found,ok_or_some,pure_apply,ended,if_false,passed,unwrap_some,
    ensure_of state,released,task_mut,object_mut,set_apply,changed,modify_apply,there,ran,Outcome.ends_ok]
  exact .acknowledged current matching found state freed ripples reconciled

theorem cancel_effect (inv : Consistent s) (order : HashOrder) (id : TaskId) :
    Outcome.Atomic s (fun _ => Effect blake3 (.cancel id) s .Done) (cancel order id s) := by
  cases found : s.tasks.get id with
  | none => simp [cancel,found]
  | some task =>
  by_cases live : task.state.is_terminal = false
  swap
  · simp [cancel,found,ensure_not live]
  by_cases requested : task.state = .CancelRequested
  · simp only [cancel,bind_apply,get_apply,found,ok_or_some,pure_apply,ensure_of live,requested,if_true,Outcome.atomic_ok]
    exact .requested_before found requested
  have dispatched := inv.dispatched_iff found
  by_cases assigned : task.assigned.isSome = true
  · have state : task.state = .Assigned ∨ task.state = .Running := by
      have cases := dispatched.mp assigned
      tauto
    simp only [cancel,bind_apply,get_apply,found,ok_or_some,pure_apply,ensure_of live,requested,if_false,assigned,if_true,
      mark_cancel_requested,changed,modify_apply,Outcome.atomic_ok]
    exact .requested found state
  · have state : task.state = .Waiting ∨ task.state = .Runnable := by
      cases at_state : task.state <;> simp_all [TaskState.is_terminal]
    obtain ⟨object,there⟩ := inv.output found
    have move : Move (.cancel id) s _ := .cancel found state
    obtain ⟨t,ran,ripples,reconciled⟩ := reconcile_dependencies_ends order (move.consistent inv)
    simp only [cancel,bind_apply,get_apply,found,ok_or_some,pure_apply,ensure_of live,requested,if_false,assigned,
      Bool.false_eq_true,task_mut,object_mut,unwrap_some,set_apply,there,ran,changed,modify_apply,Outcome.atomic_ok]
    exact .cancelled found state ripples reconciled

/-- For a registered worker the dispatch always succeeds, with or without a task; and without one only if the worker is
    busy or can serve no task in the queue. A worker that is not busy gets what the search picks. -/
theorem assign_next_ends (inv : Consistent s) {node_id : NodeId} {worker : WorkerRecord}
    (found : s.workers.get node_id = some worker) (now : Nat) (lease : LeaseId) :
    ∃ assignment s', assign_next node_id now lease s = .ok assignment s' ∧
      Effect blake3 (.assign_next node_id now lease) s (.Assignment assignment) s' ∧
      (assignment = none → worker.state = .Alive → worker.free_slots ≠ 0 →
        ∀ id ∈ s.runnable, ∀ task, s.tasks.get id = some task → ¬ Servable worker now task) ∧
      (worker.state = .Alive → worker.free_slots ≠ 0 →
        s'.runnable = (s.select worker node_id now s.runnable [] [] 0).queue ∧
          assignment.map (·.fence.task_id) = (s.select worker node_id now s.runnable [] [] 0).pick.map (·.1)) := by
  by_cases busy : worker.state ≠ .Alive ∨ worker.free_slots = 0
  · refine ⟨none,s,?_,.busy found busy,fun _ alive free => busy.elim (absurd alive) fun full => absurd full free,
      fun alive free => busy.elim (absurd alive) fun full => absurd full free⟩
    simp only [assign_next,bind_apply,get_apply,found,ok_or_some,pure_apply,if_pos busy]
  obtain ⟨alive,free⟩ := not_or.mp busy
  have counts := select_total s worker node_id now s.runnable [] [] 0
  simp only [List.count_nil,Nat.zero_add] at counts
  obtain ⟨passedServable,chosenServable⟩ := select_servable s worker node_id now s.runnable [] [] 0 (by simp)
  cases pick : (s.select worker node_id now s.runnable [] [] 0).pick with
  | none =>
    refine ⟨none,{ s with runnable := (s.select worker node_id now s.runnable [] [] 0).queue },?_,
      .searched ⟨fun id task there state => ?_,fun id => ?_⟩,fun _ _ _ => (select_none s worker node_id now _ _ _ _ pick).2,
      fun _ _ => ⟨rfl,rfl⟩⟩
    · simp only [assign_next,bind_apply,get_apply,found,ok_or_some,pure_apply,if_neg busy,unwrap_some,modify_apply,pick]
    · rw [Selection.queue_none pick]
      exact (counts id).2 task there state
    · rw [Selection.queue_none pick]
      exact (counts id).1
  | some picked =>
  obtain ⟨id,near⟩ := picked
  obtain ⟨inHand,once⟩ := Selection.queue_picked pick
  obtain ⟨task,there,servable⟩ : ∃ task, s.tasks.get id = some task ∧ Servable worker now task :=
    inHand.elim (passedServable id) (chosenServable id)
  have legal := inv.legal id task there
  simp only [view,View.Legal,servable.runnable,decide_eq_true_eq] at legal
  obtain ⟨_,budget,_,_,_,queued⟩ := legal
  -- The queue is first brought into the order in which the pick stands in front.
  have requeued : Requeued s (id :: (s.select worker node_id now s.runnable [] [] 0).queue) := by
    have whole := (counts id).2 task there servable.runnable
    refine ⟨fun k t at_k state => ?_,fun k => ?_⟩
    · by_cases same : k = id
      · subst same
        rw [List.count_cons_self]
        omega
      · rw [List.count_cons_of_ne (Ne.symm same),Selection.queue_other pick same]
        exact (counts k).2 t at_k state
    · by_cases same : k = id
      · subst same
        rw [List.count_cons_self]
        omega
      · rw [List.count_cons_of_ne (Ne.symm same),Selection.queue_other pick same]
        exact (counts k).1
  obtain ⟨available,taken,_⟩ := ResourceSet.subtract_ok servable.capable.2
  refine ⟨some ⟨⟨id,task.attempt + 1,lease⟩,task.operation,task.args,task.output,task.resources⟩,_,?_,
    .assigned requeued there found (not_not.mp alive) free servable budget taken (s.sched_assigns + 1)
      (s.sched_owned_input + (near || task.dependencies.any fun oid => ((s.objects.get oid).bind (·.owner)).isSome).toNat)
      (s.sched_local_hits + near.toNat),by rintro ⟨⟩,fun _ _ => ⟨rfl,rfl⟩⟩
  simp only [assign_next,bind_apply,get_apply,found,ok_or_some,pure_apply,if_neg busy,unwrap_some,modify_apply,pick,there,
    increment_of budget,within,taken,decrement_of free,worker_mut,Table.get_modify,if_true,Option.map_some,set_apply,task_mut,
    Table.modify_modify,changed]

theorem assign_next_effect (inv : Consistent s) (node_id : NodeId) (now : Nat) (lease : LeaseId) :
    Outcome.Atomic s (fun assignment => Effect blake3 (.assign_next node_id now lease) s (.Assignment assignment))
      (assign_next node_id now lease s) := by
  cases found : s.workers.get node_id with
  | none => simp [assign_next,found]
  | some worker =>
    obtain ⟨assignment,s',ran,effect,_⟩ := assign_next_ends blake3 inv found now lease
    rw [ran]
    exact effect

end

/-! ### Expiry and reclaim have their effects -/

section
variable (blake3 : List UInt8 → Checksum)

theorem expire_workers_effect (order : HashOrder) (now : Nat) (inv : Consistent s) (alive : NoDead s) :
    ∃ report s', expire_workers order now s = .ok report s' ∧
      Effect blake3 (.expire_workers now) s (.Expired report) s' := by
  obtain ⟨expired,t,start,expiring,_,⟨rfl,_,ran⟩ | ran⟩ := expire_workers_ends order now inv alive
  · refine ⟨[],s,ran,.unexpired fun node worker found => ?_⟩
    have kept := start.done node
    rw [found] at kept
    simpa using (Option.filter_eq_some_iff.mp kept.symm).2
  · obtain ⟨u,reconciles,ripples,reconciled⟩ := reconcile_dependencies_ends order (expiring.swept.consistent inv)
    exact ⟨_,_,ran u reconciles,.expired _ expiring.swept expiring.done ripples reconciled⟩

theorem reap_terminal_tasks_effect (order : HashOrder) (now : Nat) :
    ∃ count s', reap_terminal_tasks order now s = .ok count s' ∧
      Effect blake3 (.reap_terminal_tasks now) s (.Reclaimed count) s' := by
  obtain ⟨count,s',ran,released⟩ := foldlM_ends
    (fun (reclaimed : Nat) output => do
      let released ← is_ok (release_object output)
      pure (if released then reclaimed + 1 else reclaimed))
    (fun _ _ t => Releases { s with tasks := s.tasks.mapValues (stamp now) } t)
    (by
      intro output rest reclaimed t before
      rcases release_object_cases (s := t) output with ⟨_,t',ran,released⟩ | ⟨_,e,refused⟩
      · exact ⟨reclaimed + 1,t',by simp only [bind_apply,is_ok,ran,pure_apply,if_true],before.tail ⟨output,released⟩⟩
      · exact ⟨reclaimed,t,by simp only [bind_apply,is_ok,refused,pure_apply,Bool.false_eq_true,if_false],before⟩)
    _ 0 { s with tasks := s.tasks.mapValues (stamp now) } .refl
  exact ⟨count,s',by simp only [reap_terminal_tasks,bind_apply,get_apply,set_apply]; exact ran,.reaped count released⟩

/-! ### All operations have their effects -/

theorem apply_effect (order : HashOrder) (inv : Consistent s) (alive : NoDead s) (op : Op) :
    Outcome.Atomic s (Effect blake3 op s) (apply blake3 order op s) := by
  cases op with
  | register_worker request now lease_ms session_id =>
    exact atomic_map Reply.Identity (register_worker_effect blake3 alive request now lease_ms session_id)
  | heartbeat identity now lease_ms => exact atomic_map (fun _ => Reply.Done) (heartbeat_effect blake3 identity now lease_ms)
  | put codec bytes => exact atomic_map Reply.Put (put_effect blake3 codec bytes)
  | put_meta id codec size_bytes checksum => exact atomic_map Reply.Object (put_meta_effect blake3 id codec size_bytes checksum)
  | submit operation args resources max_attempts id output =>
    exact atomic_map (fun ids : TaskId × ObjectId => Reply.Submitted ids.1 ids.2) (submit_effect blake3 operation args resources max_attempts id output)
  | assign_next node_id now lease => exact atomic_map Reply.Assignment (assign_next_effect blake3 inv node_id now lease)
  | started identity fence => exact atomic_map (fun _ => Reply.Done) (started_effect blake3 identity fence)
  | complete identity report => exact atomic_map (fun _ => Reply.Done) (complete_effect blake3 inv order identity report).atomic
  | fail identity fence message «class» now =>
    exact atomic_map Reply.Failed (fail_effect blake3 inv order identity fence message «class» now).atomic
  | expire_workers now =>
    obtain ⟨report,s',ran,effect⟩ := expire_workers_effect blake3 order now inv alive
    simpa [apply,ran] using effect
  | reap_terminal_tasks now =>
    obtain ⟨count,s',ran,effect⟩ := reap_terminal_tasks_effect blake3 (s := s) order now
    simpa [apply,ran] using effect
  | drain identity => exact atomic_map (fun _ => Reply.Done) (drain_effect blake3 identity)
  | acknowledge_cancel identity fence =>
    exact atomic_map (fun _ => Reply.Done) (acknowledge_cancel_effect blake3 inv order identity fence).atomic
  | cancel id => exact atomic_map (fun _ => Reply.Done) (cancel_effect blake3 inv order id)
  | release_object id => exact atomic_map (fun _ => Reply.Done) (release_object_effect blake3 id)
  | take_pending_deletes node => exact atomic_map Reply.Deletes (take_pending_deletes_effect blake3 node)

end

/-! ### Effects are moves -/

/-- The operation made moves, or returned an error and changed nothing. -/
def Refines {α : Type} (op : Op) (s : CoordinatorState) : Outcome Error CoordinatorState α → Prop
  | .ok _ s' => Moves op s s'
  | .error (.Err _) s' => s' = s
  | .error _ _ => False

/-- The ids of a submission are new to the state. -/
def Op.NewTo (s : CoordinatorState) : Op → Prop
  | .submit _ _ _ _ id output => s.tasks.get id = none ∧ id ∉ s.runnable ∧ s.objects.get output = none
  | _ => True

section
variable {blake3 : List UInt8 → Checksum} {reply : Reply} {s' : CoordinatorState}

theorem moves_refl (s : CoordinatorState) : Moves op s s := .refl

/-- Every operation that changes something counts a revision. -/
theorem moves_changed {s' : CoordinatorState} (moves : Moves op s s') :
    Moves op s { s' with revision := s'.revision + 1 } :=
  moves.tail (.count (Nat.le_succ _) _ _ _ _ _)

theorem Admitted.moves {id : ObjectId} {codec : Codec} {size_bytes : UInt64} {checksum : Checksum}
    {bytes : Option (List UInt8)} (admitted : Admitted s id codec size_bytes checksum bytes s')
    (source : op = .storing id codec size_bytes checksum bytes) : Moves op s s' := by
  cases admitted with
  | known => exact .refl
  | stored absent => exact moves_changed (.single (.store absent source))

theorem Released.moves {id : ObjectId} (released : Released s id s') (op : Op) : Moves op s s' := by
  cases released with
  | before absent => exact .refl
  | drop found settled unused => exact moves_changed (.single (.release _ found settled unused))

theorem Releases.moves (releases : Releases s s') (op : Op) : Moves op s s' := by
  induction releases with
  | refl => exact .refl
  | tail _ released ih =>
    obtain ⟨id,released⟩ := released
    exact ih.trans (released.moves op)

/-- What an operation did is made of moves. -/
theorem Effect.moves (effect : Effect blake3 op s reply s') (newTo : op.NewTo s) : Moves op s s' := by
  cases effect with
  | renewed collected found same => exact moves_changed (.single (.renew _))
  | enrolled address collected absent =>
    exact moves_changed (.single (.enroll absent ⟨rfl,rfl,rfl,rfl,rfl,address⟩))
  | beat current => exact .single (.renew _)
  | put admitted => exact admitted.moves rfl
  | put_meta admitted => exact admitted.moves rfl
  | submitted attempts offered valid capable admitted =>
    obtain ⟨newTask,unqueued,newOutput⟩ := newTo
    refine moves_changed (.single (.submit _ newTask unqueued newOutput ?_))
    exact ⟨by simp [Op.minted],by simp [Op.minted],rfl,rfl,rfl,UInt32.pos_iff_ne_zero.mpr attempts,rfl,rfl⟩
  | busy found busy => exact .refl
  | searched requeued => exact .single (.requeue requeued)
  | assigned requeued found at_worker alive free servable budget taken assigns owned hits =>
    -- The queue is first brought into the order in which the pick stands in front.
    refine .head (.requeue requeued) (.head (.assign rfl found servable.runnable at_worker alive free servable.capable.2 taken
      (List.mem_singleton.mpr rfl)) (.single ?_))
    exact .count (Nat.le_succ _) _ _ _ _ _
  | started_before found running => exact .refl
  | started current matching found assigned => exact moves_changed (.single (.start found assigned))
  | completed_before found done => exact .refl
  | completed current matching found state at_worker living offered verified output accepted freed ripples reconciled =>
    refine moves_changed (.head (.complete rfl found state (matching.assigned found) at_worker living ?_ ?_ freed)
      (ripples.moves _))
    · exact accepted.2.2.1
    · exact accepted.2.2.2
  | failed_before found terminal => exact .refl
  | retried current matching found state retry freed =>
    exact .tail (.single (.retry _ found state (matching.assigned found) retry.2 freed)) (.count (Nat.le_succ _) _ _ _ _ _)
  | failed current matching found state final freed ripples reconciled =>
    refine .head (.fail _ found state (matching.assigned found) freed) (.tail (ripples.moves _) ?_)
    exact .count (Nat.le_succ _) _ _ _ _ _
  | unexpired calm => exact .refl
  | expired report swept workers ripples reconciled => exact moves_changed (swept.moves.trans (ripples.moves _))
  | reaped count released =>
    exact .trans (.single (.stamp _)) (released.moves _)
  | drained current =>
    obtain ⟨_,worker,found,living,_⟩ := current
    exact moves_changed (.single (.drain found living))
  | acknowledged_before found ended => exact .refl
  | acknowledged current matching found state freed ripples reconciled =>
    exact moves_changed (.head (.acknowledge found state (matching.assigned found) freed) (ripples.moves _))
  | requested_before found requested => exact .refl
  | requested found state => exact moves_changed (.single (.request_cancel found state))
  | cancelled found state ripples reconciled => exact moves_changed (.head (.cancel found state) (ripples.moves _))
  | released released => exact released.moves _
  | taken => exact .single (.take_deletes _)

/-- Only the sweep lets workers die. -/
theorem Move.alive (move : Move op s s') (calm : ∀ now, op ≠ .expire_workers now) (alive : NoDead s) : NoDead s' := by
  refine move.workers alive (fun node worker enrolled => ?_) (fun _ _ living => living) (fun _ _ => by simp)
    (fun _ _ _ living => living) (fun _ now sweep => absurd sweep (calm now))
  rw [enrolled.state]
  nofun

/-- Workers that die are gone when the operation returns. -/
theorem Effect.alive (effect : Effect blake3 op s reply s') (newTo : op.NewTo s) (alive : NoDead s) : NoDead s' := by
  by_cases sweep : ∃ now, op = .expire_workers now
  · obtain ⟨now,rfl⟩ := sweep
    cases effect with
    | unexpired calm => exact alive
    | expired report swept workers ripples reconciled =>
      intro node worker found
      have left := workers node
      rw [← ripples.workers,found] at left
      exact alive node worker (Option.filter_eq_some_iff.mp left.symm).1
  · push Not at sweep
    exact (effect.moves newTo).keeps (fun _ _ move => move.alive sweep) alive

/-! ### Reports -/

/-- A report changed nothing, or it spoke of the current dispatch of its task, and `Q`
    held after its first move. -/
def Reports {α : Type} (op : Op) (s : CoordinatorState) (identity : WorkerIdentity) (fence : TaskFence)
    (Q : CoordinatorState → Prop) : Outcome Error CoordinatorState α → Prop
  | .ok _ s' => s' = s ∨ Matches s identity fence ∧ ∃ s₁, Move op s s₁ ∧ Q s₁ ∧ Moves op s₁ s'
  | .error (.Err _) s' => s' = s
  | .error _ _ => False

/-- The task is not dispatched. -/
def Ended (id : TaskId) (s : CoordinatorState) : Prop := ∀ task, s.tasks.get id = some task → task.assigned = none

/-- The identity and the fence of a worker's report. -/
def Op.report : Op → Option (WorkerIdentity × TaskFence)
  | .started identity fence => some (identity,fence)
  | .complete identity report => some (identity,report.fence)
  | .fail identity fence _ _ _ => some (identity,fence)
  | .acknowledge_cancel identity fence => some (identity,fence)
  | _ => none

/-- The fence of a report that may settle its task's dispatch. -/
def Op.settles : Op → Option TaskFence
  | .complete _ report => some report.fence
  | .fail _ fence _ _ _ => some fence
  | .acknowledge_cancel _ fence => some fence
  | _ => none

theorem ended_modify {tasks : Table TaskId TaskRecord} {id : TaskId} {f : TaskRecord → TaskRecord}
    (free : ∀ task, (f task).assigned = none) : ∀ task, (tasks.modify id f).get id = some task → task.assigned = none := by
  intro task found
  simp only [Table.get_modify,if_true,Option.map_eq_some_iff] at found
  obtain ⟨before,_,rfl⟩ := found
  exact free before

/-- What a report did: nothing, or a first move that starts the dispatch or ends it. -/
theorem Effect.reports (effect : Effect blake3 op s reply s') {identity : WorkerIdentity} {fence : TaskFence}
    (report : op.report = some (identity,fence)) :
    s' = s ∨ Matches s identity fence ∧ ∃ s₁, Move op s s₁ ∧ (op.settles.isSome = true → Ended fence.task_id s₁) ∧
      Moves op s₁ s' := by
  cases effect with
  | started_before | completed_before | failed_before | acknowledged_before => exact .inl rfl
  | started current matching found assigned =>
    cases report
    exact .inr ⟨matching,_,.start found assigned,nofun,moves_changed .refl⟩
  | completed current matching found state at_worker living offered verified output accepted freed ripples reconciled =>
    cases report
    refine .inr ⟨matching,_,.complete rfl found state (matching.assigned found) at_worker living accepted.2.2.1
      accepted.2.2.2 freed,fun _ => ended_modify fun _ => rfl,moves_changed (ripples.moves _)⟩
  | retried current matching found state retry freed =>
    cases report
    exact .inr ⟨matching,_,.retry _ found state (matching.assigned found) retry.2 freed,fun _ => ended_modify fun _ => rfl,
      .single (.count (Nat.le_succ _) _ _ _ _ _)⟩
  | failed current matching found state final freed ripples reconciled =>
    cases report
    exact .inr ⟨matching,_,.fail _ found state (matching.assigned found) freed,fun _ => ended_modify fun _ => rfl,
      .tail (ripples.moves _) (.count (Nat.le_succ _) _ _ _ _ _)⟩
  | acknowledged current matching found state freed ripples reconciled =>
    cases report
    exact .inr ⟨matching,_,.acknowledge found state (matching.assigned found) freed,fun _ => ended_modify fun _ => rfl,
      moves_changed (ripples.moves _)⟩
  | _ => cases report

end

end Crayon.CoordinatorState
