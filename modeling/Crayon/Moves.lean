import Crayon.Coordinator

/-!
The coordinator as an abstract machine. Every operation is a sequence of moves,
each of which takes one worker, task or object from one consistent condition to
another at once; which moves an operation may make is part of their statement.
What holds of every move holds of every operation, since each operation either
returns an error and changes nothing, or makes moves (`Crayon.Refinement`).
-/
namespace Crayon.CoordinatorState
open Command

/-- An id drawn at random. -/
inductive Minted where
  | session (id : WorkerSessionId)
  | task (id : TaskId)
  | object (id : ObjectId)
  | lease (id : LeaseId)
deriving DecidableEq, Repr

/-- The ids that an operation draws. -/
def Op.minted : Op → List Minted
  | .register_worker _ _ _ session_id => [.session session_id]
  | .submit _ _ _ _ id output => [.task id,.object output]
  | .assign_next _ _ lease => [.lease lease]
  | _ => []

/-- The resources that an operation brings in. -/
def Op.resources : Op → Option ResourceSet
  | .register_worker request _ _ _ => some request.resources
  | .submit _ _ resources _ _ _ => some resources
  | _ => none

/-- The operation that stores an object with these bytes, or without. -/
def Op.storing (id : ObjectId) (codec : Codec) (size_bytes : UInt64) (checksum : Checksum) : Option (List UInt8) → Op
  | some bytes => .put codec bytes
  | none => .put_meta id codec size_bytes checksum

/-- A worker that just registered. -/
structure Enrolled (op : Op) (node : NodeId) (worker : WorkerRecord) : Prop where
  node_id : worker.identity.node_id = node
  state : worker.state = .Alive
  available : worker.available = worker.total
  free_slots : worker.free_slots = worker.slots
  resources : op.resources = some worker.total
  address : validate_advertise_addr worker.advertise_addr = .ok ()

/-- A task that was just submitted. -/
structure Submitted (op : Op) (id : TaskId) (output : ObjectId) (blocked : Bool) (task : TaskRecord) : Prop where
  minted : .task id ∈ op.minted
  drawn : .object output ∈ op.minted
  id : task.id = id
  output : task.output = output
  resources : op.resources = some task.resources
  budget : task.attempt < task.max_attempts
  state : task.state = if blocked then .Waiting else .Runnable
  assigned : task.assigned = none

/-- An object that the client put. -/
def put_record (id : ObjectId) (codec : Codec) (size_bytes : UInt64) (checksum : Checksum)
    (bytes : Option (List UInt8)) : ObjectRecord where
  id
  state := .Available
  codec := some codec
  size_bytes := some size_bytes
  checksum := some checksum
  bytes
  location := some "coordinator"
  owner := none

/-- What becomes of the workers when a dispatched task is over: its worker gets
    the resources and the slot back, unless it is dead. -/
inductive Freed (workers : Table NodeId WorkerRecord) (node : NodeId) (resources : ResourceSet) :
    Table NodeId WorkerRecord → Prop where
  | returned {worker : WorkerRecord} {available : ResourceSet} (found : workers.get node = some worker)
      (living : worker.state ≠ .Dead) (room : worker.free_slots < worker.slots)
      (added : ResourceSet.add_capped resources worker.total worker.available = .ok () available) :
      Freed workers node resources (workers.modify node fun w =>
        { w with available, free_slots := worker.free_slots + 1 })
  | dropped {worker : WorkerRecord} (found : workers.get node = some worker) (dead : worker.state = .Dead) :
      Freed workers node resources workers

/-- The same tasks are queued as far as they are runnable, in whatever order, and
    nothing is queued more often than before. -/
structure Requeued (s : CoordinatorState) (queue : List TaskId) : Prop where
  kept : ∀ id task, s.tasks.get id = some task → task.state = .Runnable → queue.count id = s.runnable.count id
  bounded : ∀ id, queue.count id ≤ s.runnable.count id

/-- One move of the coordinator. -/
inductive Move (op : Op) : CoordinatorState → CoordinatorState → Prop where
  /-- A worker's lease is renewed. -/
  | renew {s : CoordinatorState} {node : NodeId} (deadline : Nat) :
      Move op s { s with workers := s.workers.modify node fun worker => { worker with lease_deadline_ms := deadline } }
  /-- A worker joins. -/
  | enroll {s : CoordinatorState} {node : NodeId} {worker : WorkerRecord} (absent : s.workers.get node = none)
      (enrolled : Enrolled op node worker) :
      Move op s { s with
        operations := s.operations.extend worker.operations
        workers := s.workers.insert node worker }
  /-- A worker takes no further tasks. -/
  | drain {s : CoordinatorState} {node : NodeId} {worker : WorkerRecord} (found : s.workers.get node = some worker)
      (living : worker.state ≠ .Dead) :
      Move op s { s with workers := s.workers.modify node fun worker => { worker with state := .Draining } }
  /-- A client's object is stored. -/
  | store {s : CoordinatorState} {id : ObjectId} {codec : Codec} {size_bytes : UInt64} {checksum : Checksum}
      {bytes : Option (List UInt8)} (absent : s.objects.get id = none)
      (source : op = .storing id codec size_bytes checksum bytes) :
      Move op s { s with objects := s.objects.insert id (put_record id codec size_bytes checksum bytes) }
  /-- A task is accepted and its output reserved. -/
  | submit {s : CoordinatorState} {id : TaskId} {output : ObjectId} {blocked : Bool} {task : TaskRecord}
      (codec : Codec) (newTask : s.tasks.get id = none) (unqueued : id ∉ s.runnable)
      (newOutput : s.objects.get output = none) (submitted : Submitted op id output blocked task) :
      Move op s { s with
        objects := s.objects.insert output
          { id := output, state := .Reserved, codec := some codec, bytes := none, size_bytes := none,
            checksum := none, location := none, owner := none }
        tasks := s.tasks.insert id task
        waiting := if blocked then insert id s.waiting else s.waiting
        runnable := if blocked then s.runnable else s.runnable ++ [id] }
  /-- The queue is rearranged, and stale entries dropped. -/
  | requeue {s : CoordinatorState} {queue : List TaskId} (same : Requeued s queue) : Move op s { s with runnable := queue }
  /-- The task at the head of the queue is dispatched. -/
  | assign {s : CoordinatorState} {id : TaskId} {queue : List TaskId} {task : TaskRecord} {node : NodeId}
      {worker : WorkerRecord} {available : ResourceSet} {lease : LeaseId} (head : s.runnable = id :: queue)
      (found : s.tasks.get id = some task) (runnable : task.state = .Runnable)
      (at_worker : s.workers.get node = some worker) (alive : worker.state = .Alive) (free : worker.free_slots ≠ 0)
      (fits : worker.available.can_fit task.resources = true)
      (taken : ResourceSet.subtract task.resources worker.available = .ok () available)
      (minted : .lease lease ∈ op.minted) :
      Move op s { s with
        runnable := queue
        workers := s.workers.modify node fun w => { w with available, free_slots := worker.free_slots - 1 }
        tasks := s.tasks.modify id fun t => { t with
          attempt := task.attempt + 1
          state := .Assigned
          assigned := some ⟨node,worker.identity.worker_epoch,worker.identity.session_id,lease⟩ } }
  /-- A dispatched task runs. -/
  | start {s : CoordinatorState} {id : TaskId} {task : TaskRecord} (found : s.tasks.get id = some task)
      (assigned : task.state = .Assigned) :
      Move op s { s with tasks := s.tasks.modify id fun task => { task with state := .Running } }
  /-- A dispatched task succeeds, and its worker serves the output. -/
  | complete {s : CoordinatorState} {id : TaskId} {task : TaskRecord} {a : Assigned} {worker : WorkerRecord}
      {identity : WorkerIdentity} {report : TaskCompletion} {workers : Table NodeId WorkerRecord}
      (asked : op = .complete identity report) (found : s.tasks.get id = some task)
      (state : task.state = .Assigned ∨ task.state = .Running) (assigned : task.assigned = some a)
      (at_worker : s.workers.get identity.node_id = some worker) (living : worker.state ≠ .Dead)
      (location : report.location = worker.advertise_addr)
      (small : report.size_bytes ≤ UInt64.ofNat MAX_OBJECT_BYTES) (freed : Freed s.workers a.node task.resources workers) :
      Move op s { s with
        workers
        tasks := s.tasks.modify id fun task => { task with state := .Succeeded, assigned := none }
        objects := s.objects.modify task.output (reported_output identity report) }
  /-- A dispatched task goes back to the queue. -/
  | retry {s : CoordinatorState} {id : TaskId} {task : TaskRecord} {a : Assigned} {workers : Table NodeId WorkerRecord}
      (not_before_ms : Nat) (found : s.tasks.get id = some task)
      (state : task.state = .Assigned ∨ task.state = .Running) (assigned : task.assigned = some a)
      (budget : task.attempt < task.max_attempts) (freed : Freed s.workers a.node task.resources workers) :
      Move op s { s with
        workers
        tasks := s.tasks.modify id fun task => { task with state := .Runnable, assigned := none, not_before_ms }
        waiting := s.waiting.erase id
        runnable := s.runnable ++ [id] }
  /-- A dispatched task fails for good. -/
  | fail {s : CoordinatorState} {id : TaskId} {task : TaskRecord} {a : Assigned} {workers : Table NodeId WorkerRecord}
      (message : String) (found : s.tasks.get id = some task)
      (state : task.state = .Assigned ∨ task.state = .Running) (assigned : task.assigned = some a)
      (freed : Freed s.workers a.node task.resources workers) :
      Move op s { s with
        workers
        tasks := s.tasks.modify id fun task => { task with state := .Failed message, assigned := none }
        objects := s.objects.modify task.output fun object => { object with state := .Failed } }
  /-- A task whose cancellation was requested is over. -/
  | acknowledge {s : CoordinatorState} {id : TaskId} {task : TaskRecord} {a : Assigned}
      {workers : Table NodeId WorkerRecord} (found : s.tasks.get id = some task)
      (state : task.state = .CancelRequested) (assigned : task.assigned = some a)
      (freed : Freed s.workers a.node task.resources workers) :
      Move op s { s with
        workers
        cancel_requested := s.cancel_requested.erase id
        tasks := s.tasks.modify id fun task => { task with state := .Cancelled, assigned := none }
        objects := s.objects.modify task.output fun object => { object with state := .Cancelled } }
  /-- The worker of a dispatched task is asked to stop it. -/
  | request_cancel {s : CoordinatorState} {id : TaskId} {task : TaskRecord} (found : s.tasks.get id = some task)
      (state : task.state = .Assigned ∨ task.state = .Running) :
      Move op s { s with
        tasks := s.tasks.modify id fun task => { task with state := .CancelRequested }
        cancel_requested := insert id s.cancel_requested }
  /-- A task that was not dispatched is cancelled at once. -/
  | cancel {s : CoordinatorState} {id : TaskId} {task : TaskRecord} (found : s.tasks.get id = some task)
      (state : task.state = .Waiting ∨ task.state = .Runnable) :
      Move op s { s with
        tasks := s.tasks.modify id fun task => { task with state := .Cancelled }
        waiting := s.waiting.erase id
        objects := s.objects.modify task.output fun object => { object with state := .Cancelled } }
  /-- A blocked task fails with one of its arguments. -/
  | starve {s : CoordinatorState} {id : TaskId} {task : TaskRecord} (found : s.tasks.get id = some task)
      (state : task.state = .Waiting) (failed : s.dependency_failed task = true) :
      Move op s { s with
        tasks := s.tasks.modify id fun task => { task with state := .Failed "dependency failed" }
        waiting := s.waiting.erase id
        objects := s.objects.modify task.output fun object => { object with state := .Failed } }
  /-- A blocked task has all its arguments. -/
  | wake {s : CoordinatorState} {id : TaskId} {task : TaskRecord} (found : s.tasks.get id = some task)
      (state : task.state = .Waiting) (available : s.dependencies_available task = true) :
      Move op s { s with
        tasks := s.tasks.modify id fun task => { task with state := .Runnable }
        waiting := s.waiting.erase id
        runnable := s.runnable ++ [id] }
  /-- A worker's lease runs out; its tasks are still to be taken back. -/
  | expire {s : CoordinatorState} {node : NodeId} {now : Nat} (sweep : op = .expire_workers now) :
      Move op s { s with workers := s.workers.modify node fun worker => { worker with state := .Dead } }
  /-- A dead worker with no tasks left is forgotten, and the objects it owned are
      orphaned. -/
  | evict {s : CoordinatorState} {node : NodeId} (idle : ∀ id task, s.tasks.get id = some task → task.on node = false) :
      Move op s { s with
        objects := s.objects.mapValues (orphan node)
        workers := s.workers.remove node
        pending_deletes := s.pending_deletes.remove node }
  /-- An object that no live task needs is dropped, with the task it came from. -/
  | release {s : CoordinatorState} {id : ObjectId} {object : ObjectRecord}
      (pending_deletes : Table NodeId (List ObjectId)) (found : s.objects.get id = some object)
      (settled : object.state ≠ .Reserved) (unused : s.object_in_use id = false) :
      Move op s { s with
        pending_deletes
        objects := s.objects.remove id
        tasks := s.tasks.retain fun task => task.output ≠ id }
  /-- Terminal tasks are stamped. -/
  | stamp {s : CoordinatorState} (now : Nat) : Move op s { s with tasks := s.tasks.mapValues (stamp now) }
  /-- A worker takes the deletes queued for it. -/
  | take_deletes {s : CoordinatorState} (node : NodeId) :
      Move op s { s with pending_deletes := s.pending_deletes.remove node }
  /-- Counters move. -/
  | count {s : CoordinatorState} {revision : Nat} (later : s.revision ≤ revision)
      (assigns owned_input local_hits retries failures : Nat) :
      Move op s { s with
        revision
        sched_assigns := assigns
        sched_owned_input := owned_input
        sched_local_hits := local_hits
        retries_total := retries
        failures_total := failures }

/-- Any number of moves of one operation. -/
abbrev Moves (op : Op) : CoordinatorState → CoordinatorState → Prop := Relation.ReflTransGen (Move op)

variable {s s' : CoordinatorState}

/-- What holds initially and survives every move holds after any number of them. -/
theorem Moves.keeps {op : Op} {P : CoordinatorState → Prop} (step : ∀ s s', Move op s s' → P s → P s')
    (moves : Moves op s s') (start : P s) : P s' := by
  induction moves with
  | refl => exact start
  | tail _ move ih => exact step _ _ move ih

/-- What can be traced back through every move, unless the operation brought it in, can be
    traced back through any number of them. -/
theorem Moves.origin {op : Op} {P : CoordinatorState → Prop} {New : Prop} (step : ∀ s s', Move op s s' → P s' → P s ∨ New)
    (moves : Moves op s s') (last : P s') : P s ∨ New := by
  induction moves with
  | refl => exact .inl last
  | tail _ move ih => exact (step _ _ move last).elim ih .inr

/-- What holds of every worker that joins, and survives each way a worker changes, holds of all workers. -/
theorem Move.workers {op : Op} (move : Move op s s') {P : WorkerRecord → Prop}
    (before : ∀ node worker, s.workers.get node = some worker → P worker)
    (enrolled : ∀ node worker, Enrolled op node worker → P worker)
    (renewed : ∀ worker deadline, P worker → P { worker with lease_deadline_ms := deadline })
    (drained : ∀ worker, P worker → P { worker with state := .Draining })
    (booked : ∀ worker available free_slots, P worker → P { worker with available, free_slots })
    (died : ∀ worker now, op = .expire_workers now → P worker → P { worker with state := .Dead }) :
    ∀ node worker, s'.workers.get node = some worker → P worker := by
  have modified : ∀ (node : NodeId) (f : WorkerRecord → WorkerRecord), (∀ worker, P worker → P (f worker)) →
      ∀ other worker, (s.workers.modify node f).get other = some worker → P worker := by
    intro node f kept other worker found
    rw [Table.get_modify] at found
    split at found
    · obtain ⟨old,there,rfl⟩ := Option.map_eq_some_iff.mp found
      exact kept old (before other old there)
    · exact before other worker found
  have freed : ∀ {node resources workers}, Freed s.workers node resources workers →
      ∀ other worker, workers.get other = some worker → P worker := by
    intro node resources workers freed
    cases freed with
    | returned found living room added => exact modified _ _ fun worker held => booked worker _ _ held
    | dropped found dead => exact before
  cases move with
  | renew deadline => exact modified _ _ fun worker held => renewed worker deadline held
  | enroll absent joined =>
    intro other worker found
    rw [Table.get_insert] at found
    split at found
    · obtain rfl := Option.some.inj found
      exact enrolled _ _ joined
    · exact before other worker found
  | drain found living => exact modified _ _ fun worker held => drained worker held
  | assign => exact modified _ _ fun worker held => booked worker _ _ held
  | complete asked found state assigned at_worker living location small free => exact freed free
  | retry not_before_ms found state assigned budget free => exact freed free
  | fail message found state assigned free => exact freed free
  | acknowledge found state assigned free => exact freed free
  | expire sweep => exact modified _ _ fun worker held => died worker _ sweep held
  | evict idle =>
    intro other worker found
    rw [Table.get_remove] at found
    split at found
    · cases found
    · exact before other worker found
  | _ => exact before

end Crayon.CoordinatorState
