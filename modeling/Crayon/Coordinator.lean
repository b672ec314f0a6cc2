import Crayon.Protocol
import Crayon.Table

/-!
The coordinator's state and its operations, as the control plane computes them.
Lookups that the program makes by index or with `unwrap` panic here when they
find nothing, and an operation that stops leaves what it wrote until then. Ids
that the program draws at random are arguments; the order in which a hash table
is traversed is an argument too.
-/
namespace Crayon
open Command

def MAX_TASKS : Nat := 16384
def MAX_OBJECTS : Nat := 65536
def RETRY_BACKOFF_BASE_MS : Nat := 100
def RETRY_BACKOFF_CAP_MS : Nat := 30000
def TERMINAL_TASK_TTL_MS : Nat := 600000
def LOCALITY_LOOKAHEAD : Nat := 16

/-- Addition of 64-bit numbers that stops at the largest. -/
def saturating_add (a b : Nat) : Nat := min (a + b) (2^64 - 1)

def retry_backoff_ms (attempt : Attempt) : Nat :=
  min (min (RETRY_BACKOFF_BASE_MS * 2^(min (attempt.toNat - 1) 20)) (2^64 - 1)) RETRY_BACKOFF_CAP_MS

example : [1,2,3,9,10,60].map retry_backoff_ms = [100,200,400,25600,30000,30000] := by decide

/-! ### Records -/

inductive WorkerState where
  | Alive
  | Draining
  | Dead
deriving DecidableEq, Repr

inductive TaskState where
  | Waiting
  | Runnable
  | Assigned
  | Running
  | CancelRequested
  | Succeeded
  | Failed (message : String)
  | Cancelled
deriving DecidableEq, Repr

namespace TaskState

def is_terminal : TaskState → Bool
  | .Succeeded => true
  | .Failed _ => true
  | .Cancelled => true
  | _ => false

end TaskState

inductive ObjectState where
  | Reserved
  | Available
  | Failed
  | Cancelled
  | Lost
deriving DecidableEq, Repr

structure WorkerRecord where
  identity : WorkerIdentity
  state : WorkerState
  advertise_addr : String
  total : ResourceSet
  available : ResourceSet
  slots : UInt32
  free_slots : UInt32
  operations : Table OperationKey OperationDescriptor
  lease_deadline_ms : Nat
deriving DecidableEq

/-- The worker that a task is dispatched to, and under which lease. -/
structure Assigned where
  node : NodeId
  epoch : WorkerEpoch
  session : WorkerSessionId
  lease : LeaseId
deriving DecidableEq, Repr

/-- The assignment belongs to the worker session. -/
def Assigned.held_by (a : Assigned) (identity : WorkerIdentity) : Bool :=
  a.node = identity.node_id && a.epoch = identity.worker_epoch && a.session = identity.session_id

structure TaskRecord where
  id : TaskId
  operation : OperationKey
  args : List TaskArg
  output : ObjectId
  resources : ResourceSet
  max_attempts : UInt32
  attempt : Attempt
  state : TaskState
  assigned : Option Assigned
  not_before_ms : Nat
  terminal_since_ms : Nat
deriving DecidableEq

namespace TaskRecord

/-- The objects that a task takes as arguments. -/
def dependencies (task : TaskRecord) : List ObjectId := task.args.filterMap TaskArg.object?

/-- The task is dispatched to the node. -/
def on (task : TaskRecord) (node : NodeId) : Bool := task.assigned.any fun a => a.node = node

end TaskRecord

structure ObjectRecord where
  id : ObjectId
  state : ObjectState
  codec : Option Codec
  bytes : Option (List UInt8)
  size_bytes : Option UInt64
  checksum : Option Checksum
  location : Option String
  owner : Option NodeId
deriving DecidableEq, Repr

structure WorkerExpiry where
  node : NodeId
  retried : Nat
  failed : Nat
  cancelled : Nat
  objects_lost : Nat
deriving DecidableEq, Repr

structure PutOutcome where
  id : ObjectId
  checksum : Checksum
  stored : List UInt8
deriving DecidableEq, Repr

structure CoordinatorState where
  epoch : CoordinatorEpoch
  revision : Nat
  workers : Table NodeId WorkerRecord
  tasks : Table TaskId TaskRecord
  objects : Table ObjectId ObjectRecord
  operations : Table OperationKey OperationDescriptor
  pending_deletes : Table NodeId (List ObjectId)
  runnable : List TaskId
  waiting : Finset TaskId
  cancel_requested : Finset TaskId
  sched_assigns : Nat
  sched_owned_input : Nat
  sched_local_hits : Nat
  retries_total : Nat
  failures_total : Nat
deriving DecidableEq

/-- The orders in which one operation finds nodes and tasks in the hash tables. -/
structure HashOrder where
  nodes : Traversal NodeId
  tasks : Traversal TaskId

/-- Everything is found in the order of the ids. -/
def HashOrder.by_id : HashOrder := ⟨.increasing,.increasing⟩

/-- A command on the coordinator's state. -/
abbrev Coord (α : Type) := Command Error CoordinatorState α

namespace CoordinatorState

def new (epoch : CoordinatorEpoch) : CoordinatorState where
  epoch
  revision := 0
  workers := .empty
  tasks := .empty
  objects := .empty
  operations := .empty
  pending_deletes := .empty
  runnable := []
  waiting := ∅
  cancel_requested := ∅
  sched_assigns := 0
  sched_owned_input := 0
  sched_local_hits := 0
  retries_total := 0
  failures_total := 0

/-! ### Reading and writing records -/

/-- `self.workers.get_mut(&node).unwrap()`, and an update of what it finds. -/
def worker_mut (node : NodeId) (f : WorkerRecord → WorkerRecord) : Coord Unit := do
  let self ← get
  let _ ← unwrap (self.workers.get node)
  set { self with workers := self.workers.modify node f }

/-- `self.tasks.get_mut(&id).unwrap()`, and an update of what it finds. -/
def task_mut (id : TaskId) (f : TaskRecord → TaskRecord) : Coord Unit := do
  let self ← get
  let _ ← unwrap (self.tasks.get id)
  set { self with tasks := self.tasks.modify id f }

/-- `self.objects.get_mut(&id).unwrap()`, and an update of what it finds. -/
def object_mut (id : ObjectId) (f : ObjectRecord → ObjectRecord) : Coord Unit := do
  let self ← get
  let _ ← unwrap (self.objects.get id)
  set { self with objects := self.objects.modify id f }

/-- `n + 1`, where an overflow panics. -/
def increment (n : UInt32) : Coord UInt32 := if n.toNat + 1 < 2^32 then pure (n + 1) else panic

/-- `n - 1`, where an underflow panics. -/
def decrement (n : UInt32) : Coord UInt32 := if 0 < n.toNat then pure (n - 1) else panic

def changed : Coord Unit := modify fun self => { self with revision := self.revision + 1 }

def mark_runnable (id : TaskId) : Coord Unit :=
  modify fun self => { self with
    tasks := self.tasks.modify id fun task => { task with state := .Runnable }
    waiting := self.waiting.erase id
    runnable := self.runnable ++ [id] }

def mark_cancel_requested (id : TaskId) : Coord Unit :=
  modify fun self => { self with
    tasks := self.tasks.modify id fun task => { task with state := .CancelRequested }
    cancel_requested := insert id self.cancel_requested }

def object_in_use (self : CoordinatorState) (id : ObjectId) : Bool :=
  self.tasks.any fun task => !task.state.is_terminal && task.dependencies.any (· = id)

def check_identity (identity : WorkerIdentity) : Coord Unit := do
  let self ← get
  ensure (identity.coordinator_epoch = self.epoch) .StaleFence
  let worker ← ok_or (self.workers.get identity.node_id) .StaleFence
  ensure (worker.state ≠ .Dead ∧ worker.identity.worker_epoch = identity.worker_epoch ∧
    worker.identity.session_id = identity.session_id) .StaleFence

def check_fence (identity : WorkerIdentity) (fence : TaskFence) : Coord Unit := do
  check_identity identity
  let self ← get
  let task ← ok_or (self.tasks.get fence.task_id) (.TaskNotFound fence.task_id)
  ensure (task.assigned = some ⟨identity.node_id,identity.worker_epoch,identity.session_id,fence.lease_id⟩ ∧
    task.attempt = fence.attempt) .StaleFence

def release (node : NodeId) (resources : ResourceSet) : Coord Unit := do
  let self ← get
  let worker ← ok_or (self.workers.get node) .StaleFence
  ensure (worker.free_slots < worker.slots) (.InvalidResource "resource slot release exceeds worker total")
  let available ← onCopy worker.available (ResourceSet.add_capped resources worker.total)
  let free_slots ← increment worker.free_slots
  set { self with workers := self.workers.modify node fun worker => { worker with available, free_slots } }

/-! ### Workers -/

/-- The descriptors of a registration, each checked against those before it and
    against the operations already known. -/
def collect_operations (known : Table OperationKey OperationDescriptor) :
    List OperationDescriptor → Table OperationKey OperationDescriptor →
      Except Error (Table OperationKey OperationDescriptor)
  | [], operations => .ok operations
  | descriptor :: rest, operations => do
    descriptor.validate
    if (operations.get descriptor.key).any (· ≠ descriptor) then
      .error (.OperationConflict descriptor.key.to_string)
    else if (known.get descriptor.key).any (· ≠ descriptor) then
      .error (.OperationConflict descriptor.key.to_string)
    else collect_operations known rest (operations.insert descriptor.key descriptor)

def register_worker (request : RegisterWorker) (now lease_ms : Nat) (session_id : WorkerSessionId) :
    Coord WorkerIdentity := do
  lift (validate_advertise_addr request.advertise_addr)
  ensure (request.slots ≠ 0) (.InvalidResource "worker slots must be positive")
  let self ← get
  let operations ← lift (collect_operations self.operations request.operations .empty)
  match (self.workers.get request.node_id).filter (·.state ≠ .Dead) with
  | some existing =>
    -- A draining worker counts as active.
    ensure (existing.identity.worker_epoch = request.worker_epoch ∧
      existing.advertise_addr = request.advertise_addr ∧ existing.total = request.resources ∧
      existing.slots = request.slots ∧ existing.operations = operations) (.Protocol "duplicate active node id")
    set { self with workers := self.workers.modify request.node_id fun existing =>
      { existing with lease_deadline_ms := saturating_add now lease_ms } }
    changed
    pure existing.identity
  | none =>
    let identity : WorkerIdentity :=
      ⟨request.node_id,request.worker_epoch,session_id,self.epoch⟩
    set { self with
      operations := self.operations.extend operations
      workers := self.workers.insert request.node_id {
        identity
        state := .Alive
        advertise_addr := request.advertise_addr
        total := request.resources
        available := request.resources
        slots := request.slots
        free_slots := request.slots
        operations
        lease_deadline_ms := saturating_add now lease_ms } }
    changed
    pure identity

def heartbeat (identity : WorkerIdentity) (now lease_ms : Nat) : Coord Unit := do
  check_identity identity
  worker_mut identity.node_id fun worker => { worker with lease_deadline_ms := saturating_add now lease_ms }

def drain (identity : WorkerIdentity) : Coord Unit := do
  check_identity identity
  worker_mut identity.node_id fun worker => { worker with state := .Draining }
  changed

/-! ### Objects -/

def admit_object (id : ObjectId) (codec : Codec) (size_bytes : UInt64) (checksum : Checksum)
    (bytes : Option (List UInt8)) : Coord ObjectId := do
  let self ← get
  match self.objects.get id with
  | some existing =>
    ensure (existing.state = .Available ∧ existing.codec = some codec ∧ existing.size_bytes = some size_bytes ∧
      existing.checksum = some checksum) (.ObjectConflict id)
    pure id
  | none =>
    ensure (self.objects.len < MAX_OBJECTS) (.CapacityExceeded "object store limit reached")
    set { self with objects := self.objects.insert id {
      id
      state := .Available
      codec := some codec
      size_bytes := some size_bytes
      checksum := some checksum
      bytes
      location := some "coordinator"
      owner := none } }
    changed
    pure id

def put (blake3 : List UInt8 → Checksum) (codec : Codec) (bytes : List UInt8) : Coord PutOutcome := do
  let checksum := blake3 bytes
  let id := ObjectId.from_checksum checksum
  let _ ← admit_object id codec (UInt64.ofNat bytes.length) checksum (some bytes)
  pure ⟨id,checksum,bytes⟩

def put_meta (id : ObjectId) (codec : Codec) (size_bytes : UInt64) (checksum : Checksum) : Coord ObjectId :=
  admit_object id codec size_bytes checksum none

def resolve_object (id : ObjectId) : Coord ObjectPayload := do
  let self ← get
  match self.objects.get id with
  | none => err (.Protocol "object unavailable")
  | some object =>
    match object.state with
    | .Available =>
      let codec ← unwrap object.codec
      let size_bytes ← unwrap object.size_bytes
      let checksum ← unwrap object.checksum
      let location ← unwrap object.location
      pure { id, codec, size_bytes, checksum, location, bytes := object.bytes, arena := none }
    | .Lost => err (.ObjectLost id)
    | .Reserved => err (.ObjectPending id)
    | _ => err (.Protocol "object unavailable")

def release_object (id : ObjectId) : Coord Unit := do
  let self ← get
  match self.objects.get id with
  | none => pure ()
  | some object =>
    ensure (object.state ≠ .Reserved) (.ObjectInUse id)
    ensure (self.object_in_use id = false) (.ObjectInUse id)
    -- A delete is queued only for an owner that is still registered.
    let pending_deletes := match object.owner with
      | some owner =>
        if (self.workers.get owner).isSome then
          self.pending_deletes.insert owner ((self.pending_deletes.get owner).getD [] ++ [id])
        else self.pending_deletes
      | none => self.pending_deletes
    set { self with
      pending_deletes
      objects := self.objects.remove id
      tasks := self.tasks.retain fun task => task.output ≠ id }
    changed

def take_pending_deletes (node : NodeId) : Coord (List ObjectId) := do
  let self ← get
  set { self with pending_deletes := self.pending_deletes.remove node }
  pure ((self.pending_deletes.get node).getD [])

/-! ### Dependencies -/

/-- Some object that the task takes is gone, or will never be available. -/
def dependency_failed (self : CoordinatorState) (task : TaskRecord) : Bool :=
  task.dependencies.any fun object =>
    (self.objects.get object).all fun record => record.state ≠ .Reserved ∧ record.state ≠ .Available

/-- Every object that the task takes is available. -/
def dependencies_available (self : CoordinatorState) (task : TaskRecord) : Bool :=
  task.dependencies.all fun object => (self.objects.get object).any fun record => record.state = .Available

/-- What one pass does with one blocked task; tells whether anything changed. -/
def reconcile_task (changed : Bool) (id : TaskId) : Coord Bool := do
  let self ← get
  let task ← unwrap (self.tasks.get id)
  if self.dependency_failed task then do
    task_mut id fun task => { task with state := .Failed "dependency failed" }
    modify fun self => { self with waiting := self.waiting.erase id }
    object_mut task.output fun object => { object with state := .Failed }
    pure true
  else if self.dependencies_available task then do
    mark_runnable id
    pure true
  else pure changed

/-- Passes over the blocked tasks until one changes nothing, in at most `fuel`
    passes. -/
def reconcile_passes (order : HashOrder) : Nat → Coord Unit
  | 0 => throw .Diverge
  | fuel + 1 => do
    let self ← get
    let changed ← (order.tasks.list self.waiting).foldlM reconcile_task false
    if changed then reconcile_passes order fuel else pure ()

/-- A pass that changes something takes a task out of `waiting`, which bounds the
    number of passes. -/
def reconcile_dependencies (order : HashOrder) : Coord Unit := do
  let self ← get
  reconcile_passes order (self.waiting.card + 1)

/-! ### Tasks -/

/-- Looks the object arguments up in order; tells whether one is still to come. -/
def admit_args (self : CoordinatorState) (input_codec : Codec) : List TaskArg → Bool → Except Error Bool
  | [], waiting => .ok waiting
  | .Inline _ _ :: rest, waiting => admit_args self input_codec rest waiting
  | .Object id :: rest, waiting =>
    match self.objects.get id with
    | none => .error (.ObjectNotFound id)
    | some object =>
      if object.codec.any (· ≠ input_codec) then .error (.Protocol "object argument codec mismatch")
      else match object.state with
        | .Available => admit_args self input_codec rest waiting
        | .Reserved => admit_args self input_codec rest true
        | _ => .error (.DependencyFailed id)

def submit (operation : OperationKey) (args : List TaskArg) (resources : ResourceSet) (max_attempts : UInt32)
    (id : TaskId) (output : ObjectId) : Coord (TaskId × ObjectId) := do
  ensure (max_attempts ≠ 0) (.IllegalTransition "max_attempts must be positive")
  let self ← get
  ensure (self.tasks.len < MAX_TASKS) (.CapacityExceeded "task limit reached")
  ensure (self.objects.len < MAX_OBJECTS) (.CapacityExceeded "object store limit reached")
  let descriptor ← ok_or (self.operations.get operation) (.OperationUnavailable operation.to_string)
  lift (descriptor.validate_args args)
  ensure ((self.workers.any fun worker => worker.state = .Alive && (worker.operations.get operation).isSome &&
      worker.total.can_fit resources) = true)
    (.InvalidResource "no registered worker can satisfy task resources")
  let waiting ← lift (admit_args self descriptor.input_codec args false)
  set { self with
    objects := self.objects.insert output {
      id := output
      state := .Reserved
      codec := some descriptor.output_codec
      bytes := none
      size_bytes := none
      checksum := none
      location := none
      owner := none }
    tasks := self.tasks.insert id {
      id
      operation
      args
      output
      resources
      max_attempts
      attempt := 0
      state := if waiting then .Waiting else .Runnable
      assigned := none
      not_before_ms := 0
      terminal_since_ms := 0 }
    waiting := if waiting then insert id self.waiting else self.waiting
    runnable := if waiting then self.runnable else self.runnable ++ [id] }
  changed
  pure (id,output)

/-- How the search of the queue for a worker ends: the tasks that the worker
    cannot serve, those that it could but whose inputs it does not own, the task
    that was found to be local, and the part of the queue never looked at. -/
structure Selection where
  requeue : List TaskId
  passed : List TaskId
  chosen : Option TaskId
  rest : List TaskId
deriving DecidableEq, Repr

/-- An argument of the task is an object that the node owns. -/
def local_to (self : CoordinatorState) (node_id : NodeId) (task : TaskRecord) : Bool :=
  task.dependencies.any fun oid => ((self.objects.get oid).bind (·.owner)) = some node_id

/-- Pops ids off the queue until one is local or enough have been passed over. -/
def select (self : CoordinatorState) (worker : WorkerRecord) (node_id : NodeId) (now : Nat) :
    List TaskId → List TaskId → List TaskId → Nat → Selection
  | [], requeue, passed, _ => ⟨requeue,passed,none,[]⟩
  | id :: queue, requeue, passed, looked =>
    match self.tasks.get id with
    | none => select self worker node_id now queue requeue passed looked
    | some task =>
      if task.state ≠ .Runnable then select self worker node_id now queue requeue passed looked
      else if task.not_before_ms > now then select self worker node_id now queue (requeue ++ [id]) passed looked
      else if ¬ ((worker.operations.get task.operation).isSome = true ∧
          worker.available.can_fit task.resources = true) then
        select self worker node_id now queue (requeue ++ [id]) passed looked
      else if self.local_to node_id task then ⟨requeue,passed,some id,queue⟩
      else if looked + 1 ≥ LOCALITY_LOOKAHEAD then ⟨requeue,passed ++ [id],none,queue⟩
      else select self worker node_id now queue requeue (passed ++ [id]) (looked + 1)

namespace Selection

/-- The local task, or else the first one passed over; and whether it is local. -/
def pick (sel : Selection) : Option (TaskId × Bool) :=
  match sel.chosen with
  | some id => some (id,true)
  | none => sel.passed.head?.map fun id => (id,false)

/-- The queue once the tasks not picked are back in it: those passed over in
    front, those that the worker cannot serve at the end. -/
def queue (sel : Selection) : List TaskId :=
  sel.passed.filter (fun id => sel.pick.map (·.1) ≠ some id) ++ sel.rest ++ sel.requeue

end Selection

def assign_next (node_id : NodeId) (now : Nat) (lease : LeaseId) : Coord (Option TaskAssignment) := do
  let self ← get
  let worker ← ok_or (self.workers.get node_id) .StaleFence
  if worker.state ≠ .Alive ∨ worker.free_slots = 0 then pure none
  else do
    let worker ← unwrap (self.workers.get node_id)
    let selection := self.select worker node_id now self.runnable [] [] 0
    modify fun self => { self with runnable := selection.queue }
    match selection.pick with
    | none => pure none
    | some (id,local_hit) => do
      let task ← unwrap (self.tasks.get id)
      let owned_input := local_hit ||
        task.dependencies.any fun oid => ((self.objects.get oid).bind (·.owner)).isSome
      modify fun self => { self with
        sched_assigns := self.sched_assigns + 1
        sched_owned_input := self.sched_owned_input + owned_input.toNat
        sched_local_hits := self.sched_local_hits + local_hit.toNat }
      let attempt ← increment task.attempt
      let worker ← unwrap (self.workers.get node_id)
      within (fun _ => worker.available)
        (fun available self => { self with workers := self.workers.modify node_id fun worker => { worker with available } })
        (ResourceSet.subtract task.resources)
      let free_slots ← decrement worker.free_slots
      worker_mut node_id fun worker => { worker with free_slots }
      task_mut id fun task => { task with
        attempt
        state := .Assigned
        assigned := some ⟨node_id,worker.identity.worker_epoch,worker.identity.session_id,lease⟩ }
      changed
      pure (some {
        fence := ⟨id,attempt,lease⟩
        operation := task.operation
        args := task.args
        output_id := task.output
        resources := task.resources })

def assigned_unstarted (order : HashOrder) (identity : WorkerIdentity) : Coord (Option TaskAssignment) := do
  check_identity identity
  let self ← get
  pure ((self.tasks.values order.tasks).findSome? fun task =>
    match task.assigned with
    | none => none
    | some a =>
      if task.state = .Assigned && a.held_by identity then some {
        fence := ⟨task.id,task.attempt,a.lease⟩
        operation := task.operation
        args := task.args
        output_id := task.output
        resources := task.resources }
      else none)

def cancellation_for (order : HashOrder) (identity : WorkerIdentity) : Coord (Option TaskFence) := do
  check_identity identity
  let self ← get
  pure ((order.tasks.list self.cancel_requested).findSome? fun id =>
    match self.tasks.get id with
    | none => none
    | some task =>
      match task.assigned with
      | none => none
      | some a => if a.held_by identity then some ⟨task.id,task.attempt,a.lease⟩ else none)

def started (identity : WorkerIdentity) (fence : TaskFence) : Coord Unit := do
  let self ← get
  let task ← ok_or (self.tasks.get fence.task_id) (.TaskNotFound fence.task_id)
  if task.state = .Running then pure ()
  else do
    check_fence identity fence
    let task ← unwrap (self.tasks.get fence.task_id)
    ensure (task.state = .Assigned) (.IllegalTransition "task not assigned")
    task_mut fence.task_id fun task => { task with state := .Running }
    changed

/-- The answer to a repeated completion report: it must tell of the same output. -/
def completed_before (self : CoordinatorState) (task : TaskRecord) (report : TaskCompletion) : Coord Unit :=
  match self.objects.get task.output with
  | none => pure ()
  | some object => ensure (object.state = .Available ∧ object.checksum = some report.checksum ∧
      object.size_bytes = some report.size_bytes) (.ObjectConflict task.output)

/-- The output that a completion report describes. -/
def reported_output (identity : WorkerIdentity) (report : TaskCompletion) (object : ObjectRecord) : ObjectRecord :=
  { object with
    state := .Available
    codec := some report.codec
    size_bytes := some report.size_bytes
    checksum := some report.checksum
    location := some report.location
    owner := some identity.node_id
    bytes := report.bytes }

def complete (blake3 : List UInt8 → Checksum) (order : HashOrder) (identity : WorkerIdentity)
    (report : TaskCompletion) : Coord Unit := do
  let self ← get
  let task ← ok_or (self.tasks.get report.fence.task_id) (.TaskNotFound report.fence.task_id)
  if task.state = .Succeeded then self.completed_before task report
  else do
    check_fence identity report.fence
    let task ← unwrap (self.tasks.get report.fence.task_id)
    ensure (task.state = .Assigned ∨ task.state = .Running)
      (.IllegalTransition "task cannot complete in current state")
    let worker ← unwrap (self.workers.get identity.node_id)
    let descriptor ← ok_or (self.operations.get task.operation) (.OperationUnavailable task.operation.to_string)
    ensure ((report.bytes.all fun bytes =>
      UInt64.ofNat bytes.length = report.size_bytes && blake3 bytes = report.checksum) = true)
      (.ObjectConflict task.output)
    ensure (task.output = report.output_id) (.ObjectConflict task.output)
    let object ← unwrap (self.objects.get task.output)
    ensure (object.state = .Reserved ∧ report.codec = descriptor.output_codec ∧
      report.location = worker.advertise_addr ∧ report.size_bytes ≤ UInt64.ofNat MAX_OBJECT_BYTES)
      (.ObjectConflict task.output)
    release identity.node_id task.resources
    task_mut report.fence.task_id fun task => { task with state := .Succeeded, assigned := none }
    object_mut task.output (reported_output identity report)
    reconcile_dependencies order
    changed

def fail (order : HashOrder) (identity : WorkerIdentity) (fence : TaskFence) (message : String)
    («class» : FailureClass) (now : Nat) : Coord Bool := do
  let self ← get
  let task ← ok_or (self.tasks.get fence.task_id) (.TaskNotFound fence.task_id)
  if task.state.is_terminal then pure false
  else do
    check_fence identity fence
    let task ← unwrap (self.tasks.get fence.task_id)
    ensure (task.state = .Assigned ∨ task.state = .Running)
      (.IllegalTransition "task cannot fail in current state")
    let retry := «class» = .Transient ∧ task.attempt < task.max_attempts
    release identity.node_id task.resources
    task_mut fence.task_id fun task => { task with assigned := none }
    if retry then do
      mark_runnable fence.task_id
      task_mut fence.task_id fun record =>
        { record with not_before_ms := saturating_add now (retry_backoff_ms task.attempt) }
      modify fun self => { self with retries_total := self.retries_total + 1 }
      changed
      pure false
    else do
      task_mut fence.task_id fun task => { task with state := .Failed message }
      object_mut task.output fun object => { object with state := .Failed }
      reconcile_dependencies order
      modify fun self => { self with failures_total := self.failures_total + 1 }
      changed
      pure true

def cancel (order : HashOrder) (id : TaskId) : Coord Unit := do
  let self ← get
  let task ← ok_or (self.tasks.get id) (.TaskNotFound id)
  ensure (task.state.is_terminal = false) (.IllegalTransition "task is already terminal")
  if task.state = .CancelRequested then pure ()
  else do
    if task.assigned.isSome then mark_cancel_requested id
    else do
      task_mut id fun task => { task with state := .Cancelled }
      modify fun self => { self with waiting := self.waiting.erase id }
      object_mut task.output fun object => { object with state := .Cancelled }
      reconcile_dependencies order
    changed

def acknowledge_cancel (order : HashOrder) (identity : WorkerIdentity) (fence : TaskFence) : Coord Unit := do
  let self ← get
  let task ← ok_or (self.tasks.get fence.task_id) (.TaskNotFound fence.task_id)
  if task.state = .Cancelled then pure ()
  else do
    check_fence identity fence
    let task ← unwrap (self.tasks.get fence.task_id)
    ensure (task.state = .CancelRequested) (.IllegalTransition "task is not awaiting cancellation")
    release identity.node_id task.resources
    modify fun self => { self with cancel_requested := self.cancel_requested.erase fence.task_id }
    task_mut fence.task_id fun task => { task with state := .Cancelled, assigned := none }
    object_mut task.output fun object => { object with state := .Cancelled }
    reconcile_dependencies order
    changed

/-! ### Expiry and reclaim -/

/-- What the expiry of a worker's lease does to one of its tasks. -/
def expire_task (now : Nat) (tally : WorkerExpiry) (id : TaskId) : Coord WorkerExpiry := do
  let self ← get
  let task ← unwrap (self.tasks.get id)
  task_mut id fun task => { task with assigned := none }
  if task.state = .CancelRequested then do
    task_mut id fun task => { task with state := .Cancelled }
    modify fun self => { self with cancel_requested := self.cancel_requested.erase id }
    object_mut task.output fun object => { object with state := .Cancelled }
    pure { tally with cancelled := tally.cancelled + 1 }
  else if task.attempt < task.max_attempts then do
    mark_runnable id
    task_mut id fun record => { record with not_before_ms := saturating_add now (retry_backoff_ms task.attempt) }
    modify fun self => { self with retries_total := self.retries_total + 1 }
    pure { tally with retried := tally.retried + 1 }
  else do
    task_mut id fun task => { task with state := .Failed "worker lease expired" }
    object_mut task.output fun object => { object with state := .Failed }
    modify fun self => { self with failures_total := self.failures_total + 1 }
    pure { tally with failed := tally.failed + 1 }

/-- The object is available at the node, by its record. -/
def owned_by (node : NodeId) (object : ObjectRecord) : Bool := object.owner = some node && object.state = .Available

/-- What becomes of an object when the node is gone: it is served from the
    coordinator's copy, or lost with the node. -/
def orphan (node : NodeId) (object : ObjectRecord) : ObjectRecord :=
  if owned_by node object then
    { object with
      owner := none
      location := if object.bytes.isSome then some "coordinator" else none
      state := if object.bytes.isNone then .Lost else object.state }
  else object

def expire_worker (order : HashOrder) (now : Nat) (node : NodeId) : Coord WorkerExpiry := do
  worker_mut node fun worker => { worker with state := .Dead }
  let self ← get
  let tasks := ((self.tasks.values order.tasks).filter (·.on node)).map (·.id)
  let tally ← tasks.foldlM (expire_task now) ⟨node,0,0,0,0⟩
  let self ← get
  let objects_lost := self.objects.sum fun object => if owned_by node object && object.bytes.isNone then 1 else 0
  set { self with
    objects := self.objects.mapValues (orphan node)
    workers := self.workers.remove node
    pending_deletes := self.pending_deletes.remove node }
  pure { tally with objects_lost }

def expire_workers (order : HashOrder) (now : Nat) : Coord (List WorkerExpiry) := do
  let self ← get
  let expired := ((self.workers.values order.nodes).filter fun worker =>
    worker.state ≠ .Dead ∧ worker.lease_deadline_ms ≤ now).map (·.identity.node_id)
  let report ← expired.foldlM (fun report node => do
    let tally ← expire_worker order now node
    pure (report ++ [tally])) []
  if expired ≠ [] then do
    reconcile_dependencies order
    changed
    pure report
  else pure report

/-- Notes when a task was first seen terminal. -/
def stamp (now : Nat) (task : TaskRecord) : TaskRecord :=
  if task.state.is_terminal = true ∧ task.terminal_since_ms = 0 then { task with terminal_since_ms := now } else task

def reap_terminal_tasks (order : HashOrder) (now : Nat) : Coord Nat := do
  let self ← get
  -- The arguments of live tasks; stamping leaves live tasks as they are.
  let referenced := self.object_in_use
  let self := { self with tasks := self.tasks.mapValues (stamp now) }
  set self
  let due := ((self.tasks.values order.tasks).filter fun task => task.state.is_terminal = true ∧
    now - task.terminal_since_ms ≥ TERMINAL_TASK_TTL_MS ∧ referenced task.output = false).map (·.output)
  due.foldlM (fun reclaimed output => do
    let released ← is_ok (release_object output)
    pure (if released then reclaimed + 1 else reclaimed)) 0

/-! ### All operations -/

/-- An operation with its arguments, and with the ids that it draws. -/
inductive Op where
  | register_worker (request : RegisterWorker) (now lease_ms : Nat) (session_id : WorkerSessionId)
  | heartbeat (identity : WorkerIdentity) (now lease_ms : Nat)
  | put (codec : Codec) (bytes : List UInt8)
  | put_meta (id : ObjectId) (codec : Codec) (size_bytes : UInt64) (checksum : Checksum)
  | submit (operation : OperationKey) (args : List TaskArg) (resources : ResourceSet) (max_attempts : UInt32)
      (id : TaskId) (output : ObjectId)
  | assign_next (node_id : NodeId) (now : Nat) (lease : LeaseId)
  | started (identity : WorkerIdentity) (fence : TaskFence)
  | complete (identity : WorkerIdentity) (report : TaskCompletion)
  | fail (identity : WorkerIdentity) (fence : TaskFence) (message : String) («class» : FailureClass) (now : Nat)
  | expire_workers (now : Nat)
  | reap_terminal_tasks (now : Nat)
  | drain (identity : WorkerIdentity)
  | acknowledge_cancel (identity : WorkerIdentity) (fence : TaskFence)
  | cancel (id : TaskId)
  | release_object (id : ObjectId)
  | take_pending_deletes (node : NodeId)
deriving DecidableEq

/-- What an operation returns. -/
inductive Reply where
  | Done
  | Identity (identity : WorkerIdentity)
  | Put (outcome : PutOutcome)
  | Object (id : ObjectId)
  | Submitted (id : TaskId) (output : ObjectId)
  | Assignment (assignment : Option TaskAssignment)
  | Failed (permanently : Bool)
  | Expired (report : List WorkerExpiry)
  | Reclaimed (count : Nat)
  | Deletes (ids : List ObjectId)
deriving DecidableEq

/-- Runs an operation. -/
def apply (blake3 : List UInt8 → Checksum) (order : HashOrder) : Op → Coord Reply
  | .register_worker request now lease_ms session_id => do
    pure (.Identity (← register_worker request now lease_ms session_id))
  | .heartbeat identity now lease_ms => do heartbeat identity now lease_ms; pure .Done
  | .put codec bytes => do pure (.Put (← put blake3 codec bytes))
  | .put_meta id codec size_bytes checksum => do pure (.Object (← put_meta id codec size_bytes checksum))
  | .submit operation args resources max_attempts id output => do
    let (id,output) ← submit operation args resources max_attempts id output
    pure (.Submitted id output)
  | .assign_next node_id now lease => do pure (.Assignment (← assign_next node_id now lease))
  | .started identity fence => do started identity fence; pure .Done
  | .complete identity report => do complete blake3 order identity report; pure .Done
  | .fail identity fence message «class» now => do pure (.Failed (← fail order identity fence message «class» now))
  | .expire_workers now => do pure (.Expired (← expire_workers order now))
  | .reap_terminal_tasks now => do pure (.Reclaimed (← reap_terminal_tasks order now))
  | .drain identity => do drain identity; pure .Done
  | .acknowledge_cancel identity fence => do acknowledge_cancel order identity fence; pure .Done
  | .cancel id => do cancel order id; pure .Done
  | .release_object id => do release_object id; pure .Done
  | .take_pending_deletes node => do pure (.Deletes (← take_pending_deletes node))

end CoordinatorState
end Crayon
