import Crayon.Arena
import Crayon.Coordinator

/-!
The coordinator's server: what every request does to the coordinator's state and
to the arena, and what is replied. A request is handled under the lock of the
state, except that chunks go to the arena alone and that a commit first settles
the arena (`arena_commit`) and then, under the lock, the state (`publish`). What
a handler finds outside, clock readings, hash orders and random ids, is given to
it (`Env`).
-/
namespace Crayon

/-! ### Requests and replies -/

structure SubmitSpec where
  operation : OperationKey
  args : List TaskArg
  resources : ResourceSet
  max_attempts : UInt32
deriving DecidableEq

structure SubmittedTask where
  task_id : TaskId
  output_id : ObjectId
deriving DecidableEq, Repr

inductive ClientRequest where
  | Connect
  | Put (codec : Codec) (bytes : Buffer)
  | Submit (spec : SubmitSpec)
  | SubmitBatch (specs : List SubmitSpec)
  | Status (id : TaskId)
  | Get (object : ObjectId)
  | GetBatch (objects : List ObjectId)
  | GetLocal (id : ObjectId)
  | ArenaReserve (id : ObjectId) (codec : Codec) (size_bytes : UInt64) (checksum : Checksum) (mode : ArenaWriteMode)
  | ArenaCommit (id : ObjectId) (reservation : RequestId)
  | PutChunk (id : ObjectId) (reservation : RequestId) (offset : UInt64) (bytes : Buffer)
  | GetChunk (id : ObjectId) (offset len : UInt64)
  | Workers
  | Cancel (id : TaskId)
  | Release (id : ObjectId)
deriving DecidableEq

structure TaskView where
  task_id : TaskId
  output_id : ObjectId
  state : TaskState
  attempt : Attempt
  worker : Option NodeId
deriving DecidableEq, Repr

structure WorkerView where
  identity : WorkerIdentity
  advertise_addr : String
  alive : Bool
  slots : UInt32
  free_slots : UInt32
  resources : ResourceSet
  available : ResourceSet
  operations : Table OperationKey OperationDescriptor
deriving DecidableEq

inductive ClientReply where
  | Connected (coordinator_epoch : CoordinatorEpoch) (arena_token : String)
  | Object (payload : ObjectPayload)
  | ArenaReserved (id : ObjectId) (offset : UInt64) (reservation : RequestId)
  | Submitted (task_id : TaskId) (output_id : ObjectId)
  | SubmittedBatch (results : List (Except Error SubmittedTask))
  | ObjectBatch (results : List (Except Error ObjectPayload))
  | Status (view : TaskView)
  | Workers (views : List WorkerView)
  | Cancelled
  | Released
  | Chunk (bytes : List UInt8)
  | ChunkWritten
  | Error (error : Error)

inductive WorkerRequest where
  | Register (request : RegisterWorker)
  | Heartbeat (identity : WorkerIdentity)
  | Poll (identity : WorkerIdentity)
  | Cancelled (identity : WorkerIdentity) (fence : TaskFence)
  | Started (identity : WorkerIdentity) (fence : TaskFence)
  | Completed (identity : WorkerIdentity) (report : TaskCompletion)
  | Failed (identity : WorkerIdentity) (fence : TaskFence) (message : String) («class» : FailureClass)
  | Drain (identity : WorkerIdentity)
deriving DecidableEq

inductive WorkerReply where
  | Registered (identity : WorkerIdentity) (revision lease_timeout_ms : Nat)
  | Assignment (assignment : Option TaskAssignment)
  | Cancel (fence : TaskFence)
  | DeleteObject (id : ObjectId)
  | Accepted
  | Error (error : Error)
deriving DecidableEq

/-- Sizes of encoded replies: of an empty batch, and of one of its slots. -/
structure Bincode where
  batch : Nat
  slot : Except Error ObjectPayload → Nat

/-- An error has its variant's number, in four bytes, and then its fields. -/
def Error.encoded_len : Error → Nat
  | .Protocol message | .InvalidAddress message | .InvalidResource message | .OperationUnavailable message
  | .OperationConflict message | .IllegalTransition message | .CapacityExceeded message | .Serialization message
  | .Io message => 4 + (8 + message.utf8ByteSize)
  | .StaleFence | .StaleEpoch | .DeadlineExceeded => 4
  | .TaskNotFound _ | .TaskCancelled _ => 4 + 16
  | .TaskFailed _ message => 4 + 16 + (8 + message.utf8ByteSize)
  | .ObjectNotFound _ | .ObjectPending _ | .ObjectInUse _ | .ObjectLost _ | .ObjectConflict _ | .DependencyFailed _ => 4 + 32

def ObjectPayload.encoded_len (payload : ObjectPayload) : Nat :=
  32 + 4 + 8 + 32 + (8 + payload.location.utf8ByteSize) + (1 + payload.bytes.elim 0 fun bytes => 8 + bytes.length) +
    (1 + payload.arena.elim 0 fun arena => 8 + arena.token.utf8ByteSize + 8)

/-- The sizes with numbers and lengths of fixed width. -/
def Bincode.fixint : Bincode where
  batch := 4 + 4 + 8
  slot
    | .ok payload => 4 + payload.encoded_len
    | .error error => 4 + error.encoded_len

/-- What one request finds outside: hash orders, clock readings and random ids. -/
structure Env where
  order : HashOrder
  objects : Traversal ObjectId
  now_ms : Nat
  now : Instant
  later : Instant
  session : WorkerSessionId
  lease : LeaseId
  reservation : RequestId
  /-- The ids of the tasks that the request submits and of their outputs, in turn. -/
  task : Nat → TaskId × ObjectId

structure CoordinatorServer where
  state : CoordinatorState
  arena : ArenaStore
  epoch : CoordinatorEpoch
  lease_ms : Nat
  require_loopback : Bool

/-- Commands on the server. -/
abbrev Serve (α : Type) := Command Error CoordinatorServer α

namespace CoordinatorServer
open Command

def on_state {α : Type} (m : Coord α) : Serve α :=
  within (fun self => self.state) (fun state self => { self with state }) m

def on_arena {α : Type} (m : Store α) : Serve α :=
  within (fun self => self.arena) (fun arena self => { self with arena }) m

def new (epoch : CoordinatorEpoch) (token : String) (lease_ms : Nat) (require_loopback : Bool) : CoordinatorServer :=
  ⟨.new epoch,.new token,epoch,lease_ms,require_loopback⟩

/-- Rewrites a payload to its arena form when the object lives in the arena. -/
def arena_annotate (self : CoordinatorServer) (payload : ObjectPayload) : ObjectPayload :=
  match self.arena.meta payload.id with
  | none => payload
  | some info => { payload with bytes := none, arena := some ⟨self.arena.token,info.offset⟩ }

@[simp] theorem arena_annotate_id (self : CoordinatorServer) (payload : ObjectPayload) :
    (self.arena_annotate payload).id = payload.id := by
  unfold arena_annotate
  split <;> rfl

/-! ### Workers -/

/-- A reply that only tells whether a report was accepted. -/
def accepted {α : Type} (m : Coord α) : Serve WorkerReply := do
  match ← attempt (on_state m) with
  | .ok _ => pure .Accepted
  | .error error => pure (.Error error)

def register (env : Env) (request : RegisterWorker) : Serve WorkerReply := do
  let self ← get
  match if self.require_loopback then require_loopback_addr request.advertise_addr else .ok () with
  | .error error => pure (.Error error)
  | .ok () =>
    match ← attempt (on_state (CoordinatorState.register_worker request env.now_ms self.lease_ms env.session)) with
    | .ok identity => pure (.Registered identity (← get).state.revision self.lease_ms)
    | .error error => pure (.Error error)

/-- Queues deletes again that a poll took and did not deliver. -/
def requeue_deletes (node : NodeId) (deletes : List ObjectId) : Coord Unit :=
  if deletes ≠ [] then
    modify fun self => { self with
      pending_deletes := self.pending_deletes.insert node ((self.pending_deletes.get node).getD [] ++ deletes) }
  else pure ()

def poll (env : Env) (identity : WorkerIdentity) : Coord WorkerReply := do
  let deletes ← CoordinatorState.take_pending_deletes identity.node_id
  match deletes with
  | id :: rest =>
    requeue_deletes identity.node_id rest
    pure (.DeleteObject id)
  | [] =>
    match ← attempt (CoordinatorState.cancellation_for env.order identity) with
    | .error error => pure (.Error error)
    | .ok (some fence) => pure (.Cancel fence)
    | .ok none =>
      match ← attempt (CoordinatorState.assigned_unstarted env.order identity) with
      | .error error => pure (.Error error)
      | .ok (some assignment) => pure (.Assignment (some assignment))
      | .ok none =>
        match ← attempt (CoordinatorState.assign_next identity.node_id env.now_ms env.lease) with
        | .error error => pure (.Error error)
        | .ok assignment => pure (.Assignment assignment)

def dispatch_worker (blake3 : List UInt8 → Checksum) (env : Env) : WorkerRequest → Serve WorkerReply
  | .Register request => register env request
  | .Heartbeat identity => do
    accepted (CoordinatorState.heartbeat identity env.now_ms (← get).lease_ms)
  | .Poll identity => on_state (poll env identity)
  | .Cancelled identity fence => accepted (CoordinatorState.acknowledge_cancel env.order identity fence)
  | .Started identity fence => accepted (CoordinatorState.started identity fence)
  | .Completed identity report => accepted (CoordinatorState.complete blake3 env.order identity report)
  | .Failed identity fence message «class» =>
    accepted (CoordinatorState.fail env.order identity fence message «class» env.now_ms)
  | .Drain identity => accepted (CoordinatorState.drain identity)

/-- The periodic sweep: leases run out, and now and then terminal tasks are reclaimed. -/
def tick (env : Env) (report : Bool) : Coord Unit := do
  let _ ← attempt (CoordinatorState.expire_workers env.order env.now_ms)
  if report then
    let _ ← CoordinatorState.reap_terminal_tasks env.order env.now_ms
    pure ()
  else pure ()

/-! ### Clients -/

/-- A reply made from the value of a command, or its error. -/
def answer {α : Type} (m : Coord α) (reply : α → ClientReply) : Serve ClientReply := do
  match ← attempt (on_state m) with
  | .ok value => pure (reply value)
  | .error error => pure (.Error error)

def put (blake3 : List UInt8 → Checksum) (env : Env) (codec : Codec) (bytes : Buffer) : Serve ClientReply :=
  if bytes.bytes.length > MAX_OBJECT_BYTES then pure (.Error (.Protocol "object too large"))
  else do
    match ← attempt (on_state (CoordinatorState.put blake3 codec bytes.bytes)) with
    | .error error => pure (.Error error)
    | .ok outcome =>
      -- Whether the arena had room for a copy does not matter here.
      let _ ← on_arena (ArenaStore.put env.objects outcome.id bytes codec outcome.checksum env.now env.later
        env.reservation)
      pure (.Object {
        id := outcome.id
        codec
        size_bytes := bytes.len
        checksum := outcome.checksum
        location := "coordinator"
        bytes := none
        arena := none })

/-- Submits specs one after the other, the first with the `i`-th ids of the request. -/
def submit_batch (env : Env) : List SubmitSpec → Nat → Coord (List (Except Error SubmittedTask))
  | [],_ => pure []
  | spec :: rest,i => do
    let result ← attempt (CoordinatorState.submit spec.operation spec.args spec.resources spec.max_attempts
      (env.task i).1 (env.task i).2)
    let results ← submit_batch env rest (i + 1)
    pure (result.map (fun (task_id,output_id) => ⟨task_id,output_id⟩) :: results)

def status (id : TaskId) : Serve ClientReply := do
  match (← get).state.tasks.get id with
  | some task => pure (.Status ⟨task.id,task.output,task.state,task.attempt,task.assigned.map (·.node)⟩)
  | none => pure (.Error (.TaskNotFound id))

def get_object (id : ObjectId) : Serve ClientReply := do
  match ← attempt (on_state (CoordinatorState.resolve_object id)) with
  | .ok payload => pure (.Object ((← get).arena_annotate payload))
  | .error error => pure (.Error error)

def saturating_mul (a b : Nat) : Nat := min (a * b) (2^64 - 1)

/-- The error that a slot of a batch is replaced by when the reply would grow too large. -/
def overflow : Except Error ObjectPayload := .error (.CapacityExceeded "get batch response too large")

/-- The slots of a batch, filled as long as they fit beside overflow errors for the rest. -/
def batch_slots (bincode : Bincode) : List ObjectId → Nat → Coord (List (Except Error ObjectPayload))
  | [],_ => pure []
  | id :: rest,used => do
    let resolved ← attempt (CoordinatorState.resolve_object id)
    if saturating_add (saturating_add used (bincode.slot resolved))
        (saturating_mul rest.length (bincode.slot overflow)) ≤ MAX_FRAME_BYTES then
      let results ← batch_slots bincode rest (used + bincode.slot resolved)
      pure (resolved :: results)
    else
      let results ← batch_slots bincode rest (used + bincode.slot overflow)
      pure (overflow :: results)

def get_batch (bincode : Bincode) (objects : List ObjectId) : Serve ClientReply :=
  if saturating_add bincode.batch (saturating_mul (bincode.slot overflow) objects.length) > MAX_FRAME_BYTES then
    pure (.Error (.CapacityExceeded "get batch response too large"))
  else do
    let results ← on_state (batch_slots bincode objects bincode.batch)
    pure (.ObjectBatch results)

def get_local (id : ObjectId) : Serve ClientReply := do
  match ← attempt (on_state (CoordinatorState.resolve_object id)) with
  | .error error => pure (.Error error)
  | .ok payload =>
    match ← on_arena (ArenaStore.read id) with
    | some bytes =>
      if payload.bytes = none then
        if bytes.length ≤ MAX_OBJECT_BYTES then pure (.Object { payload with bytes := some bytes })
        else pure (.Error (.Protocol "object too large for cross-host fetch"))
      else pure (.Object payload)
    | none => pure (.Object payload)

def arena_reserve (env : Env) (id : ObjectId) (codec : Codec) (size_bytes : UInt64) (checksum : Checksum)
    (mode : ArenaWriteMode) : Serve ClientReply := do
  match ← attempt (on_state (CoordinatorState.resolve_object id)) with
  | .ok payload => pure (.Object ((← get).arena_annotate payload))
  | .error _ =>
    match ← attempt (on_arena (ArenaStore.reserve env.objects id size_bytes codec checksum mode env.now env.later
        env.reservation)) with
    | .ok reservation => pure (.ArenaReserved id reservation.offset reservation.reservation)
    | .error error => pure (.Error error)

/-- The first half of a commit: the arena's entry. -/
def arena_commit (id : ObjectId) (reservation : RequestId) : Serve (Except Error Arena.Meta) :=
  attempt (on_arena (ArenaStore.commit id reservation))

/-- The second half of a commit: the record, or else the entry is taken back. -/
def publish (id : ObjectId) (reservation : RequestId) (info : Arena.Meta) : Serve ClientReply := do
  let stored ← attempt (on_state do
    let id ← CoordinatorState.put_meta id info.codec info.size info.checksum
    CoordinatorState.resolve_object id)
  match stored with
  | .ok payload => pure (.Object ((← get).arena_annotate payload))
  | .error error =>
    let _ ← attempt (on_arena (ArenaStore.rollback id reservation))
    pure (.Error error)

def put_chunk (env : Env) (id : ObjectId) (reservation : RequestId) (offset : UInt64) (bytes : Buffer) :
    Serve ClientReply := do
  match ← attempt (on_arena (ArenaStore.write_chunk id reservation offset bytes env.now)) with
  | .ok _ => pure .ChunkWritten
  | .error error => pure (.Error error)

def get_chunk (id : ObjectId) (offset len : UInt64) : Serve ClientReply :=
  if len > UInt64.ofNat MAX_OBJECT_BYTES then pure (.Error (.Protocol "get chunk too large"))
  else do
    match ← on_arena (ArenaStore.read_chunk id offset len) with
    | some bytes => pure (.Chunk bytes)
    | none => pure (.Error (.Protocol "get chunk out of bounds or object not committed"))

def workers (env : Env) : Serve ClientReply := do
  pure (.Workers (((← get).state.workers.values env.order.nodes).map fun worker => {
    identity := worker.identity
    advertise_addr := worker.advertise_addr
    alive := worker.state = .Alive
    slots := worker.slots
    free_slots := worker.free_slots
    resources := worker.total
    available := worker.available
    operations := worker.operations }))

def release (id : ObjectId) : Serve ClientReply := do
  match ← attempt (on_state (CoordinatorState.release_object id)) with
  | .ok _ =>
    on_arena (ArenaStore.release id)
    pure .Released
  | .error error => pure (.Error error)

/-- Handles a request of a client from its start to its end. -/
def dispatch_client (blake3 : List UInt8 → Checksum) (bincode : Bincode) (env : Env) : ClientRequest → Serve ClientReply
  | .Connect => do
    let self ← get
    pure (.Connected self.epoch self.arena.token)
  | .Put codec bytes => put blake3 env codec bytes
  | .Submit spec =>
    answer (CoordinatorState.submit spec.operation spec.args spec.resources spec.max_attempts (env.task 0).1 (env.task 0).2)
      fun (task_id,output_id) => .Submitted task_id output_id
  | .SubmitBatch specs => answer (submit_batch env specs 0) .SubmittedBatch
  | .Status id => status id
  | .Get id => get_object id
  | .GetBatch objects => get_batch bincode objects
  | .GetLocal id => get_local id
  | .ArenaReserve id codec size_bytes checksum mode => arena_reserve env id codec size_bytes checksum mode
  | .ArenaCommit id reservation => do
    match ← arena_commit id reservation with
    | .ok info => publish id reservation info
    | .error error => pure (.Error error)
  | .PutChunk id reservation offset bytes => put_chunk env id reservation offset bytes
  | .GetChunk id offset len => get_chunk id offset len
  | .Workers => workers env
  | .Cancel id => answer (CoordinatorState.cancel env.order id) fun _ => .Cancelled
  | .Release id => release id

end CoordinatorServer
end Crayon
