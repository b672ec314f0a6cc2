import Crayon.Batches
import Crayon.Binary
import Crayon.Retries

/-!
The messages as bytes, in the format that `bincode` writes by default: fields in the
order of their declaration, variants by their place in it. The requests of the model
leave out for how long they may be parked and how many slots of a batch they wait
for, so both are given to their encoding; and a worker's view lists its operations
in the order in which they are traversed. The lengths of errors, payloads and
batches that replies are measured by are those of these bytes (`size_error_encoded`,
`size_object_payload`, `byteLengths`).
-/
namespace Crayon
open Binary

/-! ### Ids -/

instance : Serialize ClusterId := ⟨fun id => serialize id.bytes⟩
instance : Serialize CoordinatorEpoch := ⟨fun id => serialize id.bytes⟩
instance : Serialize NodeId := ⟨fun id => serialize id.bytes⟩
instance : Serialize WorkerEpoch := ⟨fun id => serialize id.bytes⟩
instance : Serialize WorkerSessionId := ⟨fun id => serialize id.bytes⟩
instance : Serialize TaskId := ⟨fun id => serialize id.bytes⟩
instance : Serialize LeaseId := ⟨fun id => serialize id.bytes⟩
instance : Serialize RequestId := ⟨fun id => serialize id.bytes⟩
instance : Serialize ObjectId := ⟨fun id => serialize id.bytes⟩

@[simp] theorem size_cluster_id (id : ClusterId) : size id = 16 := size_array id.bytes
@[simp] theorem size_coordinator_epoch (id : CoordinatorEpoch) : size id = 16 := size_array id.bytes
@[simp] theorem size_task_id (id : TaskId) : size id = 16 := size_array id.bytes
@[simp] theorem size_lease_id (id : LeaseId) : size id = 16 := size_array id.bytes
@[simp] theorem size_request_id (id : RequestId) : size id = 16 := size_array id.bytes
@[simp] theorem size_object_id (id : ObjectId) : size id = 32 := size_array id.bytes

/-! ### Errors -/

instance : Serialize Error where
  serialize
    | .Protocol message => variant 0 ++ serialize message
    | .InvalidAddress address => variant 1 ++ serialize address
    | .InvalidResource message => variant 2 ++ serialize message
    | .OperationUnavailable operation => variant 3 ++ serialize operation
    | .OperationConflict operation => variant 4 ++ serialize operation
    | .IllegalTransition message => variant 5 ++ serialize message
    | .StaleFence => variant 6
    | .StaleEpoch => variant 7
    | .CapacityExceeded message => variant 8 ++ serialize message
    | .TaskNotFound id => variant 9 ++ serialize id
    | .TaskFailed id message => variant 10 ++ serialize id ++ serialize message
    | .TaskCancelled id => variant 11 ++ serialize id
    | .ObjectNotFound id => variant 12 ++ serialize id
    | .ObjectPending id => variant 13 ++ serialize id
    | .ObjectInUse id => variant 14 ++ serialize id
    | .ObjectLost id => variant 15 ++ serialize id
    | .ObjectConflict id => variant 16 ++ serialize id
    | .DependencyFailed id => variant 17 ++ serialize id
    | .DeadlineExceeded => variant 18
    | .Serialization message => variant 19 ++ serialize message
    | .Io message => variant 20 ++ serialize message

@[simp] theorem size_error_encoded (error : Error) : size error = error.encoded_len := by
  cases error <;> simp only [size,serialize,List.length_append,length_variant,length_little,Vector.length_toList,
    Error.encoded_len] <;> rfl

/-! ### Operations -/

instance : Serialize Codec where
  serialize
    | .BincodeV1 => variant 0
    | .PythonPickleV1 => variant 1
    | .JsonV1 => variant 2
    | .RawBytes => variant 3

instance : Serialize OperationKey :=
  ⟨fun key => serialize key.namespace ++ serialize key.name ++ serialize key.version⟩

instance : Serialize OperationDescriptor :=
  ⟨fun descriptor => serialize descriptor.key ++ serialize descriptor.input_codec ++ serialize descriptor.output_codec ++
    serialize descriptor.max_inline_arg_bytes⟩

instance : Serialize TaskArg where
  serialize
    | .Inline codec bytes => variant 0 ++ serialize codec ++ serialize bytes
    | .Object id => variant 1 ++ serialize id

instance : Serialize ResourceQuantity := ⟨fun quantity => serialize quantity.milli⟩
instance : Serialize ResourceSet := ⟨fun resources => serialize resources.map⟩

@[simp] theorem size_codec (codec : Codec) : size codec = 4 := by
  cases codec <;> exact length_variant _

/-! ### Workers and tasks -/

instance : Serialize WorkerIdentity :=
  ⟨fun identity => serialize identity.node_id ++ serialize identity.worker_epoch ++ serialize identity.session_id ++
    serialize identity.coordinator_epoch⟩

instance : Serialize RegisterWorker :=
  ⟨fun request => serialize request.node_id ++ serialize request.worker_epoch ++ serialize request.advertise_addr ++
    serialize request.resources ++ serialize request.slots ++ serialize request.operations⟩

instance : Serialize TaskFence :=
  ⟨fun fence => serialize fence.task_id ++ serialize fence.attempt ++ serialize fence.lease_id⟩

instance : Serialize TaskAssignment :=
  ⟨fun assignment => serialize assignment.fence ++ serialize assignment.operation ++ serialize assignment.args ++
    serialize assignment.output_id ++ serialize assignment.resources⟩

instance : Serialize TaskCompletion :=
  ⟨fun report => serialize report.fence ++ serialize report.output_id ++ serialize report.codec ++
    serialize report.size_bytes ++ serialize report.checksum ++ serialize report.location ++ serialize report.bytes⟩

instance : Serialize SubmitSpec :=
  ⟨fun spec => serialize spec.operation ++ serialize spec.args ++ serialize spec.resources ++ serialize spec.max_attempts⟩

instance : Serialize SubmittedTask := ⟨fun task => serialize task.task_id ++ serialize task.output_id⟩

instance : Serialize TaskState where
  serialize
    | .Waiting => variant 0
    | .Runnable => variant 1
    | .Assigned => variant 2
    | .Running => variant 3
    | .CancelRequested => variant 4
    | .Succeeded => variant 5
    | .Failed message => variant 6 ++ serialize message
    | .Cancelled => variant 7

instance : Serialize TaskView :=
  ⟨fun view => serialize view.task_id ++ serialize view.output_id ++ serialize view.state ++ serialize view.attempt ++
    serialize view.worker⟩

instance : Serialize FailureClass where
  serialize
    | .Transient => variant 0
    | .Permanent => variant 1

/-- A worker's view, with its operations in the order of their traversal. -/
def WorkerView.serialize (order : Traversal OperationKey) (view : WorkerView) : List UInt8 :=
  Binary.serialize view.identity ++ Binary.serialize view.advertise_addr ++ Binary.serialize view.alive ++
    Binary.serialize view.slots ++ Binary.serialize view.free_slots ++ Binary.serialize view.resources ++
    Binary.serialize view.available ++ Binary.serialize ((order.list view.operations.keys).filterMap view.operations.get)

@[simp] theorem size_task_fence (fence : TaskFence) : size fence = 36 := by
  show (serialize fence.task_id ++ serialize fence.attempt ++ serialize fence.lease_id).length = 36
  simp only [List.length_append,length_serialize,size_task_id,size_u32,size_lease_id]

theorem size_task_assignment (assignment : TaskAssignment) :
    size assignment = 68 + size assignment.operation + size assignment.args + size assignment.resources := by
  show (serialize assignment.fence ++ serialize assignment.operation ++ serialize assignment.args ++
    serialize assignment.output_id ++ serialize assignment.resources).length = _
  simp only [List.length_append,length_serialize,size_task_fence,size_object_id]
  omega

theorem size_submit_spec (spec : SubmitSpec) :
    size spec = 4 + size spec.operation + size spec.args + size spec.resources := by
  show (serialize spec.operation ++ serialize spec.args ++ serialize spec.resources ++
    serialize spec.max_attempts).length = _
  simp only [List.length_append,length_serialize,size_u32]
  omega

@[simp] theorem size_submitted_task (task : SubmittedTask) : size task = 48 := by
  show (serialize task.task_id ++ serialize task.output_id).length = 48
  simp only [List.length_append,length_serialize,size_task_id,size_object_id]

/-! ### Objects -/

instance : Serialize ArenaWriteMode where
  serialize
    | .Direct => variant 0
    | .Streamed => variant 1

instance : Serialize ArenaRef := ⟨fun arena => serialize arena.token ++ serialize arena.offset⟩

instance : Serialize ObjectPayload :=
  ⟨fun payload => serialize payload.id ++ serialize payload.codec ++ serialize payload.size_bytes ++
    serialize payload.checksum ++ serialize payload.location ++ serialize payload.bytes ++ serialize payload.arena⟩

theorem size_arena_ref (arena : ArenaRef) : size arena = 8 + arena.token.utf8ByteSize + 8 := by
  show (serialize arena.token ++ serialize arena.offset).length = _
  simp only [List.length_append,length_serialize,size_string,size_u64]

@[simp] theorem size_object_payload (payload : ObjectPayload) : size payload = payload.encoded_len := by
  have bytes : size payload.bytes = 1 + payload.bytes.elim 0 fun bytes => 8 + bytes.length := by
    cases payload.bytes <;> simp
  have arena : size payload.arena = 1 + payload.arena.elim 0 fun arena => 8 + arena.token.utf8ByteSize + 8 := by
    cases payload.arena <;> simp [size_arena_ref]
  show (serialize payload.id ++ serialize payload.codec ++ serialize payload.size_bytes ++
    serialize payload.checksum ++ serialize payload.location ++ serialize payload.bytes ++
    serialize payload.arena).length = _
  simp only [List.length_append,length_serialize,size_object_id,size_codec,size_u64,size_array,size_string,bytes,arena,
    ObjectPayload.encoded_len]

/-! ### Requests -/

section
variable (wait_ms : UInt64) (min_ready : UInt32)

def ClientRequest.serialize : ClientRequest → List UInt8
  | .Connect => variant 0
  | .Put codec bytes => variant 1 ++ Binary.serialize codec ++ Binary.serialize bytes.bytes
  | .Submit spec => variant 2 ++ Binary.serialize spec
  | .SubmitBatch specs => variant 3 ++ Binary.serialize specs
  | .Status id => variant 4 ++ Binary.serialize id
  | .Get object => variant 5 ++ Binary.serialize object ++ Binary.serialize wait_ms
  | .GetBatch objects =>
    variant 6 ++ Binary.serialize objects ++ Binary.serialize wait_ms ++ Binary.serialize min_ready
  | .GetLocal id => variant 7 ++ Binary.serialize id
  | .ArenaReserve id codec size_bytes checksum mode =>
    variant 8 ++ Binary.serialize id ++ Binary.serialize codec ++ Binary.serialize size_bytes ++
      Binary.serialize checksum ++ Binary.serialize mode
  | .ArenaCommit id reservation => variant 9 ++ Binary.serialize id ++ Binary.serialize reservation
  | .PutChunk id reservation offset bytes =>
    variant 10 ++ Binary.serialize id ++ Binary.serialize reservation ++ Binary.serialize offset ++
      Binary.serialize bytes.bytes
  | .GetChunk id offset len => variant 11 ++ Binary.serialize id ++ Binary.serialize offset ++ Binary.serialize len
  | .Workers => variant 12
  | .Cancel id => variant 13 ++ Binary.serialize id
  | .Release id => variant 14 ++ Binary.serialize id

def WorkerRequest.serialize : WorkerRequest → List UInt8
  | .Register request => variant 0 ++ Binary.serialize request
  | .Heartbeat identity => variant 1 ++ Binary.serialize identity
  | .Poll identity => variant 2 ++ Binary.serialize identity ++ Binary.serialize wait_ms
  | .Cancelled identity fence => variant 3 ++ Binary.serialize identity ++ Binary.serialize fence
  | .Started identity fence => variant 4 ++ Binary.serialize identity ++ Binary.serialize fence
  | .Completed identity report => variant 5 ++ Binary.serialize identity ++ Binary.serialize report
  | .Failed identity fence message «class» =>
    variant 6 ++ Binary.serialize identity ++ Binary.serialize fence ++ Binary.serialize message ++
      Binary.serialize «class»
  | .Drain identity => variant 7 ++ Binary.serialize identity

def RpcRequest.serialize : RpcRequest → List UInt8
  | .Client request => variant 0 ++ request.serialize wait_ms min_ready
  | .Worker request => variant 1 ++ request.serialize wait_ms

def Envelope.serialize (envelope : Envelope) : List UInt8 :=
  Binary.serialize envelope.magic ++ Binary.serialize envelope.major ++ Binary.serialize envelope.minor ++
    Binary.serialize envelope.cluster_id ++ Binary.serialize envelope.coordinator_epoch ++
    Binary.serialize envelope.request_id ++ Binary.serialize envelope.deadline_unix_ms ++
    envelope.body.serialize wait_ms min_ready

/-- Before the body of a request that names the epoch there are 65 bytes. -/
theorem Envelope.length_serialize {envelope : Envelope} {epoch : CoordinatorEpoch}
    (named : envelope.coordinator_epoch = some epoch) :
    (envelope.serialize wait_ms min_ready).length = 65 + (envelope.body.serialize wait_ms min_ready).length := by
  simp only [Envelope.serialize,named,List.length_append,Binary.length_serialize,size_array,size_u16,size_cluster_id,
    size_some,size_coordinator_epoch,size_request_id,size_u64]

end

/-! ### Replies -/

section
variable (order : Traversal OperationKey)

def ClientReply.serialize : ClientReply → List UInt8
  | .Connected coordinator_epoch arena_token =>
    variant 0 ++ Binary.serialize coordinator_epoch ++ Binary.serialize arena_token
  | .Object payload => variant 1 ++ Binary.serialize payload
  | .ArenaReserved id offset reservation =>
    variant 2 ++ Binary.serialize id ++ Binary.serialize offset ++ Binary.serialize reservation
  | .Submitted task_id output_id => variant 3 ++ Binary.serialize task_id ++ Binary.serialize output_id
  | .SubmittedBatch results => variant 4 ++ Binary.serialize results
  | .ObjectBatch results => variant 5 ++ Binary.serialize results
  | .Status view => variant 6 ++ Binary.serialize view
  | .Workers views => variant 7 ++ little 8 views.length ++ views.flatMap fun view => view.serialize order
  | .Cancelled => variant 8
  | .Released => variant 9
  | .Chunk bytes => variant 10 ++ Binary.serialize bytes
  | .ChunkWritten => variant 11
  | .Error error => variant 12 ++ Binary.serialize error

def WorkerReply.serialize : WorkerReply → List UInt8
  | .Registered identity revision lease_timeout_ms =>
    variant 0 ++ Binary.serialize identity ++ little 8 revision ++ little 8 lease_timeout_ms
  | .Assignment assignment => variant 1 ++ Binary.serialize assignment
  | .Cancel fence => variant 2 ++ Binary.serialize fence
  | .DeleteObject id => variant 3 ++ Binary.serialize id
  | .Accepted => variant 4
  | .Error error => variant 5 ++ Binary.serialize error

def RpcReply.serialize : RpcReply → List UInt8
  | .Client reply => variant 0 ++ reply.serialize order
  | .Worker reply => variant 1 ++ reply.serialize

/-- Operations in the order of their names. -/
def Traversal.by_name : Traversal OperationKey :=
  letI : LinearOrder OperationKey :=
    LinearOrder.lift' (fun key => toLex (key.namespace,toLex (key.name,key.version.toNat))) <| by
      rintro ⟨a,b,c⟩ ⟨a',b',c'⟩ same
      simpa [UInt32.toNat_inj] using same
  .increasing

theorem fixint_slot (slot : Except Error ObjectPayload) : Bincode.fixint.slot slot = size slot := by
  cases slot <;> simp [Bincode.fixint]

/-- The lengths of the encoded replies. -/
def byteLengths : Lengths where
  reply reply := (RpcReply.serialize order (.Client reply)).length
  batch results := by
    have slots : results.map Bincode.fixint.slot = results.map size := List.map_congr_left fun slot _ => fixint_slot slot
    rw [slots,RpcReply.serialize,ClientReply.serialize,List.length_append,List.length_append,length_variant,length_variant,
      Binary.length_serialize,size_list]
    show _ = 16 + _
    omega
  error error := by
    simp only [RpcReply.serialize,ClientReply.serialize,List.length_append,length_variant,Binary.length_serialize,
      size_error_encoded]
    omega

/-- How the endpoint encodes messages. -/
def Wire.bincode (wait_ms : UInt64) (min_ready : UInt32) : Wire where
  body request := request.serialize wait_ms min_ready
  reply_len reply := (reply.serialize order).length

example : (Wire.bincode .by_name 0 0).body (Host.submitBody 2) = Host.submitBytes 2 := by decide +kernel

end
end Crayon
