import Crayon.Owners

/-!
A worker process. It registers, polls for assignments, executes them one at a
time and reports how they went, all by requests to the coordinator that may fail
on the way. What a session ends with decides whether the process registers anew
or exits. The outputs are kept in a store that outlives the sessions. The process
is written as a machine: where it is in the program (`WorkerLife`, `Duty`), which
request it then waits for (`Worker.request`), and how it goes on with what it gets
(`Worker.hears`). A party is the coordinator with one such process. A request is
handled once and its reply arrives later, or the request fails; other copies of
the requests that the process has made may be handled at any time.
-/
namespace Crayon

/-! ### Outputs -/

structure LocalObject where
  codec : Codec
  bytes : Buffer
  checksum : Checksum
deriving DecidableEq

structure LocalObjectStore where
  objects : Table ObjectId LocalObject

namespace LocalObjectStore

def put (blake3 : List UInt8 → Checksum) (self : LocalObjectStore) (id : ObjectId) (codec : Codec) (bytes : Buffer) :
    Except Error (LocalObject × LocalObjectStore) :=
  let object : LocalObject := ⟨codec,bytes,blake3 bytes.bytes⟩
  match self.objects.get id with
  | some existing =>
    if existing.checksum = object.checksum ∧ existing.codec = object.codec then .ok (existing,self)
    else .error (.ObjectConflict id)
  | none => .ok (object,⟨self.objects.insert id object⟩)

def get (self : LocalObjectStore) (id : ObjectId) : Except Error LocalObject :=
  match self.objects.get id with
  | some object => .ok object
  | none => .error (.ObjectNotFound id)

def delete (self : LocalObjectStore) (id : ObjectId) : LocalObjectStore := ⟨self.objects.remove id⟩

end LocalObjectStore

/-! ### Reports -/

def Error.failure_class : Error → FailureClass
  | .Io _ | .DeadlineExceeded | .StaleEpoch | .StaleFence | .ObjectNotFound _ | .ObjectPending _ | .ObjectInUse _
  | .CapacityExceeded _ => .Transient
  | .Protocol _ | .InvalidAddress _ | .InvalidResource _ | .OperationUnavailable _ | .OperationConflict _
  | .IllegalTransition _ | .TaskNotFound _ | .TaskFailed _ _ | .TaskCancelled _ | .ObjectLost _ | .ObjectConflict _
  | .DependencyFailed _ | .Serialization _ => .Permanent

inductive ReportOutcome where
  | Accepted
  | Rejected (error : Error)

/-- What a request came to: a reply, or the error of the transport. -/
abbrev Answer := Except Error WorkerReply

def report_outcome : Answer → Except Error ReportOutcome
  | .error error => .error error
  | .ok .Accepted => .ok .Accepted
  | .ok (.Error error) => .ok (.Rejected error)
  | .ok _ => .error (.Protocol "coordinator did not accept worker report")

/-- Conflicts with a state that is final and stale fences are taken as known to the coordinator. -/
def report (answer : Answer) : Except Error Unit :=
  match report_outcome answer with
  | .error error => .error error
  | .ok .Accepted => .ok ()
  | .ok (.Rejected (.IllegalTransition _)) | .ok (.Rejected .StaleFence) | .ok (.Rejected .StaleEpoch) => .ok ()
  | .ok (.Rejected error) => .error error

/-! ### The process -/

/-- Where a session is; the duties from `starting` on are those of `execute_assignment`. -/
inductive Duty where
  | polling
  /-- The task of a poll's reply is reported as cancelled. -/
  | cancelling (fence : TaskFence)
  | starting (assignment : TaskAssignment)
  | fetching (assignment : TaskAssignment)
  | executing (assignment : TaskAssignment)
  /-- The operation runs, and the process polls to see whether the task is cancelled. -/
  | watching (assignment : TaskAssignment)
  /-- The operation was aborted, and the task is reported as cancelled. -/
  | stopping (assignment : TaskAssignment)
  | failing (assignment : TaskAssignment) (message : String) («class» : FailureClass)
  | completing (assignment : TaskAssignment) (object : LocalObject)
deriving DecidableEq

inductive WorkerLife where
  | registering (worker_epoch : WorkerEpoch)
  | active (identity : WorkerIdentity) (duty : Duty)
  /-- The session has ended, and another one is to begin. -/
  | reconnecting
  | drained
  | fatal (error : Error)
deriving DecidableEq

/-- What the process is started with. -/
structure WorkerConfig where
  node_id : NodeId
  advertise : String
  resources : ResourceSet
  /-- The operations that the process offers, in the order of its registry. -/
  registry : List OperationDescriptor

namespace WorkerConfig

def registration (self : WorkerConfig) (worker_epoch : WorkerEpoch) : RegisterWorker where
  node_id := self.node_id
  worker_epoch
  advertise_addr := self.advertise
  resources := self.resources
  slots := 1
  operations := self.registry

def INLINE_RESULT_MAX_BYTES : Nat := 64 * 1024

def completion (self : WorkerConfig) (assignment : TaskAssignment) (object : LocalObject) : TaskCompletion where
  fence := assignment.fence
  output_id := assignment.output_id
  codec := object.codec
  size_bytes := object.bytes.len
  checksum := object.checksum
  location := self.advertise
  bytes := if object.bytes.bytes.length ≤ INLINE_RESULT_MAX_BYTES then some object.bytes.bytes else none

def descriptor (self : WorkerConfig) (key : OperationKey) : Option OperationDescriptor :=
  self.registry.find? fun descriptor => descriptor.key = key

end WorkerConfig

structure Worker where
  config : WorkerConfig
  objects : LocalObjectStore
  drain : Bool
  life : WorkerLife

namespace Worker

/-- The request that the process waits for. -/
def request (self : Worker) : Option WorkerRequest :=
  match self.life with
  | .registering worker_epoch => some (.Register (self.config.registration worker_epoch))
  | .active identity duty =>
    match duty with
    | .polling | .watching _ => some (.Poll identity)
    | .cancelling fence => some (.Cancelled identity fence)
    | .starting assignment => some (.Started identity assignment.fence)
    | .fetching _ | .executing _ => none
    | .stopping assignment => some (.Cancelled identity assignment.fence)
    | .failing assignment message «class» => some (.Failed identity assignment.fence message «class»)
    | .completing assignment object => some (.Completed identity (self.config.completion assignment object))
  | .reconnecting | .drained | .fatal _ => none

/-- The session ends, to be followed by another one unless the process is to exit. -/
def reconnect (self : Worker) : Worker := { self with life := if self.drain then .drained else .reconnecting }

/-- The loop of the session starts over. -/
def loop (self : Worker) (identity : WorkerIdentity) : Worker :=
  { self with life := if self.drain then .drained else .active identity .polling }

def goes (self : Worker) (identity : WorkerIdentity) (duty : Duty) : Worker := { self with life := .active identity duty }

/-- How a session ends whose assignment ended with an error. -/
def session_end (self : Worker) : Error → Worker
  | .StaleEpoch | .StaleFence | .Io _ | .DeadlineExceeded => self.reconnect
  | error => { self with life := .fatal error }

/-- How a session goes on when an assignment has ended. -/
def finish (self : Worker) (identity : WorkerIdentity) : Except Error Unit → Worker
  | .ok () => self.loop identity
  | .error error => self.session_end error

section
variable (debug : WorkerReply → String) (display : Error → String)

def registered (self : Worker) (worker_epoch : WorkerEpoch) : Answer → Worker
  | .ok (.Registered identity _ _) => self.loop identity
  | .ok other => { self with life := .fatal (.Protocol ("registration failed: " ++ debug other)) }
  | .error _ => { self with life := .registering worker_epoch }

def polled (self : Worker) (identity : WorkerIdentity) : Answer → Worker
  | .error (.Io _) | .error .DeadlineExceeded => self.loop identity
  | .error _ => self.reconnect
  | .ok (.Assignment (some assignment)) => self.goes identity (.starting assignment)
  | .ok (.Cancel fence) => self.goes identity (.cancelling fence)
  | .ok (.DeleteObject id) => { self with objects := self.objects.delete id }.loop identity
  | .ok (.Error .StaleEpoch) | .ok (.Error .StaleFence) => self.reconnect
  | .ok _ => self.loop identity

/-- The poll of a busy worker, only to see whether the task is cancelled. -/
def polled_busy (self : Worker) (identity : WorkerIdentity) (assignment : TaskAssignment) : Answer → Worker
  | .ok (.Cancel fence) =>
    if fence = assignment.fence then self.goes identity (.stopping assignment)
    else self.session_end (.Protocol "worker received assignment while busy")
  | .ok (.Assignment none) => self.goes identity (.executing assignment)
  | .ok (.Error error) => self.session_end error
  | .ok (.DeleteObject id) => { self with objects := self.objects.delete id }.goes identity (.executing assignment)
  | .ok _ => self.session_end (.Protocol "worker received assignment while busy")
  | .error (.Io _) | .error .DeadlineExceeded => self.goes identity (.executing assignment)
  | .error error => self.session_end error

def completed (self : Worker) (identity : WorkerIdentity) (assignment : TaskAssignment) (answer : Answer) : Worker :=
  match report_outcome answer with
  | .error error => self.session_end error
  | .ok .Accepted => self.loop identity
  | .ok (.Rejected error) =>
    { self with objects := self.objects.delete assignment.output_id }.finish identity <|
      match error with
      | .IllegalTransition _ | .StaleFence | .StaleEpoch => .ok ()
      | error => .error error

/-- The request is answered, or has failed. -/
def hears (self : Worker) (answer : Answer) : Worker :=
  match self.life with
  | .registering worker_epoch => self.registered debug worker_epoch answer
  | .active identity duty =>
    match duty with
    | .polling => self.polled identity answer
    | .cancelling _ =>
      match report answer with
      | .ok () => self.loop identity
      | .error error => { self with life := .fatal error }
    | .starting assignment =>
      match report answer with
      | .ok () => self.goes identity (.fetching assignment)
      | .error error => self.session_end error
    | .fetching _ | .executing _ => self
    | .watching assignment => self.polled_busy identity assignment answer
    | .stopping _ | .failing _ _ _ => self.finish identity (report answer)
    | .completing assignment _ => self.completed identity assignment answer
  | .reconnecting | .drained | .fatal _ => self

/-- The inputs of the assignment are there, or cannot be had. -/
def fetched (self : Worker) (result : Except Error Unit) : Worker :=
  match self.life with
  | .active identity (.fetching assignment) =>
    match result with
    | .ok () => self.goes identity (.executing assignment)
    | .error error => self.goes identity (.failing assignment (display error) error.failure_class)
  | _ => self

/-- It is time to poll while the operation runs. -/
def ticks (self : Worker) : Worker :=
  match self.life with
  | .active identity (.executing assignment) => self.goes identity (.watching assignment)
  | _ => self

/-- The operation has returned, or failed. -/
def executed (blake3 : List UInt8 → Checksum) (self : Worker) (result : Except (Error × FailureClass) Buffer) : Worker :=
  match self.life with
  | .active identity (.executing assignment) =>
    match result with
    | .ok bytes =>
      match self.config.descriptor assignment.operation with
      | none => self.session_end (.OperationUnavailable assignment.operation.to_string)
      | some descriptor =>
        match self.objects.put blake3 assignment.output_id descriptor.output_codec bytes with
        | .ok (object,objects) => { self with objects }.goes identity (.completing assignment object)
        | .error error => self.session_end error
    | .error (error,«class») => self.goes identity (.failing assignment (display error) «class»)
  | _ => self

end

/-- The pause after a session is over; `worker_epoch` is a new random id. -/
def wakes (self : Worker) (worker_epoch : WorkerEpoch) : Worker :=
  match self.life with
  | .reconnecting => { self with life := .registering worker_epoch }
  | _ => self

def new (config : WorkerConfig) (worker_epoch : WorkerEpoch) : Worker := ⟨config,⟨.empty⟩,false,.registering worker_epoch⟩

end Worker

/-! ### The process and the coordinator -/

structure Party where
  server : CoordinatorServer
  worker : Worker
  /-- What is on its way to the process for the request that it waits for. -/
  answer : Option Answer
  /-- The requests that were made before. -/
  sent : List WorkerRequest

namespace Party

/-- The assignment that the process has, or is about to get. -/
def assignment (self : Party) : Option TaskAssignment :=
  match self.worker.life with
  | .active _ duty =>
    match duty with
    | .polling =>
      match self.answer with
      | some (.ok (.Assignment assignment)) => assignment
      | _ => none
    | .cancelling _ => none
    | .starting assignment | .fetching assignment | .executing assignment | .watching assignment | .stopping assignment
    | .failing assignment _ _ | .completing assignment _ => some assignment
  | _ => none

/-- The outputs that the process is told to delete, or will be. -/
def deletes (self : Party) : List ObjectId :=
  (self.server.state.pending_deletes.get self.worker.config.node_id).getD [] ++
    match self.answer with
    | some (.ok (.DeleteObject id)) => [id]
    | _ => []

end Party

/-- What can happen next. -/
inductive Happening where
  /-- Something at the coordinator that the program of the session has no part in; heartbeats are sent beside it. -/
  | event (event : CoordinatorState.Event)
  /-- The request that the process waits for is handled. -/
  | serve (env : Env)
  /-- The reply arrives. -/
  | hear
  /-- The request that the process waits for fails, handled or not. -/
  | fault (error : Error)
  /-- A copy of a request that the process has made is handled, and the reply is lost. -/
  | handle (env : Env) (request : WorkerRequest)
  | fetch (result : Except Error Unit)
  | tick
  | execute (result : Except (Error × FailureClass) Buffer)
  | wake (worker_epoch : WorkerEpoch)
  /-- The process is told to exit. -/
  | signal

/-- What others do at the coordinator, without this worker's name. Ids drawn at random are new, to the worker also. -/
def Happening.Foreign (party : Party) : CoordinatorState.Event → Prop
  | .operation _ (.register_worker request _ _ _) => request.node_id ≠ party.worker.config.node_id
  | .operation _ (.complete identity _) => identity.node_id ≠ party.worker.config.node_id
  | .operation _ (.submit _ _ _ _ id output) =>
    (∀ assignment, party.assignment = some assignment → assignment.fence.task_id ≠ id) ∧
      party.worker.objects.objects.get output = none ∧ output ∉ party.deletes
  | _ => True

def Happening.Possible (party : Party) : Happening → Prop
  | .event outside => outside.New party.server.state ∧ Foreign party outside
  | .handle _ request => request ∈ party.sent ∨ party.worker.request = some request
  | _ => True

namespace Party
variable (blake3 : List UInt8 → Checksum) (debug : WorkerReply → String) (display : Error → String)

/-- The reply to a request, if the connection is not closed without one. -/
def reply : Outcome Error CoordinatorServer WorkerReply → Answer
  | .ok reply _ => .ok reply
  | .error _ _ => .error (.Io "connection closed before reply")

def act (self : Party) : Happening → Party
  | .event event => { self with server := { self.server with state := event.act blake3 self.server.state } }
  | .serve env =>
    match self.worker.request,self.answer with
    | some request,none =>
      let outcome := CoordinatorServer.dispatch_worker blake3 env request self.server
      { self with server := Outcome.state outcome, answer := some (reply outcome), sent := request :: self.sent }
    | _,_ => self
  | .hear =>
    match self.answer with
    | some answer => { self with worker := self.worker.hears debug answer, answer := none }
    | none => self
  | .fault error =>
    match self.worker.request with
    | some request =>
      { self with worker := self.worker.hears debug (.error error), answer := none, sent := request :: self.sent }
    | none => self
  | .handle env request =>
    { self with server := Outcome.state (CoordinatorServer.dispatch_worker blake3 env request self.server) }
  | .fetch result => { self with worker := self.worker.fetched display result }
  | .tick => { self with worker := self.worker.ticks }
  | .execute result => { self with worker := self.worker.executed display blake3 result }
  | .wake worker_epoch => { self with worker := self.worker.wakes worker_epoch }
  | .signal => { self with worker := { self.worker with drain := true } }

/-- The parties that runs lead to in which all that happens obeys a rule. -/
inductive Run (Rule : Party → Happening → Prop) (first : Party) : Party → Prop where
  | start : Run Rule first first
  | step {party : Party} (run : Run Rule first party) (happening : Happening) (possible : happening.Possible party)
      (rule : Rule party happening) : Run Rule first (party.act blake3 debug display happening)

/-- A coordinator without workers, and a process that registers. -/
def start (epoch : CoordinatorEpoch) (token : String) (lease_ms : Nat) (require_loopback : Bool) (config : WorkerConfig)
    (worker_epoch : WorkerEpoch) : Party :=
  ⟨.new epoch token lease_ms require_loopback,.new config worker_epoch,none,[]⟩

end Party
end Crayon
