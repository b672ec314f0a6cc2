import Crayon.Custody
import Crayon.Owners

/-!
Sessions of workers. Reports and heartbeats of a worker that is not registered, or
that is registered under another identity by now, change nothing
(`accepted_stale`). A poll is different: it takes a queued delete before its
identity is looked at, so that it changes nothing exactly if there is none
(`stale_request`, `former_poll_takes_delete`). And a report that a task was
started is believed of any running task, whoever sends it (`started_current`,
`taken_over_started`).
-/
namespace Crayon

/-- The identity under which a request of a worker is sent. -/
def WorkerRequest.identity? : WorkerRequest → Option WorkerIdentity
  | .Register _ => none
  | .Heartbeat identity | .Poll identity | .Cancelled identity _ | .Started identity _ | .Completed identity _
  | .Failed identity _ _ _ | .Drain identity => some identity

namespace CoordinatorState
open Command
variable {blake3 : List UInt8 → Checksum} {s s' : CoordinatorState} {op : Op} {reply : Reply} {identity : WorkerIdentity}

/-! ### Stale identities -/

/-- The identity under which an operation is run. -/
def Op.identity? : Op → Option WorkerIdentity
  | .heartbeat identity _ _ | .started identity _ | .complete identity _ | .fail identity _ _ _ _ | .drain identity
  | .acknowledge_cancel identity _ => some identity
  | _ => none

/-- The node is not registered, or not under this identity. -/
def Mismatched (s : CoordinatorState) (identity : WorkerIdentity) : Prop :=
  identity.coordinator_epoch = s.epoch → ∀ worker, s.workers.get identity.node_id = some worker →
    worker.identity.worker_epoch = identity.worker_epoch → worker.identity.session_id ≠ identity.session_id

theorem Mismatched.stale (mismatched : Mismatched s identity) : ¬ Current s identity := by
  rintro ⟨epoch,worker,found,_,sameEpoch,sameSession⟩
  exact mismatched epoch worker found sameEpoch sameSession

/-- Only what a registered worker sends changes anything. -/
theorem Effect.identified (effect : Effect blake3 op s reply s') (named : op.identity? = some identity) :
    s' = s ∨ Current s identity := by
  cases effect with
  | started_before | completed_before | failed_before | acknowledged_before => exact .inl rfl
  | beat current | started current | completed current | retried current | failed current | drained current
  | acknowledged current =>
    cases named
    exact .inr current
  | _ => cases named

end CoordinatorState

namespace CoordinatorServer
open CoordinatorState Command
variable {server : CoordinatorServer} {identity : WorkerIdentity}

theorem on_state_of {α : Type} {m : Coord α} {a : α} {state : CoordinatorState} (ran : m server.state = .ok a state) :
    on_state m server = .ok a { server with state } := by
  rw [on_state,within,ran]

/-- A report is accepted and has its effect, or is refused and changes nothing. -/
theorem accepted_ends (blake3 : List UInt8 → Checksum) {α : Type} {m : Coord α} (order : HashOrder) (op : Op) {f : α → Reply}
    (runs : apply blake3 order op = m >>= fun a => pure (f a)) (inv : Inv server.state) :
    (∃ value state, accepted m server = .ok .Accepted { server with state } ∧ Effect blake3 op server.state value state) ∨
      ∃ error, accepted m server = .ok (.Error error) server := by
  have atomic := apply_effect blake3 order inv.consistent inv.alive op
  rw [runs,bind_apply] at atomic
  cases ran : m server.state with
  | ok a state =>
    rw [ran] at atomic
    exact .inl ⟨_,state,by simp only [accepted,bind_apply,attempt,on_state,within,ran,pure_apply],atomic⟩
  | error fault state =>
    rw [ran] at atomic
    cases fault with
    | Err error =>
      obtain rfl : state = server.state := atomic
      exact .inr ⟨error,by simp only [accepted,bind_apply,attempt,on_state,within,ran,pure_apply]⟩
    | Panic => exact atomic.elim
    | Diverge => exact atomic.elim

/-- A report under a stale identity is answered, and changes nothing. -/
theorem accepted_stale (blake3 : List UInt8 → Checksum) {α : Type} {m : Coord α} (order : HashOrder) (op : Op) {f : α → Reply}
    (runs : apply blake3 order op = m >>= fun a => pure (f a)) (inv : Inv server.state)
    (named : op.identity? = some identity) (stale : ¬ Current server.state identity) :
    ∃ reply, accepted m server = .ok reply server := by
  rcases accepted_ends blake3 order op runs inv with ⟨_,_,ran,effect⟩ | ⟨_,ran⟩
  · obtain rfl := (effect.identified named).resolve_right stale
    exact ⟨_,ran⟩
  · exact ⟨_,ran⟩

end CoordinatorServer

/-! ### Polls -/

namespace CoordinatorState
open Command
variable {blake3 : List UInt8 → Checksum} {s s' : CoordinatorState} {identity : WorkerIdentity}

/-- The worker is to stop the task. -/
structure Stops (s : CoordinatorState) (identity : WorkerIdentity) (id : TaskId) (task : TaskRecord) (a : Assigned) : Prop where
  requested : id ∈ s.cancel_requested
  found : s.tasks.get id = some task
  assigned : task.assigned = some a
  held : a.held_by identity = true

/-- The worker was given the task, and has not started it. -/
structure Unstarted (s : CoordinatorState) (identity : WorkerIdentity) (id : TaskId) (task : TaskRecord) (a : Assigned) :
    Prop where
  found : s.tasks.get id = some task
  state : task.state = .Assigned
  assigned : task.assigned = some a
  held : a.held_by identity = true

/-- What a worker is told of a task that it is given. -/
def offer (task : TaskRecord) (a : Assigned) : TaskAssignment where
  fence := ⟨task.id,task.attempt,a.lease⟩
  operation := task.operation
  args := task.args
  output_id := task.output
  resources := task.resources

theorem check_identity_of (current : Current s identity) : check_identity identity s = .ok () s := by
  obtain ⟨epoch,worker,found,same⟩ := current
  simp [check_identity,ensure_of epoch,found,ensure_of same]

theorem check_identity_not (stale : ¬ Current s identity) : check_identity identity s = .error (.Err .StaleFence) s := by
  rcases check_identity_cases s identity with failed | ⟨_,current⟩
  · exact failed
  · exact absurd current stale

theorem cancellation_for_cases (order : HashOrder) (current : Current s identity) :
    (∃ id task a, Stops s identity id task a ∧
        cancellation_for order identity s = .ok (some ⟨task.id,task.attempt,a.lease⟩) s) ∨
      (∀ id task a, ¬ Stops s identity id task a) ∧ cancellation_for order identity s = .ok none s := by
  simp only [cancellation_for,bind_apply,check_identity_of current,get_apply,pure_apply]
  generalize search : List.findSome? _ _ = answer
  cases answer with
  | some fence =>
    obtain ⟨id,member,told⟩ := List.exists_of_findSome?_eq_some search
    left
    split at told
    · cases told
    · rename_i task found
      split at told
      · cases told
      · rename_i a assigned
        split at told
        · rename_i held
          cases told
          exact ⟨id,task,a,⟨(order.tasks.mem_list _ _).mp member,found,assigned,held⟩,rfl⟩
        · cases told
  | none =>
    refine .inr ⟨fun id task a stops => ?_,rfl⟩
    have untold := List.findSome?_eq_none_iff.mp search id ((order.tasks.mem_list _ _).mpr stops.requested)
    simp [stops.found,stops.assigned,stops.held] at untold

theorem assigned_unstarted_cases (order : HashOrder) (current : Current s identity) :
    (∃ id task a, Unstarted s identity id task a ∧ assigned_unstarted order identity s = .ok (some (offer task a)) s) ∨
      (∀ id task a, ¬ Unstarted s identity id task a) ∧ assigned_unstarted order identity s = .ok none s := by
  simp only [assigned_unstarted,bind_apply,check_identity_of current,get_apply,pure_apply]
  generalize search : List.findSome? _ _ = answer
  cases answer with
  | some assignment =>
    obtain ⟨task,member,told⟩ := List.exists_of_findSome?_eq_some search
    obtain ⟨id,found⟩ := Table.mem_values.mp member
    left
    split at told
    · cases told
    · rename_i a assigned
      split at told
      · rename_i given
        cases told
        obtain ⟨state,held⟩ := Bool.and_eq_true_iff.mp given
        exact ⟨id,task,a,⟨found,of_decide_eq_true state,assigned,held⟩,rfl⟩
      · cases told
  | none =>
    refine .inr ⟨fun id task a unstarted => ?_,rfl⟩
    have untold := List.findSome?_eq_none_iff.mp search task (Table.mem_values.mpr ⟨id,unstarted.found⟩)
    simp [unstarted.assigned,unstarted.state,unstarted.held] at untold

/-- What a poll does, and what the worker is told. -/
inductive Polled (blake3 : List UInt8 → Checksum) (env : Env) (identity : WorkerIdentity) (s : CoordinatorState) :
    WorkerReply → CoordinatorState → Prop where
  | delete {id : ObjectId} {rest : List ObjectId} (queued : s.pending_deletes.get identity.node_id = some (id :: rest)) :
      Polled blake3 env identity s (.DeleteObject id) { s with
        pending_deletes := if rest = [] then s.pending_deletes.remove identity.node_id
          else s.pending_deletes.insert identity.node_id rest }
  | stale (idle : (s.pending_deletes.get identity.node_id).getD [] = []) (stale : ¬ Current s identity) :
      Polled blake3 env identity s (.Error .StaleFence)
        { s with pending_deletes := s.pending_deletes.remove identity.node_id }
  | cancel {id : TaskId} {task : TaskRecord} {a : Assigned} (idle : (s.pending_deletes.get identity.node_id).getD [] = [])
      (current : Current s identity) (stops : Stops s identity id task a) :
      Polled blake3 env identity s (.Cancel ⟨task.id,task.attempt,a.lease⟩)
        { s with pending_deletes := s.pending_deletes.remove identity.node_id }
  | again {id : TaskId} {task : TaskRecord} {a : Assigned} (idle : (s.pending_deletes.get identity.node_id).getD [] = [])
      (current : Current s identity) (calm : ∀ id task a, ¬ Stops s identity id task a)
      (unstarted : Unstarted s identity id task a) :
      Polled blake3 env identity s (.Assignment (some (offer task a)))
        { s with pending_deletes := s.pending_deletes.remove identity.node_id }
  | next {assignment : Option TaskAssignment} {s' : CoordinatorState}
      (idle : (s.pending_deletes.get identity.node_id).getD [] = []) (current : Current s identity)
      (calm : ∀ id task a, ¬ Stops s identity id task a) (free : ∀ id task a, ¬ Unstarted s identity id task a)
      (ran : assign_next identity.node_id env.now_ms env.lease
        { s with pending_deletes := s.pending_deletes.remove identity.node_id } = .ok assignment s')
      (effect : Effect blake3 (.assign_next identity.node_id env.now_ms env.lease)
        { s with pending_deletes := s.pending_deletes.remove identity.node_id } (.Assignment assignment) s') :
      Polled blake3 env identity s (.Assignment assignment) s'

theorem poll_polled (blake3 : List UInt8 → Checksum) (env : Env) (identity : WorkerIdentity) (inv : Inv s) :
    ∃ reply s', CoordinatorServer.poll env identity s = .ok reply s' ∧ Polled blake3 env identity s reply s' := by
  have taken : take_pending_deletes identity.node_id s = .ok ((s.pending_deletes.get identity.node_id).getD [])
      { s with pending_deletes := s.pending_deletes.remove identity.node_id } := rfl
  match queue : (s.pending_deletes.get identity.node_id).getD [] with
  | id :: rest =>
    have queued : s.pending_deletes.get identity.node_id = some (id :: rest) := by
      cases found : s.pending_deletes.get identity.node_id with
      | none => simp [found] at queue
      | some ids => simpa [found] using queue
    refine ⟨_,_,?_,.delete queued⟩
    rw [CoordinatorServer.poll,bind_apply,taken,queue]
    by_cases last : rest = []
    · simp [CoordinatorServer.requeue_deletes,last]
    · have same : (s.pending_deletes.remove identity.node_id).insert identity.node_id rest =
          s.pending_deletes.insert identity.node_id rest := by
        refine Table.ext_get fun node => ?_
        simp only [Table.get_insert,Table.get_remove]
        split <;> rfl
      simp [CoordinatorServer.requeue_deletes,last,same]
  | [] =>
    by_cases current : Current s identity
    · have current' : Current { s with pending_deletes := s.pending_deletes.remove identity.node_id } identity := current
      rcases cancellation_for_cases env.order current' with ⟨id,task,a,stops,told⟩ | ⟨calm,untold⟩
      · refine ⟨_,_,?_,.cancel queue current ⟨stops.requested,stops.found,stops.assigned,stops.held⟩⟩
        simp only [CoordinatorServer.poll,bind_apply,taken,queue,attempt,told,pure_apply]
      have calm' : ∀ id task a, ¬ Stops s identity id task a := fun id task a stops =>
        calm id task a ⟨stops.requested,stops.found,stops.assigned,stops.held⟩
      rcases assigned_unstarted_cases env.order current' with ⟨id,task,a,unstarted,told⟩ | ⟨free,unoffered⟩
      · refine ⟨_,_,?_,.again queue current calm' ⟨unstarted.found,unstarted.state,unstarted.assigned,unstarted.held⟩⟩
        simp only [CoordinatorServer.poll,bind_apply,taken,queue,attempt,untold,told,pure_apply]
      have free' : ∀ id task a, ¬ Unstarted s identity id task a := fun id task a unstarted =>
        free id task a ⟨unstarted.found,unstarted.state,unstarted.assigned,unstarted.held⟩
      have consistent := (inv.requeued (s.pending_deletes.remove identity.node_id)).consistent
      obtain ⟨_,worker,found,_⟩ := current
      obtain ⟨assignment,s',ran,effect,_⟩ := assign_next_ends blake3 consistent found env.now_ms env.lease
      refine ⟨_,_,?_,.next queue current' calm' free' ran effect⟩
      simp only [CoordinatorServer.poll,bind_apply,taken,queue,attempt,untold,unoffered,ran,pure_apply]
    · have current' : ¬ Current { s with pending_deletes := s.pending_deletes.remove identity.node_id } identity := current
      refine ⟨_,_,?_,.stale queue current⟩
      simp only [CoordinatorServer.poll,bind_apply,taken,queue,attempt,cancellation_for,check_identity_not current',pure_apply]

end CoordinatorState

namespace CoordinatorServer
open CoordinatorState Command
variable {blake3 : List UInt8 → Checksum} {epoch : CoordinatorEpoch} {past : List Event} {server : CoordinatorServer}
  {identity : WorkerIdentity}

/-- A poll under a stale identity that changes nothing found no entry of the node among the deletes. -/
theorem poll_unchanged (inv : Inv server.state) (env : Env) (stale : ¬ Current server.state identity) {reply : WorkerReply}
    (answered : dispatch_worker blake3 env (.Poll identity) server = .ok reply server) :
    server.state.pending_deletes.get identity.node_id = none := by
  obtain ⟨reply',s',ran,polled⟩ := poll_polled blake3 env identity inv
  have same : s' = server.state := by
    have ends := answered.symm.trans (on_state_of ran)
    injection ends with _ ends
    exact (congrArg CoordinatorServer.state ends).symm
  have kept : s'.pending_deletes.get identity.node_id = server.state.pending_deletes.get identity.node_id := by rw [same]
  cases polled with
  | @delete id rest queued =>
    rw [queued] at kept
    dsimp only at kept
    split at kept
    · rw [Table.get_remove,if_pos rfl] at kept
      cases kept
    · rw [Table.get_insert,if_pos rfl] at kept
      exact absurd (Option.some.inj kept).symm (List.cons_ne_self id rest)
  | stale =>
    rw [← kept]
    exact (Table.get_remove ..).trans (if_pos rfl)
  | cancel _ current => exact absurd current stale
  | again _ current => exact absurd current stale
  | next _ current => exact absurd current stale

theorem poll_idle (inv : Inv server.state) (env : Env) (stale : ¬ Current server.state identity)
    (idle : server.state.pending_deletes.get identity.node_id = none) :
    dispatch_worker blake3 env (.Poll identity) server = .ok (.Error .StaleFence) server := by
  obtain ⟨reply,s',ran,polled⟩ := poll_polled blake3 env identity inv
  cases polled with
  | delete queued => cases idle.symm.trans queued
  | stale =>
    rw [Table.remove_of_absent idle] at ran
    exact on_state_of ran
  | cancel _ current => exact absurd current stale
  | again _ current => exact absurd current stale
  | next _ current => exact absurd current stale

/-- Every other request under a stale identity is answered and changes nothing. -/
theorem report_stale (inv : Inv server.state) (env : Env) (stale : ¬ Current server.state identity) {request : WorkerRequest}
    (sent : request.identity? = some identity) (other : request ≠ .Poll identity) :
    ∃ reply, dispatch_worker blake3 env request server = .ok reply server := by
  cases request with
  | Register => cases sent
  | Heartbeat =>
    cases sent
    exact accepted_stale blake3 .by_id (.heartbeat identity env.now_ms server.lease_ms) (f := fun _ => .Done) rfl inv rfl stale
  | Poll =>
    cases sent
    exact absurd rfl other
  | Cancelled _ fence =>
    cases sent
    exact accepted_stale blake3 env.order (.acknowledge_cancel identity fence) (f := fun _ => .Done) rfl inv rfl stale
  | Started _ fence =>
    cases sent
    exact accepted_stale blake3 env.order (.started identity fence) (f := fun _ => .Done) rfl inv rfl stale
  | Completed _ report =>
    cases sent
    exact accepted_stale blake3 env.order (.complete identity report) (f := fun _ => .Done) rfl inv rfl stale
  | Failed _ fence message «class» =>
    cases sent
    exact accepted_stale blake3 env.order (.fail identity fence message «class» env.now_ms) (f := .Failed) rfl inv rfl stale
  | Drain =>
    cases sent
    exact accepted_stale blake3 .by_id (.drain identity) (f := fun _ => .Done) rfl inv rfl stale

/-- In every state that a coordinator comes to, a request that a worker sends under an identity which is not that of its
    node is answered and changes nothing exactly if it is not a poll of a node that has an entry among the deletes; and
    this is when a poll is told that it is stale and changes nothing. -/
theorem stale_request (served : Served blake3 epoch past server.state) (env : Env) {request : WorkerRequest}
    (sent : request.identity? = some identity) (mismatched : Mismatched server.state identity) :
    ((∃ reply, dispatch_worker blake3 env request server = .ok reply server) ↔
        (request = .Poll identity → server.state.pending_deletes.get identity.node_id = none)) ∧
      (request = .Poll identity → (dispatch_worker blake3 env request server = .ok (.Error .StaleFence) server ↔
        server.state.pending_deletes.get identity.node_id = none)) := by
  have stale := mismatched.stale
  have inv := served.inv
  refine ⟨⟨?_,fun idle => ?_⟩,?_⟩
  · rintro ⟨reply,answered⟩ rfl
    exact poll_unchanged inv env stale answered
  · by_cases poll : request = .Poll identity
    · exact ⟨_,poll ▸ poll_idle inv env stale (idle poll)⟩
    · exact report_stale inv env stale sent poll
  · rintro rfl
    exact ⟨poll_unchanged inv env stale,poll_idle inv env stale⟩

/-- The node of the small worker as it was registered before. -/
def formerWorker : WorkerIdentity := { smallWorker with worker_epoch := ⟨.replicate 16 8⟩, session_id := ⟨.replicate 16 9⟩ }

/-- A worker registers and is lost, its node registers again, and completes a task. -/
def rejoinedOps : List Op :=
  [.complete smallWorker keptReport,
    .assign_next smallWorker.node_id 6010 smallLease,
    .submit smallKey [] ⟨⟨[("cpu",⟨600⟩)],demand_sorted⟩⟩ 2 smallTask smallOutput,
    .register_worker ⟨smallWorker.node_id,smallWorker.worker_epoch,"host:1",⟨⟨[("cpu",⟨1000⟩)],offer_sorted⟩⟩,1,
      [⟨smallKey,.JsonV1,.JsonV1,64⟩]⟩ 6000 5000 smallWorker.session_id,
    .expire_workers 6000,
    .register_worker ⟨formerWorker.node_id,formerWorker.worker_epoch,"host:1",⟨⟨[("cpu",⟨1000⟩)],offer_sorted⟩⟩,1,
      [⟨smallKey,.JsonV1,.JsonV1,64⟩]⟩ 0 5000 formerWorker.session_id]

def smallServer (ops : List Op) : CoordinatorServer :=
  { new smallEpoch "crayon-arena-0" 5000 false with state := (replay smallHash smallEpoch ops).2 }

theorem rejoined_served (ops : List Op) (draws : Draws smallHash smallEpoch ops) :
    Served smallHash smallEpoch ((replay smallHash smallEpoch ops).1.map fun step => .operation step.order step.op)
      (smallServer ops).state :=
  (replay_run smallHash smallEpoch ops draws).served

theorem former_mismatched (ops : List Op) (registered : ((smallServer ops).state.workers.get smallWorker.node_id).map
    (·.identity) = some smallWorker) : Mismatched (smallServer ops).state formerWorker := by
  intro _ worker found _ session
  obtain ⟨worker',found',same⟩ := Option.map_eq_some_iff.mp registered
  obtain rfl := Option.some.inj (found.symm.trans found')
  rw [same] at session
  exact absurd session (by decide)

/-- While no delete is queued, a poll of the former session is told that it is stale. -/
theorem former_poll_stale :
    (smallServer rejoinedOps).state.pending_deletes.get formerWorker.node_id = none ∧
      dispatch_worker smallHash (System.smallEnv 1) (.Poll formerWorker) (smallServer rejoinedOps) =
        .ok (.Error .StaleFence) (smallServer rejoinedOps) := by
  have idle : (smallServer rejoinedOps).state.pending_deletes.get formerWorker.node_id = none := by decide +kernel
  have sent : (WorkerRequest.Poll formerWorker).identity? = some formerWorker := rfl
  have told := stale_request (rejoined_served rejoinedOps (by decide +kernel)) (System.smallEnv 1) sent
    (former_mismatched rejoinedOps (by decide +kernel))
  exact ⟨idle,(told.2 rfl).mpr idle⟩

/-- The output of the worker is released. -/
def releasedOps : List Op := .release_object smallOutput :: rejoinedOps

/-- A poll of the former session is told to delete the output, and the worker that has it will not be. -/
theorem former_poll_takes_delete :
    Served smallHash smallEpoch ((replay smallHash smallEpoch releasedOps).1.map fun step => .operation step.order step.op)
        (smallServer releasedOps).state ∧
      Mismatched (smallServer releasedOps).state formerWorker ∧
      (smallServer releasedOps).state.pending_deletes.get smallWorker.node_id = some [smallOutput] ∧
      ∃ server, dispatch_worker smallHash (System.smallEnv 1) (.Poll formerWorker) (smallServer releasedOps) =
          .ok (.DeleteObject smallOutput) server ∧ server.state.pending_deletes.get smallWorker.node_id = none := by
  have served := rejoined_served releasedOps (by decide +kernel)
  have queued : (smallServer releasedOps).state.pending_deletes.get formerWorker.node_id = some [smallOutput] := by
    decide +kernel
  refine ⟨served,former_mismatched releasedOps (by decide +kernel),queued,?_⟩
  obtain ⟨reply,s',ran,polled⟩ := poll_polled smallHash (System.smallEnv 1) formerWorker served.inv
  cases polled with
  | delete queued' =>
    cases queued.symm.trans queued'
    rw [if_pos rfl] at ran
    have answered : dispatch_worker smallHash (System.smallEnv 1) (.Poll formerWorker) (smallServer releasedOps) = .ok _ _ :=
      on_state_of ran
    refine ⟨_,answered,?_⟩
    show ((smallServer releasedOps).state.pending_deletes.remove smallWorker.node_id).get smallWorker.node_id = none
    rw [Table.get_remove,if_pos rfl]
  | stale idle | cancel idle | again idle | next idle => simp [queued] at idle

end CoordinatorServer

/-! ### Reports that a task was started -/

namespace CoordinatorState
open Command CoordinatorServer
variable {s s' : CoordinatorState} {identity : WorkerIdentity} {fence : TaskFence}

/-- A report that a task was started is accepted only from the worker that the task is dispatched to, by that lease and
    attempt, exactly if the task is not running or it comes from there. -/
theorem started_current : (∀ s', started identity fence s = .ok () s' → Current s identity ∧ Matches s identity fence) ↔
    ∀ task, s.tasks.get fence.task_id = some task → task.state = .Running → Current s identity ∧ Matches s identity fence := by
  constructor
  · intro guarded task found running
    exact guarded s (by simp [started,found,running])
  · intro guarded s' accepted
    have effect := started_effect smallHash (s := s) identity fence
    rw [accepted] at effect
    cases (effect : Effect _ _ _ _ _) with
    | started_before found running => exact guarded _ found running
    | started current matching => exact ⟨current,matching⟩

/-- Another worker, on another node. -/
def otherWorker : WorkerIdentity := ⟨⟨.replicate 16 10⟩,⟨.replicate 16 11⟩,⟨.replicate 16 12⟩,smallEpoch⟩
def otherLease : LeaseId := ⟨.replicate 16 13⟩

/-- A report of the worker that has the task is accepted. -/
theorem small_started : started smallWorker ⟨smallTask,1,smallLease⟩ smallState =
      .ok () (Outcome.state (started smallWorker ⟨smallTask,1,smallLease⟩ smallState)) ∧
    Current smallState smallWorker ∧ Matches smallState smallWorker ⟨smallTask,1,smallLease⟩ := by
  have accepted := Outcome.eq_ok
    (show Outcome.value? (started smallWorker ⟨smallTask,1,smallLease⟩ smallState) = some () by decide +kernel)
  have state : (smallState.tasks.get smallTask).map (·.state) = some .Assigned := by decide +kernel
  refine ⟨accepted,started_current.mpr (fun task found running => ?_) _ accepted⟩
  simp [found,running] at state

/-- The worker that was given the task is lost, and the task is given to another worker, which starts it. -/
def takenOverOps : List Op :=
  [.started otherWorker ⟨smallTask,2,otherLease⟩,
    .assign_next otherWorker.node_id 6500 otherLease,
    .register_worker ⟨otherWorker.node_id,otherWorker.worker_epoch,"host:2",⟨⟨[("cpu",⟨1000⟩)],offer_sorted⟩⟩,1,
      [⟨smallKey,.JsonV1,.JsonV1,64⟩]⟩ 6000 5000 otherWorker.session_id,
    .expire_workers 6000] ++ smallOps

def takenOverState : CoordinatorState := (replay smallHash smallEpoch takenOverOps).2

/-- The first worker is told that its start was accepted. -/
theorem taken_over_started :
    Served smallHash smallEpoch ((replay smallHash smallEpoch takenOverOps).1.map fun step => .operation step.order step.op)
        takenOverState ∧
      (takenOverState.tasks.get smallTask).map (fun task => (task.state,task.attempt,task.assigned)) =
        some (.Running,2,some ⟨otherWorker.node_id,otherWorker.worker_epoch,otherWorker.session_id,otherLease⟩) ∧
      takenOverState.workers.get smallWorker.node_id = none ∧
      started smallWorker ⟨smallTask,1,smallLease⟩ takenOverState =
        .ok () (Outcome.state (started smallWorker ⟨smallTask,1,smallLease⟩ takenOverState)) :=
  ⟨(replay_run smallHash smallEpoch takenOverOps (by decide +kernel)).served,by decide +kernel,by decide +kernel,
    Outcome.eq_ok (by decide +kernel)⟩

end CoordinatorState
end Crayon
