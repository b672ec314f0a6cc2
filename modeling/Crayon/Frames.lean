import Crayon.Dependencies
import Crayon.Format
import Crayon.Handling
import Crayon.Redelivery

/-!
Whether what goes back fits a frame when what came in did. A task is told to its
worker in as many bytes as one request to submit it takes, so a task that came in
a frame can go out in one (`admitted_assignment_fits`). A batch of tasks is
answered slot by slot, and a spec may be shorter than the text that refuses it, so
the answer to a batch that came in a frame need not fit one (`refused_batch_grows`);
it does exactly when the answers do that the specs get (`submitted_batch_fits`).
-/
namespace Crayon
open Binary

/-! ### What a task takes along -/

/-- The bytes of a task's operation, arguments and resources. -/
def TaskRecord.load (task : TaskRecord) : Nat := size task.operation + size task.args + size task.resources

def SubmitSpec.load (spec : SubmitSpec) : Nat := size spec.operation + size spec.args + size spec.resources

/-- The specs of the tasks that a request submits. -/
inductive ClientRequest.Submits : ClientRequest → List SubmitSpec → Prop where
  | one (spec : SubmitSpec) : Submits (.Submit spec) [spec]
  | batch (specs : List SubmitSpec) : Submits (.SubmitBatch specs) specs

/-- The tasks that a reply tells to be admitted. -/
def ClientReply.admitted : ClientReply → List TaskId
  | .Submitted task_id _ => [task_id]
  | .SubmittedBatch results => results.filterMap fun result => result.toOption.map (·.task_id)
  | _ => []

section
variable {envelope : Envelope} {request : ClientRequest} {specs : List SubmitSpec} {epoch : CoordinatorEpoch}
  {wait_ms : UInt64} {min_ready : UInt32}

/-- An envelope that submits a task takes 77 bytes more than the task takes along. -/
theorem ClientRequest.Submits.load (submits : request.Submits specs) (body : envelope.body = .Client request)
    (named : envelope.coordinator_epoch = some epoch) {spec : SubmitSpec} (member : spec ∈ specs) :
    77 + spec.load ≤ (envelope.serialize wait_ms min_ready).length := by
  rw [Envelope.length_serialize _ _ named,body,RpcRequest.serialize,List.length_append,length_variant]
  cases submits with
  | one only =>
    obtain rfl := List.mem_singleton.mp member
    rw [ClientRequest.serialize,List.length_append,length_variant,length_serialize,size_submit_spec,SubmitSpec.load]
    omega
  | batch specs =>
    have one : size spec ≤ (specs.map size).sum := List.le_sum_of_mem (List.mem_map_of_mem member)
    rw [ClientRequest.serialize,List.length_append,length_variant,length_serialize,size_list]
    rw [size_submit_spec] at one
    rw [SubmitSpec.load]
    omega

end

namespace CoordinatorState
open Command
variable {blake3 : List UInt8 → Checksum} {op : Op} {s s' : CoordinatorState} {id : TaskId} {bound : Nat}

/-- The task, if there is one, takes no more along than this. -/
def Light (bound : Nat) (id : TaskId) (s : CoordinatorState) : Prop :=
  ∀ task, s.tasks.get id = some task → task.load ≤ bound

/-- What a task takes along does not change. -/
theorem Move.light (move : Move op s s') (inv : Consistent s) (undrawn : .task id ∉ op.minted) (light : Light bound id s) :
    Light bound id s' := by
  intro task found
  have step := move.task inv id
  rw [found] at step
  cases old : s.tasks.get id with
  | none =>
    rw [old] at step
    cases step with
    | submitted submitted => exact absurd submitted.minted undrawn
  | some before =>
    rw [old] at step
    have same := light before old
    cases step with
    | kept => exact same
    | advanced => exact same
    | stamped => exact same

theorem Stir.light (stir : Stir blake3 (fun op => .task id ∉ op.minted) s s') (inv : Inv s) (light : Light bound id s) :
    Light bound id s' := by
  cases stir with
  | effect undrawn newTo effect =>
    exact ((effect.moves newTo).keeps (P := fun t => Consistent t ∧ Light bound id t)
      (fun _ _ move held => ⟨move.consistent held.1,move.light held.1 undrawn held.2⟩) ⟨inv.consistent,light⟩).2
  | trim fewer => exact light

/-- The event draws the id for a new task. -/
def Event.draws (id : TaskId) : Event → Prop
  | .operation _ op => .task id ∈ op.minted
  | .poll _ _ => False

/-- Events that do not draw the id again. -/
inductive Since (blake3 : List UInt8 → Checksum) (id : TaskId) (s : CoordinatorState) : CoordinatorState → Prop where
  | refl : Since blake3 id s s
  | event {t : CoordinatorState} (since : Since blake3 id s t) (event : Event) (new : event.New t)
      (undrawn : ¬ event.draws id) : Since blake3 id s (event.act blake3 t)

theorem Since.light (since : Since blake3 id s s') (inv : Inv s) (light : Light bound id s) :
    Inv s' ∧ Light bound id s' := by
  induction since with
  | refl => exact ⟨inv,light⟩
  | event since event new undrawn ih =>
    refine ⟨event.inv blake3 new ih.1,(event.stirs new ih.1 ?_ ?_).keeps ih.1 (fun _ _ inv stir => stir.light inv) ih.2⟩
    · rintro order op rfl
      exact undrawn
    · intro node now lease
      simp [Op.minted]

/-- A task is told with all that it takes along and 77 bytes more. -/
theorem Polled.light {env : Env} {identity : WorkerIdentity} {assignment : TaskAssignment}
    (polled : Polled blake3 env identity s (.Assignment (some assignment)) s') (inv : Inv s)
    (light : Light bound assignment.fence.task_id s) (order : Traversal OperationKey) :
    (RpcReply.serialize order (.Worker (.Assignment (some assignment)))).length ≤ 77 + bound := by
  have told : size assignment.operation + size assignment.args + size assignment.resources ≤ bound := by
    obtain ⟨_,task,a,unstarted,rfl⟩ := polled.offered inv
    have stirs : Stirs blake3 (fun op => .task (offer task a).fence.task_id ∉ op.minted) s s' :=
      polled.stirs (by simp [Op.minted])
    exact stirs.keeps inv (fun _ _ inv stir => stir.light inv) light task unstarted.found
  simp only [RpcReply.serialize,WorkerReply.serialize,List.length_append,length_variant,length_serialize,size_some,
    size_task_assignment]
  omega

/-- An admitted task takes along what its spec did. -/
theorem submit_light {spec : SubmitSpec} (small : spec.load ≤ bound) (light : Light bound id s) (task : TaskId)
    (output : ObjectId) : Light bound id (Outcome.state
      (submit spec.operation spec.args spec.resources spec.max_attempts task output s)) := by
  have atomic := submit_effect (s := s) (fun _ => .replicate 32 0) spec.operation spec.args spec.resources spec.max_attempts
    task output
  match submit spec.operation spec.args spec.resources spec.max_attempts task output s,atomic with
  | .error (.Err _) t,same =>
    obtain rfl : t = s := same
    exact light
  | .ok ids t,effect =>
    cases effect with
    | submitted =>
      intro record found
      dsimp only [Outcome.state_ok] at found
      rw [Table.get_insert] at found
      split at found
      · obtain rfl := Option.some.inj found
        exact small
      · exact light record found

end CoordinatorState

namespace CoordinatorServer
open CoordinatorState Command
variable {blake3 : List UInt8 → Checksum} {bincode : Bincode} {env : Env} {s s' : CoordinatorState} {id : TaskId} {bound : Nat}
  {specs : List SubmitSpec} {i : Nat} {results : List (Except Error SubmittedTask)} {server server' : CoordinatorServer}
  {request : ClientRequest} {reply : ClientReply}

theorem submit_batch_light (env : Env) (i : Nat) (small : ∀ spec ∈ specs, spec.load ≤ bound) (light : Light bound id s) :
    Light bound id (Outcome.state (submit_batch env specs i s)) := by
  induction specs generalizing i s with
  | nil => exact light
  | cons spec rest ih =>
    obtain ⟨first,others⟩ := List.forall_mem_cons.mp small
    have next := submit_light first light (env.task i).1 (env.task i).2
    rw [← state_attempt] at next
    rw [submit_batch,bind_apply]
    cases ran : attempt (submit spec.operation spec.args spec.resources spec.max_attempts (env.task i).1 (env.task i).2) s with
    | ok result t =>
      rw [ran] at next
      dsimp only
      rw [state_bind fun _ _ => rfl]
      exact ih (i + 1) others next
    | error fault t =>
      rw [ran] at next
      exact next

/-- The tasks of a batch that are admitted have ids that were drawn for them. -/
theorem submit_batch_named (ran : submit_batch env specs i s = .ok results s') {task : SubmittedTask}
    (member : .ok task ∈ results) : ∃ j, i ≤ j ∧ j < i + specs.length ∧ task.task_id = (env.task j).1 := by
  induction specs generalizing i s s' results with
  | nil =>
    obtain ⟨rfl,_⟩ := EStateM.Result.ok.inj ran
    cases member
  | cons spec rest ih =>
    obtain ⟨result,t,first,next⟩ := bind_ok ran
    obtain ⟨others,t',later,last⟩ := bind_ok next
    obtain ⟨rfl,_⟩ := EStateM.Result.ok.inj last
    rcases List.mem_cons.mp member with head | tail
    · cases result with
      | error e => cases head
      | ok ids =>
        obtain ⟨task_id,output_id⟩ := ids
        obtain rfl := Except.ok.inj head
        have effect := submit_effect (s := s) (fun _ => .replicate 32 0) spec.operation spec.args spec.resources
          spec.max_attempts (env.task i).1 (env.task i).2
        rw [attempt_ok first] at effect
        cases effect with
        | submitted => exact ⟨i,le_rfl,by rw [List.length_cons]; omega,rfl⟩
    · obtain ⟨j,after,before,named⟩ := ih later tail
      exact ⟨j,by omega,by rw [List.length_cons]; omega,named⟩

/-- What a command returned is what the reply was made of. -/
theorem answer_ran {α : Type} {m : Coord α} {f : α → ClientReply} (ran : answer m f server = .ok reply server') :
    ∃ result, attempt m server.state = .ok result server'.state ∧
      reply = match result with
        | .ok a => f a
        | .error e => .Error e := by
  obtain ⟨result,t,first,last⟩ := bind_ok ran
  have inner : attempt m server.state = .ok result t.state := by
    unfold attempt on_state within at first
    unfold attempt
    cases did : m server.state with
    | ok a u =>
      rw [did] at first
      obtain ⟨rfl,rfl⟩ := EStateM.Result.ok.inj first
      rfl
    | error fault u =>
      rw [did] at first
      cases fault with
      | Err e =>
        obtain ⟨rfl,rfl⟩ := EStateM.Result.ok.inj first
        rfl
      | Panic => cases first
      | Diverge => cases first
  cases result with
  | ok a =>
    obtain ⟨rfl,rfl⟩ := EStateM.Result.ok.inj last
    exact ⟨.ok a,inner,rfl⟩
  | error e =>
    obtain ⟨rfl,rfl⟩ := EStateM.Result.ok.inj last
    exact ⟨.error e,inner,rfl⟩

/-- A request to submit one task is handled as a batch of one. -/
theorem dispatch_submits (submits : request.Submits specs)
    (ran : dispatch_client blake3 bincode env request server = .ok reply server') :
    ∃ results, submit_batch env specs 0 server.state = .ok results server'.state ∧
      ∀ id ∈ reply.admitted, ∃ output, .ok ⟨id,output⟩ ∈ results := by
  cases submits with
  | one spec =>
    obtain ⟨result,did,rfl⟩ := answer_ran ran
    refine ⟨[result.map fun ids => ⟨ids.1,ids.2⟩],?_,?_⟩
    · simp only [submit_batch,bind_apply,did,pure_apply]
    · intro id member
      cases result with
      | error e => cases member
      | ok ids =>
        obtain rfl := List.mem_singleton.mp member
        exact ⟨ids.2,List.mem_singleton_self _⟩
  | batch specs =>
    obtain ⟨result,did,rfl⟩ := answer_ran ran
    cases result with
    | error e =>
      obtain ⟨results,t,returned⟩ := Endpoint.submit_batch_returns env specs 0 server.state
      rw [attempt,returned] at did
      cases did
    | ok results =>
      refine ⟨results,attempt_ok did,?_⟩
      intro id member
      obtain ⟨result,there,named⟩ := List.mem_filterMap.mp member
      cases result with
      | error e => cases named
      | ok task =>
        obtain rfl := Option.some.inj named
        exact ⟨task.output_id,there⟩

/-- A task that was admitted through an envelope that fits a frame, and that names the coordinator's epoch, is told to its
    worker in a frame, whatever happens in between. -/
theorem admitted_assignment_fits {epoch named_epoch : CoordinatorEpoch} {past : List CoordinatorState.Event}
    {envelope : Envelope} {wait_ms : UInt64} {min_ready : UInt32} {later told : CoordinatorServer} {env' : Env}
    {identity : WorkerIdentity} {assignment : TaskAssignment} (served : Served blake3 epoch past server.state)
    (new : env.New 0 request.submits server.state) (submits : request.Submits specs)
    (body : envelope.body = .Client request) (named : envelope.coordinator_epoch = some named_epoch)
    (fits : (envelope.serialize wait_ms min_ready).length ≤ MAX_FRAME_BYTES)
    (ran : dispatch_client blake3 bincode env request server = .ok reply server')
    (admitted : assignment.fence.task_id ∈ reply.admitted)
    (since : Since blake3 assignment.fence.task_id server'.state later.state)
    (polled : dispatch_worker blake3 env' (.Poll identity) later = .ok (.Assignment (some assignment)) told)
    (order : Traversal OperationKey) :
    (RpcReply.serialize order (.Worker (.Assignment (some assignment)))).length ≤ MAX_FRAME_BYTES := by
  have small : ∀ spec ∈ specs, spec.load ≤ MAX_FRAME_BYTES - 77 := fun spec member =>
    Nat.le_sub_of_add_le' ((submits.load body named member).trans fits)
  have count : request.submits = specs.length := by cases submits <;> rfl
  obtain ⟨results,batch,names⟩ := dispatch_submits submits ran
  -- before the request there is no such task
  have light : Light (MAX_FRAME_BYTES - 77) assignment.fence.task_id server.state := by
    obtain ⟨output,there⟩ := names _ admitted
    obtain ⟨j,_,below,drawn⟩ := submit_batch_named batch there
    intro task found
    rw [show assignment.fence.task_id = _ from drawn] at found
    refine absurd (.inl (Table.mem_keys_iff.mpr ⟨task,found⟩)) (new.tasks j (Nat.zero_le j) ?_)
    omega
  have operates : Operates blake3 server.state (Outcome.state (submit_batch env specs 0 server.state)) :=
    submit_batch_operates env new (by omega) served.inv
  have inv := operates.inv served.inv
  have left := submit_batch_light env 0 small light
  rw [batch] at inv left
  obtain ⟨inv',light'⟩ := since.light inv left
  obtain ⟨reply',t,did,polled'⟩ := poll_polled blake3 env' identity inv'
  rw [dispatch_worker,on_state_of did] at polled
  obtain ⟨rfl,_⟩ := EStateM.Result.ok.inj polled
  exact (polled'.light inv' light' order).trans (by decide)

/-- A worker registers. -/
def readyOps : List Op :=
  [.register_worker ⟨smallWorker.node_id,smallWorker.worker_epoch,"host:1",⟨⟨[("cpu",⟨1000⟩)],offer_sorted⟩⟩,1,
    [⟨smallKey,.JsonV1,.JsonV1,64⟩]⟩ 0 5000 smallWorker.session_id]

theorem ready_served :
    Served smallHash smallEpoch ((replay smallHash smallEpoch readyOps).1.map fun step => .operation step.order step.op)
      (smallServer readyOps).state :=
  rejoined_served readyOps ⟨trivial,by decide⟩

def smallSpec : SubmitSpec := ⟨smallKey,[],⟨⟨[("cpu",⟨600⟩)],demand_sorted⟩⟩,2⟩

/-- A task is submitted, and told to the worker. -/
theorem small_assignment_fits :
    (Envelope.serialize 0 0 (Host.smallEnvelope 60000 (.Client (.Submit smallSpec)))).length = 139 ∧
    ∃ submitted assignment told,
      dispatch_client smallHash .fixint (System.smallEnv 3) (.Submit smallSpec) (smallServer readyOps) =
        .ok (.Submitted ⟨.replicate 16 3⟩ ⟨.replicate 32 3⟩) submitted ∧
      dispatch_worker smallHash (System.smallEnv 6) (.Poll smallWorker) submitted = .ok (.Assignment (some assignment)) told ∧
      (RpcReply.serialize .by_name (.Worker (.Assignment (some assignment)))).length ≤ MAX_FRAME_BYTES := by
  have length : (Envelope.serialize 0 0 (Host.smallEnvelope 60000 (.Client (.Submit smallSpec)))).length = 139 := by
    decide +kernel
  have ran := Outcome.eq_ok (show Outcome.value? (dispatch_client smallHash .fixint (System.smallEnv 3) (.Submit smallSpec)
    (smallServer readyOps)) = some (.Submitted ⟨.replicate 16 3⟩ ⟨.replicate 32 3⟩) by rfl)
  have polled := Outcome.eq_ok (show Outcome.value? (dispatch_worker smallHash (System.smallEnv 6) (.Poll smallWorker)
    (Outcome.state (dispatch_client smallHash .fixint (System.smallEnv 3) (.Submit smallSpec) (smallServer readyOps)))) =
      some (.Assignment (some ⟨⟨⟨.replicate 16 3⟩,1,⟨.replicate 16 6⟩⟩,smallKey,[],⟨.replicate 32 3⟩,smallSpec.resources⟩)) by
    decide +kernel)
  refine ⟨length,_,_,_,ran,polled,?_⟩
  exact admitted_assignment_fits ready_served (.one (by decide +kernel) (by decide +kernel)) (.one smallSpec) rfl rfl
    (length.trans_le (by decide)) ran (List.mem_singleton_self _) .refl polled .by_name

end CoordinatorServer

/-! ### Answers to batches -/

/-- The bytes that a spec is answered with when it is submitted in this state. -/
def SubmitSpec.answer_size (spec : SubmitSpec) (s : CoordinatorState) : Nat :=
  if spec.max_attempts = 0 then 45
  else if MAX_TASKS ≤ s.tasks.len then 34
  else if MAX_OBJECTS ≤ s.objects.len then 42
  else match s.operations.get spec.operation with
    | none => 16 + spec.operation.to_string.utf8ByteSize
    | some descriptor =>
      match descriptor.validate_args spec.args with
      | .error error => 4 + error.encoded_len
      | .ok _ =>
        if (s.workers.any fun worker => worker.state = .Alive && (worker.operations.get spec.operation).isSome &&
            worker.total.can_fit spec.resources) = true then
          match s.admit_args descriptor.input_codec spec.args false with
          | .error error => 4 + error.encoded_len
          | .ok _ => 52
        else 63

namespace CoordinatorServer
open CoordinatorState Command
variable {env : Env} {s s' : CoordinatorState} {specs : List SubmitSpec} {i : Nat}
  {results : List (Except Error SubmittedTask)}

/-- The bytes of all answers to a batch, each in the state that the specs before it leave. -/
def answer_sizes (env : Env) : List SubmitSpec → Nat → CoordinatorState → Nat
  | [],_,_ => 0
  | spec :: rest,i,s => spec.answer_size s + answer_sizes env rest (i + 1) (Outcome.state
      (submit spec.operation spec.args spec.resources spec.max_attempts (env.task i).1 (env.task i).2 s))

theorem size_refusal (error : Error) : size (.error error : Except Error SubmittedTask) = 4 + error.encoded_len := by
  rw [size_error,size_error_encoded]

theorem size_answer {spec : SubmitSpec} {task : TaskId} {output : ObjectId} {result : Except Error (TaskId × ObjectId)}
    (ran : attempt (submit spec.operation spec.args spec.resources spec.max_attempts task output) s = .ok result s') :
    size (result.map fun (task_id,output_id) => (⟨task_id,output_id⟩ : SubmittedTask)) = spec.answer_size s := by
  unfold SubmitSpec.answer_size
  by_cases attempts : spec.max_attempts ≠ 0
  swap
  · obtain ⟨rfl,_⟩ : .error _ = result ∧ _ := by simpa [attempt,submit,ensure_not attempts] using ran
    rw [if_pos (not_not.mp attempts)]
    rfl
  rw [if_neg attempts]
  by_cases taskRoom : s.tasks.len < MAX_TASKS
  swap
  · obtain ⟨rfl,_⟩ : .error _ = result ∧ _ := by simpa [attempt,submit,ensure_of attempts,ensure_not taskRoom] using ran
    rw [if_pos (not_lt.mp taskRoom)]
    rfl
  rw [if_neg (not_le.mpr taskRoom)]
  by_cases objectRoom : s.objects.len < MAX_OBJECTS
  swap
  · obtain ⟨rfl,_⟩ : .error _ = result ∧ _ := by
      simpa [attempt,submit,ensure_of attempts,ensure_of taskRoom,ensure_not objectRoom] using ran
    rw [if_pos (not_lt.mp objectRoom)]
    rfl
  rw [if_neg (not_le.mpr objectRoom)]
  cases offered : s.operations.get spec.operation with
  | none =>
    obtain ⟨rfl,_⟩ : .error _ = result ∧ _ := by
      simpa [attempt,submit,ensure_of attempts,ensure_of taskRoom,ensure_of objectRoom,offered] using ran
    change size (.error _ : Except Error SubmittedTask) = 16 + _
    rw [size_refusal,Error.encoded_len]
    omega
  | some descriptor =>
  dsimp only
  cases valid : descriptor.validate_args spec.args with
  | error error =>
    obtain ⟨rfl,_⟩ : .error _ = result ∧ _ := by
      simpa [attempt,submit,ensure_of attempts,ensure_of taskRoom,ensure_of objectRoom,offered,valid] using ran
    exact size_refusal error
  | ok _ =>
  dsimp only
  by_cases served : (s.workers.any fun worker => worker.state = .Alive && (worker.operations.get spec.operation).isSome &&
      worker.total.can_fit spec.resources) = true
  swap
  · obtain ⟨rfl,_⟩ : .error _ = result ∧ _ := by
      simpa [attempt,submit,ensure_of attempts,ensure_of taskRoom,ensure_of objectRoom,offered,valid,ensure_not served] using ran
    rw [if_neg served]
    rfl
  rw [if_pos served]
  cases inputs : s.admit_args descriptor.input_codec spec.args false with
  | error error =>
    obtain ⟨rfl,_⟩ : .error _ = result ∧ _ := by
      simpa [attempt,submit,ensure_of attempts,ensure_of taskRoom,ensure_of objectRoom,offered,valid,ensure_of served,
        inputs] using ran
    exact size_refusal error
  | ok waiting =>
    obtain ⟨rfl,_⟩ : .ok _ = result ∧ _ := by
      simpa [attempt,submit,ensure_of attempts,ensure_of taskRoom,ensure_of objectRoom,offered,valid,ensure_of served,
        inputs,changed] using ran
    simp [Except.map]

theorem size_submit_batch (ran : submit_batch env specs i s = .ok results s') :
    results.length = specs.length ∧ (results.map size).sum = answer_sizes env specs i s := by
  induction specs generalizing i s s' results with
  | nil =>
    obtain ⟨rfl,_⟩ := EStateM.Result.ok.inj ran
    exact ⟨rfl,rfl⟩
  | cons spec rest ih =>
    obtain ⟨result,t,first,next⟩ := bind_ok ran
    obtain ⟨others,t',later,last⟩ := bind_ok next
    obtain ⟨rfl,_⟩ := EStateM.Result.ok.inj last
    obtain ⟨length,sizes⟩ := ih later
    have left := state_attempt (submit spec.operation spec.args spec.resources spec.max_attempts (env.task i).1 (env.task i).2) s
    rw [first,Outcome.state_ok] at left
    refine ⟨by rw [List.length_cons,length,List.length_cons],?_⟩
    rw [List.map_cons,List.sum_cons,answer_sizes,size_answer first,sizes,left]

theorem length_submitted_batch (order : Traversal OperationKey) (results : List (Except Error SubmittedTask)) :
    (RpcReply.serialize order (.Client (.SubmittedBatch results))).length = 16 + (results.map size).sum := by
  simp only [RpcReply.serialize,ClientReply.serialize,List.length_append,length_variant,length_serialize,size_list]
  omega

theorem dispatch_batch (blake3 : List UInt8 → Checksum) (bincode : Bincode) {server : CoordinatorServer}
    {state : CoordinatorState} (ran : submit_batch env specs 0 server.state = .ok results state) :
    dispatch_client blake3 bincode env (.SubmitBatch specs) server = .ok (.SubmittedBatch results) { server with state } := by
  simp only [dispatch_client,answer,bind_apply,attempt,on_state_of ran,pure_apply]

/-- A batch of specs is answered slot by slot, and the answer fits a frame exactly if the answers do that the specs get. -/
theorem submitted_batch_fits (blake3 : List UInt8 → Checksum) (bincode : Bincode) (env : Env) (server : CoordinatorServer)
    (order : Traversal OperationKey) (specs : List SubmitSpec) :
    ∃ results server', dispatch_client blake3 bincode env (.SubmitBatch specs) server = .ok (.SubmittedBatch results) server' ∧
      results.length = specs.length ∧
      ((RpcReply.serialize order (.Client (.SubmittedBatch results))).length ≤ MAX_FRAME_BYTES ↔
        16 + answer_sizes env specs 0 server.state ≤ MAX_FRAME_BYTES) := by
  obtain ⟨results,state,ran⟩ := Endpoint.submit_batch_returns env specs 0 server.state
  obtain ⟨length,sizes⟩ := size_submit_batch ran
  refine ⟨results,{ server with state },dispatch_batch blake3 bincode ran,length,?_⟩
  rw [length_submitted_batch,sizes]

/-- A spec that names no operation and asks for no attempt. -/
def emptySpec : SubmitSpec := ⟨⟨"","",0⟩,[],.default,0⟩

/-- One spec is admitted, and one refused. -/
theorem small_batch_answered : 16 + answer_sizes (System.smallEnv 3) [smallSpec,emptySpec] 0 (smallServer readyOps).state = 113 ∧
    ∃ results server', dispatch_client smallHash .fixint (System.smallEnv 3) (.SubmitBatch [smallSpec,emptySpec])
        (smallServer readyOps) = .ok (.SubmittedBatch results) server' ∧ results.length = 2 ∧
      (RpcReply.serialize .by_name (.Client (.SubmittedBatch results))).length ≤ MAX_FRAME_BYTES := by
  have sizes : 16 + answer_sizes (System.smallEnv 3) [smallSpec,emptySpec] 0 (smallServer readyOps).state = 113 := by
    decide +kernel
  obtain ⟨results,server',ran,length,fits⟩ := submitted_batch_fits smallHash .fixint (System.smallEnv 3) (smallServer readyOps)
    .by_name [smallSpec,emptySpec]
  exact ⟨sizes,results,server',ran,length,fits.mpr (by rw [sizes]; decide)⟩

/-- Tasks are named by their number in the request. -/
def numberedEnv : Env := { System.smallEnv 3 with
  task := fun j => (⟨⟨(little 16 j).toArray,by simp⟩⟩,⟨⟨(little 32 j).toArray,by simp⟩⟩) }

theorem numbered_new (n : Nat) (small : n < 2^64) : numberedEnv.New 0 n (smallServer readyOps).state where
  tasks j _ _ mentioned := by
    have none : (smallServer readyOps).state.tasks.keys = ∅ ∧ (smallServer readyOps).state.runnable = [] := by decide +kernel
    simp [Mentions,none] at mentioned
  outputs j _ _ there := by
    have none : (smallServer readyOps).state.objects.keys = ∅ := by decide +kernel
    simp [none] at there
  distinct j k less below := by
    have power : 2^64 ≤ 256^16 ∧ 2^64 ≤ 256^32 := by decide
    refine ⟨fun same => ?_,fun same => ?_⟩
    · have bytes : little 16 j = little 16 k := by simpa [numberedEnv] using same
      exact less.ne (little_injective (by omega) (by omega) bytes)
    · have bytes : little 32 j = little 32 k := by simpa [numberedEnv] using same
      exact less.ne (little_injective (by omega) (by omega) bytes)

theorem submit_batch_empty (env : Env) (n i : Nat) (s : CoordinatorState) :
    submit_batch env (List.replicate n emptySpec) i s =
      .ok (List.replicate n (.error (.IllegalTransition "max_attempts must be positive"))) s := by
  induction n generalizing i with
  | zero => rfl
  | succ n ih =>
    have refused : attempt (submit emptySpec.operation emptySpec.args emptySpec.resources emptySpec.max_attempts (env.task i).1
        (env.task i).2) s = .ok (.error (.IllegalTransition "max_attempts must be positive")) s := rfl
    rw [List.replicate_succ,submit_batch,bind_apply,refused]
    dsimp only
    rw [bind_apply,ih]
    rfl

/-- One spec that is admitted, and some that are refused. -/
def growingSpecs (n : Nat) : List SubmitSpec := smallSpec :: List.replicate n emptySpec

def growingAnswers (n : Nat) : List (Except Error SubmittedTask) :=
  .ok ⟨(numberedEnv.task 0).1,(numberedEnv.task 0).2⟩ ::
    List.replicate n (.error (.IllegalTransition "max_attempts must be positive"))

theorem growing_answered (n : Nat) : ∃ state,
    submit_batch numberedEnv (growingSpecs n) 0 (smallServer readyOps).state = .ok (growingAnswers n) state ∧
      (state.tasks.get (numberedEnv.task 0).1).isSome = true := by
  have first := Outcome.eq_ok (show Outcome.value? (attempt (submit smallSpec.operation smallSpec.args smallSpec.resources
    smallSpec.max_attempts (numberedEnv.task 0).1 (numberedEnv.task 0).2) (smallServer readyOps).state) =
      some (.ok ((numberedEnv.task 0).1,(numberedEnv.task 0).2)) by rfl)
  refine ⟨Outcome.state (attempt (submit smallSpec.operation smallSpec.args smallSpec.resources smallSpec.max_attempts
    (numberedEnv.task 0).1 (numberedEnv.task 0).2) (smallServer readyOps).state),?_,by decide +kernel⟩
  rw [growingSpecs,submit_batch,bind_apply,first]
  dsimp only
  rw [bind_apply,submit_batch_empty]
  rfl

theorem length_growing_specs (n : Nat) :
    (Envelope.serialize 0 0 (Host.smallEnvelope 60000 (.Client (.SubmitBatch (growingSpecs n))))).length = 147 + 40 * n := by
  have sizes : size smallSpec = 66 ∧ size emptySpec = 40 := by decide +kernel
  rw [Envelope.length_serialize 0 0 (rfl : _ = some smallEpoch)]
  simp only [Host.smallEnvelope,RpcRequest.serialize,ClientRequest.serialize,List.length_append,length_variant,
    length_serialize,size_list,growingSpecs,List.map_cons,List.map_replicate,List.sum_cons,List.sum_replicate_nat,sizes]
  omega

theorem length_growing_answers (n : Nat) :
    (RpcReply.serialize .by_name (.Client (.SubmittedBatch (growingAnswers n)))).length = 68 + 45 * n := by
  have slot : size (.error (.IllegalTransition "max_attempts must be positive") : Except Error SubmittedTask) = 45 := by
    decide +kernel
  simp only [length_submitted_batch,growingAnswers,List.map_cons,List.map_replicate,List.sum_cons,List.sum_replicate_nat,slot,
    size_ok,size_submitted_task]
  omega

/-- A request in a frame submits one task and 200000 specs that are refused. The task is admitted, and the answer does not
    fit a frame. -/
theorem refused_batch_grows : ∃ past specs results server',
    Served smallHash smallEpoch past (smallServer readyOps).state ∧
    numberedEnv.New 0 specs.length (smallServer readyOps).state ∧
    (Envelope.serialize 0 0 (Host.smallEnvelope 60000 (.Client (.SubmitBatch specs)))).length ≤ MAX_FRAME_BYTES ∧
    dispatch_client smallHash .fixint numberedEnv (.SubmitBatch specs) (smallServer readyOps) =
      .ok (.SubmittedBatch results) server' ∧
    results.head? = some (.ok ⟨(numberedEnv.task 0).1,(numberedEnv.task 0).2⟩) ∧
    (server'.state.tasks.get (numberedEnv.task 0).1).isSome = true ∧
    MAX_FRAME_BYTES < (RpcReply.serialize .by_name (.Client (.SubmittedBatch results))).length := by
  obtain ⟨state,ran,admitted⟩ := growing_answered 200000
  have count : (growingSpecs 200000).length < 2^64 := by
    rw [growingSpecs,List.length_cons,List.length_replicate]
    decide
  refine ⟨_,growingSpecs 200000,growingAnswers 200000,{ smallServer readyOps with state },ready_served,numbered_new _ count,?_,
    dispatch_batch _ _ ran,rfl,admitted,?_⟩
  · rw [length_growing_specs]
    decide
  · rw [length_growing_answers]
    decide

end CoordinatorServer
end Crayon
