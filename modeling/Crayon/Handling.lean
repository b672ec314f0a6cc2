import Crayon.Deletes
import Crayon.Worker

/-!
What a worker's request does at the coordinator. A registration and a report have
the effect of their operation and are told so, or are refused and change nothing;
a poll takes deletes or has a task assigned. So whatever goes on at the coordinator
is made of effects of operations and of deletes that are taken (`Stirs`).
-/
namespace Crayon

/-- The error tells that a session or an attempt is over. -/
def Error.fencing : Error → Bool
  | .StaleEpoch | .StaleFence => true
  | _ => false

/-- A check that tells no such error. -/
def Plain {α : Type} (result : Except Error α) : Prop := ∀ error, result = .error error → error.fencing = false

theorem plain_ok {α : Type} (a : α) : Plain (.ok a) := nofun

theorem plain_error {α : Type} {error : Error} (plain : error.fencing = false) : Plain (.error error : Except Error α) := by
  rintro _ ⟨⟩
  exact plain

theorem Plain.bind {α β : Type} {first : Except Error α} {next : α → Except Error β} (plain : Plain first)
    (rest : ∀ a, Plain (next a)) : Plain (first >>= next) := by
  cases first with
  | error error => exact plain_error (plain error rfl)
  | ok a => exact rest a

theorem validate_component_plain (label value : String) : Plain (OperationKey.validate_component label value) := by
  unfold OperationKey.validate_component
  split
  · exact plain_error rfl
  · exact plain_ok ()

theorem OperationDescriptor.validate_plain (descriptor : OperationDescriptor) : Plain descriptor.validate := by
  refine Plain.bind ?_ fun _ => ?_
  · refine (validate_component_plain _ _).bind fun _ => (validate_component_plain _ _).bind fun _ => ?_
    split
    · exact plain_error rfl
    · exact plain_ok ()
  · split
    · exact plain_error rfl
    · exact plain_ok ()

theorem validate_advertise_addr_plain (value : String) : Plain (validate_advertise_addr value) := by
  unfold validate_advertise_addr
  split
  · exact plain_error rfl
  split
  · exact plain_error rfl
  split
  · exact plain_error rfl
  split
  · exact plain_error rfl
  · exact plain_ok ()

theorem require_loopback_addr_plain (value : String) : Plain (require_loopback_addr value) := by
  refine (validate_advertise_addr_plain value).bind fun _ => ?_
  split
  · exact plain_error rfl
  split
  · exact plain_error rfl
  · exact plain_ok ()

namespace CoordinatorState
open Command
open Relation (ReflTransGen)
variable {blake3 : List UInt8 → Checksum} {s s' : CoordinatorState} {op : Op} {Asked : Op → Prop} {identity : WorkerIdentity}

/-- An operation of some kind takes effect, or deletes are taken from the queues. -/
inductive Stir (blake3 : List UInt8 → Checksum) (Asked : Op → Prop) (s : CoordinatorState) : CoordinatorState → Prop where
  | effect {op : Op} {reply : Reply} {s' : CoordinatorState} (asked : Asked op) (newTo : op.NewTo s)
      (effect : Effect blake3 op s reply s') : Stir blake3 Asked s s'
  | trim {pending_deletes : Table NodeId (List ObjectId)}
      (fewer : ∀ node id, id ∈ (pending_deletes.get node).getD [] → Owes s node id) :
      Stir blake3 Asked s { s with pending_deletes }

abbrev Stirs (blake3 : List UInt8 → Checksum) (Asked : Op → Prop) : CoordinatorState → CoordinatorState → Prop :=
  ReflTransGen (Stir blake3 Asked)

theorem Stir.inv (stir : Stir blake3 Asked s s') (inv : Inv s) : Inv s' := by
  cases stir with
  | effect asked newTo effect => exact ⟨(effect.moves newTo).consistent inv.consistent,effect.alive newTo inv.alive⟩
  | trim fewer => exact inv.requeued _

/-- What holds at first and survives whatever goes on holds at the end. -/
theorem Stirs.keeps {P : CoordinatorState → Prop} (stirs : Stirs blake3 Asked s s') (inv : Inv s)
    (step : ∀ t t', Inv t → Stir blake3 Asked t t' → P t → P t') (start : P s) : P s' := by
  have both : Inv s' ∧ P s' := by
    induction stirs with
    | refl => exact ⟨inv,start⟩
    | tail _ stir ih => exact ⟨stir.inv ih.1,step _ _ ih.1 stir ih.2⟩
  exact both.2

theorem Stirs.inv (stirs : Stirs blake3 Asked s s') (inv : Inv s) : Inv s' :=
  stirs.keeps inv (fun _ _ inv stir _ => stir.inv inv) inv

theorem apply_stirs (blake3 : List UInt8 → Checksum) (order : HashOrder) (inv : Inv s) (newTo : op.NewTo s)
    (asked : Asked op) : Stirs blake3 Asked s (Outcome.state (apply blake3 order op s)) :=
  apply_keeps blake3 order inv .refl fun _ _ effect => .single (.effect asked newTo effect)

/-- Without the queue of one worker there is no more to delete than before. -/
theorem trim_removed (node : NodeId) :
    Stir blake3 Asked s { s with pending_deletes := s.pending_deletes.remove node } := by
  refine .trim fun other id queued => ?_
  rw [Table.get_remove] at queued
  split at queued
  · cases queued
  · exact queued

theorem Polled.stirs {env : Env} {told : WorkerReply} (polled : Polled blake3 env identity s told s')
    (asked : Asked (.assign_next identity.node_id env.now_ms env.lease)) : Stirs blake3 Asked s s' := by
  cases polled with
  | @delete id rest queued =>
    by_cases last : rest = []
    · rw [if_pos last]
      exact .single (trim_removed _)
    rw [if_neg last]
    refine .single (.trim fun node k member => ?_)
    rw [Table.get_insert] at member
    split at member
    · rename_i same
      rw [Owes,same,queued]
      exact List.mem_cons_of_mem _ member
    · exact member
  | stale | cancel | again => exact .single (trim_removed _)
  | next idle current calm free ran effect =>
    exact .tail (.single (trim_removed _)) (.effect asked (by trivial) effect)

theorem Event.stirs (event : Event) (new : event.New s) (inv : Inv s)
    (asked : ∀ order op, event = .operation order op → Asked op)
    (assigns : ∀ node now lease, Asked (.assign_next node now lease)) : Stirs blake3 Asked s (event.act blake3 s) := by
  cases event with
  | operation order op => exact apply_stirs blake3 order inv new (asked order op rfl)
  | poll env identity =>
    obtain ⟨told,s',ran,polled⟩ := poll_polled blake3 env identity inv
    rw [Event.act,ran]
    exact polled.stirs (assigns _ _ _)

theorem collect_operations_plain (known : Table OperationKey OperationDescriptor) (descriptors : List OperationDescriptor)
    (operations : Table OperationKey OperationDescriptor) : Plain (collect_operations known descriptors operations) := by
  induction descriptors generalizing operations with
  | nil => exact plain_ok operations
  | cons first rest ih =>
    refine first.validate_plain.bind fun _ => ?_
    split
    · exact plain_error rfl
    split
    · exact plain_error rfl
    · exact ih _

/-- A registration is not refused as if it came from a session that is over. -/
theorem register_worker_plain {request : RegisterWorker} {now lease_ms : Nat} {session_id : WorkerSessionId} {error : Error}
    (refused : register_worker request now lease_ms session_id s = .error (.Err error) s') : error.fencing = false := by
  cases address : validate_advertise_addr request.advertise_addr with
  | error e =>
    obtain ⟨rfl,_⟩ : e = error ∧ s = s' := by simpa [register_worker,address] using refused
    exact validate_advertise_addr_plain _ e address
  | ok _ =>
    by_cases slots : request.slots ≠ 0
    swap
    · obtain ⟨rfl,_⟩ : .InvalidResource "worker slots must be positive" = error ∧ s = s' := by
        simpa [register_worker,address,ensure_not slots] using refused
      rfl
    cases collected : collect_operations s.operations request.operations .empty with
    | error e =>
      obtain ⟨rfl,_⟩ : e = error ∧ s = s' := by simpa [register_worker,address,ensure_of slots,collected] using refused
      exact collect_operations_plain _ _ _ e collected
    | ok operations =>
      simp only [register_worker,bind_apply,get_apply,address,lift_ok,ensure_of slots,collected,pure_apply] at refused
      cases active : (s.workers.get request.node_id).filter (·.state ≠ .Dead) with
      | none =>
        rw [active] at refused
        simp [changed] at refused
      | some existing =>
        rw [active] at refused
        by_cases same : existing.identity.worker_epoch = request.worker_epoch ∧
            existing.advertise_addr = request.advertise_addr ∧ existing.total = request.resources ∧
            existing.slots = request.slots ∧ existing.operations = operations
        · simp [ensure_of same,changed] at refused
        · obtain ⟨rfl,_⟩ : .Protocol "duplicate active node id" = error ∧ s = s' := by
            simpa [ensure_not same] using refused
          rfl

end CoordinatorState

/-! ### The requests of a worker -/

/-- The operation that a report asks for. -/
def WorkerRequest.report (env : Env) (lease_ms : Nat) : WorkerRequest → Option CoordinatorState.Op
  | .Register _ | .Poll _ => none
  | .Heartbeat identity => some (.heartbeat identity env.now_ms lease_ms)
  | .Cancelled identity fence => some (.acknowledge_cancel identity fence)
  | .Started identity fence => some (.started identity fence)
  | .Completed identity report => some (.complete identity report)
  | .Failed identity fence message «class» => some (.fail identity fence message «class» env.now_ms)
  | .Drain identity => some (.drain identity)

namespace CoordinatorServer
open CoordinatorState Command
variable {blake3 : List UInt8 → Checksum} {env : Env} {server : CoordinatorServer} {request : WorkerRequest}
  {told : WorkerReply} {s' : CoordinatorState} {Asked : Op → Prop}

/-- What a request is told, and the state that it leaves. -/
inductive Handled (blake3 : List UInt8 → Checksum) (env : Env) (server : CoordinatorServer) :
    WorkerRequest → WorkerReply → CoordinatorState → Prop where
  | registered {request : RegisterWorker} {identity : WorkerIdentity} {s' : CoordinatorState} (revision : Nat)
      (loopback : (if server.require_loopback then require_loopback_addr request.advertise_addr else .ok ()) = .ok ())
      (effect : Effect blake3 (.register_worker request env.now_ms server.lease_ms env.session) server.state
        (.Identity identity) s') :
      Handled blake3 env server (.Register request) (.Registered identity revision server.lease_ms) s'
  | refused {request : RegisterWorker} {error : Error} (plain : error.fencing = false) :
      Handled blake3 env server (.Register request) (.Error error) server.state
  | polled {identity : WorkerIdentity} {told : WorkerReply} {s' : CoordinatorState}
      (polled : Polled blake3 env identity server.state told s') : Handled blake3 env server (.Poll identity) told s'
  | accepted {request : WorkerRequest} {op : Op} {value : Reply} {s' : CoordinatorState}
      (asks : request.report env server.lease_ms = some op) (effect : Effect blake3 op server.state value s') :
      Handled blake3 env server request .Accepted s'
  | rejected {request : WorkerRequest} {op : Op} (asks : request.report env server.lease_ms = some op) (error : Error) :
      Handled blake3 env server request (.Error error) server.state

theorem register_handled (blake3 : List UInt8 → Checksum) (env : Env) (request : RegisterWorker) (inv : Inv server.state) :
    ∃ told s', register env request server = .ok told { server with state := s' } ∧
      Handled blake3 env server (.Register request) told s' := by
  cases loopback : (if server.require_loopback then require_loopback_addr request.advertise_addr else .ok ()) with
  | error error =>
    refine ⟨.Error error,_,?_,.refused ?_⟩
    · simp only [register,bind_apply,get_apply,loopback,pure_apply]
    · split at loopback
      · exact require_loopback_addr_plain _ error loopback
      · cases loopback
  | ok =>
    have atomic := register_worker_effect blake3 inv.alive request env.now_ms server.lease_ms env.session
    cases ran : register_worker request env.now_ms server.lease_ms env.session server.state with
    | ok identity state =>
      rw [ran] at atomic
      refine ⟨_,_,?_,.registered state.revision loopback atomic⟩
      simp only [register,bind_apply,get_apply,loopback,attempt,on_state,within,ran,pure_apply]
    | error fault state =>
      rw [ran] at atomic
      cases fault with
      | Err error =>
        obtain rfl : state = server.state := atomic
        refine ⟨_,_,?_,.refused (register_worker_plain ran)⟩
        simp only [register,bind_apply,get_apply,loopback,attempt,on_state,within,ran,pure_apply]
      | Panic => exact atomic.elim
      | Diverge => exact atomic.elim

theorem accepted_handled (blake3 : List UInt8 → Checksum) (env : Env) {α : Type} {m : Coord α} (order : HashOrder) {op : Op}
    {f : α → Reply} (runs : apply blake3 order op = m >>= fun a => pure (f a))
    (asks : request.report env server.lease_ms = some op) (inv : Inv server.state) :
    ∃ told s', accepted m server = .ok told { server with state := s' } ∧ Handled blake3 env server request told s' := by
  rcases accepted_ends blake3 order op runs inv with ⟨_,_,ran,effect⟩ | ⟨error,ran⟩
  · exact ⟨_,_,ran,.accepted asks effect⟩
  · exact ⟨_,_,ran,.rejected asks error⟩

theorem dispatch_worker_handled (blake3 : List UInt8 → Checksum) (env : Env) (request : WorkerRequest)
    (inv : Inv server.state) : ∃ told s', dispatch_worker blake3 env request server = .ok told { server with state := s' } ∧
      Handled blake3 env server request told s' := by
  cases request with
  | Register request => exact register_handled blake3 env request inv
  | Heartbeat identity =>
    have runs : apply blake3 env.order (.heartbeat identity env.now_ms server.lease_ms) =
        heartbeat identity env.now_ms server.lease_ms >>= fun _ => pure .Done := rfl
    exact accepted_handled blake3 env env.order runs rfl inv
  | Poll identity =>
    obtain ⟨told,s',ran,polled⟩ := poll_polled blake3 env identity inv
    exact ⟨told,s',on_state_of ran,.polled polled⟩
  | Cancelled identity fence => exact accepted_handled blake3 env env.order (f := fun _ => .Done) rfl rfl inv
  | Started identity fence => exact accepted_handled blake3 env env.order (f := fun _ => .Done) rfl rfl inv
  | Completed identity report => exact accepted_handled blake3 env env.order (f := fun _ => .Done) rfl rfl inv
  | Failed identity fence message «class» => exact accepted_handled blake3 env env.order (f := .Failed) rfl rfl inv
  | Drain identity => exact accepted_handled blake3 env env.order (f := fun _ => .Done) rfl rfl inv

theorem report_newTo {op : Op} (asks : request.report env server.lease_ms = some op) (s : CoordinatorState) : op.NewTo s := by
  cases request <;> cases asks <;> trivial

theorem Handled.stirs (handled : Handled blake3 env server request told s')
    (registers : ∀ register, request = .Register register →
      (if server.require_loopback then require_loopback_addr register.advertise_addr else .ok ()) = .ok () →
      Asked (.register_worker register env.now_ms server.lease_ms env.session))
    (reports : ∀ op, request.report env server.lease_ms = some op → Asked op)
    (assigns : ∀ node now lease, Asked (.assign_next node now lease)) : Stirs blake3 Asked server.state s' := by
  cases handled with
  | registered revision loopback effect => exact .single (.effect (registers _ rfl loopback) (by trivial) effect)
  | refused plain => exact .refl
  | polled polled => exact polled.stirs (assigns _ _ _)
  | accepted asks effect => exact .single (.effect (reports _ asks) (report_newTo asks _) effect)
  | rejected asks error => exact .refl

end CoordinatorServer
end Crayon
