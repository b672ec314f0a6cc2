import Crayon.Redelivery
import Crayon.Retries

/-!
Requests that are parked. A poll that finds no work, and a read of objects that
are still to come, wait on the server until its state advances. An operation that
does not count a revision leaves all that they look at as it was (`Unmoved`), or has
less of it: fewer ids in the queue, fewer deletes. So a request that wakes nobody
makes nothing ready that was not.
-/
namespace Crayon

namespace CoordinatorState
open Command
variable {blake3 : List UInt8 → Checksum} {epoch : CoordinatorEpoch} {past : List Event} {s s' t : CoordinatorState}
  {op : Op} {reply : Reply} {identity : WorkerIdentity} {now : Nat}

/-! ### What an uncounted operation leaves alone -/

/-- What parked requests see of a worker. -/
def unleased (worker : WorkerRecord) : WorkerRecord := { worker with lease_deadline_ms := 0 }

/-- What parked requests see of a task. -/
def unstamped (task : TaskRecord) : TaskRecord := { task with terminal_since_ms := 0 }

/-- Between the states nothing was added that a parked request looks for. -/
structure Unmoved (s s' : CoordinatorState) : Prop where
  revision : s'.revision = s.revision
  epoch : s'.epoch = s.epoch
  objects : s'.objects = s.objects
  cancel_requested : s'.cancel_requested = s.cancel_requested
  workers : ∀ node, (s'.workers.get node).map unleased = (s.workers.get node).map unleased
  tasks : ∀ id, (s'.tasks.get id).map unstamped = (s.tasks.get id).map unstamped
  runnable : ∀ id ∈ s'.runnable, id ∈ s.runnable
  deletes : ∀ node, ∀ id ∈ (s'.pending_deletes.get node).getD [], id ∈ (s.pending_deletes.get node).getD []

/-- The operation was counted, or made nothing ready. -/
def Counted (s s' : CoordinatorState) : Prop := s.revision < s'.revision ∨ Unmoved s s'

theorem Unmoved.refl (s : CoordinatorState) : Unmoved s s where
  revision := rfl
  epoch := rfl
  objects := rfl
  cancel_requested := rfl
  workers _ := rfl
  tasks _ := rfl
  runnable _ queued := queued
  deletes _ _ queued := queued

theorem Unmoved.trans (first : Unmoved s t) (second : Unmoved t s') : Unmoved s s' where
  revision := second.revision.trans first.revision
  epoch := second.epoch.trans first.epoch
  objects := second.objects.trans first.objects
  cancel_requested := second.cancel_requested.trans first.cancel_requested
  workers node := (second.workers node).trans (first.workers node)
  tasks id := (second.tasks id).trans (first.tasks id)
  runnable id queued := first.runnable id (second.runnable id queued)
  deletes node id queued := first.deletes node id (second.deletes node id queued)

theorem Counted.refl (s : CoordinatorState) : Counted s s := .inr (.refl s)

theorem Counted.trans (first : Counted s t) (second : Counted t s') : Counted s s' := by
  rcases first with earlier | quiet <;> rcases second with later | quiet'
  · exact .inl (earlier.trans later)
  · exact .inl (quiet'.revision ▸ earlier)
  · exact .inl (quiet.revision ▸ later)
  · exact .inr (quiet.trans quiet')

/-! ### Operations are counted -/

theorem Ripples.revision (ripples : Ripples s s') : s'.revision = s.revision := by
  induction ripples with
  | refl => rfl
  | tail _ ripple ih => cases ripple <;> exact ih

theorem Swept.revision (swept : Swept now s s') : s'.revision = s.revision := by
  induction swept with
  | refl => rfl
  | tail _ sweep ih => cases sweep <;> exact ih

theorem Released.counted {id : ObjectId} (released : Released s id s') : Counted s s' := by
  cases released with
  | before => exact .refl s
  | drop => exact .inl (Nat.lt_succ_self _)

theorem Releases.counted (releases : Releases s s') : Counted s s' := by
  induction releases with
  | refl => exact .refl s
  | tail _ released ih => exact ih.trans released.choose_spec.counted

theorem quiet_deletes {pending_deletes : Table NodeId (List ObjectId)}
    (fewer : ∀ node, ∀ id ∈ (pending_deletes.get node).getD [], id ∈ (s.pending_deletes.get node).getD []) :
    Unmoved s { s with pending_deletes } :=
  { Unmoved.refl s with deletes := fewer }

theorem quiet_taken (node : NodeId) : Unmoved s { s with pending_deletes := s.pending_deletes.remove node } := by
  refine quiet_deletes fun node' id queued => ?_
  rw [Table.get_remove] at queued
  split at queued
  · cases queued
  · exact queued

theorem Requeued.mem {queue : List TaskId} (requeued : Requeued s queue) {id : TaskId} (queued : id ∈ queue) :
    id ∈ s.runnable :=
  List.count_pos_iff.mp (lt_of_lt_of_le (List.count_pos_iff.mpr queued) (requeued.bounded id))

theorem Effect.counted (effect : Effect blake3 op s reply s') : Counted s s' := by
  cases effect with
  | renewed | enrolled | submitted | assigned | started | retried | drained | requested => exact .inl (Nat.lt_succ_self _)
  | busy | started_before | completed_before | failed_before | unexpired | acknowledged_before | requested_before =>
    exact .refl s
  | @beat _ identity now lease_ms current =>
    refine .inr { Unmoved.refl s with workers := fun node => ?_ }
    rw [Table.get_modify]
    split
    · cases s.workers.get node <;> rfl
    · rfl
  | put admitted | put_meta admitted =>
    cases admitted with
    | known => exact .refl s
    | stored => exact .inl (Nat.lt_succ_self _)
  | searched requeued => exact .inr { Unmoved.refl s with runnable := fun id queued => requeued.mem queued }
  | completed current matching found state at_worker living offered verified output accepted freed ripples
  | failed current matching found state final freed ripples
  | acknowledged current matching found state freed ripples
  | cancelled found state ripples =>
    refine .inl ?_
    show s.revision < _ + 1
    rw [ripples.revision]
    exact Nat.lt_succ_self _
  | expired report swept workers ripples =>
    refine .inl ?_
    show s.revision < _ + 1
    rw [ripples.revision,swept.revision]
    exact Nat.lt_succ_self _
  | @reaped _ _ now count released =>
    have stamped : Unmoved s { s with tasks := s.tasks.mapValues (stamp now) } := by
      refine { Unmoved.refl s with tasks := fun id => ?_ }
      rw [Table.get_mapValues,Option.map_map]
      refine Option.map_congr fun task _ => ?_
      simp only [Function.comp,stamp]
      split <;> rfl
    exact Counted.trans (.inr stamped) (Releases.counted released)
  | released released => exact released.counted
  | taken => exact .inr (quiet_taken _)

theorem apply_counted (blake3 : List UInt8 → Checksum) (order : HashOrder) (inv : Inv s) (op : Op) :
    Counted s (Outcome.state (apply blake3 order op s)) :=
  apply_keeps blake3 order inv (.refl s) fun _ _ effect => effect.counted

theorem Polled.counted {env : Env} {reply : WorkerReply} (polled : Polled blake3 env identity s reply s') : Counted s s' := by
  cases polled with
  | @delete id rest queued =>
    refine .inr (quiet_deletes fun node k kept => ?_)
    by_cases same : node = identity.node_id
    swap
    · split at kept <;> simpa [same] using kept
    rw [same,queued]
    split at kept
    · simp [same] at kept
    · rw [same,Table.get_insert,if_pos rfl] at kept
      exact List.mem_cons_of_mem _ kept
  | stale | cancel | again => exact .inr (quiet_taken _)
  | next idle current calm free ran effect => exact Counted.trans (.inr (quiet_taken _)) effect.counted

theorem Event.counted (blake3 : List UInt8 → Checksum) (event : Event) (inv : Inv s) : Counted s (event.act blake3 s) := by
  cases event with
  | operation order op => exact apply_counted blake3 order inv op
  | poll env identity =>
    obtain ⟨reply,s',ran,polled⟩ := poll_polled blake3 env identity inv
    rw [Event.act,ran]
    exact polled.counted

/-! ### Polls that find nothing -/

/-- There is nothing for the worker to do. -/
structure Parked (s : CoordinatorState) (identity : WorkerIdentity) (now : Nat) : Prop where
  undeleting : (s.pending_deletes.get identity.node_id).getD [] = []
  current : Current s identity
  calm : ∀ id task a, ¬ Stops s identity id task a
  unassigned : ∀ id task a, ¬ Unstarted s identity id task a
  unservable : ∀ worker, s.workers.get identity.node_id = some worker → worker.state = .Alive → worker.free_slots ≠ 0 →
    ∀ id ∈ s.runnable, ∀ task, s.tasks.get id = some task → ¬ Servable worker now task

/-- A poll finds nothing exactly when there is nothing for the worker to do. -/
theorem poll_none_iff (blake3 : List UInt8 → Checksum) (inv : Inv s) (env : Env) :
    (∃ s', CoordinatorServer.poll env identity s = .ok (.Assignment none) s') ↔ Parked s identity env.now_ms := by
  obtain ⟨reply,s',ran,polled⟩ := poll_polled blake3 env identity inv
  rw [ran]
  constructor
  · rintro ⟨_,same⟩
    obtain ⟨rfl,rfl⟩ := EStateM.Result.ok.inj same
    cases polled with
    | next idle current calm free ran effect =>
      refine ⟨idle,current,calm,free,fun worker found alive unused => ?_⟩
      have consistent := (inv.requeued (s.pending_deletes.remove identity.node_id)).consistent
      obtain ⟨assignment,_,ran',_,unservable,_⟩ := assign_next_ends blake3 consistent found env.now_ms env.lease
      obtain ⟨rfl,_⟩ := EStateM.Result.ok.inj (ran'.symm.trans ran)
      exact unservable rfl alive unused
  · intro parked
    cases polled with
    | delete queued =>
      have undeleting := parked.undeleting
      rw [queued] at undeleting
      cases undeleting
    | stale idle stale => exact absurd parked.current stale
    | cancel idle current stops => exact absurd stops (parked.calm _ _ _)
    | again idle current calm unstarted => exact absurd unstarted (parked.unassigned _ _ _)
    | next idle current calm free ran effect =>
      cases effect with
      | busy | searched => exact ⟨_,rfl⟩
      | assigned requeued found at_worker alive unused servable =>
        exact absurd servable (parked.unservable _ at_worker alive unused _ (requeued.mem List.mem_cons_self) _ found)

theorem Unmoved.worker (quiet : Unmoved s s') {node : NodeId} {worker : WorkerRecord} (found : s'.workers.get node = some worker) :
    ∃ before, s.workers.get node = some before ∧ unleased before = unleased worker := by
  have same := quiet.workers node
  rw [found] at same
  exact Option.map_eq_some_iff.mp same.symm

theorem Unmoved.task (quiet : Unmoved s s') {id : TaskId} {task : TaskRecord} (found : s'.tasks.get id = some task) :
    ∃ before, s.tasks.get id = some before ∧ unstamped before = unstamped task := by
  have same := quiet.tasks id
  rw [found] at same
  exact Option.map_eq_some_iff.mp same.symm

theorem Unmoved.parked (quiet : Unmoved s s') (parked : Parked s identity now) : Parked s' identity now where
  undeleting := by
    refine List.eq_nil_iff_forall_not_mem.mpr fun id queued => ?_
    have before := quiet.deletes _ id queued
    rw [parked.undeleting] at before
    cases before
  current := by
    obtain ⟨epoch,worker,found,alive,sameEpoch,sameSession⟩ := parked.current
    have same := quiet.workers identity.node_id
    rw [found] at same
    obtain ⟨worker',found',seen⟩ := Option.map_eq_some_iff.mp same
    refine ⟨epoch.trans quiet.epoch.symm,worker',found',?_,?_,?_⟩
    · rw [show worker'.state = worker.state from congrArg (·.state) seen]
      exact alive
    · rw [show worker'.identity = worker.identity from congrArg (·.identity) seen]
      exact sameEpoch
    · rw [show worker'.identity = worker.identity from congrArg (·.identity) seen]
      exact sameSession
  calm id task a stops := by
    obtain ⟨before,found,seen⟩ := quiet.task stops.found
    refine parked.calm id before a ⟨quiet.cancel_requested ▸ stops.requested,found,?_,stops.held⟩
    exact (congrArg (·.assigned) seen).trans stops.assigned
  unassigned id task a unstarted := by
    obtain ⟨before,found,seen⟩ := quiet.task unstarted.found
    exact parked.unassigned id before a ⟨found,(congrArg (·.state) seen).trans unstarted.state,
      (congrArg (·.assigned) seen).trans unstarted.assigned,unstarted.held⟩
  unservable worker at_worker alive free id queued task found servable := by
    obtain ⟨worker₀,at_worker₀,seenWorker⟩ := quiet.worker at_worker
    obtain ⟨before,found₀,seen⟩ := quiet.task found
    refine parked.unservable worker₀ at_worker₀ ((congrArg (·.state) seenWorker).trans alive) ?_ id
      (quiet.runnable id queued) before found₀ ⟨(congrArg (·.state) seen).trans servable.runnable,?_,?_⟩
    · rw [show worker₀.free_slots = worker.free_slots from congrArg (·.free_slots) seenWorker]
      exact free
    · rw [show before.not_before_ms = task.not_before_ms from congrArg (·.not_before_ms) seen]
      exact servable.due
    · rw [show worker₀.operations = worker.operations from congrArg (·.operations) seenWorker,
        show worker₀.available = worker.available from congrArg (·.available) seenWorker,
        show before.operation = task.operation from congrArg (·.operation) seen,
        show before.resources = task.resources from congrArg (·.resources) seen]
      exact servable.capable

/-! ### Reads of objects that are still to come -/

theorem resolve_pending_iff (id : ObjectId) (s : CoordinatorState) :
    (∃ k, resolve_object id s = .error (.Err (.ObjectPending k)) s) ↔
      ∃ object, s.objects.get id = some object ∧ object.state = .Reserved := by
  cases found : s.objects.get id with
  | none => simp [resolve_object,found]
  | some object =>
    cases state : object.state with
    | Available =>
      cases codec : object.codec <;> cases size : object.size_bytes <;> cases digest : object.checksum <;>
        cases place : object.location <;> simp [resolve_object,found,state,codec,size,digest,place]
    | _ => simp [resolve_object,found,state]

/-- What a read returns depends on the objects only. -/
theorem resolve_same (objects : s'.objects = s.objects) {id : ObjectId} {result : Except Error ObjectPayload}
    (ran : attempt (resolve_object id) s = .ok result t) : attempt (resolve_object id) s' = .ok result s' := by
  cases found : s.objects.get id with
  | none =>
    simp only [attempt,resolve_object,bind_apply,get_apply,objects,found,err_apply] at ran ⊢
    cases ran
    rfl
  | some object =>
    cases state : object.state with
    | Available =>
      cases codec : object.codec <;> cases size : object.size_bytes <;> cases digest : object.checksum <;>
        cases place : object.location <;>
        simp [attempt,resolve_object,found,objects,state,codec,size,digest,place] at ran ⊢
      exact ran.1
    | _ =>
      simp only [attempt,resolve_object,bind_apply,get_apply,objects,found,state,err_apply] at ran ⊢
      cases ran
      rfl

theorem batch_slots_same (bincode : Bincode) (objects : s'.objects = s.objects) {ids : List ObjectId} {used : Nat}
    {results : List (Except Error ObjectPayload)} (ran : CoordinatorServer.batch_slots bincode ids used s = .ok results t) :
    CoordinatorServer.batch_slots bincode ids used s' = .ok results s' := by
  induction ids generalizing used results t with
  | nil =>
    cases ran
    rfl
  | cons id rest ih =>
    obtain ⟨resolved,u,read,filled⟩ := bind_ok ran
    have same : u = s := by
      have quiet := (state_attempt (resolve_object id) s).trans (resolve_object_quiet id s)
      rwa [read] at quiet
    subst same
    rw [CoordinatorServer.batch_slots,bind_apply,resolve_same objects read]
    dsimp only
    split at filled
    · rename_i fits
      obtain ⟨_,_,others,done⟩ := bind_ok filled
      cases done
      rw [if_pos fits,bind_apply,ih others]
      rfl
    · rename_i full
      obtain ⟨_,_,others,done⟩ := bind_ok filled
      cases done
      rw [if_neg full,bind_apply,ih others]
      rfl

end CoordinatorState

/-! ### Requests -/

namespace CoordinatorServer
open CoordinatorState Command
open Relation (ReflTransGen)
variable {blake3 : List UInt8 → Checksum} {s s' : CoordinatorServer}

/-- What keeps the state in order and is counted, or makes nothing ready. -/
def Counts (s s' : CoordinatorServer) : Prop := Inv s.state → Counted s.state s'.state ∧ Inv s'.state

theorem counts_same (same : s'.state = s.state) : Counts s s' := by
  intro inv
  rw [same]
  exact ⟨.refl _,inv⟩

theorem counts_of (steps : ReflTransGen Counts s s') : Counts s s' := by
  intro inv
  induction steps with
  | refl => exact ⟨.refl _,inv⟩
  | tail _ step ih =>
    obtain ⟨counted,inv⟩ := step ih.2
    exact ⟨ih.1.trans counted,inv⟩

theorem apply_counts (blake3 : List UInt8 → Checksum) (order : HashOrder) (op : Op) (newTo : op.NewTo s.state) :
    Counts s { s with state := Outcome.state (CoordinatorState.apply blake3 order op s.state) } :=
  fun inv => ⟨apply_counted blake3 order inv op,apply_inv blake3 order inv newTo⟩

theorem Chores.counts {Q : ArenaStore.Op → Prop} (chores : Chores blake3 Q s s') : Counts s s' := by
  refine counts_of (ReflTransGen.mono (fun t t' chore => ?_) _ _ chores)
  cases chore with
  | arena order op asked => exact counts_same rfl
  | state operated =>
    obtain ⟨order,op,newTo,modest,calm⟩ := operated
    exact apply_counts blake3 order op newTo

theorem on_arena_counts {α : Type} (m : Store α) (s : CoordinatorServer) : Counts s (Outcome.state (on_arena m s)) := by
  refine counts_same ?_
  rw [on_arena,state_within]

theorem release_counts (id : ObjectId) (s : CoordinatorServer) : Counts s (Outcome.state (release id s)) := by
  refine counts_of (steps_bind (.single ?_) fun result t _ => ?_)
  · rw [state_attempt,on_state,state_within]
    have counts := apply_counts (s := s) (fun _ => .replicate 32 0) .by_id (.release_object id) trivial
    rwa [CoordinatorState.apply,state_bind fun _ _ => rfl] at counts
  · cases result with
    | ok _ => exact steps_bind (.single (on_arena_counts _ t)) fun _ _ _ => .refl
    | error error => exact .refl

theorem publish_counts (id : ObjectId) (reservation : RequestId) (info : Arena.Meta) (s : CoordinatorServer) :
    Counts s (Outcome.state (publish id reservation info s)) := by
  refine counts_of (steps_bind (.single ?_) fun stored t _ => ?_)
  · rw [state_attempt,on_state,state_within,state_bind fun id t => resolve_object_quiet id t]
    have counts := apply_counts (s := s) (fun _ => .replicate 32 0) .by_id
      (.put_meta id info.codec info.size info.checksum) trivial
    rwa [CoordinatorState.apply,state_bind fun _ _ => rfl] at counts
  · cases stored with
    | ok payload => exact .refl
    | error error =>
      refine steps_bind (.single ?_) fun _ _ _ => .refl
      rw [state_attempt]
      exact on_arena_counts _ t

theorem dispatch_client_counts (blake3 : List UInt8 → Checksum) (bincode : Bincode) {env : Env} {request : ClientRequest}
    (new : env.New 0 request.submits s.state) : Counts s (Outcome.state (dispatch_client blake3 bincode env request s)) := by
  by_cases commits : ∃ id reservation, request = .ArenaCommit id reservation
  · obtain ⟨id,reservation,rfl⟩ := commits
    refine counts_of (steps_bind (.single ?_) fun committed t _ => ?_)
    · rw [arena_commit,state_attempt]
      exact on_arena_counts _ s
    · cases committed with
      | ok info => exact .single (publish_counts id reservation info t)
      | error error => exact .refl
  by_cases releases : ∃ id, request = .Release id
  · obtain ⟨id,rfl⟩ := releases
    exact release_counts id s
  · intro inv
    refine Chores.counts (dispatch_client_chores bincode new inv ?_ ?_) inv
    · exact fun id reservation same => commits ⟨id,reservation,same⟩
    · exact fun id same => releases ⟨id,same⟩

theorem dispatch_worker_counts (blake3 : List UInt8 → Checksum) (env : Env) (request : WorkerRequest) :
    Counts s (Outcome.state (dispatch_worker blake3 env request s)) := by
  by_cases polls : ∃ identity, request = .Poll identity
  · obtain ⟨identity,rfl⟩ := polls
    intro inv
    rw [dispatch_worker,on_state,state_within]
    exact ⟨Event.counted blake3 (.poll env identity) inv,Event.inv blake3 (.poll env identity) trivial inv⟩
  · have unpolled : ∀ identity, request ≠ .Poll identity := fun identity same => polls ⟨identity,same⟩
    exact Chores.counts (dispatch_worker_chores env unpolled : Chores blake3 (fun _ => False) _ _)

end CoordinatorServer

namespace Endpoint
open CoordinatorState CoordinatorServer Command
variable {blake3 : List UInt8 → Checksum} {bincode : Bincode} {wire : Wire} {env : Env} {now : UInt64} {envelope : Envelope}
  {e e' : Endpoint} {env' : Env} {server server' : CoordinatorServer} {min_ready : UInt32}

/-- The ids that a request draws are new. -/
def Draws (env : Env) (s : CoordinatorState) : RpcRequest → Prop
  | .Client request => env.New 0 request.submits s
  | .Worker _ => True

theorem dispatch_counts (blake3 : List UInt8 → Checksum) (bincode : Bincode) {env : Env} {request : RpcRequest}
    (new : Draws env server.state request) : Counts server (Outcome.state (dispatch blake3 bincode env request server)) := by
  cases request with
  | Client request =>
    rw [dispatch,state_bind fun _ _ => rfl]
    exact dispatch_client_counts blake3 bincode new
  | Worker request =>
    rw [dispatch,state_bind fun _ _ => rfl]
    exact dispatch_worker_counts blake3 env request

/-- The command does not touch the server. -/
def Keeps {α : Type} (m : Command Error Endpoint α) : Prop := ∀ e, (Outcome.state (m e)).server = e.server

/-- The command handles the request or does not touch the server. -/
def Fronts {α : Type} (blake3 : List UInt8 → Checksum) (bincode : Bincode) (env : Env) (body : RpcRequest)
    (m : Command Error Endpoint α) : Prop :=
  ∀ e, (Outcome.state (m e)).server = e.server ∨
    (Outcome.state (m e)).server = Outcome.state (dispatch blake3 bincode env body e.server)

section
variable {α β : Type} {body : RpcRequest} {m : Command Error Endpoint α}

theorem Fronts.after {f : α → Command Error Endpoint β} (keeps : Keeps m)
    (fronts : ∀ a, Fronts blake3 bincode env body (f a)) : Fronts blake3 bincode env body (m >>= f) := by
  intro e
  have same := keeps e
  rw [bind_apply]
  cases ran : m e with
  | ok a e' =>
    rw [ran] at same
    simpa only [show e'.server = e.server from same] using fronts a e'
  | error fault e' =>
    rw [ran] at same
    exact .inl same

theorem Fronts.before {f : α → Command Error Endpoint β}
    (fronts : Fronts blake3 bincode env body m) (keeps : ∀ a, Keeps (f a)) : Fronts blake3 bincode env body (m >>= f) := by
  intro e
  have first := fronts e
  rw [bind_apply]
  cases ran : m e with
  | ok a e' =>
    rw [ran] at first
    dsimp only
    rw [keeps a e']
    exact first
  | error fault e' =>
    rw [ran] at first
    exact first

theorem Fronts.guarded {c : Prop} [Decidable c] {n : Command Error Endpoint β} (keeps : Keeps m)
    (fronts : Fronts blake3 bincode env body n) : Fronts blake3 bincode env body (if c then m >>= fun _ => n else n) := by
  split
  · exact .after keeps fun _ => fronts
  · exact fronts

theorem keeps_on_replay (m : Replay α) : Keeps (on_replay m) := by
  intro e
  rw [on_replay,state_within]

theorem keeps_validate_epoch (envelope : Envelope) : Keeps (validate_epoch envelope) := by
  intro e
  rw [validate_epoch]
  cases envelope.coordinator_epoch with
  | none => rfl
  | some epoch =>
    by_cases same : epoch = e.server.epoch
    · simp only [bind_apply,get_apply,ensure_of same,pure_apply,Outcome.state_ok]
    · simp only [bind_apply,get_apply,ensure_not same,err_apply,Outcome.state_error]

theorem fronts_dispatch : Fronts blake3 bincode env body (on_server (dispatch blake3 bincode env body)) := by
  intro e
  rw [on_server,state_within]
  exact .inr rfl

theorem fronts_dispatch_cached (hash : Checksum) :
    Fronts blake3 bincode env envelope.body (dispatch_cached blake3 bincode wire env now envelope hash) := by
  rw [dispatch_cached]
  refine .after (fun _ => rfl) fun _ => .guarded (keeps_on_replay _) (.after (fun _ => rfl) fun self => ?_)
  split
  · exact fun _ => .inl rfl
  · refine .before fronts_dispatch fun reply e => ?_
    rw [state_bind fun _ _ => rfl]
    exact keeps_on_replay _ e

/-- What becomes of the server is at most that the request is handled. -/
theorem fronts_dispatch_once :
    Fronts blake3 bincode env envelope.body (dispatch_once blake3 bincode wire env now envelope) := by
  rw [dispatch_once]
  refine .guarded (keeps_validate_epoch envelope) ?_
  split
  · exact fronts_dispatch
  refine .after (fun _ => rfl) fun self => ?_
  split
  · split
    · exact .after (keeps_on_replay _) fun _ => fronts_dispatch_cached _
    · split <;> exact fun _ => .inl rfl
  · exact fronts_dispatch_cached _

end

theorem dispatch_once_counts (new : Draws env e.server.state envelope.body) :
    Counts e.server (Outcome.state (dispatch_once blake3 bincode wire env now envelope e)).server := by
  have fronts : Fronts blake3 bincode env envelope.body (dispatch_once blake3 bincode wire env now envelope) :=
    fronts_dispatch_once
  rcases fronts e with same | handled
  · exact counts_same (by rw [same])
  · rw [handled]
    exact dispatch_counts blake3 bincode new

/-! ### Nobody is left waiting -/

/-- The request is parked: as things are, its reply is not ready. -/
def Unready (blake3 : List UInt8 → Checksum) (bincode : Bincode) (wire : Wire) (env : Env) (now : UInt64) (waiting : Envelope)
    (ready : RpcReply → Bool) (e : Endpoint) : Prop :=
  ∃ reply e', dispatch_once blake3 bincode wire env now waiting e = .ok reply e' ∧ ready reply = false

/-- A request that can be parked goes to the server as it is. -/
theorem dispatch_once_parked {ready : RpcReply → Bool} (parks : parked_until min_ready envelope.body = some ready) :
    dispatch_once blake3 bincode wire env now envelope = on_server (dispatch blake3 bincode env envelope.body) := by
  have plain : is_mutation envelope.body = false ∧ should_cache envelope.body = false := by
    revert parks
    fun_cases parked_until min_ready envelope.body <;> simp [is_mutation,should_cache]
  simp only [dispatch_once,plain,Bool.false_eq_true,if_false,if_true]

theorem unready_iff {ready : RpcReply → Bool} (parks : parked_until min_ready envelope.body = some ready) :
    Unready blake3 bincode wire env now envelope ready e ↔
      ∃ reply server, dispatch blake3 bincode env envelope.body e.server = .ok reply server ∧ ready reply = false := by
  rw [Unready,dispatch_once_parked parks]
  constructor
  · rintro ⟨reply,e',ran,unready⟩
    obtain ⟨server,ran,_⟩ := within_ok ran
    exact ⟨reply,server,ran,unready⟩
  · rintro ⟨reply,server,ran,unready⟩
    refine ⟨reply,{ e with server },?_,unready⟩
    rw [on_server,within,ran]

theorem poll_unready (quiet : Unmoved server.state server'.state) (inv : Inv server.state) (inv' : Inv server'.state)
    (clock : env'.now_ms = env.now_ms) {identity : WorkerIdentity}
    (unready : ∃ reply t, dispatch blake3 bincode env (.Worker (.Poll identity)) server = .ok reply t ∧
      worker_poll_ready reply = false) :
    ∃ reply t, dispatch blake3 bincode env' (.Worker (.Poll identity)) server' = .ok reply t ∧
      worker_poll_ready reply = false := by
  obtain ⟨reply,t,ran,unready⟩ := unready
  obtain ⟨told,_,polled,done⟩ := bind_ok ran
  obtain ⟨rfl,_⟩ := EStateM.Result.ok.inj done
  obtain rfl : told = .Assignment none := by
    cases told with
    | Assignment assignment => cases assignment with
      | none => rfl
      | some _ => cases unready
    | _ => cases unready
  rw [dispatch_worker] at polled
  obtain ⟨state,polled,_⟩ := within_ok polled
  have parked := quiet.parked ((poll_none_iff blake3 inv env).mp ⟨state,polled⟩)
  rw [← clock] at parked
  obtain ⟨state',polled'⟩ := (poll_none_iff blake3 inv' env').mpr parked
  have answered : dispatch_worker blake3 env' (.Poll identity) server' =
    .ok (.Assignment none) { server' with state := state' } := on_state_of polled'
  refine ⟨.Worker (.Assignment none),{ server' with state := state' },?_,rfl⟩
  simp only [dispatch,bind_apply,answered,pure_apply]

theorem get_object_pending_iff (id : ObjectId) (server : CoordinatorServer) :
    (∃ k t, get_object id server = .ok (.Error (.ObjectPending k)) t) ↔
      ∃ k, resolve_object id server.state = .error (.Err (.ObjectPending k)) server.state := by
  have quiet := resolve_object_quiet id server.state
  cases ran : resolve_object id server.state with
  | ok payload state => simp [get_object,attempt,on_state,within,ran]
  | error fault state =>
    rw [ran] at quiet
    obtain rfl : state = server.state := quiet
    cases fault <;> simp [get_object,attempt,on_state,within,ran]

theorem get_unready (quiet : Unmoved server.state server'.state) {id : ObjectId}
    (unready : ∃ reply t, dispatch blake3 bincode env (.Client (.Get id)) server = .ok reply t ∧
      client_get_ready reply = false) :
    ∃ reply t, dispatch blake3 bincode env' (.Client (.Get id)) server' = .ok reply t ∧ client_get_ready reply = false := by
  obtain ⟨reply,t,ran,unready⟩ := unready
  obtain ⟨told,u,read,done⟩ := bind_ok ran
  obtain ⟨rfl,_⟩ := EStateM.Result.ok.inj done
  obtain ⟨k,rfl⟩ : ∃ k, told = .Error (.ObjectPending k) := by
    cases told with
    | Error error => cases error with
      | ObjectPending k => exact ⟨k,rfl⟩
      | _ => cases unready
    | _ => cases unready
  have pending := (resolve_pending_iff id _).mp ((get_object_pending_iff id server).mp ⟨k,u,read⟩)
  rw [← quiet.objects] at pending
  obtain ⟨k',t',read'⟩ := (get_object_pending_iff id server').mpr ((resolve_pending_iff id _).mpr pending)
  refine ⟨.Client (.Error (.ObjectPending k')),t',?_,rfl⟩
  simp only [dispatch,dispatch_client,bind_apply,read',pure_apply]

theorem get_batch_unready (quiet : Unmoved server.state server'.state) {objects : List ObjectId}
    (unready : ∃ reply t, dispatch blake3 bincode env (.Client (.GetBatch objects)) server = .ok reply t ∧
      client_get_batch_ready reply min_ready = false) :
    ∃ reply t, dispatch blake3 bincode env' (.Client (.GetBatch objects)) server' = .ok reply t ∧
      client_get_batch_ready reply min_ready = false := by
  obtain ⟨reply,t,ran,unready⟩ := unready
  obtain ⟨told,u,read,done⟩ := bind_ok ran
  obtain ⟨rfl,_⟩ := EStateM.Result.ok.inj done
  rw [dispatch_client,get_batch] at read
  split at read
  · cases read
    cases unready
  · rename_i fits
    obtain ⟨results,_,slots,done⟩ := bind_ok read
    obtain ⟨rfl,_⟩ := EStateM.Result.ok.inj done
    obtain ⟨state,slots,_⟩ := within_ok slots
    have slots' := batch_slots_same bincode quiet.objects slots
    refine ⟨.Client (.ObjectBatch results),server',?_,unready⟩
    simp only [dispatch,dispatch_client,get_batch,if_neg fits,bind_apply,on_state,within,slots',pure_apply]

/-- In every state that a coordinator comes to, an operation or a poll after which an object is no longer pending, or after
    which a poll at the same time is no longer told that there is no work, has counted a revision. So a request that wakes
    nobody leaves every parked request unready. -/
theorem wakes_waiters {epoch : CoordinatorEpoch} {past : List CoordinatorState.Event} {s : CoordinatorState}
    (served : Served blake3 epoch past s) :
    (∀ event : CoordinatorState.Event, event.New s →
      (∀ id, (∃ k, resolve_object id s = .error (.Err (.ObjectPending k)) s) →
        (¬ ∃ k, resolve_object id (event.act blake3 s) = .error (.Err (.ObjectPending k)) (event.act blake3 s)) →
        s.revision < (event.act blake3 s).revision) ∧
      ∀ identity env env', env'.now_ms = env.now_ms → (∃ t, CoordinatorServer.poll env identity s = .ok (.Assignment none) t) →
        (¬ ∃ t, CoordinatorServer.poll env' identity (event.act blake3 s) = .ok (.Assignment none) t) →
        s.revision < (event.act blake3 s).revision) ∧
    ∀ e : Endpoint, e.server.state = s → ∀ bincode wire env now envelope, Draws env s envelope.body →
      ∀ reply e', dispatch_and_notify blake3 bincode wire env now envelope e = .ok (reply,false) e' →
        ∀ waiting min_ready ready, parked_until min_ready waiting.body = some ready →
          ∀ env₁ env₂ now₁ now₂, env₂.now_ms = env₁.now_ms → Unready blake3 bincode wire env₁ now₁ waiting ready e →
            Unready blake3 bincode wire env₂ now₂ waiting ready e' := by
  refine ⟨fun event new => ⟨fun id pending settled => ?_,fun identity env env' clock parked woken => ?_⟩,?_⟩
  · rcases event.counted blake3 served.inv with counted | quiet
    · exact counted
    · rw [resolve_pending_iff] at pending settled
      rw [quiet.objects] at settled
      exact absurd pending settled
  · rcases event.counted blake3 served.inv with counted | quiet
    · exact counted
    · have parked := quiet.parked ((poll_none_iff blake3 served.inv env).mp parked)
      rw [← clock] at parked
      exact absurd ((poll_none_iff blake3 (event.inv blake3 new served.inv) env').mpr parked) woken
  · rintro e rfl bincode wire env now envelope new reply e' ran waiting min_ready ready parks env₁ env₂ now₁ now₂ clock unready
    obtain ⟨self,_,got,rest⟩ := bind_ok ran
    cases got
    obtain ⟨_,e₁,dispatched,done⟩ := bind_ok rest
    obtain ⟨_,_,got,done⟩ := bind_ok done
    cases got
    obtain ⟨same,rfl⟩ := EStateM.Result.ok.inj done
    have silent : e₁.server.state.revision = e.server.state.revision := by simpa using congrArg Prod.snd same
    have counts : Counts e.server (Outcome.state (dispatch_once blake3 bincode wire env now envelope e)).server :=
      dispatch_once_counts new
    rw [dispatched] at counts
    obtain ⟨counted,inv⟩ := counts served.inv
    have quiet : Unmoved e.server.state e₁.server.state := counted.resolve_left fun later => by
      rw [Outcome.state_ok,silent] at later
      exact lt_irrefl _ later
    rw [unready_iff parks] at unready ⊢
    revert parks unready
    cases waiting.body with
    | Worker request =>
      cases request with
      | Poll identity =>
        rintro ⟨⟩ unready
        exact poll_unready quiet served.inv inv clock unready
      | _ => nofun
    | Client request =>
      cases request with
      | Get id =>
        rintro ⟨⟩ unready
        exact get_unready quiet unready
      | GetBatch objects =>
        rintro ⟨⟩ unready
        exact get_batch_unready quiet unready
      | _ => nofun

/-- A worker is registered, and nothing else was done. -/
def enrolledState : CoordinatorState := offeredPast.tail.foldr (fun event s => event.act smallHash s) (.new smallEpoch)

def enrolled : Endpoint :=
  ⟨Host.smallCluster,{ CoordinatorServer.new smallEpoch "crayon-arena-0" 5000 false with state := enrolledState },.new⟩

/-- When a task is submitted, a poll is ready that was not, and the revision is counted; a heartbeat wakes nobody, and the
    poll remains parked. -/
theorem enrolled_waits :
    enrolledState.revision < offeredState.revision ∧
      ∃ reply e', dispatch_and_notify smallHash .fixint Host.submitWire (System.smallEnv 2) 0
          (Host.smallEnvelope 9 (.Worker (.Heartbeat smallWorker))) enrolled = .ok (reply,false) e' ∧
        Unready smallHash .fixint Host.submitWire (System.smallEnv 4) 0 (Host.smallEnvelope 9 (.Worker (.Poll smallWorker)))
          worker_poll_ready e' := by
  have served : Served smallHash smallEpoch offeredPast.tail enrolledState := .event .start (.operation .by_id _) trivial
  obtain ⟨events,requests⟩ := wakes_waiters served
  constructor
  · refine (events (.operation .by_id (.submit smallKey [] ⟨⟨[("cpu",⟨600⟩)],by decide⟩⟩ 2 smallTask smallOutput))
      ⟨by decide,by decide,by decide⟩).2 smallWorker (System.smallEnv 3) (System.smallEnv 4) rfl ?_ ?_
    · exact ⟨_,Outcome.eq_ok (by decide +kernel)⟩
    · rintro ⟨t,ran⟩
      have told : Outcome.value? (CoordinatorServer.poll (System.smallEnv 4) smallWorker offeredState) ≠
        some (.Assignment none) := by decide +kernel
      exact told (congrArg Outcome.value? ran)
  · have silent : (Outcome.value? (dispatch_and_notify smallHash .fixint Host.submitWire (System.smallEnv 2) 0
        (Host.smallEnvelope 9 (.Worker (.Heartbeat smallWorker))) enrolled)).map (·.2) = some false := by decide +kernel
    obtain ⟨⟨reply,_⟩,returned,rfl⟩ := Option.map_eq_some_iff.mp silent
    refine ⟨reply,_,Outcome.eq_ok returned,?_⟩
    refine requests enrolled rfl .fixint Host.submitWire (System.smallEnv 2) 0
      (Host.smallEnvelope 9 (.Worker (.Heartbeat smallWorker))) trivial reply _ (Outcome.eq_ok returned)
      (Host.smallEnvelope 9 (.Worker (.Poll smallWorker))) 0 worker_poll_ready rfl (System.smallEnv 3) _ 0 0 rfl ?_
    have unready : (Outcome.value? (dispatch_once smallHash .fixint Host.submitWire (System.smallEnv 3) 0
        (Host.smallEnvelope 9 (.Worker (.Poll smallWorker))) enrolled)).map worker_poll_ready = some false := by decide +kernel
    obtain ⟨reply',returned',parked⟩ := Option.map_eq_some_iff.mp unready
    exact ⟨reply',_,Outcome.eq_ok returned',parked⟩

end Endpoint
end Crayon
