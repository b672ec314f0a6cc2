import Crayon.Handling
import Crayon.Typing

/-!
Faults and fences of a worker process. When a request fails on the way, the process
makes it again or registers anew; and it registers anew when a poll is told that its
session is over. A report that is told so counts as known: the process goes on as if
it had been accepted. None of this ends it (`faults_reconnect`). Once it was
registered, the coordinator knows its operations and takes it back, as soon as it
holds no record of an earlier session. While it does, the registration is refused
and the process exits, and so it does when a poll was told of a cancellation and the
report of it fails (`faults_are_fatal`).
-/
namespace Crayon
namespace CoordinatorState
open Command
variable {blake3 : List UInt8 → Checksum} {s s' : CoordinatorState} {op : Op} {reply : Reply} {config : WorkerConfig}
  {require_loopback : Bool} {node : NodeId}

/-! ### Registrations -/

/-- The operations that are collected are those that are offered. -/
theorem collect_operations_holds {known table operations : Table OperationKey OperationDescriptor}
    {descriptors : List OperationDescriptor} (collected : collect_operations known descriptors table = .ok operations) :
    (∀ key descriptor, table.get key = some descriptor → operations.get key = some descriptor) ∧
      ∀ descriptor ∈ descriptors, operations.get descriptor.key = some descriptor := by
  induction descriptors generalizing table with
  | nil =>
    cases collected
    exact ⟨fun _ _ found => found,by simp⟩
  | cons first rest ih =>
    rw [collect_operations] at collected
    cases valid : first.validate with
    | error e =>
      rw [valid] at collected
      cases collected
    | ok _ =>
      simp only [valid,bind,Except.bind] at collected
      split at collected
      · cases collected
      rename_i agrees
      split at collected
      · cases collected
      obtain ⟨kept,offered⟩ := ih collected
      refine ⟨fun key descriptor found => kept key descriptor ?_,fun descriptor member => ?_⟩
      · rw [Table.get_insert]
        split
        · rename_i same
          subst same
          have unchanged : descriptor = first := by simpa [found] using agrees
          rw [unchanged]
        · exact found
      · rcases List.mem_cons.mp member with rfl | later
        · exact kept _ _ (by rw [Table.get_insert,if_pos rfl])
        · exact offered descriptor later

/-- What was collected once is collected again when it is known. -/
theorem collect_operations_again {known known' table operations : Table OperationKey OperationDescriptor}
    {descriptors : List OperationDescriptor} (collected : collect_operations known descriptors table = .ok operations)
    (there : ∀ descriptor ∈ descriptors, known'.get descriptor.key = some descriptor) :
    collect_operations known' descriptors table = .ok operations := by
  induction descriptors generalizing table with
  | nil => exact collected
  | cons first rest ih =>
    rw [collect_operations] at collected ⊢
    cases valid : first.validate with
    | error e =>
      rw [valid] at collected
      cases collected
    | ok _ =>
      simp only [valid,bind,Except.bind] at collected ⊢
      split at collected
      · cases collected
      rename_i agrees
      split at collected
      · cases collected
      have agrees' : ¬ (known'.get first.key).any (· ≠ first) = true := by simp [there first List.mem_cons_self]
      rw [if_neg agrees,if_neg agrees']
      exact ih collected fun descriptor member => there descriptor (List.mem_cons_of_mem _ member)

end CoordinatorState

/-- The record is one of this process. -/
structure WorkerConfig.Enlisted (config : WorkerConfig) (operations : Table OperationKey OperationDescriptor)
    (record : WorkerRecord) : Prop where
  address : record.advertise_addr = config.advertise
  total : record.total = config.resources
  slots : record.slots = 1
  operations : record.operations = operations

/-- A registration of the process is accepted, if there is no record of another session of it. -/
structure WorkerConfig.Welcome (config : WorkerConfig) (require_loopback : Bool) (s : CoordinatorState) : Prop where
  loopback : (if require_loopback then require_loopback_addr config.advertise else .ok ()) = .ok ()
  address : validate_advertise_addr config.advertise = .ok ()
  known : ∀ descriptor ∈ config.registry, s.operations.get descriptor.key = some descriptor
  offered : ∃ operations, CoordinatorState.collect_operations s.operations config.registry .empty = .ok operations ∧
    ∀ record, s.workers.get config.node_id = some record → config.Enlisted operations record

/-- If the operation is a registration for the node, it is one of the process. -/
def WorkerConfig.Own (config : WorkerConfig) (require_loopback : Bool) (op : CoordinatorState.Op) : Prop :=
  op.registers config.node_id → (if require_loopback then require_loopback_addr config.advertise else .ok ()) = .ok () ∧
    ∃ worker_epoch now lease_ms session_id,
      op = .register_worker (config.registration worker_epoch) now lease_ms session_id

namespace CoordinatorState
open Command WorkerConfig
variable {blake3 : List UInt8 → Checksum} {s s' : CoordinatorState} {op : Op} {reply : Reply} {config : WorkerConfig}
  {require_loopback : Bool} {node : NodeId}

theorem Enlisted.later (operations : Table OperationKey OperationDescriptor) (moves : Moves op s s') (inv : Consistent s)
    (brings : op.resources = none)
    (enlisted : ∀ record, s.workers.get config.node_id = some record → config.Enlisted operations record) :
    ∀ record, s'.workers.get config.node_id = some record → config.Enlisted operations record := by
  -- `Move.workers` is about all records, and those of the node are known by their identity.
  have all : ∀ node record, s'.workers.get node = some record →
      record.identity.node_id = config.node_id → config.Enlisted operations record := by
    refine moves.keeps (P := fun t => ∀ node record, t.workers.get node = some record →
      record.identity.node_id = config.node_id → config.Enlisted operations record) (fun t t' move before => ?_) ?_
    · refine move.workers before ?_ ?_ ?_ ?_ ?_
      · intro node worker enrolled
        have some := enrolled.resources
        rw [brings] at some
        cases some
      · exact fun _ _ held named => { held named with }
      · exact fun _ held named => { held named with }
      · exact fun _ _ _ held named => { held named with }
      · exact fun _ _ _ held named => { held named with }
    · intro node record found named
      rw [← inv.worker_ids node record found,named] at found
      exact enlisted record found
  intro record found
  exact all _ record found ((moves.consistent inv).worker_ids _ record found)

theorem Effect.welcome (effect : Effect blake3 op s reply s') (newTo : op.NewTo s) (inv : Consistent s)
    (other : ¬ op.registers config.node_id) (welcome : config.Welcome require_loopback s) :
    config.Welcome require_loopback s' := by
  have known : ∀ descriptor ∈ config.registry, s'.operations.get descriptor.key = some descriptor :=
    fun descriptor member => effect.operations_stay newTo (welcome.known descriptor member)
  obtain ⟨operations,collected,enlisted⟩ := welcome.offered
  refine ⟨welcome.loopback,welcome.address,known,operations,collect_operations_again collected known,?_⟩
  have moves := effect.moves newTo
  cases effect with
  | renewed recollected found same =>
    intro record there
    rw [Table.get_modify,if_neg fun same => other same.symm] at there
    exact enlisted record there
  | enrolled address recollected absent =>
    intro record there
    rw [Table.get_insert,if_neg fun same => other same.symm] at there
    exact enlisted record there
  | submitted => exact enlisted
  | _ => exact Enlisted.later operations moves inv rfl enlisted

theorem Effect.welcomed {worker_epoch : WorkerEpoch} {now lease_ms : Nat} {session_id : WorkerSessionId}
    (effect : Effect blake3 (.register_worker (config.registration worker_epoch) now lease_ms session_id) s reply s')
    (loopback : (if require_loopback then require_loopback_addr config.advertise else .ok ()) = .ok ())
    (before : (s.workers.get config.node_id).isSome = true → config.Welcome require_loopback s) :
    config.Welcome require_loopback s' := by
  cases effect with
  | @renewed _ _ _ _ _ _ existing collected found same =>
    have welcome := before (Option.isSome_iff_exists.mpr ⟨existing,found⟩)
    obtain ⟨operations,collected,enlisted⟩ := welcome.offered
    refine ⟨loopback,welcome.address,welcome.known,operations,collected,fun record there => ?_⟩
    have found' : s.workers.get config.node_id = some existing := found
    have there' : (s.workers.modify config.node_id fun existing =>
        { existing with lease_deadline_ms := saturating_add now lease_ms }).get config.node_id = some record := there
    rw [Table.get_modify,if_pos rfl,found'] at there'
    obtain rfl := Option.some.inj there'
    exact { enlisted existing found with }
  | @enrolled _ _ _ _ _ operations address collected absent =>
    have offered := (collect_operations_holds collected).2
    have known : ∀ descriptor ∈ config.registry,
        (s.operations.extend operations).get descriptor.key = some descriptor := by
      intro descriptor member
      rw [Table.get_extend,offered descriptor member]
      rfl
    refine ⟨loopback,address,known,operations,collect_operations_again collected known,fun record there => ?_⟩
    have there' : (s.workers.insert config.node_id _).get config.node_id = some record := there
    rw [Table.get_insert,if_pos rfl] at there'
    obtain rfl := Option.some.inj there'
    exact ⟨rfl,rfl,rfl,rfl⟩

theorem Effect.enlists {request : RegisterWorker} {now lease_ms : Nat} {session_id : WorkerSessionId}
    (effect : Effect blake3 (.register_worker request now lease_ms session_id) s reply s') :
    (s'.workers.get request.node_id).isSome = true := by
  cases effect with
  | renewed collected found same => simp [found]
  | enrolled address collected absent => simp

/-- Whoever has a record is welcome; and who is welcome stays so. -/
theorem Stir.welcome {Known : Prop} (stir : Stir blake3 (config.Own require_loopback) s s') (inv : Inv s)
    (welcome : (s.workers.get config.node_id).isSome = true ∨ Known → config.Welcome require_loopback s) :
    (s'.workers.get config.node_id).isSome = true ∨ Known → config.Welcome require_loopback s' := by
  intro known
  cases stir with
  | trim fewer =>
    obtain ⟨loopback,address,stays,offered⟩ := welcome known
    exact ⟨loopback,address,stays,offered⟩
  | @effect op reply _ own newTo effect =>
    by_cases registers : op.registers config.node_id
    · obtain ⟨loopback,worker_epoch,now,lease_ms,session_id,rfl⟩ := own registers
      exact effect.welcomed loopback fun there => welcome (.inl there)
    · refine effect.welcome newTo inv.consistent registers (welcome (known.imp_left fun there => ?_))
      by_contra absent
      rw [effect.absent newTo registers (Option.not_isSome_iff_eq_none.mp absent)] at there
      cases there

theorem register_worker_accepts {request : RegisterWorker} {operations : Table OperationKey OperationDescriptor}
    (now lease_ms : Nat) (session_id : WorkerSessionId) (alive : NoDead s)
    (address : validate_advertise_addr request.advertise_addr = .ok ()) (slots : request.slots ≠ 0)
    (collected : collect_operations s.operations request.operations .empty = .ok operations)
    (same : ∀ existing, s.workers.get request.node_id = some existing →
      existing.identity.worker_epoch = request.worker_epoch ∧ existing.advertise_addr = request.advertise_addr ∧
        existing.total = request.resources ∧ existing.slots = request.slots ∧ existing.operations = operations) :
    ∃ identity s', register_worker request now lease_ms session_id s = .ok identity s' := by
  cases found : s.workers.get request.node_id with
  | none =>
    simp only [register_worker,bind_apply,get_apply,address,lift_ok,ensure_of slots,collected,found,Option.filter_none,
      pure_apply,set_apply,changed,modify_apply]
    exact ⟨_,_,rfl⟩
  | some existing =>
    have active : (s.workers.get request.node_id).filter (·.state ≠ .Dead) = some existing := by
      simp [found,alive _ _ found]
    simp only [register_worker,bind_apply,get_apply,address,lift_ok,ensure_of slots,collected,active,
      ensure_of (same existing found),pure_apply,set_apply,changed,modify_apply]
    exact ⟨_,_,rfl⟩

end CoordinatorState

/-- Who is welcome is registered, if there is no record of another session. -/
theorem CoordinatorServer.register_accepts {server : CoordinatorServer} {config : WorkerConfig} (env : Env)
    {worker_epoch : WorkerEpoch} (inv : CoordinatorState.Inv server.state)
    (welcome : config.Welcome server.require_loopback server.state)
    (same : ∀ record, server.state.workers.get config.node_id = some record → record.identity.worker_epoch = worker_epoch) :
    ∃ identity revision server', register env (config.registration worker_epoch) server =
      .ok (.Registered identity revision server.lease_ms) server' := by
  obtain ⟨operations,collected,enlisted⟩ := welcome.offered
  have loopback : (if server.require_loopback then
      require_loopback_addr (config.registration worker_epoch).advertise_addr else .ok ()) = .ok () := welcome.loopback
  obtain ⟨identity,state,ran⟩ : ∃ identity state, CoordinatorState.register_worker (config.registration worker_epoch)
      env.now_ms server.lease_ms env.session server.state = .ok identity state := by
    refine CoordinatorState.register_worker_accepts _ _ _ inv.alive welcome.address ?_ collected fun record found => ?_
    · simp [WorkerConfig.registration]
    · have fits := enlisted record found
      exact ⟨same record found,fits.address,fits.total,fits.slots,fits.operations⟩
  exact ⟨identity,state.revision,{ server with state },by
    simp only [register,Command.bind_apply,Command.get_apply,loopback,Command.attempt,on_state,Command.within,ran,
      Command.pure_apply]⟩

/-! ### The process goes on -/

/-- Faults of the transport that pass. -/
def Error.transient : Error → Bool
  | .Io _ | .DeadlineExceeded => true
  | _ => false

/-- What a request comes to when its session may be over, or the transport had a fault. -/
def passing : Answer → Bool
  | .error error => error.transient || error.fencing
  | .ok (.Error error) => error.fencing
  | .ok _ => false

/-- The process was registered, and did not exit. -/
def WorkerLife.joined : WorkerLife → Bool
  | .active _ _ | .reconnecting => true
  | .registering _ | .drained | .fatal _ => false

def WorkerLife.ended : WorkerLife → Bool
  | .fatal _ => true
  | _ => false

namespace Worker
variable {w : Worker} {debug : WorkerReply → String} {display : Error → String} {blake3 : List UInt8 → Checksum}
  {identity : WorkerIdentity} {answer : Answer} {error : Error}

/-- The process makes the same request again, at once or when it is time to poll. -/
def Retries (w w' : Worker) : Prop := w'.request = w.request ∨ w'.ticks.request = w.request

/-- The session is over, and another one follows unless the process is to exit. -/
def Leaves (w w' : Worker) : Prop := w'.life = .reconnecting ∨ w.drain = true ∧ w'.life = .drained

theorem reconnect_leaves (w : Worker) : w.Leaves w.reconnect := by
  unfold Leaves reconnect
  cases w.drain <;> simp

theorem loop_goes_on (w : Worker) (identity : WorkerIdentity) : (w.loop identity).life.ended = false := by
  unfold loop
  cases w.drain <;> simp [WorkerLife.ended]

theorem Leaves.goes_on {w w' : Worker} (leaves : w.Leaves w') : w'.life.ended = false := by
  rcases leaves with reconnecting | ⟨_,drained⟩
  · rw [reconnecting]
    rfl
  · rw [drained]
    rfl

theorem session_end_leaves (passes : (error.transient || error.fencing) = true) : w.Leaves (w.session_end error) := by
  cases error with
  | Io | DeadlineExceeded | StaleEpoch | StaleFence => exact w.reconnect_leaves
  | _ => cases passes

/-- A report that is told of a fence counts as known to the coordinator. -/
theorem report_fenced (fenced : error.fencing = true) : report (.ok (.Error error)) = .ok () := by
  cases error with
  | StaleEpoch | StaleFence => rfl
  | _ => cases fenced

theorem loop_retries (polling : w.life = .active identity .polling) :
    w.Retries (w.loop identity) ∨ w.Leaves (w.loop identity) := by
  unfold loop
  cases drain : w.drain with
  | false => exact .inl (.inl (by simp [request,polling]))
  | true => exact .inr (.inr ⟨drain,rfl⟩)

theorem Retries.goes_on {w w' : Worker} (retries : w.Retries w') (waits : w.request.isSome = true) : w'.life.ended = false := by
  cases life : w'.life with
  | fatal error =>
    rcases retries with same | same
    · rw [← same,request,life] at waits
      cases waits
    · rw [← same,ticks,life,request,life] at waits
      cases waits
  | _ => rfl

/-- A request that fails on the way is made again, or the session ends to be followed by another one, unless it is the
    report that a poll's task is cancelled. -/
theorem hears_fault (waits : w.request.isSome = true) (passes : (error.transient || error.fencing) = true)
    (reported : ∀ identity fence, w.life ≠ .active identity (.cancelling fence)) :
    w.Retries (w.hears debug (.error error)) ∨ w.Leaves (w.hears debug (.error error)) := by
  have leaves : w.Leaves (w.session_end error) := session_end_leaves passes
  cases life : w.life with
  | registering worker_epoch => exact .inl (.inl (by simp only [hears,registered,request,life]))
  | active identity duty =>
    cases duty with
    | polling =>
      simp only [hears,life]
      cases error with
      | Io | DeadlineExceeded => exact loop_retries life
      | StaleEpoch | StaleFence => exact .inr w.reconnect_leaves
      | _ => cases passes
    | cancelling fence => exact absurd life (reported identity fence)
    | fetching assignment | executing assignment => simp [request,life] at waits
    | watching assignment =>
      simp only [hears,life]
      cases error with
      | Io | DeadlineExceeded => exact .inl (.inr (by simp only [polled_busy,ticks,goes,request,life]))
      | StaleEpoch | StaleFence => exact .inr leaves
      | _ => cases passes
    | starting assignment | stopping assignment | failing assignment message «class» | completing assignment object =>
      right
      simp only [hears,life]
      exact leaves
  | reconnecting | drained | fatal _ => simp [request,life] at waits

/-- A poll that is told of a fence ends the session to be followed by another one. A report that is told so is taken as
    accepted, and the process goes on. -/
theorem hears_fenced (fenced : error.fencing = true) (waits : w.request.isSome = true)
    (registered : ∀ worker_epoch, w.life ≠ .registering worker_epoch) :
    ((∃ identity, w.request = some (.Poll identity)) → w.Leaves (w.hears debug (.ok (.Error error)))) ∧
    ((∀ identity, w.request ≠ some (.Poll identity)) →
      (w.hears debug (.ok (.Error error))).life = (w.hears debug (.ok .Accepted)).life ∧
      (w.hears debug (.ok (.Error error))).life.ended = false) := by
  have known := report_fenced fenced
  cases life : w.life with
  | registering worker_epoch => exact absurd life (registered worker_epoch)
  | active identity duty =>
    cases duty with
    | polling =>
      refine ⟨fun _ => ?_,fun report => absurd (by rw [request,life]) (report identity)⟩
      simp only [hears,life]
      cases error with
      | StaleEpoch | StaleFence => exact w.reconnect_leaves
      | _ => cases fenced
    | watching assignment =>
      refine ⟨fun _ => ?_,fun report => absurd (by rw [request,life]) (report identity)⟩
      simp only [hears,life]
      exact session_end_leaves (by rw [fenced,Bool.or_true])
    | fetching assignment | executing assignment => simp [request,life] at waits
    | starting assignment =>
      refine ⟨fun poll => by simp [request,life] at poll,fun _ => ?_⟩
      simp only [hears,life,known]
      exact ⟨rfl,rfl⟩
    | cancelling fence | stopping assignment | failing assignment message «class» =>
      refine ⟨fun poll => by simp [request,life] at poll,fun _ => ?_⟩
      simp only [hears,life,known]
      exact ⟨rfl,loop_goes_on w identity⟩
    | completing assignment object =>
      refine ⟨fun poll => by simp [request,life] at poll,fun _ => ?_⟩
      simp only [hears,life]
      cases error with
      | StaleEpoch | StaleFence => exact ⟨rfl,loop_goes_on { w with objects := w.objects.delete assignment.output_id } identity⟩
      | _ => cases fenced
  | reconnecting | drained | fatal _ => simp [request,life] at waits

/-! ### What the process keeps -/

theorem session_end_config (w : Worker) (error : Error) : (w.session_end error).config = w.config := by
  unfold session_end
  split <;> rfl

theorem finish_config (w : Worker) (identity : WorkerIdentity) (result : Except Error Unit) :
    (w.finish identity result).config = w.config := by
  cases result with
  | ok => rfl
  | error error => exact session_end_config w error

theorem polled_busy_config (w : Worker) (identity : WorkerIdentity) (assignment : TaskAssignment) (answer : Answer) :
    (w.polled_busy identity assignment answer).config = w.config := by
  unfold polled_busy
  split
  · split
    · rfl
    · exact session_end_config w _
  · rfl
  · exact session_end_config w _
  · rfl
  · exact session_end_config w _
  · rfl
  · rfl
  · exact session_end_config w _

theorem completed_config (w : Worker) (identity : WorkerIdentity) (assignment : TaskAssignment) (answer : Answer) :
    (w.completed identity assignment answer).config = w.config := by
  unfold completed
  split
  · exact session_end_config w _
  · rfl
  · exact finish_config _ identity _

theorem hears_config (w : Worker) (answer : Answer) : (w.hears debug answer).config = w.config := by
  unfold hears
  split
  · unfold registered
    split <;> rfl
  · split
    · unfold polled
      split <;> rfl
    · split <;> rfl
    · split
      · rfl
      · exact session_end_config w _
    · rfl
    · rfl
    · exact polled_busy_config w _ _ _
    · exact finish_config w _ _
    · exact finish_config w _ _
    · exact completed_config w _ _ _
  · rfl
  · rfl
  · rfl

/-- A process that was not registered before is registered by the reply that says so. -/
theorem hears_joined (joined : (w.hears debug answer).life.joined = true) : w.life.joined = true ∨
    ∃ identity revision lease_ms, answer = .ok (.Registered identity revision lease_ms) := by
  cases life : w.life with
  | registering worker_epoch =>
    right
    simp only [hears,life] at joined
    cases answer with
    | error error => cases joined
    | ok told =>
      cases told with
      | Registered identity revision lease_ms => exact ⟨_,_,_,rfl⟩
      | _ => cases joined
  | active | reconnecting => exact .inl rfl
  | drained | fatal =>
    simp only [hears,life] at joined
    cases joined

/-- What the process does on its own, without an answer. -/
inductive Acts (display : Error → String) (blake3 : List UInt8 → Checksum) (w : Worker) : Worker → Prop where
  | fetch (result : Except Error Unit) : Acts display blake3 w (w.fetched display result)
  | tick : Acts display blake3 w w.ticks
  | execute (result : Except (Error × FailureClass) Buffer) : Acts display blake3 w (w.executed display blake3 result)
  | wake (worker_epoch : WorkerEpoch) : Acts display blake3 w (w.wakes worker_epoch)

/-- While it waits for a request it does nothing. -/
theorem Acts.waits {w' : Worker} (acts : Acts display blake3 w w') (waits : w.request.isSome = true) : w' = w := by
  cases acts with
  | fetch result =>
    unfold fetched
    split
    · rename_i identity assignment life
      simp [request,life] at waits
    · rfl
  | tick =>
    unfold ticks
    split
    · rename_i identity assignment life
      simp [request,life] at waits
    · rfl
  | execute result =>
    unfold executed
    split
    · rename_i identity assignment life
      simp [request,life] at waits
    · rfl
  | wake worker_epoch =>
    unfold wakes
    split
    · rename_i life
      simp [request,life] at waits
    · rfl

theorem Acts.config {w' : Worker} (acts : Acts display blake3 w w') : w'.config = w.config := by
  cases acts with
  | fetch result =>
    unfold fetched
    split
    · cases result <;> rfl
    · rfl
  | tick =>
    unfold ticks
    split <;> rfl
  | execute result =>
    unfold executed
    split
    · split
      · split
        · exact session_end_config w _
        · split
          · rfl
          · exact session_end_config w _
      · rfl
    · rfl
  | wake worker_epoch =>
    unfold wakes
    split <;> rfl

theorem Acts.joined {w' : Worker} (acts : Acts display blake3 w w') (joined : w'.life.joined = true) :
    w.life.joined = true := by
  cases life : w.life with
  | active | reconnecting => rfl
  | registering worker_epoch =>
    rw [acts.waits (by simp [request,life]),life] at joined
    exact joined
  | drained | fatal =>
    have same : w' = w := by
      cases acts with
      | fetch result => simp only [fetched,life]
      | tick => simp only [ticks,life]
      | execute result => simp only [executed,life]
      | wake worker_epoch => simp only [wakes,life]
    rw [same,life] at joined
    exact joined

end Worker

/-! ### Runs -/

namespace Party
open CoordinatorState CoordinatorServer Command
variable {blake3 : List UInt8 → Checksum} {debug : WorkerReply → String} {display : Error → String} {party first : Party}
  {Rule : Party → Happening → Prop} {request : WorkerRequest} {state : CoordinatorState} {env : Env}
variable {told : WorkerReply} {answer : Answer} {happening : Happening}

/-- The process was registered, or is about to learn so. -/
def Known (party : Party) : Prop := party.worker.life.joined = true ∨
  ∃ identity revision lease_ms, party.answer = some (.ok (.Registered identity revision lease_ms))

/-- What holds along runs. -/
structure Sound (party : Party) : Prop where
  inv : Inv party.server.state
  registrations : ∀ register, .Register register ∈ party.sent →
    ∃ worker_epoch, register = party.worker.config.registration worker_epoch
  welcome : (party.server.state.workers.get party.worker.config.node_id).isSome = true ∨ party.Known →
    party.worker.config.Welcome party.server.require_loopback party.server.state
  replied : ∀ answer, party.answer = some answer → ∃ told, answer = .ok told ∧
    ((∃ worker_epoch, party.worker.life = .registering worker_epoch) → ∀ error, told = .Error error → error.fencing = false)
  idle : party.worker.request = none → party.answer = none

theorem start_sound (epoch : CoordinatorEpoch) (token : String) (lease_ms : Nat) (require_loopback : Bool)
    (config : WorkerConfig) (worker_epoch : WorkerEpoch) :
    Sound (start epoch token lease_ms require_loopback config worker_epoch) where
  inv := new_inv epoch
  registrations register member := by cases member
  welcome known := by
    rcases known with there | joined | ⟨_,_,_,answered⟩
    · cases there
    · cases joined
    · cases answered
  replied answer there := by cases there
  idle _ := rfl

/-- What the process may have asked for is its own. -/
theorem Sound.own (sound : Sound party)
    (made : request ∈ party.sent ∨ party.worker.request = some request) {register : RegisterWorker}
    (registers : request = .Register register) : ∃ worker_epoch, register = party.worker.config.registration worker_epoch := by
  subst registers
  rcases made with member | waits
  · exact sound.registrations register member
  · cases life : party.worker.life with
    | registering worker_epoch =>
      refine ⟨worker_epoch,?_⟩
      simpa [Worker.request,life] using waits.symm
    | active identity duty => cases duty <;> simp [Worker.request,life] at waits
    | _ => simp [Worker.request,life] at waits

theorem Sound.stirs (sound : Sound party)
    (stirs : Stirs blake3 (party.worker.config.Own party.server.require_loopback) party.server.state state) :
    Sound { party with server := { party.server with state } } where
  inv := stirs.inv sound.inv
  registrations := sound.registrations
  welcome := stirs.keeps (P := fun t => (t.workers.get party.worker.config.node_id).isSome = true ∨ party.Known →
    party.worker.config.Welcome party.server.require_loopback t) sound.inv (fun _ _ inv stir => stir.welcome inv) sound.welcome
  replied := sound.replied
  idle := sound.idle

theorem Sound.handles (sound : Sound party) (made : request ∈ party.sent ∨ party.worker.request = some request)
    (handled : Handled blake3 env party.server request told state) :
    Stirs blake3 (party.worker.config.Own party.server.require_loopback) party.server.state state := by
  refine handled.stirs ?_ ?_ fun _ _ _ => False.elim
  · intro register registers loopback _
    obtain ⟨worker_epoch,rfl⟩ := sound.own made registers
    exact ⟨loopback,_,_,_,_,rfl⟩
  · intro op asks registers
    cases request <;> cases asks <;> cases registers

theorem Sound.event (sound : Sound party) {event : CoordinatorState.Event} (new : event.New party.server.state)
    (foreign : Happening.Foreign party event) :
    Stirs blake3 (party.worker.config.Own party.server.require_loopback) party.server.state
      (event.act blake3 party.server.state) := by
  refine event.stirs new sound.inv ?_ fun _ _ _ => False.elim
  rintro order op rfl registers
  cases op with
  | register_worker request => exact absurd registers foreign
  | _ => cases registers

/-- The process hears an answer that was on its way, or of a fault. -/
theorem Sound.hears (sound : Sound party) {sent : List WorkerRequest}
    (registered : ∀ identity revision lease_ms, answer = .ok (.Registered identity revision lease_ms) → party.answer = some answer)
    (made : ∀ request ∈ sent, request ∈ party.sent ∨ party.worker.request = some request) :
    Sound { party with worker := party.worker.hears debug answer, answer := none, sent } where
  inv := sound.inv
  registrations register member := by
    rw [Worker.hears_config]
    exact sound.own (made _ member) rfl
  welcome known := by
    rw [Worker.hears_config] at known ⊢
    refine sound.welcome (known.imp_right fun known => ?_)
    rcases known with joined | ⟨_,_,_,answered⟩
    · rcases Worker.hears_joined joined with before | ⟨identity,revision,lease_ms,rfl⟩
      · exact .inl before
      · exact .inr ⟨identity,revision,lease_ms,registered _ _ _ rfl⟩
    · cases answered
  replied answer there := by cases there
  idle _ := rfl

theorem Sound.acts (sound : Sound party) {worker : Worker} (acts : Worker.Acts display blake3 party.worker worker) :
    Sound { party with worker } := by
  cases waits : party.worker.request with
  | some request =>
    obtain rfl := acts.waits (by simp [waits])
    exact sound
  | none =>
    have idle := sound.idle waits
    refine ⟨sound.inv,?_,fun known => ?_,?_,fun _ => idle⟩
    · dsimp only
      rw [acts.config]
      exact sound.registrations
    · dsimp only at known ⊢
      rw [acts.config] at known ⊢
      refine sound.welcome (known.imp_right fun known => ?_)
      rcases known with joined | answered
      · exact .inl (acts.joined joined)
      · exact .inr answered
    · intro answer there
      rw [idle] at there
      cases there

theorem Sound.serves (sound : Sound party) (waits : party.worker.request = some request)
    (handled : Handled blake3 env party.server request told state) :
    Sound { party with
      server := { party.server with state }
      answer := some (.ok told)
      sent := request :: party.sent } := by
  have after := sound.stirs (sound.handles (.inr waits) handled)
  refine ⟨after.inv,?_,fun known => ?_,?_,fun idle => ?_⟩
  · intro register member
    rcases List.mem_cons.mp member with rfl | before
    · exact sound.own (.inr waits) rfl
    · exact sound.registrations register before
  · rcases known with there | joined | ⟨identity,revision,lease_ms,answered⟩
    · exact after.welcome (.inl there)
    · exact after.welcome (.inr (.inl joined))
    · obtain rfl : told = .Registered identity revision lease_ms := by simpa using answered
      cases handled with
      | registered revision loopback effect =>
        obtain ⟨worker_epoch,rfl⟩ := sound.own (.inr waits) rfl
        exact after.welcome (.inl effect.enlists)
      | polled polled => cases polled
  · rintro _ ⟨⟩
    refine ⟨told,rfl,?_⟩
    rintro ⟨worker_epoch,life⟩ error rfl
    have registering : party.worker.life = .registering worker_epoch := life
    obtain rfl : .Register (party.worker.config.registration worker_epoch) = request := by
      simpa [Worker.request,registering] using waits
    cases handled with
    | refused plain => exact plain
    | rejected asks => cases asks
  · exact absurd (waits.symm.trans idle) nofun

/-- What a happening does to a party: to the coordinator, to the process or to both. -/
inductive Acted (blake3 : List UInt8 → Checksum) (debug : WorkerReply → String) (display : Error → String) (party : Party) :
    Happening → Party → Prop where
  | idle (happening : Happening) : Acted blake3 debug display party happening party
  | event (event : CoordinatorState.Event) : Acted blake3 debug display party (.event event)
      { party with server := { party.server with state := event.act blake3 party.server.state } }
  | serves {env : Env} {request : WorkerRequest} {told : WorkerReply} {state : CoordinatorState}
      (waits : party.worker.request = some request) (unanswered : party.answer = none)
      (ran : dispatch_worker blake3 env request party.server = .ok told { party.server with state })
      (handled : Handled blake3 env party.server request told state) :
      Acted blake3 debug display party (.serve env) { party with
        server := { party.server with state }
        answer := some (.ok told)
        sent := request :: party.sent }
  | hears {answer : Answer} (answered : party.answer = some answer) : Acted blake3 debug display party .hear
      { party with worker := party.worker.hears debug answer, answer := none }
  | fault (error : Error) {request : WorkerRequest} (waits : party.worker.request = some request) :
      Acted blake3 debug display party (.fault error)
        { party with worker := party.worker.hears debug (.error error), answer := none, sent := request :: party.sent }
  | handles {env : Env} {request : WorkerRequest} {told : WorkerReply} {state : CoordinatorState}
      (handled : Handled blake3 env party.server request told state) :
      Acted blake3 debug display party (.handle env request) { party with server := { party.server with state } }
  | alone (happening : Happening) {worker : Worker} (acts : Worker.Acts display blake3 party.worker worker) :
      Acted blake3 debug display party happening { party with worker }
  | signal : Acted blake3 debug display party .signal { party with worker := { party.worker with drain := true } }

theorem acted (inv : Inv party.server.state) (happening : Happening) :
    Acted blake3 debug display party happening (party.act blake3 debug display happening) := by
  cases happening with
  | event event => exact .event event
  | serve env =>
    rw [act]
    split
    · rename_i request waits unanswered
      obtain ⟨told,state,ran,handled⟩ := dispatch_worker_handled blake3 env request inv
      rw [ran]
      exact .serves waits unanswered ran handled
    · exact .idle _
  | hear =>
    rw [act]
    split
    · rename_i answer answered
      exact .hears answered
    · exact .idle _
  | fault error =>
    rw [act]
    split
    · rename_i request waits
      exact .fault error waits
    · exact .idle _
  | handle env request =>
    obtain ⟨told,state,ran,handled⟩ := dispatch_worker_handled blake3 env request inv
    rw [act,ran]
    exact .handles handled
  | fetch result => exact .alone _ (.fetch result)
  | tick => exact .alone _ .tick
  | execute result => exact .alone _ (.execute result)
  | wake worker_epoch => exact .alone _ (.wake worker_epoch)
  | signal => exact .signal

theorem Acted.sound {next : Party} (acted : Acted blake3 debug display party happening next) (sound : Sound party)
    (possible : happening.Possible party) : Sound next := by
  cases acted with
  | idle => exact sound
  | event event => exact sound.stirs (sound.event possible.1 possible.2)
  | serves waits _ _ handled => exact sound.serves waits handled
  | hears answered => exact sound.hears (fun _ _ _ _ => answered) fun _ member => .inl member
  | fault error waits =>
    refine sound.hears (fun _ _ _ registered => by cases registered) fun other member => ?_
    rcases List.mem_cons.mp member with rfl | before
    · exact .inr waits
    · exact .inl before
  | handles handled => exact sound.stirs (sound.handles possible handled)
  | alone _ acts => exact sound.acts acts
  | signal => exact ⟨sound.inv,sound.registrations,sound.welcome,sound.replied,sound.idle⟩

theorem Run.sound (run : Run blake3 debug display Rule first party) (sound : Sound first) : Sound party := by
  induction run with
  | start => exact sound
  | step _ happening possible _ ih => exact (acted ih.inv happening).sound ih possible

/-! ### Sessions that follow -/

/-- No report fails that a poll's task is cancelled, and the coordinator answers a registration when it has no record of
    another session of the process. -/
def Orderly (party : Party) : Happening → Prop
  | .fault _ => ∀ identity fence, party.worker.life ≠ .active identity (.cancelling fence)
  | .serve _ => ∀ worker_epoch, party.worker.life = .registering worker_epoch →
    ∀ record, party.server.state.workers.get party.worker.config.node_id = some record →
      record.identity.worker_epoch = worker_epoch
  | _ => True

/-- The process was registered before, and is told so when it registers again. -/
structure Rejoins (party : Party) : Prop where
  welcome : party.worker.config.Welcome party.server.require_loopback party.server.state
  accepted : ∀ worker_epoch, party.worker.life = .registering worker_epoch → ∀ answer, party.answer = some answer →
    ∃ identity revision lease_ms, answer = .ok (.Registered identity revision lease_ms)

theorem Rejoins.stirs (rejoins : Rejoins party) (sound : Sound party)
    (stirs : Stirs blake3 (party.worker.config.Own party.server.require_loopback) party.server.state state) :
    party.worker.config.Welcome party.server.require_loopback state := by
  have kept := stirs.keeps (P := fun t => (t.workers.get party.worker.config.node_id).isSome = true ∨ True →
    party.worker.config.Welcome party.server.require_loopback t) sound.inv (fun _ _ inv stir => stir.welcome inv)
    fun _ => rejoins.welcome
  exact kept (.inr trivial)

theorem Rejoins.hears (rejoins : Rejoins party) (answer : Answer) (sent : List WorkerRequest) :
    Rejoins { party with worker := party.worker.hears debug answer, answer := none, sent } where
  welcome := by
    rw [Worker.hears_config]
    exact rejoins.welcome
  accepted _ _ _ there := by cases there

theorem Rejoins.acts (rejoins : Rejoins party) (sound : Sound party) {worker : Worker}
    (acts : Worker.Acts display blake3 party.worker worker) : Rejoins { party with worker } := by
  cases waits : party.worker.request with
  | some request =>
    obtain rfl := acts.waits (by simp [waits])
    exact rejoins
  | none =>
    refine ⟨?_,fun _ _ answer there => ?_⟩
    · dsimp only
      rw [acts.config]
      exact rejoins.welcome
    · rw [sound.idle waits] at there
      cases there

theorem Rejoins.serves (rejoins : Rejoins party) (sound : Sound party) (waits : party.worker.request = some request)
    (ran : dispatch_worker blake3 env request party.server = .ok told { party.server with state })
    (handled : Handled blake3 env party.server request told state) (orderly : Orderly party (.serve env)) :
    Rejoins { party with
      server := { party.server with state }
      answer := some (.ok told)
      sent := request :: party.sent } where
  welcome := rejoins.stirs sound (sound.handles (.inr waits) handled)
  accepted := by
    rintro worker_epoch life _ ⟨⟩
    have registering : party.worker.life = .registering worker_epoch := life
    obtain rfl : .Register (party.worker.config.registration worker_epoch) = request := by
      simpa [Worker.request,registering] using waits
    obtain ⟨identity,revision,server',accepted⟩ := register_accepts env sound.inv rejoins.welcome (orderly worker_epoch life)
    have same : .ok told _ = EStateM.Result.ok _ server' := ran.symm.trans accepted
    exact ⟨identity,revision,party.server.lease_ms,congrArg _ (EStateM.Result.ok.inj same).1⟩

theorem Acted.rejoins {next : Party} (acted : Acted blake3 debug display party happening next) (rejoins : Rejoins party)
    (sound : Sound party) (possible : happening.Possible party) (orderly : Orderly party happening) : Rejoins next := by
  cases acted with
  | idle => exact rejoins
  | event event => exact ⟨rejoins.stirs sound (sound.event possible.1 possible.2),rejoins.accepted⟩
  | serves waits _ ran handled => exact rejoins.serves sound waits ran handled orderly
  | hears | fault => exact rejoins.hears _ _
  | handles handled => exact ⟨rejoins.stirs sound (sound.handles possible handled),rejoins.accepted⟩
  | alone _ acts => exact rejoins.acts sound acts
  | signal => exact ⟨rejoins.welcome,rejoins.accepted⟩

theorem Run.rejoins (run : Run blake3 debug display Orderly first party) (sound : Sound first)
    (reconnecting : first.worker.life = .reconnecting) : Rejoins party := by
  induction run with
  | start =>
    refine ⟨sound.welcome (.inr (.inl (by rw [reconnecting]; rfl))),fun _ registering => ?_⟩
    rw [reconnecting] at registering
    cases registering
  | step run happening possible orderly ih =>
    have before := run.sound sound
    exact (acted before.inv happening).rejoins ih before possible orderly

/-- What the process hears of its request. -/
def heard (party : Party) : Happening → Option Answer
  | .hear => party.answer
  | .fault error => party.worker.request.map fun _ => .error error
  | _ => none

theorem heard_from (heard : party.heard happening = some answer) :
    happening = .hear ∧ party.answer = some answer ∨
      ∃ error, happening = .fault error ∧ answer = .error error ∧ party.worker.request.isSome = true := by
  cases happening with
  | hear => exact .inl ⟨rfl,heard⟩
  | fault error =>
    obtain ⟨request,waits,rfl⟩ := Option.map_eq_some_iff.mp heard
    exact .inr ⟨error,rfl,rfl,by simp [waits]⟩
  | _ => cases heard

theorem act_heard (heard : party.heard happening = some answer) :
    (party.act blake3 debug display happening).worker = party.worker.hears debug answer := by
  rcases heard_from heard with ⟨rfl,answered⟩ | ⟨error,rfl,rfl,waits⟩
  · simp only [act,answered]
  · obtain ⟨request,waits⟩ := Option.isSome_iff_exists.mp waits
    simp only [act,waits]

theorem Sound.waits (sound : Sound party)
    (heard : party.heard happening = some answer) : party.worker.request.isSome = true := by
  rcases heard_from heard with ⟨_,answered⟩ | ⟨_,_,_,waits⟩
  · cases request : party.worker.request with
    | none =>
      rw [sound.idle request] at answered
      cases answered
    | some _ => rfl
  · exact waits

/-- A registration is not told of a fence. -/
theorem Sound.unfenced (sound : Sound party) {error : Error} (heard : party.heard happening = some (.ok (.Error error)))
    (fenced : error.fencing = true) (worker_epoch : WorkerEpoch) : party.worker.life ≠ .registering worker_epoch := by
  intro life
  rcases heard_from heard with ⟨_,answered⟩ | ⟨_,_,there,_⟩
  · obtain ⟨told,there,plain⟩ := sound.replied _ answered
    rw [plain ⟨worker_epoch,life⟩ error (Except.ok.inj there).symm] at fenced
    cases fenced
  · cases there

theorem Sound.fault (sound : Sound party) (orderly : Orderly party happening) {error : Error}
    (heard : party.heard happening = some (.error error)) (passes : (error.transient || error.fencing) = true) :
    party.worker.Retries (party.worker.hears debug (.error error)) ∨
      party.worker.Leaves (party.worker.hears debug (.error error)) := by
  rcases heard_from heard with ⟨_,answered⟩ | ⟨_,rfl,_⟩
  · obtain ⟨told,there,_⟩ := sound.replied _ answered
    cases there
  · exact Worker.hears_fault (sound.waits heard) passes orderly

/-- In every run in which no report of a poll's cancelled task fails, and a registration is answered only when the
    coordinator has no record of another session of the process: neither a fault of the transport nor a fence ends the
    process; after a fault it makes the same request again, or ends the session to register anew; after a poll that is told
    of a fence it ends the session to register anew, and after a report that is told so it goes on as if that had been
    accepted; and a process that registers anew is registered, or makes the same request again. -/
theorem faults_reconnect {epoch : CoordinatorEpoch} {token : String} {lease_ms : Nat} {require_loopback : Bool}
    {config : WorkerConfig} {worker_epoch : WorkerEpoch}
    (run : Run blake3 debug display Orderly (start epoch token lease_ms require_loopback config worker_epoch) party)
    {happening : Happening} (orderly : Orderly party happening) {answer : Answer}
    (heard : party.heard happening = some answer) :
    (passing answer = true → (party.act blake3 debug display happening).worker.life.ended = false) ∧
    (∀ error, answer = .error error → (error.transient || error.fencing) = true →
      party.worker.Retries (party.act blake3 debug display happening).worker ∨
        party.worker.Leaves (party.act blake3 debug display happening).worker) ∧
    (∀ error, answer = .ok (.Error error) → error.fencing = true →
      ((∃ identity, party.worker.request = some (.Poll identity)) →
        party.worker.Leaves (party.act blake3 debug display happening).worker) ∧
      ((∀ identity, party.worker.request ≠ some (.Poll identity)) →
        (party.act blake3 debug display happening).worker.life = (party.worker.hears debug (.ok .Accepted)).life)) ∧
    ∀ earlier, Run blake3 debug display Orderly (start epoch token lease_ms require_loopback config worker_epoch) earlier →
      earlier.worker.life = .reconnecting → Run blake3 debug display Orderly earlier party →
      ∀ worker_epoch, party.worker.life = .registering worker_epoch →
        (∃ identity revision lease_ms, answer = .ok (.Registered identity revision lease_ms) ∧
          (party.act blake3 debug display happening).worker = party.worker.loop identity) ∨
        (∃ error, answer = .error error) ∧ party.worker.Retries (party.act blake3 debug display happening).worker := by
  have begins := start_sound epoch token lease_ms require_loopback config worker_epoch
  have sound := run.sound begins
  have waits := sound.waits heard
  rw [act_heard heard]
  refine ⟨fun passes => ?_,fun error failed passes => ?_,fun error failed fenced => ?_,?_⟩
  · cases answer with
    | error error =>
      rcases sound.fault orderly heard passes with retries | leaves
      · exact retries.goes_on waits
      · exact leaves.goes_on
    | ok told =>
      cases told with
      | Error error =>
        by_cases poll : ∃ identity, party.worker.request = some (.Poll identity)
        · exact ((Worker.hears_fenced passes waits (sound.unfenced heard passes)).1 poll).goes_on
        · have report : ∀ identity, party.worker.request ≠ some (.Poll identity) := fun identity same => poll ⟨identity,same⟩
          exact ((Worker.hears_fenced passes waits (sound.unfenced heard passes)).2 report).2
      | _ => cases passes
  · subst failed
    exact sound.fault orderly heard passes
  · subst failed
    exact (Worker.hears_fenced fenced waits (sound.unfenced heard fenced)).imp_right fun told report => (told report).1
  · intro earlier before reconnecting later worker_epoch registering
    have rejoins := later.rejoins (before.sound begins) reconnecting
    rcases heard_from heard with ⟨_,answered⟩ | ⟨error,_,rfl,_⟩
    · obtain ⟨identity,revision,lease_ms,rfl⟩ := rejoins.accepted worker_epoch registering answer answered
      exact .inl ⟨identity,revision,lease_ms,rfl,by simp only [Worker.hears,registering,Worker.registered]⟩
    · refine .inr ⟨⟨error,rfl⟩,.inl ?_⟩
      simp only [Worker.hears,registering,Worker.registered,Worker.request]

/-! ### A worker of one task -/

section
variable (blake3 debug display)

/-- What happens, one after the other, is possible and obeys the rule. -/
def Along (Rule : Party → Happening → Prop) : Party → List Happening → Prop
  | _,[] => True
  | party,happening :: rest =>
    happening.Possible party ∧ Rule party happening ∧ Along Rule (party.act blake3 debug display happening) rest

def acts (party : Party) (happenings : List Happening) : Party := happenings.foldl (act blake3 debug display) party

end

theorem Run.along {happenings : List Happening} (run : Run blake3 debug display Rule first party)
    (along : Along blake3 debug display Rule party happenings) :
    Run blake3 debug display Rule first (party.acts blake3 debug display happenings) := by
  induction happenings generalizing party with
  | nil => exact run
  | cons happening rest ih => exact ih (run.step happening along.1 along.2.1) along.2.2

def smallConfig : WorkerConfig :=
  ⟨smallWorker.node_id,"host:1",⟨⟨[("cpu",⟨1000⟩)],offer_sorted⟩⟩,[⟨smallKey,.JsonV1,.JsonV1,64⟩]⟩

def smallParty : Party := start smallEpoch "crayon-arena-0" 5000 false smallConfig smallWorker.worker_epoch

/-- The process registers, and a task is submitted. -/
def joined : List Happening :=
  [.serve (System.smallEnv 3),.hear,
    .event (.operation .by_id (.submit smallKey [] ⟨⟨[("cpu",⟨600⟩)],demand_sorted⟩⟩ 2 smallTask smallOutput))]

/-- It is told of the task, and the report that it was started fails. -/
def faulted : List Happening := joined ++ [.serve (System.smallEnv 6),.hear,.fault (.Io "connection reset")]

/-- It registers again. -/
def again : List Happening := [.wake ⟨.replicate 16 8⟩,.serve { System.smallEnv 9 with now_ms := 6000 }]

/-- Its lease runs out before. -/
def expired : List Happening := .event (.operation .by_id (.expire_workers 6000)) :: again

/-- The reply to its poll is lost, the task is cancelled, it polls again, and the report that it stopped fails. -/
def stopped : List Happening :=
  [.serve (System.smallEnv 6),.fault (.Io "connection reset"),.event (.operation .by_id (.cancel smallTask)),
    .serve (System.smallEnv 7),.hear,.fault (.Io "connection reset")]

abbrev smallActs (party : Party) (happenings : List Happening) : Party :=
  party.acts smallHash (fun _ => "") (fun _ => "") happenings

theorem submit_possible : Happening.Possible (smallActs smallParty [.serve (System.smallEnv 3),.hear])
    (.event (.operation .by_id (.submit smallKey [] ⟨⟨[("cpu",⟨600⟩)],by decide⟩⟩ 2 smallTask smallOutput))) := by
  refine ⟨⟨by decide +kernel,by decide +kernel,by decide +kernel⟩,fun assignment there => ?_,by decide +kernel,by decide +kernel⟩
  have none : (smallActs smallParty [.serve (System.smallEnv 3),.hear]).assignment = none := by decide +kernel
  rw [none] at there
  cases there

theorem orderly_unknown
    (unknown : (party.server.state.workers.get party.worker.config.node_id).isNone = true) : Orderly party (.serve env) := by
  intro _ _ record found
  rw [found] at unknown
  cases unknown

theorem orderly_joined (joined : party.worker.life.joined = true) : Orderly party (.serve env) := by
  intro _ registering
  rw [registering] at joined
  cases joined

theorem orderly_held {error : Error} (held : party.assignment.isSome = true) : Orderly party (.fault error) := by
  intro _ _ cancelling
  rw [assignment,cancelling] at held
  cases held

/-- Once its lease has run out, the process whose report failed is registered again. -/
theorem fault_registers_again : (smallActs smallParty faulted).worker.life = .reconnecting ∧
    ∃ identity, (smallActs (smallActs smallParty faulted) (expired ++ [.hear])).worker =
      (smallActs (smallActs smallParty faulted) expired).worker.loop identity := by
  have reconnecting : (smallActs smallParty faulted).worker.life = .reconnecting := by decide +kernel
  refine ⟨reconnecting,?_⟩
  have before : Run smallHash (fun _ => "") (fun _ => "") Orderly smallParty (smallActs smallParty faulted) :=
    Run.start.along ⟨trivial,orderly_unknown (by decide +kernel),trivial,trivial,submit_possible,trivial,trivial,
      orderly_joined (by decide +kernel),trivial,trivial,trivial,orderly_held (by decide +kernel),trivial⟩
  have rest : Along smallHash (fun _ => "") (fun _ => "") Orderly (smallActs smallParty faulted) expired :=
    ⟨⟨trivial,trivial⟩,trivial,trivial,trivial,trivial,orderly_unknown (by decide +kernel),trivial⟩
  obtain ⟨answer,heard⟩ : ∃ answer, (smallActs (smallActs smallParty faulted) expired).heard .hear = some answer :=
    Option.isSome_iff_exists.mp (by decide +kernel)
  have told : ((smallActs (smallActs smallParty faulted) expired).heard .hear).map Except.isOk = some true := by decide +kernel
  have registering : (smallActs (smallActs smallParty faulted) expired).worker.life = .registering ⟨.replicate 16 8⟩ := by
    decide +kernel
  have orderly : Orderly (smallActs (smallActs smallParty faulted) expired) .hear := trivial
  rcases (faults_reconnect (before.along rest) orderly heard).2.2.2 _ before reconnecting (Run.start.along rest) _ registering with
    ⟨identity,_,_,_,same⟩ | ⟨⟨error,rfl⟩,_⟩
  · exact ⟨identity,same⟩
  · rw [heard] at told
    cases told

/-- While its lease lasts, the process whose report failed is refused and exits; and so does a process whose report that a
    poll's task is cancelled fails. -/
theorem faults_are_fatal :
    (Run smallHash (fun _ => "") (fun _ => "") (fun _ _ => True) smallParty (smallActs smallParty faulted) ∧
      (smallActs smallParty faulted).worker.life = .reconnecting ∧
      Run smallHash (fun _ => "") (fun _ => "") (fun _ _ => True) (smallActs smallParty faulted)
        (smallActs (smallActs smallParty faulted) (again ++ [.hear])) ∧
      (smallActs (smallActs smallParty faulted) (again ++ [.hear])).worker.life =
        .fatal (.Protocol "registration failed: ")) ∧
    Run smallHash (fun _ => "") (fun _ => "") (fun _ _ => True) smallParty (smallActs smallParty (joined ++ stopped)) ∧
      (smallActs smallParty (joined ++ stopped)).worker.life = .fatal (.Io "connection reset") := by
  refine ⟨⟨Run.start.along ?_,by decide +kernel,Run.start.along ?_,by decide +kernel⟩,Run.start.along ?_,by decide +kernel⟩
  · exact ⟨trivial,trivial,trivial,trivial,submit_possible,trivial,trivial,trivial,trivial,trivial,trivial,trivial,trivial⟩
  · exact ⟨trivial,trivial,trivial,trivial,trivial,trivial,trivial⟩
  · exact ⟨trivial,trivial,trivial,trivial,submit_possible,trivial,trivial,trivial,trivial,trivial,⟨trivial,trivial⟩,trivial,
      trivial,trivial,trivial,trivial,trivial,trivial,trivial⟩

end Party
end Crayon
