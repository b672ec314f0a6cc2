import Crayon.Permanence
import Crayon.Service

/-!
Where available objects are. An object that a worker owns is at the address of
that worker, which is registered, and any other is at the coordinator. A worker
that is gone leaves nothing behind: the objects it owned are served by the
coordinator or lost, its tasks are taken back, and the deletes queued for it are
dropped. Polls count as events of their own, since a poll takes the deletes of
its worker and queues those again that it does not deliver.
-/
namespace Crayon.CoordinatorState
open Command

/-- An object that has an owner is available at the owner's address, and an available object
    without one is at the coordinator. -/
structure Lodged (workers : Table NodeId WorkerRecord) (object : ObjectRecord) : Prop where
  owned : ∀ node, object.owner = some node → object.state = .Available ∧
    ∃ worker, workers.get node = some worker ∧ object.location = some worker.advertise_addr
  central : object.state = .Available → object.owner = none → object.location = some "coordinator"

def Located (s : CoordinatorState) : Prop := ∀ id object, s.objects.get id = some object → Lodged s.workers object

/-- Deletes are queued for registered workers only. -/
def Deliverable (s : CoordinatorState) : Prop :=
  ∀ node, (s.pending_deletes.get node).isSome = true → (s.workers.get node).isSome = true

/-- Nothing refers to the node. -/
structure Forgot (s : CoordinatorState) (node : NodeId) : Prop where
  objects : ∀ id object, s.objects.get id = some object → object.owner ≠ some node
  tasks : ∀ id task a, s.tasks.get id = some task → task.assigned = some a → a.node ≠ node
  deletes : s.pending_deletes.get node = none

section
variable {op : Op} {s s' : CoordinatorState} {workers workers' : Table NodeId WorkerRecord} {node : NodeId}
variable {object : ObjectRecord}

/-! ### Owners -/

/-- The worker is still there, at the same address. -/
def Stays (workers workers' : Table NodeId WorkerRecord) : Prop :=
  ∀ node worker, workers.get node = some worker →
    ∃ worker', workers'.get node = some worker' ∧ worker'.advertise_addr = worker.advertise_addr

theorem stays_modify (workers : Table NodeId WorkerRecord) (k : NodeId) {f : WorkerRecord → WorkerRecord}
    (address : ∀ worker, (f worker).advertise_addr = worker.advertise_addr) : Stays workers (workers.modify k f) := by
  intro node worker found
  by_cases same : node = k
  · exact ⟨f worker,by simp [same ▸ found,same],address worker⟩
  · exact ⟨worker,by simp [found,same],rfl⟩

theorem Freed.stays {resources : ResourceSet}
    (freed : Freed workers node resources workers') : Stays workers workers' := by
  cases freed with
  | returned found living room added => exact stays_modify _ _ fun _ => rfl
  | dropped found dead => exact fun _ worker found => ⟨worker,found,rfl⟩

/-- Workers stay, except one that is evicted, whose objects are orphaned. -/
theorem Move.stays (move : Move op s s') : Stays s.workers s'.workers ∨
    ∃ node, s'.objects = s.objects.mapValues (orphan node) ∧ s'.workers = s.workers.remove node := by
  cases move with
  | @evict node idle => exact .inr ⟨node,rfl,rfl⟩
  | renew deadline => exact .inl (stays_modify _ _ fun _ => rfl)
  | drain found living => exact .inl (stays_modify _ _ fun _ => rfl)
  | assign head found runnable at_worker alive free fits taken minted => exact .inl (stays_modify _ _ fun _ => rfl)
  | expire sweep => exact .inl (stays_modify _ _ fun _ => rfl)
  | complete asked found state assigned at_worker living location small freed => exact .inl freed.stays
  | retry not_before_ms found state assigned budget freed => exact .inl freed.stays
  | fail message found state assigned freed => exact .inl freed.stays
  | acknowledge found state assigned freed => exact .inl freed.stays
  | @enroll node worker absent enrolled =>
    refine .inl fun other old found => ⟨old,?_,rfl⟩
    rw [Table.get_insert,if_neg,found]
    rintro rfl
    rw [absent] at found
    cases found
  | _ => exact .inl fun _ worker found => ⟨worker,found,rfl⟩

theorem Lodged.later (lodged : Lodged workers object) (stays : Stays workers workers') : Lodged workers' object where
  owned node owner := by
    obtain ⟨available,worker,registered,location⟩ := lodged.owned node owner
    obtain ⟨worker',registered',same⟩ := stays node worker registered
    exact ⟨available,worker',registered',location.trans (congrArg some same.symm)⟩
  central := lodged.central

/-- An object is orphaned when its owner goes, so other workers are all that matters. -/
theorem Lodged.orphan {workers : Table NodeId WorkerRecord} (lodged : Lodged workers object)
    (node : NodeId) : Lodged (workers.remove node) (CoordinatorState.orphan node object) := by
  rcases orphan_cases node object with ⟨same,notOwned⟩ | ⟨_,_,⟨_,same⟩ | ⟨_,same⟩⟩
  · rw [same]
    refine ⟨fun other owner => ?_,lodged.central⟩
    obtain ⟨available,worker,registered,location⟩ := lodged.owned other owner
    refine ⟨available,worker,?_,location⟩
    rw [Table.get_remove,if_neg,registered]
    rintro rfl
    exact notOwned ⟨owner,available⟩
  · rw [same]
    exact ⟨nofun,fun _ _ => rfl⟩
  · rw [same]
    exact ⟨nofun,nofun⟩

theorem stays_removed (workers : Table NodeId WorkerRecord) (node : NodeId) : Stays (workers.remove node) workers := by
  intro other worker found
  rw [Table.get_remove] at found
  split at found
  · cases found
  · exact ⟨worker,found,rfl⟩

theorem ObjectStep.lodged {id : ObjectId} {before : Option ObjectRecord}
    (step : ObjectStep op s id before (some object)) (lodged : ∀ old, before = some old → Lodged s.workers old) :
    Lodged s.workers object := by
  cases step with
  | kept => exact lodged object rfl
  | stored source => exact ⟨nofun,fun _ _ => rfl⟩
  | reserved codec drawn => exact ⟨nofun,nofun⟩
  | @delivered old identity report worker reserved asked at_worker location small =>
    refine ⟨fun node owner => ?_,nofun⟩
    cases owner
    exact ⟨rfl,worker,at_worker,congrArg some location⟩
  | @ended old state reserved final =>
    refine ⟨fun node owner => ?_,?_⟩
    · have available := ((lodged old rfl).owned node owner).1
      rw [reserved] at available
      cases available
    · rcases final with rfl | rfl
      · exact nofun
      · exact nofun
  | @orphaned old node => exact ((lodged old rfl).orphan node).later (stays_removed _ _)

theorem Move.located (move : Move op s s') (inv : Consistent s) (located : Located s) : Located s' := by
  intro id object found
  rcases move.stays with stays | ⟨gone,objects,workers⟩
  · have step := move.object inv id
    rw [found] at step
    exact (step.lodged fun old there => located id old there).later stays
  · rw [objects,Table.get_mapValues] at found
    obtain ⟨old,there,rfl⟩ := Option.map_eq_some_iff.mp found
    rw [workers]
    exact (located id old there).orphan gone

/-! ### Deletes -/

theorem Deliverable.later (deliverable : Deliverable s) (deletes : s'.pending_deletes = s.pending_deletes)
    (stays : Stays s.workers s'.workers) : Deliverable s' := by
  intro node queued
  rw [deletes] at queued
  obtain ⟨worker,registered⟩ := Option.isSome_iff_exists.mp (deliverable node queued)
  obtain ⟨worker',registered',_⟩ := stays node worker registered
  rw [registered']
  rfl

theorem Ripples.deliverable (ripples : Ripples s s') (deliverable : Deliverable s) : Deliverable s' := by
  induction ripples with
  | refl => exact deliverable
  | tail _ ripple ih =>
    cases ripple with
    | starve => exact ih
    | wake => exact ih

/-- A worker that is forgotten is forgotten together with its deletes. -/
theorem Swept.deliverable {now : Nat} (swept : Swept now s s') (deliverable : Deliverable s) : Deliverable s' := by
  induction swept with
  | refl => exact deliverable
  | tail _ sweep ih =>
    cases sweep with
    | mark found due => exact ih.later rfl (stays_modify _ _ fun _ => rfl)
    | evict found dead idle =>
      intro node queued
      dsimp only at queued ⊢
      rw [Table.get_remove] at queued ⊢
      split at queued
      · cases queued
      · rename_i other
        rw [if_neg other]
        exact ih node queued
    | cancelled => exact ih
    | retried => exact ih
    | failed => exact ih

/-- A delete is queued for the owner of a released object only if the owner is registered. -/
theorem Released.deliverable {id : ObjectId} (released : Released s id s') (deliverable : Deliverable s) : Deliverable s' := by
  cases released with
  | before absent => exact deliverable
  | @drop object found settled unused =>
    intro node queued
    simp only [dropped] at queued ⊢
    cases owner : object.owner with
    | none =>
      rw [owner] at queued
      exact deliverable node queued
    | some holder =>
      rw [owner] at queued
      dsimp only at queued
      split at queued
      · rename_i registered
        rw [Table.get_insert] at queued
        split at queued
        · rename_i same
          rw [same]
          exact registered
        · exact deliverable node queued
      · exact deliverable node queued

theorem Releases.deliverable (releases : Releases s s') (deliverable : Deliverable s) : Deliverable s' := by
  induction releases with
  | refl => exact deliverable
  | tail _ released ih =>
    obtain ⟨id,released⟩ := released
    exact released.deliverable ih

theorem Admitted.deliverable {id : ObjectId} {codec : Codec} {size_bytes : UInt64} {checksum : Checksum}
    {bytes : Option (List UInt8)} (admitted : Admitted s id codec size_bytes checksum bytes s')
    (deliverable : Deliverable s) : Deliverable s' := by
  cases admitted with
  | known => exact deliverable
  | stored => exact deliverable

theorem taken_fewer {pending_deletes : Table NodeId (List ObjectId)} {node other : NodeId}
    (queued : ((pending_deletes.remove node).get other).isSome = true) : (pending_deletes.get other).isSome = true := by
  rw [Table.get_remove] at queued
  split at queued
  · cases queued
  · exact queued

variable {blake3 : List UInt8 → Checksum} {reply : Reply}

theorem Effect.deliverable (effect : Effect blake3 op s reply s') (deliverable : Deliverable s) : Deliverable s' := by
  cases effect with
  | renewed => exact deliverable.later rfl (stays_modify _ _ fun _ => rfl)
  | enrolled address collected absent =>
    intro node queued
    dsimp only
    rw [Table.get_insert]
    split
    · rfl
    · exact deliverable node queued
  | beat => exact deliverable.later rfl (stays_modify _ _ fun _ => rfl)
  | drained => exact deliverable.later rfl (stays_modify _ _ fun _ => rfl)
  | assigned => exact deliverable.later rfl (stays_modify _ _ fun _ => rfl)
  | put admitted => exact admitted.deliverable deliverable
  | put_meta admitted => exact admitted.deliverable deliverable
  | completed _ _ _ _ _ _ _ _ _ _ freed ripples => exact ripples.deliverable (deliverable.later rfl freed.stays)
  | retried current matching found state retry freed => exact deliverable.later rfl freed.stays
  | failed current matching found state final freed ripples => exact ripples.deliverable (deliverable.later rfl freed.stays)
  | acknowledged current matching found state freed ripples => exact ripples.deliverable (deliverable.later rfl freed.stays)
  | cancelled found state ripples => exact ripples.deliverable deliverable
  | expired report swept workers ripples => exact ripples.deliverable (swept.deliverable deliverable)
  | reaped count released => exact released.deliverable deliverable
  | released released => exact released.deliverable deliverable
  | taken => exact fun node queued => deliverable node (taken_fewer queued)
  | _ => exact deliverable

/-! ### Workers that are gone -/

theorem absent_modify {workers : Table NodeId WorkerRecord} (absent : workers.get node = none) (k : NodeId)
    (f : WorkerRecord → WorkerRecord) : (workers.modify k f).get node = none := by
  rw [Table.get_modify,absent]
  split <;> rfl

theorem Freed.absent {node other : NodeId} {resources : ResourceSet}
    (freed : Freed workers other resources workers') (absent : workers.get node = none) : workers'.get node = none := by
  cases freed with
  | returned found living room added => exact absent_modify absent _ _
  | dropped found dead => exact absent

/-- Only a registration brings a worker back. -/
theorem Move.absent (move : Move op s s') (brings : op.resources = none)
    (absent : s.workers.get node = none) : s'.workers.get node = none := by
  cases move with
  | enroll unknown enrolled =>
    have some := enrolled.resources
    rw [brings] at some
    cases some
  | renew deadline => exact absent_modify absent _ _
  | drain found living => exact absent_modify absent _ _
  | assign head found runnable at_worker alive free fits taken minted => exact absent_modify absent _ _
  | expire sweep => exact absent_modify absent _ _
  | complete asked found state assigned at_worker living location small freed => exact freed.absent absent
  | retry not_before_ms found state assigned budget freed => exact freed.absent absent
  | fail message found state assigned freed => exact freed.absent absent
  | acknowledge found state assigned freed => exact freed.absent absent
  | evict idle =>
    dsimp only
    rw [Table.get_remove,absent]
    split <;> rfl
  | _ => exact absent

/-- The operation registers a worker under this node id. -/
def Op.registers (node : NodeId) : Op → Prop
  | .register_worker request _ _ _ => request.node_id = node
  | _ => False

theorem Effect.absent (effect : Effect blake3 op s reply s') (newTo : op.NewTo s)
    (other : ¬ op.registers node) (absent : s.workers.get node = none) : s'.workers.get node = none := by
  have moves := effect.moves newTo
  have unregistered : op.resources = none → s'.workers.get node = none := fun brings =>
    moves.keeps (P := fun t => t.workers.get node = none) (fun _ _ move => move.absent brings) absent
  cases effect with
  | renewed => exact absent_modify absent _ _
  | enrolled address collected unknown =>
    dsimp only
    rw [Table.get_insert,if_neg,absent]
    rintro rfl
    exact other rfl
  | submitted => exact absent
  | _ => exact unregistered rfl

/-- A sweep forgets the workers whose lease ran out. -/
theorem Effect.expires {now : Nat} (effect : Effect blake3 (.expire_workers now) s reply s')
    {worker : WorkerRecord} (found : s.workers.get node = some worker) (due : worker.lease_deadline_ms ≤ now) :
    s'.workers.get node = none := by
  cases effect with
  | unexpired calm => exact absurd (calm node worker found) (Nat.not_lt.mpr due)
  | expired report swept workers ripples =>
    dsimp only
    rw [ripples.workers,workers node,found,Option.filter_some,if_neg]
    simpa using due

end

/-! ### Events -/

/-- What can happen to the coordinator: an operation, or a worker's poll. -/
inductive Event where
  | operation (order : HashOrder) (op : Op)
  | poll (env : Env) (identity : WorkerIdentity)

namespace Event

def act (blake3 : List UInt8 → Checksum) (s : CoordinatorState) : Event → CoordinatorState
  | .operation order op => Outcome.state (CoordinatorState.apply blake3 order op s)
  | .poll env identity => Outcome.state (CoordinatorServer.poll env identity s)

/-- The ids that the event draws are new to the state. -/
def New (s : CoordinatorState) : Event → Prop
  | .operation _ op => op.NewTo s
  | .poll _ _ => True

def registers (node : NodeId) : Event → Prop
  | .operation _ op => op.registers node
  | .poll _ _ => False

end Event

/-- The states of a coordinator and the events that led to them, the last one first. -/
inductive Served (blake3 : List UInt8 → Checksum) (epoch : CoordinatorEpoch) : List Event → CoordinatorState → Prop where
  | start : Served blake3 epoch [] (new epoch)
  | event {past : List Event} {s : CoordinatorState} (served : Served blake3 epoch past s) (event : Event)
      (new : event.New s) : Served blake3 epoch (event :: past) (event.act blake3 s)

section
variable {blake3 : List UInt8 → Checksum} {epoch : CoordinatorEpoch} {past later : List Event} {s s' : CoordinatorState}

/-- What a poll does to the state: it takes deletes and queues those after the first again, or a
    task is assigned. -/
theorem poll_ends (blake3 : List UInt8 → Checksum) (env : Env) (identity : WorkerIdentity) (s : CoordinatorState) :
    (∃ pending_deletes, Outcome.state (CoordinatorServer.poll env identity s) = { s with pending_deletes } ∧
      ∀ node, (pending_deletes.get node).isSome = true → (s.pending_deletes.get node).isSome = true) ∨
    Outcome.state (CoordinatorServer.poll env identity s) =
      Outcome.state (apply blake3 env.order (.assign_next identity.node_id env.now_ms env.lease)
        { s with pending_deletes := s.pending_deletes.remove identity.node_id }) := by
  have removed : ∀ node, ((s.pending_deletes.remove identity.node_id).get node).isSome = true →
      (s.pending_deletes.get node).isSome = true := fun node => taken_fewer
  have taken : take_pending_deletes identity.node_id s = .ok ((s.pending_deletes.get identity.node_id).getD [])
      { s with pending_deletes := s.pending_deletes.remove identity.node_id } := rfl
  rw [CoordinatorServer.poll,bind_apply,taken]
  dsimp only
  cases queued : (s.pending_deletes.get identity.node_id).getD [] with
  | cons id rest =>
    left
    by_cases last : rest = []
    · exact ⟨_,by simp [CoordinatorServer.requeue_deletes,last],removed⟩
    refine ⟨(s.pending_deletes.remove identity.node_id).insert identity.node_id rest,
      by simp [CoordinatorServer.requeue_deletes,last],fun node there => ?_⟩
    rw [Table.get_insert] at there
    split at there
    · rename_i same
      rw [same]
      cases none : s.pending_deletes.get identity.node_id with
      | none => simp [none] at queued
      | some _ => rfl
    · exact removed node there
  | nil =>
    refine (state_after (by rw [state_attempt,cancellation_for_quiet]) _).elim (fun same => .inl ⟨_,same,removed⟩) ?_
    rintro ⟨_ | _ | _,same⟩
    -- A failure or a task to cancel ends the poll.
    · exact .inl ⟨_,same,removed⟩
    · rw [same]
      refine (state_after (by rw [state_attempt,assigned_unstarted_quiet]) _).elim (fun same => .inl ⟨_,same,removed⟩) ?_
      rintro ⟨_ | _ | _,same⟩
      -- So does a failure or a task that was assigned before.
      · exact .inl ⟨_,same,removed⟩
      · right
        rw [same,state_bind fun assignment _ => by cases assignment <;> rfl,state_attempt,apply,state_bind fun _ _ => rfl]
      · exact .inl ⟨_,same,removed⟩
    · exact .inl ⟨_,same,removed⟩

/-- What operations keep, and which queued deletes do not matter to, events keep. -/
theorem Event.keeps (blake3 : List UInt8 → Checksum) (event : Event) (new : event.New s) (inv : Inv s)
    {P : CoordinatorState → Prop} (holds : P s)
    (requeued : ∀ pending_deletes : Table NodeId (List ObjectId),
      (∀ node, (pending_deletes.get node).isSome = true → (s.pending_deletes.get node).isSome = true) →
      P { s with pending_deletes })
    (applied : ∀ t order op, Inv t → op.NewTo t → (∀ node, op.registers node → event.registers node) → P t →
      P (Outcome.state (apply blake3 order op t))) : P (event.act blake3 s) := by
  cases event with
  | operation order op => exact applied s order op inv new (fun _ same => same) holds
  | poll env identity =>
    rw [Event.act]
    rcases poll_ends blake3 env identity s with ⟨pending_deletes,same,fewer⟩ | same
    · rw [same]
      exact requeued pending_deletes fewer
    · rw [same]
      refine applied _ env.order _ (inv.requeued _) trivial nofun (requeued _ fun node queued => ?_)
      exact taken_fewer queued

theorem Event.inv (blake3 : List UInt8 → Checksum) (event : Event) (new : event.New s) (inv : Inv s) :
    Inv (event.act blake3 s) :=
  event.keeps blake3 new inv inv (fun pending_deletes _ => inv.requeued pending_deletes)
    fun _ order _ inv newTo _ _ => apply_inv blake3 order inv newTo

theorem Served.inv (served : Served blake3 epoch past s) : Inv s := by
  induction served with
  | start => exact new_inv epoch
  | event served event new ih => exact event.inv blake3 new ih

theorem new_located (epoch : CoordinatorEpoch) : Located (new epoch) ∧ Deliverable (new epoch) := by
  simp [Located,Deliverable,new]

theorem Served.located (served : Served blake3 epoch past s) : Located s ∧ Deliverable s := by
  induction served with
  | start => exact new_located epoch
  | @event past s served event new ih =>
    refine event.keeps blake3 new served.inv (P := fun t => Located t ∧ Deliverable t) ih
      (fun _ fewer => ⟨ih.1,fun node queued => ih.2 node (fewer node queued)⟩) ?_
    intro t order op inv newTo _ now
    refine ⟨?_,apply_keeps blake3 order inv now.2 fun reply t' effect => effect.deliverable now.2⟩
    exact ((apply_moves blake3 order inv newTo).keeps (P := fun u => Consistent u ∧ Located u)
      (fun _ _ move held => ⟨move.consistent held.1,move.located held.1 held.2⟩) ⟨inv.consistent,now.1⟩).2

/-- The events determine the state. -/
theorem Served.unique (served : Served blake3 epoch past s) (served' : Served blake3 epoch past s') : s = s' := by
  induction served generalizing s' with
  | start =>
    cases served'
    rfl
  | event served event new ih =>
    cases served' with
    | event served' _ _ => rw [ih served']

theorem Event.absent (event : Event) (new : event.New s) (inv : Inv s) {node : NodeId} (other : ¬ event.registers node)
    (absent : s.workers.get node = none) : (event.act blake3 s).workers.get node = none := by
  refine event.keeps blake3 new inv (P := fun t => t.workers.get node = none) absent (fun _ _ => absent) ?_
  intro t order op inv newTo registers absent
  exact apply_keeps blake3 order inv (P := fun u => u.workers.get node = none) absent
    fun reply t' effect => effect.absent newTo (fun same => other (registers node same)) absent

/-- A worker that is gone stays so until its node registers again. -/
theorem Served.absent (served : Served blake3 epoch (later ++ past) s') (before : Served blake3 epoch past s)
    {node : NodeId} (others : ∀ event ∈ later, ¬ event.registers node) (absent : s.workers.get node = none) :
    s'.workers.get node = none := by
  induction later generalizing s' with
  | nil =>
    obtain rfl := before.unique served
    exact absent
  | cons last later ih =>
    obtain ⟨other,others⟩ := List.forall_mem_cons.mp others
    cases served with
    | event served _ new => exact last.absent new served.inv other (ih served others)

/-- Nothing refers to a worker that is not registered. -/
theorem Served.forgot (served : Served blake3 epoch past s) {node : NodeId} (absent : s.workers.get node = none) :
    s.Forgot node where
  objects id object found owner := by
    obtain ⟨_,worker,registered,_⟩ := (served.located.1 id object found).owned node owner
    rw [absent] at registered
    cases registered
  tasks id task a found assigned same := by
    obtain ⟨worker,registered,_⟩ := served.inv.consistent.served id task a found assigned
    rw [same,absent] at registered
    cases registered
  deletes := by
    rw [← Option.not_isSome_iff_eq_none]
    intro queued
    have registered := served.located.2 node queued
    rw [absent] at registered
    cases registered

/-- Every available object has its codec, size, digest and location; it is at the address of its
    owner, which is registered, or at the coordinator if it has none. Once a sweep has found the
    lease of a worker to have run out, nothing refers to the worker until its node registers again. -/
theorem served_located (served : Served blake3 epoch past s) :
    (∀ id object, s.objects.get id = some object → object.state = .Available →
      (object.codec.isSome = true ∧ object.size_bytes.isSome = true ∧ object.checksum.isSome = true ∧
        object.location.isSome = true) ∧
      (∀ node, object.owner = some node →
        ∃ worker, s.workers.get node = some worker ∧ object.location = some worker.advertise_addr) ∧
      (object.owner = none → object.location = some "coordinator")) ∧
    ∀ order now later s', Served blake3 epoch (later ++ .operation order (.expire_workers now) :: past) s' →
      ∀ node worker, s.workers.get node = some worker → worker.lease_deadline_ms ≤ now →
        (∀ event ∈ later, ¬ event.registers node) → s'.Forgot node := by
  refine ⟨?_,?_⟩
  · intro id object found available
    have lodged := served.located.1 id object found
    exact ⟨served.inv.consistent.whole id object found available,fun node owner => (lodged.owned node owner).2,
      lodged.central available⟩
  · intro order now later s' served' node worker found due others
    have swept : Served blake3 epoch (.operation order (.expire_workers now) :: past) _ := .event served _ trivial
    refine served'.forgot (served'.absent swept others ?_)
    obtain ⟨report,t,ran,effect⟩ := expire_workers_effect blake3 order now served.inv.consistent served.inv.alive
    have reached : Event.act blake3 s (.operation order (.expire_workers now)) = t := by
      simp [Event.act,apply,ran]
    rw [reached]
    exact effect.expires found due

end

/-- A run is a way to be served. -/
theorem Run.served {blake3 : List UInt8 → Checksum} {epoch : CoordinatorEpoch} {past : List Step} {s : CoordinatorState}
    (run : Run blake3 epoch past s) : Served blake3 epoch (past.map fun step => .operation step.order step.op) s := by
  induction run with
  | start => exact .start
  | step run order op fresh ih => exact .event ih (.operation order op) (run.newTo fresh)

/-- The worker that kept its output to itself is forgotten when its lease has run out. -/
theorem lost_forgot : (keptState.objects.get smallOutput).map (fun object => (object.owner,object.location)) =
      some (some smallWorker.node_id,some "host:1") ∧
    lostState.Forgot smallWorker.node_id := by
  have registered : (keptState.workers.get smallWorker.node_id).map (·.lease_deadline_ms) = some 5000 := by decide +kernel
  obtain ⟨worker,found,deadline⟩ := Option.map_eq_some_iff.mp registered
  have lost : Served smallHash smallEpoch ([] ++ _ :: _) lostState :=
    .event kept_output_run.served (.operation .by_id (.expire_workers 6000)) trivial
  exact ⟨by decide +kernel,(served_located kept_output_run.served).2 .by_id 6000 [] lostState lost smallWorker.node_id worker
    found (by rw [deadline]; decide) nofun⟩

end Crayon.CoordinatorState
