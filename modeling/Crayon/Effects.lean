import Crayon.Consistency

/-!
What the operations do. An operation that returns a value has had one of a few
effects (`Effect`), each of which names the checks that were passed, the value
and the state after; an operation that returns an error has changed nothing. In
consistent tables no operation panics, and its loops end. Later modules look at
effects, not at the code.
-/
namespace Crayon.CoordinatorState
open Command
open Relation (ReflTransGen)
variable {s : CoordinatorState} {op : Op} {s' : CoordinatorState}

/-- No worker is dead. -/
def NoDead (s : CoordinatorState) : Prop := ∀ node worker, s.workers.get node = some worker → worker.state ≠ .Dead

/-! ### Checks -/

/-- The identity is that of a worker that is registered and not dead. -/
def Current (s : CoordinatorState) (identity : WorkerIdentity) : Prop :=
  identity.coordinator_epoch = s.epoch ∧ ∃ worker, s.workers.get identity.node_id = some worker ∧
    worker.state ≠ .Dead ∧ worker.identity.worker_epoch = identity.worker_epoch ∧
    worker.identity.session_id = identity.session_id

/-- The dispatch that an identity and a fence speak of. -/
def dispatch (identity : WorkerIdentity) (fence : TaskFence) : Assigned :=
  ⟨identity.node_id,identity.worker_epoch,identity.session_id,fence.lease_id⟩

/-- The task of the fence is dispatched to the worker of the identity, by that lease
    and attempt. -/
def Matches (s : CoordinatorState) (identity : WorkerIdentity) (fence : TaskFence) : Prop :=
  ∃ task, s.tasks.get fence.task_id = some task ∧ task.assigned = some (dispatch identity fence) ∧
    task.attempt = fence.attempt

theorem Matches.assigned {identity : WorkerIdentity} {fence : TaskFence} (matching : Matches s identity fence)
    {task : TaskRecord} (found : s.tasks.get fence.task_id = some task) :
    task.assigned = some (dispatch identity fence) := by
  obtain ⟨task',found',assigned,_⟩ := matching
  rw [found] at found'
  cases found'
  exact assigned

theorem check_identity_cases (s : CoordinatorState) (identity : WorkerIdentity) :
    check_identity identity s = .error (.Err .StaleFence) s ∨ check_identity identity s = .ok () s ∧ Current s identity := by
  by_cases epoch : identity.coordinator_epoch = s.epoch
  · cases found : s.workers.get identity.node_id with
    | none => left; simp [check_identity,ensure_of epoch,found]
    | some worker =>
      by_cases same : worker.state ≠ .Dead ∧ worker.identity.worker_epoch = identity.worker_epoch ∧
          worker.identity.session_id = identity.session_id
      · exact .inr ⟨by simp [check_identity,ensure_of epoch,found,ensure_of same],epoch,worker,found,same⟩
      · left; simp [check_identity,ensure_of epoch,found,ensure_not same]
  · left; simp [check_identity,ensure_not epoch]

theorem check_fence_cases {fence : TaskFence} {task : TaskRecord} (found : s.tasks.get fence.task_id = some task)
    (identity : WorkerIdentity) :
    check_fence identity fence s = .error (.Err .StaleFence) s ∨
      check_fence identity fence s = .ok () s ∧ Current s identity ∧ Matches s identity fence := by
  rcases check_identity_cases s identity with stale | ⟨passed,current⟩
  · left; simp [check_fence,stale]
  · by_cases same : task.assigned =
        some ⟨identity.node_id,identity.worker_epoch,identity.session_id,fence.lease_id⟩ ∧ task.attempt = fence.attempt
    · exact .inr ⟨by simp [check_fence,passed,found,ensure_of same],current,task,found,same⟩
    · left; simp [check_fence,passed,found,ensure_not same]

theorem increment_of {n bound : UInt32} (below : n < bound) (s : CoordinatorState) : increment n s = .ok (n + 1) s := by
  have room : n.toNat + 1 < 2^32 := by
    have := UInt32.lt_iff_toNat_lt.mp below
    have := bound.toNat_lt
    omega
  simp only [increment,if_pos room,pure_apply]

theorem decrement_of {n : UInt32} (positive : n ≠ 0) (s : CoordinatorState) : decrement n s = .ok (n - 1) s := by
  have room : 0 < n.toNat := by
    rw [← UInt32.toNat_zero]
    exact UInt32.lt_iff_toNat_lt.mp (UInt32.pos_iff_ne_zero.mpr positive)
  simp only [decrement,if_pos room,pure_apply]

/-- Giving the resources of a task back to a living worker frees it, or is refused
    and changes nothing. -/
theorem release_cases {node : NodeId} {worker : WorkerRecord} (found : s.workers.get node = some worker)
    (living : worker.state ≠ .Dead) (resources : ResourceSet) :
    (∃ e, release node resources s = .error (.Err e) s) ∨
      ∃ workers, release node resources s = .ok () { s with workers } ∧ Freed s.workers node resources workers := by
  by_cases room : worker.free_slots < worker.slots
  · rcases ResourceSet.add_capped_cases worker.available resources worker.total with ⟨next,added⟩ | ⟨message,refused⟩
    · refine .inr ⟨_,?_,.returned found living room added⟩
      simp [release,found,ensure_of room,onCopy,added,increment_of room]
    · left; simp [release,found,ensure_of room,onCopy,refused]
  · left; simp [release,found,ensure_not room]

/-- A report that is refused for its resources speaks of the current dispatch, and the worker
    could not take back what the task took. -/
def Unreturned (s : CoordinatorState) (identity : WorkerIdentity) (fence : TaskFence) (e : Error) : Prop :=
  ∀ message, e = .InvalidResource message → ∃ task, s.tasks.get fence.task_id = some task ∧ Matches s identity fence ∧
    release identity.node_id task.resources s = .error (.Err e) s

/-! ### Objects -/

/-- The coordinator takes the object: it has the same one already, or room for it. -/
def Takes (s : CoordinatorState) (id : ObjectId) (codec : Codec) (size_bytes : UInt64) (checksum : Checksum) : Prop :=
  match s.objects.get id with
  | some existing => existing.state = .Available ∧ existing.codec = some codec ∧ existing.size_bytes = some size_bytes ∧
      existing.checksum = some checksum
  | none => s.objects.len < MAX_OBJECTS

/-- The state once an object is taken. -/
inductive Admitted (s : CoordinatorState) (id : ObjectId) (codec : Codec) (size_bytes : UInt64) (checksum : Checksum)
    (bytes : Option (List UInt8)) : CoordinatorState → Prop where
  | known {existing : ObjectRecord} (found : s.objects.get id = some existing) (available : existing.state = .Available)
      (sameCodec : existing.codec = some codec) (sameSize : existing.size_bytes = some size_bytes)
      (sameDigest : existing.checksum = some checksum) : Admitted s id codec size_bytes checksum bytes s
  | stored (absent : s.objects.get id = none) : Admitted s id codec size_bytes checksum bytes { s with
      objects := s.objects.insert id (put_record id codec size_bytes checksum bytes)
      revision := s.revision + 1 }

theorem Admitted.tasks {id : ObjectId} {codec : Codec} {size_bytes : UInt64} {checksum : Checksum}
    {bytes : Option (List UInt8)} (admitted : Admitted s id codec size_bytes checksum bytes s') :
    s'.tasks = s.tasks := by
  cases admitted with
  | known => rfl
  | stored => rfl

theorem admit_object_ends (id : ObjectId) (codec : Codec) (size_bytes : UInt64) (checksum : Checksum)
    (bytes : Option (List UInt8)) :
    (s.Takes id codec size_bytes checksum ∧ ∃ s', admit_object id codec size_bytes checksum bytes s = .ok id s' ∧
        Admitted s id codec size_bytes checksum bytes s') ∨
      (¬ s.Takes id codec size_bytes checksum ∧
        ∃ e, admit_object id codec size_bytes checksum bytes s = .error (.Err e) s) := by
  cases found : s.objects.get id with
  | some existing =>
    by_cases same : existing.state = .Available ∧ existing.codec = some codec ∧ existing.size_bytes = some size_bytes ∧
        existing.checksum = some checksum
    · refine .inl ⟨by simpa only [Takes,found] using same,s,?_,.known found same.1 same.2.1 same.2.2.1 same.2.2.2⟩
      simp only [admit_object,bind_apply,get_apply,found,ensure_of same,pure_apply]
    · refine .inr ⟨by simpa only [Takes,found] using same,.ObjectConflict id,?_⟩
      simp only [admit_object,bind_apply,get_apply,found,ensure_not same,err_apply]
  | none =>
    by_cases room : s.objects.len < MAX_OBJECTS
    · refine .inl ⟨by simpa only [Takes,found] using room,_,?_,.stored found⟩
      simp only [admit_object,bind_apply,get_apply,found,ensure_of room,pure_apply,set_apply,changed,modify_apply]
      rfl
    · refine .inr ⟨by simpa only [Takes,found] using room,.CapacityExceeded "object store limit reached",?_⟩
      simp only [admit_object,bind_apply,get_apply,found,ensure_not room,err_apply]

/-- The object can be dropped: it is settled, and no live task takes it. -/
def Releasable (s : CoordinatorState) (id : ObjectId) : Prop :=
  match s.objects.get id with
  | some object => object.state ≠ .Reserved ∧ s.object_in_use id = false
  | none => True

/-- The state without an object and the task it came from; a worker that has the object is to delete it. -/
def dropped (s : CoordinatorState) (id : ObjectId) (object : ObjectRecord) : CoordinatorState :=
  { s with
    pending_deletes := match object.owner with
      | some owner =>
        if (s.workers.get owner).isSome then
          s.pending_deletes.insert owner ((s.pending_deletes.get owner).getD [] ++ [id])
        else s.pending_deletes
      | none => s.pending_deletes
    objects := s.objects.remove id
    tasks := s.tasks.retain fun task => task.output ≠ id
    revision := s.revision + 1 }

/-- The state once an object is released. -/
inductive Released (s : CoordinatorState) (id : ObjectId) : CoordinatorState → Prop where
  | before (absent : s.objects.get id = none) : Released s id s
  | drop {object : ObjectRecord} (found : s.objects.get id = some object) (settled : object.state ≠ .Reserved)
      (unused : s.object_in_use id = false) : Released s id (s.dropped id object)

/-- Any number of objects are released. -/
abbrev Releases : CoordinatorState → CoordinatorState → Prop := ReflTransGen fun u v => ∃ id, Released u id v

theorem Released.gone {id : ObjectId} (released : Released s id s') : s'.objects.get id = none := by
  cases released with
  | before absent => exact absent
  | drop found settled unused => simp only [dropped,Table.get_remove,if_true]

theorem release_object_cases (id : ObjectId) :
    (s.Releasable id ∧ ∃ s', release_object id s = .ok ⟨⟩ s' ∧ Released s id s') ∨
      (¬ s.Releasable id ∧ ∃ e, release_object id s = .error (.Err e) s) := by
  cases found : s.objects.get id with
  | none =>
    refine .inl ⟨by simp only [Releasable,found],s,?_,.before found⟩
    simp only [release_object,bind_apply,get_apply,found,pure_apply]
  | some object =>
    by_cases settled : object.state ≠ .Reserved
    swap
    · refine .inr ⟨by simp only [Releasable,found]; exact fun can => settled can.1,.ObjectInUse id,?_⟩
      simp only [release_object,bind_apply,get_apply,found,ensure_not settled,err_apply]
    by_cases unused : s.object_in_use id = false
    swap
    · refine .inr ⟨by simp only [Releasable,found]; exact fun can => unused can.2,.ObjectInUse id,?_⟩
      simp only [release_object,bind_apply,get_apply,found,ensure_of settled,ensure_not unused,pure_apply,err_apply]
    refine .inl ⟨by simp only [Releasable,found]; exact ⟨settled,unused⟩,_,?_,.drop found settled unused⟩
    simp only [release_object,bind_apply,get_apply,found,ensure_of settled,ensure_of unused,pure_apply,set_apply,changed,
      modify_apply]
    rfl

/-! ### Dependencies -/

/-- The task waits for an argument that is still to come, and for none that failed. -/
def Blocked (s : CoordinatorState) (id : TaskId) : Prop :=
  ∃ task, s.tasks.get id = some task ∧ s.dependency_failed task = false ∧ s.dependencies_available task = false

/-- Every task that waits is blocked. -/
def Reconciled (s : CoordinatorState) : Prop := ∀ id ∈ s.waiting, Blocked s id

/-- What the dependency pass does with a task that waits and is not blocked. -/
inductive Ripple (s : CoordinatorState) : CoordinatorState → Prop where
  | starve {id : TaskId} {task : TaskRecord} (found : s.tasks.get id = some task) (state : task.state = .Waiting)
      (failed : s.dependency_failed task = true) :
      Ripple s { s with
        tasks := s.tasks.modify id fun task => { task with state := .Failed "dependency failed" }
        waiting := s.waiting.erase id
        objects := s.objects.modify task.output fun object => { object with state := .Failed } }
  | wake {id : TaskId} {task : TaskRecord} (found : s.tasks.get id = some task) (state : task.state = .Waiting)
      (available : s.dependencies_available task = true) :
      Ripple s { s with
        tasks := s.tasks.modify id fun task => { task with state := .Runnable }
        waiting := s.waiting.erase id
        runnable := s.runnable ++ [id] }

/-- What the dependency pass may do on the way from one state to another. -/
abbrev Ripples : CoordinatorState → CoordinatorState → Prop := ReflTransGen Ripple

theorem Ripple.move (ripple : Ripple s s') (op : Op) : Move op s s' := by
  cases ripple with
  | starve found state failed => exact .starve found state failed
  | wake found state available => exact .wake found state available

theorem Ripples.moves (ripples : Ripples s s') (op : Op) : Moves op s s' := by
  have step : ∀ t t', Ripple t t' → Move op t t' := fun _ _ ripple => ripple.move op
  exact ReflTransGen.mono step _ _ ripples

theorem Ripples.workers (ripples : Ripples s s') : s'.workers = s.workers := by
  induction ripples with
  | refl => rfl
  | tail _ ripple ih =>
    cases ripple with
    | starve => exact ih
    | wake => exact ih

theorem Ripples.consistent (ripples : Ripples s s') (inv : Consistent s) : Consistent s' :=
  (ripples.moves (.reap_terminal_tasks 0)).consistent inv

/-- A pass leaves a waiting task alone when it is blocked, and otherwise takes it out of
    `waiting`. -/
theorem reconcile_task_ends (inv : Consistent s) {id : TaskId} (member : id ∈ s.waiting) (before : Bool) :
    reconcile_task before id s = .ok before s ∧ Blocked s id ∨
      ∃ s', reconcile_task before id s = .ok true s' ∧ Ripples s s' ∧ s'.waiting = s.waiting.erase id := by
  obtain ⟨task,found⟩ := inv.waiting id member
  have state := (inv.waiting_iff found).mp member
  obtain ⟨object,output⟩ := inv.output found
  by_cases failed : s.dependency_failed task = true
  · refine .inr ⟨_,?_,.single (.starve found state failed),rfl⟩
    simp only [reconcile_task,bind_apply,get_apply,found,unwrap_some,pure_apply,failed,if_true,task_mut,set_apply,
      modify_apply,object_mut,output]
  · by_cases available : s.dependencies_available task = true
    · refine .inr ⟨_,?_,.single (.wake found state available),rfl⟩
      simp only [reconcile_task,bind_apply,get_apply,found,unwrap_some,pure_apply,failed,available,if_true,if_false,
        Bool.false_eq_true,mark_runnable,modify_apply]
    · refine .inl ⟨?_,task,found,Bool.eq_false_iff.mpr failed,Bool.eq_false_iff.mpr available⟩
      simp only [reconcile_task,bind_apply,get_apply,found,unwrap_some,pure_apply,failed,available,if_false,
        Bool.false_eq_true]

/-- One pass: either everything was blocked and nothing changed, or fewer tasks wait. -/
theorem reconcile_pass_ends {ids : List TaskId} (before : Bool) (inv : Consistent s) (distinct : ids.Nodup)
    (members : ∀ id ∈ ids, id ∈ s.waiting) :
    ids.foldlM reconcile_task before s = .ok before s ∧ (∀ id ∈ ids, Blocked s id) ∨
      ∃ s', ids.foldlM reconcile_task before s = .ok true s' ∧ Ripples s s' ∧ s'.waiting.card < s.waiting.card := by
  induction ids generalizing before s with
  | nil => exact .inl ⟨rfl,by simp⟩
  | cons id rest ih =>
    obtain ⟨fresh,distinct⟩ := List.nodup_cons.mp distinct
    obtain ⟨here,members⟩ := List.forall_mem_cons.mp members
    simp only [List.foldlM_cons,bind_apply]
    rcases reconcile_task_ends inv here before with ⟨ran,blocked⟩ | ⟨t,ran,ripples,erased⟩
    · rw [ran]
      rcases ih before inv distinct members with ⟨ranRest,allBlocked⟩ | moved
      · exact .inl ⟨ranRest,List.forall_mem_cons.mpr ⟨blocked,allBlocked⟩⟩
      · exact .inr moved
    · rw [ran]
      have members : ∀ k ∈ rest, k ∈ t.waiting := by
        intro k later
        rw [erased,Finset.mem_erase]
        exact ⟨fun same => fresh (same ▸ later),members k later⟩
      have fewer : t.waiting.card < s.waiting.card := by
        rw [erased]
        exact Finset.card_erase_lt_of_mem here
      rcases ih true (ripples.consistent inv) distinct members with ⟨ranRest,_⟩ | ⟨s',ranRest,ripples',fewer'⟩
      · exact .inr ⟨t,ranRest,ripples,fewer⟩
      · exact .inr ⟨s',ranRest,ripples.trans ripples',fewer'.trans fewer⟩

/-- The dependency pass ends, and leaves every task that still waits blocked. -/
theorem reconcile_dependencies_ends (order : HashOrder) (inv : Consistent s) :
    ∃ s', reconcile_dependencies order s = .ok () s' ∧ Ripples s s' ∧ Reconciled s' := by
  suffices passes : ∀ (fuel : Nat) (t : CoordinatorState), Consistent t → t.waiting.card < fuel →
      ∃ s', reconcile_passes order fuel t = .ok () s' ∧ Ripples t s' ∧ Reconciled s' by
    simpa [reconcile_dependencies] using passes (s.waiting.card + 1) s inv (Nat.lt_succ_self _)
  intro fuel
  induction fuel with
  | zero => exact fun t _ few => absurd few (Nat.not_lt_zero _)
  | succ fuel ih =>
    intro t inv few
    have members : ∀ id ∈ order.tasks.list t.waiting, id ∈ t.waiting := fun id => (order.tasks.mem_list _ id).mp
    rcases reconcile_pass_ends false inv (order.tasks.nodup _) members with ⟨ran,blocked⟩ | ⟨t',ran,ripples,fewer⟩
    · refine ⟨t,?_,.refl,fun id member => blocked id ((order.tasks.mem_list _ id).mpr member)⟩
      simp only [reconcile_passes,bind_apply,get_apply,ran,Bool.false_eq_true,if_false,pure_apply]
    · obtain ⟨s',ran',ripples',rest⟩ := ih t' (ripples.consistent inv) (by omega)
      refine ⟨s',?_,ripples.trans ripples',rest⟩
      simp only [reconcile_passes,bind_apply,get_apply,ran,if_true,ran']

/-! ### Search of the queue -/

/-- The worker may be given the task at this moment. -/
structure Servable (worker : WorkerRecord) (now : Nat) (task : TaskRecord) : Prop where
  runnable : task.state = .Runnable
  due : task.not_before_ms ≤ now
  capable : (worker.operations.get task.operation).isSome = true ∧ worker.available.can_fit task.resources = true

/-- How often a search has an id in hand. -/
def Selection.total (sel : Selection) (id : TaskId) : Nat :=
  sel.requeue.count id + sel.passed.count id + sel.chosen.toList.count id + sel.rest.count id

section
variable (s : CoordinatorState) (worker : WorkerRecord) (node_id : NodeId) (now : Nat)

/-- The search keeps runnable ids and makes up none. -/
theorem select_total (queue requeue passed : List TaskId) (looked : Nat) (id : TaskId) :
    (select s worker node_id now queue requeue passed looked).total id ≤
        requeue.count id + passed.count id + queue.count id ∧
      (∀ task, s.tasks.get id = some task → task.state = .Runnable →
        (select s worker node_id now queue requeue passed looked).total id =
          requeue.count id + passed.count id + queue.count id) := by
  fun_induction select s worker node_id now queue requeue passed looked with
  | case1 requeue passed looked => simp [Selection.total]
  | case2 k queue requeue passed looked absent ih =>
    refine ⟨ih.1.trans (by simp [List.count_cons]),fun task found state => ?_⟩
    have other : k ≠ id := fun same => by rw [same,found] at absent; cases absent
    simpa [List.count_cons,other] using ih.2 task found state
  | case3 k queue requeue passed looked task' found' stale ih =>
    refine ⟨ih.1.trans (by simp [List.count_cons]),fun task found state => ?_⟩
    have other : k ≠ id := fun same => by
      rw [same,found] at found'
      cases found'
      exact stale state
    simpa [List.count_cons,other] using ih.2 task found state
  | case4 k queue requeue passed looked task' found' ready later ih
  | case5 k queue requeue passed looked task' found' ready due unfit ih
  | case8 k queue requeue passed looked task' found' ready due fit away more ih =>
    simp only [List.count_append,List.count_cons,List.count_nil] at ih ⊢
    refine ⟨by omega,fun task found state => ?_⟩
    have kept := ih.2 task found state
    omega
  | case6 k queue requeue passed looked task' found' ready due fit near =>
    simp only [Selection.total,Option.toList_some,List.count_cons,List.count_nil]
    exact ⟨by omega,fun _ _ _ => by omega⟩
  | case7 k queue requeue passed looked task' found' ready due fit away enough =>
    simp only [Selection.total,Option.toList_none,List.count_nil,List.count_append,List.count_cons]
    exact ⟨by omega,fun _ _ _ => by omega⟩

/-- Whatever the search sets aside for the worker can be given to it. -/
theorem select_servable (queue requeue passed : List TaskId) (looked : Nat)
    (before : ∀ id ∈ passed, ∃ task, s.tasks.get id = some task ∧ Servable worker now task) :
    (∀ id ∈ (select s worker node_id now queue requeue passed looked).passed,
        ∃ task, s.tasks.get id = some task ∧ Servable worker now task) ∧
      ∀ id, (select s worker node_id now queue requeue passed looked).chosen = some id →
        ∃ task, s.tasks.get id = some task ∧ Servable worker now task := by
  fun_induction select s worker node_id now queue requeue passed looked with
  | case1 requeue passed looked => exact ⟨before,by simp⟩
  | case2 k queue requeue passed looked absent ih => exact ih before
  | case3 k queue requeue passed looked task found stale ih => exact ih before
  | case4 k queue requeue passed looked task found ready later ih => exact ih before
  | case5 k queue requeue passed looked task found ready due unfit ih => exact ih before
  | case6 k queue requeue passed looked task found ready due fit near =>
    refine ⟨before,?_⟩
    rintro id ⟨⟩
    exact ⟨task,found,not_not.mp ready,not_lt.mp due,not_not.mp fit⟩
  | case7 k queue requeue passed looked task found ready due fit away enough =>
    refine ⟨?_,by simp⟩
    intro id member
    rcases List.mem_append.mp member with old | new
    · exact before id old
    · obtain rfl := List.mem_singleton.mp new
      exact ⟨task,found,not_not.mp ready,not_lt.mp due,not_not.mp fit⟩
  | case8 k queue requeue passed looked task found ready due fit away more ih =>
    refine ih fun id member => ?_
    rcases List.mem_append.mp member with old | new
    · exact before id old
    · obtain rfl := List.mem_singleton.mp new
      exact ⟨task,found,not_not.mp ready,not_lt.mp due,not_not.mp fit⟩

/-- A search without a pick met no task that the worker can serve, as such a task is set aside. -/
theorem select_none (queue requeue passed : List TaskId) (looked : Nat)
    (none : (select s worker node_id now queue requeue passed looked).pick = none) :
    passed = [] ∧ ∀ id ∈ queue, ∀ task, s.tasks.get id = some task → ¬ Servable worker now task := by
  -- What is passed over stays passed over, so that there would be a pick.
  have tail : ∀ {id : TaskId} {queue : List TaskId} {P : TaskId → Prop}, P id → (∀ k ∈ queue, P k) → ∀ k ∈ id :: queue, P k :=
    fun here there => List.forall_mem_cons.mpr ⟨here,there⟩
  fun_induction select s worker node_id now queue requeue passed looked with
  | case1 requeue passed looked => simpa [Selection.pick] using none
  | case2 k queue requeue passed looked absent ih =>
    exact (ih none).imp_right (tail fun task found => by rw [absent] at found; cases found)
  | case3 k queue requeue passed looked task' found' stale ih =>
    refine (ih none).imp_right (tail fun task found servable => ?_)
    obtain rfl := Option.some.inj (found'.symm.trans found)
    exact stale servable.runnable
  | case4 k queue requeue passed looked task' found' ready later ih =>
    refine (ih none).imp_right (tail fun task found servable => ?_)
    obtain rfl := Option.some.inj (found'.symm.trans found)
    exact absurd servable.due (not_le.mpr later)
  | case5 k queue requeue passed looked task' found' ready due unfit ih =>
    refine (ih none).imp_right (tail fun task found servable => ?_)
    obtain rfl := Option.some.inj (found'.symm.trans found)
    exact unfit servable.capable
  | case6 => simp [Selection.pick] at none
  | case7 k queue requeue passed => cases passed <;> simp [Selection.pick] at none
  | case8 k queue requeue passed looked task found ready due fit away more ih => cases passed <;> simp at ih <;> exact (ih none).elim

end

/-- Without a pick nothing was set aside. -/
theorem Selection.queue_none {sel : Selection} (none : sel.pick = none) (id : TaskId) : sel.queue.count id = sel.total id := by
  cases chosen : sel.chosen with
  | some id => simp [Selection.pick,chosen] at none
  | none =>
    have empty : sel.passed = [] := by
      cases passed : sel.passed with
      | nil => rfl
      | cons first rest => simp [Selection.pick,chosen,passed] at none
    simp only [Selection.queue,Selection.total,chosen,empty,List.filter_nil,List.nil_append,List.count_append,List.count_nil,
      Option.toList_none]
    omega

/-- Apart from the pick, everything goes back to the queue. -/
theorem Selection.queue_other {sel : Selection} {picked : TaskId} {near : Bool} (pick : sel.pick = some (picked,near))
    {id : TaskId} (other : id ≠ picked) : sel.queue.count id = sel.total id := by
  have unchosen : sel.chosen.toList.count id = 0 := by
    cases chosen : sel.chosen with
    | none => rfl
    | some k =>
      simp only [Selection.pick,chosen,Option.some.injEq,Prod.mk.injEq] at pick
      simp [pick.1,Ne.symm other]
  have kept : (sel.passed.filter fun k => (sel.pick.map (·.1)) ≠ some k).count id = sel.passed.count id :=
    List.count_filter (by simp [pick,Ne.symm other])
  simp only [Selection.queue,Selection.total,List.count_append,kept,unchosen]
  omega

/-- The pick was in hand, and it does not go back to the queue from there. -/
theorem Selection.queue_picked {sel : Selection} {picked : TaskId} {near : Bool} (pick : sel.pick = some (picked,near)) :
    (picked ∈ sel.passed ∨ sel.chosen = some picked) ∧ sel.queue.count picked + 1 ≤ sel.total picked := by
  have dropped : (sel.passed.filter fun k => (sel.pick.map (·.1)) ≠ some k).count picked = 0 := by
    rw [List.count_eq_zero,pick]
    simp
  cases chosen : sel.chosen with
  | some k =>
    simp only [Selection.pick,chosen,Option.some.injEq,Prod.mk.injEq] at pick
    refine ⟨.inr (congrArg some pick.1),?_⟩
    simp only [Selection.queue,Selection.total,List.count_append,dropped,chosen,pick.1,Option.toList_some,
      List.count_singleton_self]
    omega
  | none =>
    have member : picked ∈ sel.passed := by
      cases passed : sel.passed with
      | nil => simp [Selection.pick,chosen,passed] at pick
      | cons first rest =>
        simp only [Selection.pick,chosen,passed,List.head?_cons,Option.map_some,Option.some.injEq,Prod.mk.injEq] at pick
        simp [pick.1]
    refine ⟨.inl member,?_⟩
    have counted := List.count_pos_iff.mpr member
    simp only [Selection.queue,Selection.total,List.count_append,dropped]
    omega

/-! ### The sweep -/

/-- One step of the sweep that takes the tasks of workers back whose lease ran out. -/
inductive Sweep (now : Nat) (s : CoordinatorState) : CoordinatorState → Prop where
  | mark {node : NodeId} {worker : WorkerRecord} (found : s.workers.get node = some worker)
      (due : worker.lease_deadline_ms ≤ now) :
      Sweep now s { s with workers := s.workers.modify node fun worker => { worker with state := .Dead } }
  | cancelled {id : TaskId} {task : TaskRecord} {a : Assigned} {worker : WorkerRecord}
      (found : s.tasks.get id = some task) (state : task.state = .CancelRequested) (assigned : task.assigned = some a)
      (at_worker : s.workers.get a.node = some worker) (dead : worker.state = .Dead) :
      Sweep now s { s with
        cancel_requested := s.cancel_requested.erase id
        tasks := s.tasks.modify id fun task => { task with state := .Cancelled, assigned := none }
        objects := s.objects.modify task.output fun object => { object with state := .Cancelled } }
  | retried {id : TaskId} {task : TaskRecord} {a : Assigned} {worker : WorkerRecord}
      (found : s.tasks.get id = some task) (state : task.state = .Assigned ∨ task.state = .Running)
      (assigned : task.assigned = some a) (at_worker : s.workers.get a.node = some worker) (dead : worker.state = .Dead)
      (budget : task.attempt < task.max_attempts) :
      Sweep now s { s with
        tasks := s.tasks.modify id fun record => { record with
          state := .Runnable
          assigned := none
          not_before_ms := saturating_add now (retry_backoff_ms task.attempt) }
        waiting := s.waiting.erase id
        runnable := s.runnable ++ [id]
        retries_total := s.retries_total + 1 }
  | failed {id : TaskId} {task : TaskRecord} {a : Assigned} {worker : WorkerRecord}
      (found : s.tasks.get id = some task) (state : task.state = .Assigned ∨ task.state = .Running)
      (assigned : task.assigned = some a) (at_worker : s.workers.get a.node = some worker) (dead : worker.state = .Dead)
      (exhausted : ¬ task.attempt < task.max_attempts) :
      Sweep now s { s with
        tasks := s.tasks.modify id fun task => { task with state := .Failed "worker lease expired", assigned := none }
        objects := s.objects.modify task.output fun object => { object with state := .Failed }
        failures_total := s.failures_total + 1 }
  | evict {node : NodeId} {worker : WorkerRecord} (found : s.workers.get node = some worker) (dead : worker.state = .Dead)
      (idle : ∀ id task, s.tasks.get id = some task → task.on node = false) :
      Sweep now s { s with
        objects := s.objects.mapValues (orphan node)
        workers := s.workers.remove node
        pending_deletes := s.pending_deletes.remove node }

abbrev Swept (now : Nat) : CoordinatorState → CoordinatorState → Prop := ReflTransGen (Sweep now)

theorem Sweep.moves {now : Nat} (sweep : Sweep now s s') : Moves (.expire_workers now) s s' := by
  cases sweep with
  | mark found due => exact .single (.expire rfl)
  | cancelled found state assigned at_worker dead =>
    exact .single (.acknowledge found state assigned (.dropped at_worker dead))
  | retried found state assigned at_worker dead budget =>
    exact .tail (.single (.retry _ found state assigned budget (.dropped at_worker dead))) (.count le_rfl _ _ _ _ _)
  | failed found state assigned at_worker dead exhausted =>
    exact .tail (.single (.fail _ found state assigned (.dropped at_worker dead))) (.count le_rfl _ _ _ _ _)
  | evict found dead idle => exact .single (.evict idle)

theorem Swept.moves {now : Nat} (swept : Swept now s s') : Moves (.expire_workers now) s s' := by
  induction swept with
  | refl => exact .refl
  | tail _ sweep ih => exact ih.trans sweep.moves

theorem Swept.consistent {now : Nat} (swept : Swept now s s') (inv : Consistent s) : Consistent s' :=
  swept.moves.consistent inv

/-! ### Effects -/

/-- What an operation that returned a value did. -/
inductive Effect (blake3 : List UInt8 → Checksum) : Op → CoordinatorState → Reply → CoordinatorState → Prop where
  | renewed {s : CoordinatorState} {request : RegisterWorker} {now lease_ms : Nat} {session_id : WorkerSessionId}
      {operations : Table OperationKey OperationDescriptor} {existing : WorkerRecord}
      (collected : collect_operations s.operations request.operations .empty = .ok operations)
      (found : s.workers.get request.node_id = some existing)
      (same : existing.identity.worker_epoch = request.worker_epoch ∧ existing.advertise_addr = request.advertise_addr ∧
        existing.total = request.resources ∧ existing.slots = request.slots ∧ existing.operations = operations) :
      Effect blake3 (.register_worker request now lease_ms session_id) s (.Identity existing.identity) { s with
        workers := s.workers.modify request.node_id fun existing =>
          { existing with lease_deadline_ms := saturating_add now lease_ms }
        revision := s.revision + 1 }
  | enrolled {s : CoordinatorState} {request : RegisterWorker} {now lease_ms : Nat} {session_id : WorkerSessionId}
      {operations : Table OperationKey OperationDescriptor}
      (address : validate_advertise_addr request.advertise_addr = .ok ())
      (collected : collect_operations s.operations request.operations .empty = .ok operations)
      (absent : s.workers.get request.node_id = none) :
      Effect blake3 (.register_worker request now lease_ms session_id) s
        (.Identity ⟨request.node_id,request.worker_epoch,session_id,s.epoch⟩) { s with
          operations := s.operations.extend operations
          workers := s.workers.insert request.node_id {
            identity := ⟨request.node_id,request.worker_epoch,session_id,s.epoch⟩
            state := .Alive
            advertise_addr := request.advertise_addr
            total := request.resources
            available := request.resources
            slots := request.slots
            free_slots := request.slots
            operations
            lease_deadline_ms := saturating_add now lease_ms }
          revision := s.revision + 1 }
  | beat {s : CoordinatorState} {identity : WorkerIdentity} {now lease_ms : Nat} (current : Current s identity) :
      Effect blake3 (.heartbeat identity now lease_ms) s .Done { s with
        workers := s.workers.modify identity.node_id fun worker =>
          { worker with lease_deadline_ms := saturating_add now lease_ms } }
  | put {s s' : CoordinatorState} {codec : Codec} {bytes : List UInt8}
      (admitted : Admitted s (.from_checksum (blake3 bytes)) codec (.ofNat bytes.length) (blake3 bytes) (some bytes) s') :
      Effect blake3 (.put codec bytes) s (.Put ⟨.from_checksum (blake3 bytes),blake3 bytes,bytes⟩) s'
  | put_meta {s s' : CoordinatorState} {id : ObjectId} {codec : Codec} {size_bytes : UInt64} {checksum : Checksum}
      (admitted : Admitted s id codec size_bytes checksum none s') :
      Effect blake3 (.put_meta id codec size_bytes checksum) s (.Object id) s'
  | submitted {s : CoordinatorState} {operation : OperationKey} {args : List TaskArg} {resources : ResourceSet}
      {max_attempts : UInt32} {id : TaskId} {output : ObjectId} {descriptor : OperationDescriptor} {blocked : Bool}
      (attempts : max_attempts ≠ 0) (offered : s.operations.get operation = some descriptor)
      (valid : descriptor.validate_args args = .ok ())
      (capable : (s.workers.any fun worker => worker.state = .Alive && (worker.operations.get operation).isSome &&
        worker.total.can_fit resources) = true)
      (admitted : s.admit_args descriptor.input_codec args false = .ok blocked) :
      Effect blake3 (.submit operation args resources max_attempts id output) s (.Submitted id output) { s with
        objects := s.objects.insert output
          { id := output, state := .Reserved, codec := some descriptor.output_codec, bytes := none, size_bytes := none,
            checksum := none, location := none, owner := none }
        tasks := s.tasks.insert id
          { id, operation, args, output, resources, max_attempts, attempt := 0
            state := if blocked then .Waiting else .Runnable
            assigned := none, not_before_ms := 0, terminal_since_ms := 0 }
        waiting := if blocked then insert id s.waiting else s.waiting
        runnable := if blocked then s.runnable else s.runnable ++ [id]
        revision := s.revision + 1 }
  | busy {s : CoordinatorState} {node_id : NodeId} {now : Nat} {lease : LeaseId} {worker : WorkerRecord}
      (found : s.workers.get node_id = some worker) (busy : worker.state ≠ .Alive ∨ worker.free_slots = 0) :
      Effect blake3 (.assign_next node_id now lease) s (.Assignment none) s
  | searched {s : CoordinatorState} {node_id : NodeId} {now : Nat} {lease : LeaseId} {queue : List TaskId}
      (requeued : Requeued s queue) :
      Effect blake3 (.assign_next node_id now lease) s (.Assignment none) { s with runnable := queue }
  | assigned {s : CoordinatorState} {node_id : NodeId} {now : Nat} {lease : LeaseId} {id : TaskId} {queue : List TaskId}
      {task : TaskRecord} {worker : WorkerRecord} {available : ResourceSet} (requeued : Requeued s (id :: queue))
      (found : s.tasks.get id = some task) (at_worker : s.workers.get node_id = some worker)
      (alive : worker.state = .Alive) (free : worker.free_slots ≠ 0) (servable : Servable worker now task)
      (budget : task.attempt < task.max_attempts)
      (taken : ResourceSet.subtract task.resources worker.available = .ok () available) (assigns owned hits : Nat) :
      Effect blake3 (.assign_next node_id now lease) s
        (.Assignment (some ⟨⟨id,task.attempt + 1,lease⟩,task.operation,task.args,task.output,task.resources⟩)) { s with
          runnable := queue
          workers := s.workers.modify node_id fun w => { w with available, free_slots := worker.free_slots - 1 }
          tasks := s.tasks.modify id fun t => { t with
            attempt := task.attempt + 1
            state := .Assigned
            assigned := some ⟨node_id,worker.identity.worker_epoch,worker.identity.session_id,lease⟩ }
          sched_assigns := assigns
          sched_owned_input := owned
          sched_local_hits := hits
          revision := s.revision + 1 }
  | started_before {s : CoordinatorState} {identity : WorkerIdentity} {fence : TaskFence} {task : TaskRecord}
      (found : s.tasks.get fence.task_id = some task) (running : task.state = .Running) :
      Effect blake3 (.started identity fence) s .Done s
  | started {s : CoordinatorState} {identity : WorkerIdentity} {fence : TaskFence} {task : TaskRecord}
      (current : Current s identity) (matching : Matches s identity fence) (found : s.tasks.get fence.task_id = some task)
      (assigned : task.state = .Assigned) :
      Effect blake3 (.started identity fence) s .Done { s with
        tasks := s.tasks.modify fence.task_id fun task => { task with state := .Running }
        revision := s.revision + 1 }
  | completed_before {s : CoordinatorState} {identity : WorkerIdentity} {report : TaskCompletion} {task : TaskRecord}
      (found : s.tasks.get report.fence.task_id = some task) (done : task.state = .Succeeded) :
      Effect blake3 (.complete identity report) s .Done s
  | completed {s t : CoordinatorState} {identity : WorkerIdentity} {report : TaskCompletion} {task : TaskRecord}
      {worker : WorkerRecord} {descriptor : OperationDescriptor} {object : ObjectRecord}
      {workers : Table NodeId WorkerRecord} (current : Current s identity) (matching : Matches s identity report.fence)
      (found : s.tasks.get report.fence.task_id = some task) (state : task.state = .Assigned ∨ task.state = .Running)
      (at_worker : s.workers.get identity.node_id = some worker) (living : worker.state ≠ .Dead)
      (offered : s.operations.get task.operation = some descriptor)
      (verified : (report.bytes.all fun bytes =>
        UInt64.ofNat bytes.length = report.size_bytes && blake3 bytes = report.checksum) = true)
      (output : s.objects.get task.output = some object)
      (accepted : object.state = .Reserved ∧ report.codec = descriptor.output_codec ∧
        report.location = worker.advertise_addr ∧ report.size_bytes ≤ UInt64.ofNat MAX_OBJECT_BYTES)
      (freed : Freed s.workers identity.node_id task.resources workers)
      (ripples : Ripples { s with
        workers
        tasks := s.tasks.modify report.fence.task_id fun task => { task with state := .Succeeded, assigned := none }
        objects := s.objects.modify task.output (reported_output identity report) } t) (reconciled : Reconciled t) :
      Effect blake3 (.complete identity report) s .Done { t with revision := t.revision + 1 }
  | failed_before {s : CoordinatorState} {identity : WorkerIdentity} {fence : TaskFence} {message : String}
      {«class» : FailureClass} {now : Nat} {task : TaskRecord} (found : s.tasks.get fence.task_id = some task)
      (terminal : task.state.is_terminal = true) :
      Effect blake3 (.fail identity fence message «class» now) s (.Failed false) s
  | retried {s : CoordinatorState} {identity : WorkerIdentity} {fence : TaskFence} {message : String}
      {«class» : FailureClass} {now : Nat} {task : TaskRecord} {workers : Table NodeId WorkerRecord}
      (current : Current s identity) (matching : Matches s identity fence) (found : s.tasks.get fence.task_id = some task)
      (state : task.state = .Assigned ∨ task.state = .Running)
      (retry : «class» = .Transient ∧ task.attempt < task.max_attempts)
      (freed : Freed s.workers identity.node_id task.resources workers) :
      Effect blake3 (.fail identity fence message «class» now) s (.Failed false) { s with
        workers
        tasks := s.tasks.modify fence.task_id fun record => { record with
          state := .Runnable
          assigned := none
          not_before_ms := saturating_add now (retry_backoff_ms task.attempt) }
        waiting := s.waiting.erase fence.task_id
        runnable := s.runnable ++ [fence.task_id]
        retries_total := s.retries_total + 1
        revision := s.revision + 1 }
  | failed {s t : CoordinatorState} {identity : WorkerIdentity} {fence : TaskFence} {message : String}
      {«class» : FailureClass} {now : Nat} {task : TaskRecord} {workers : Table NodeId WorkerRecord}
      (current : Current s identity) (matching : Matches s identity fence) (found : s.tasks.get fence.task_id = some task)
      (state : task.state = .Assigned ∨ task.state = .Running)
      (final : ¬ («class» = .Transient ∧ task.attempt < task.max_attempts))
      (freed : Freed s.workers identity.node_id task.resources workers)
      (ripples : Ripples { s with
        workers
        tasks := s.tasks.modify fence.task_id fun task => { task with state := .Failed message, assigned := none }
        objects := s.objects.modify task.output fun object => { object with state := .Failed } } t) (reconciled : Reconciled t) :
      Effect blake3 (.fail identity fence message «class» now) s (.Failed true) { t with
        failures_total := t.failures_total + 1
        revision := t.revision + 1 }
  | unexpired {s : CoordinatorState} {now : Nat}
      (calm : ∀ node worker, s.workers.get node = some worker → now < worker.lease_deadline_ms) :
      Effect blake3 (.expire_workers now) s (.Expired []) s
  | expired {s t u : CoordinatorState} {now : Nat} (report : List WorkerExpiry) (swept : Swept now s t)
      (workers : ∀ node, t.workers.get node = (s.workers.get node).filter fun worker => now < worker.lease_deadline_ms)
      (ripples : Ripples t u) (reconciled : Reconciled u) :
      Effect blake3 (.expire_workers now) s (.Expired report) { u with revision := u.revision + 1 }
  | reaped {s t : CoordinatorState} {now : Nat} (count : Nat)
      (released : Releases { s with tasks := s.tasks.mapValues (stamp now) } t) :
      Effect blake3 (.reap_terminal_tasks now) s (.Reclaimed count) t
  | drained {s : CoordinatorState} {identity : WorkerIdentity} (current : Current s identity) :
      Effect blake3 (.drain identity) s .Done { s with
        workers := s.workers.modify identity.node_id fun worker => { worker with state := .Draining }
        revision := s.revision + 1 }
  | acknowledged_before {s : CoordinatorState} {identity : WorkerIdentity} {fence : TaskFence} {task : TaskRecord}
      (found : s.tasks.get fence.task_id = some task) (ended : task.state = .Cancelled) :
      Effect blake3 (.acknowledge_cancel identity fence) s .Done s
  | acknowledged {s t : CoordinatorState} {identity : WorkerIdentity} {fence : TaskFence} {task : TaskRecord}
      {workers : Table NodeId WorkerRecord} (current : Current s identity) (matching : Matches s identity fence)
      (found : s.tasks.get fence.task_id = some task) (state : task.state = .CancelRequested)
      (freed : Freed s.workers identity.node_id task.resources workers)
      (ripples : Ripples { s with
        workers
        cancel_requested := s.cancel_requested.erase fence.task_id
        tasks := s.tasks.modify fence.task_id fun task => { task with state := .Cancelled, assigned := none }
        objects := s.objects.modify task.output fun object => { object with state := .Cancelled } } t) (reconciled : Reconciled t) :
      Effect blake3 (.acknowledge_cancel identity fence) s .Done { t with revision := t.revision + 1 }
  | requested_before {s : CoordinatorState} {id : TaskId} {task : TaskRecord} (found : s.tasks.get id = some task)
      (requested : task.state = .CancelRequested) : Effect blake3 (.cancel id) s .Done s
  | requested {s : CoordinatorState} {id : TaskId} {task : TaskRecord} (found : s.tasks.get id = some task)
      (state : task.state = .Assigned ∨ task.state = .Running) :
      Effect blake3 (.cancel id) s .Done { s with
        tasks := s.tasks.modify id fun task => { task with state := .CancelRequested }
        cancel_requested := insert id s.cancel_requested
        revision := s.revision + 1 }
  | cancelled {s t : CoordinatorState} {id : TaskId} {task : TaskRecord} (found : s.tasks.get id = some task)
      (state : task.state = .Waiting ∨ task.state = .Runnable)
      (ripples : Ripples { s with
        tasks := s.tasks.modify id fun task => { task with state := .Cancelled }
        waiting := s.waiting.erase id
        objects := s.objects.modify task.output fun object => { object with state := .Cancelled } } t) (reconciled : Reconciled t) :
      Effect blake3 (.cancel id) s .Done { t with revision := t.revision + 1 }
  | released {s s' : CoordinatorState} {id : ObjectId} (released : Released s id s') :
      Effect blake3 (.release_object id) s .Done s'
  | taken {s : CoordinatorState} {node : NodeId} :
      Effect blake3 (.take_pending_deletes node) s (.Deletes ((s.pending_deletes.get node).getD []))
        { s with pending_deletes := s.pending_deletes.remove node }

end Crayon.CoordinatorState
