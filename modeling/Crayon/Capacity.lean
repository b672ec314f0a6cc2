import Crayon.Fifo
import Crayon.Reclaim

/-!
How much the coordinator holds. The tables are limited where entries are admitted,
and the indices of blocked and of cancelling tasks list tasks of the table. The
queue lists an id at most once; but only polls take ids out of it, so that the id
of a task that was cancelled while it was queued stays there when the task is
released. As long as no task is dropped from the table while its id is queued,
the queue is limited with the table.
-/
namespace Crayon.CoordinatorState
open Command

/-- What the coordinator holds is limited. -/
structure Bounded (s : CoordinatorState) : Prop where
  tasks : s.tasks.len ≤ MAX_TASKS
  objects : s.objects.len ≤ MAX_OBJECTS
  indices : s.waiting.card + s.cancel_requested.card ≤ s.tasks.len
  queue : s.runnable.length ≤ MAX_TASKS

section
variable {s s' : CoordinatorState} {op : Op} {blake3 : List UInt8 → Checksum} {reply : Reply} {id : TaskId} {oid : ObjectId}

/-! ### The tables -/

/-- There is room left for a submission that is accepted. -/
theorem submit_room {operation : OperationKey} {args : List TaskArg} {resources : ResourceSet} {max_attempts : UInt32}
    {output : ObjectId} {ids : TaskId × ObjectId} (ran : submit operation args resources max_attempts id output s = .ok ids s') :
    s.tasks.len < MAX_TASKS ∧ s.objects.len < MAX_OBJECTS := by
  by_cases attempts : max_attempts ≠ 0
  swap
  · simp [submit,ensure_not attempts] at ran
  by_cases taskRoom : s.tasks.len < MAX_TASKS
  swap
  · simp [submit,ensure_of attempts,ensure_not taskRoom] at ran
  by_cases objectRoom : s.objects.len < MAX_OBJECTS
  swap
  · simp [submit,ensure_of attempts,ensure_of taskRoom,ensure_not objectRoom] at ran
  exact ⟨taskRoom,objectRoom⟩

/-- An object that is taken is there already, or there is room left for it. -/
theorem admit_object_room {codec : Codec} {size_bytes : UInt64} {checksum : Checksum} {bytes : Option (List UInt8)}
    {id : ObjectId} (ran : admit_object oid codec size_bytes checksum bytes s = .ok id s') (room : s.objects.len ≤ MAX_OBJECTS) :
    s'.objects.len ≤ MAX_OBJECTS := by
  rcases admit_object_ends oid codec size_bytes checksum bytes with ⟨takes,t,ran',admitted⟩ | ⟨_,e,refused⟩
  · obtain ⟨rfl,rfl⟩ := EStateM.Result.ok.inj (ran'.symm.trans ran)
    cases admitted with
    | known => exact room
    | stored absent =>
      simp only [Takes,absent] at takes
      exact (Finset.card_insert_le _ _).trans takes
  · rw [refused] at ran
    cases ran

/-- Only a submission adds a task. -/
theorem Move.tasks_origin (move : Move op s s') (there : id ∈ s'.tasks.keys) : id ∈ s.tasks.keys ∨ .task id ∈ op.minted := by
  cases move with
  | submit codec newTask unqueued newOutput submitted =>
    rcases Finset.mem_insert.mp there with rfl | there
    · exact .inr submitted.minted
    · exact .inl there
  | release => exact .inl (Finset.mem_filter.mp there).1
  | _ => exact .inl there

/-- Only a submission or a put adds an object. -/
theorem Move.objects_origin (move : Move op s s') (there : oid ∈ s'.objects.keys) : oid ∈ s.objects.keys ∨
    (.object oid ∈ op.minted ∨ ∃ codec size_bytes checksum bytes, op = .storing oid codec size_bytes checksum bytes) := by
  cases move with
  | store absent source =>
    rcases Finset.mem_insert.mp there with rfl | there
    · exact .inr (.inr ⟨_,_,_,_,source⟩)
    · exact .inl there
  | submit codec newTask unqueued newOutput submitted =>
    rcases Finset.mem_insert.mp there with rfl | there
    · exact .inr (.inl submitted.drawn)
    · exact .inl there
  | release => exact .inl (Finset.mem_of_mem_erase there)
  | _ => exact .inl there

/-- The tables are within their limits. -/
structure Roomy (s : CoordinatorState) : Prop where
  tasks : s.tasks.len ≤ MAX_TASKS
  objects : s.objects.len ≤ MAX_OBJECTS

/-- The operation may bring in a task or an object. -/
def Op.Adds : Op → Prop
  | .submit .. | .put .. | .put_meta .. => True
  | _ => False

/-- Operations that add nothing keep the tables within their limits. -/
theorem Moves.roomy (moves : Moves op s s') (roomy : Roomy s) (adds : ¬ op.Adds) : Roomy s' where
  tasks := by
    refine (Finset.card_le_card fun id there => ?_).trans roomy.tasks
    refine (moves.origin (fun _ _ move => move.tasks_origin) there).resolve_right fun drawn => adds ?_
    cases op <;> simp_all [Op.minted,Op.Adds]
  objects := by
    refine (Finset.card_le_card fun oid there => ?_).trans roomy.objects
    refine (moves.origin (fun _ _ move => move.objects_origin) there).resolve_right ?_
    rintro (drawn | ⟨codec,size_bytes,checksum,bytes,rfl⟩)
    · cases op <;> simp_all [Op.minted,Op.Adds]
    · cases bytes <;> exact adds trivial

theorem apply_roomy (blake3 : List UInt8 → Checksum) (order : HashOrder) (inv : Inv s) (newTo : op.NewTo s) (roomy : Roomy s) :
    Roomy (Outcome.state (apply blake3 order op s)) := by
  by_cases adds : op.Adds
  swap
  · exact (apply_moves blake3 order inv newTo).roomy roomy adds
  have atomic := apply_effect blake3 order inv.consistent inv.alive op
  match returned : apply blake3 order op s,atomic with
  | .error (.Err e) t,same =>
    obtain rfl : t = s := same
    exact roomy
  | .ok reply s',effect =>
    cases effect with
    | put admitted =>
      obtain ⟨outcome,t,ran,done⟩ := bind_ok returned
      obtain ⟨_,rfl⟩ := EStateM.Result.ok.inj done
      obtain ⟨oid,u,admits,done⟩ := bind_ok ran
      obtain ⟨_,rfl⟩ := EStateM.Result.ok.inj done
      exact ⟨admitted.tasks ▸ roomy.tasks,admit_object_room admits roomy.objects⟩
    | put_meta admitted =>
      obtain ⟨oid,t,ran,done⟩ := bind_ok returned
      obtain ⟨_,rfl⟩ := EStateM.Result.ok.inj done
      exact ⟨admitted.tasks ▸ roomy.tasks,admit_object_room ran roomy.objects⟩
    | submitted =>
      obtain ⟨ids,t,ran,done⟩ := bind_ok returned
      obtain ⟨tasks,objects⟩ := submit_room ran
      exact ⟨(Finset.card_insert_le _ _).trans tasks,(Finset.card_insert_le _ _).trans objects⟩
    | _ => exact adds.elim

/-! ### The queue -/

/-- Nothing is queued twice: what is put in the queue was not in it. -/
theorem Move.queue_nodup (move : Move op s s') (inv : Consistent s) (nodup : s.runnable.Nodup) : s'.runnable.Nodup := by
  have appended : ∀ {id task}, s.tasks.get id = some task → (task.state = .Waiting ∨ task.state = .Assigned ∨ task.state = .Running) →
      (s.runnable ++ [id]).Nodup := by
    intro id task found state
    have legal := inv.legal id task found
    have unqueued : s.runnable.count id = 0 := by
      rcases state with state | state | state <;> simp only [view,View.Legal,state] at legal
      · exact legal.2.2.2.2.2
      · exact legal.2.2.2.2
      · exact legal.2.2.2.2
    exact List.nodup_append.mpr ⟨nodup,by simp,by rintro a member b last rfl; simp_all⟩
  cases move with
  | submit codec newTask unqueued =>
    dsimp only
    split
    · exact nodup
    · exact List.nodup_append.mpr ⟨nodup,by simp,by rintro a member b last rfl; simp_all⟩
  | requeue same =>
    refine List.nodup_iff_count_le_one.mpr fun id => ?_
    exact (same.bounded id).trans (List.nodup_iff_count_le_one.mp nodup id)
  | assign head => exact (List.nodup_cons.mp (head ▸ nodup)).2
  | retry _ found state => exact appended found (.inr state)
  | wake found state => exact appended found (.inl state)
  | _ => exact nodup

theorem Run.queue_nodup {epoch : CoordinatorEpoch} {past : List Step} (run : Run blake3 epoch past s) : s.runnable.Nodup := by
  induction run with
  | start => exact List.nodup_nil
  | @step past s run order op fresh ih =>
    exact (apply_moves blake3 order run.inv (run.newTo fresh)).with_consistent run.inv.consistent
      (fun _ _ inv move => move.queue_nodup inv) ih

/-- Every queued id is that of a task. -/
def Listed (s : CoordinatorState) : Prop := ∀ id ∈ s.runnable, id ∈ s.tasks.keys

/-- The operation drops no task whose id is queued. -/
def Op.Spares (s : CoordinatorState) : Op → Prop
  | .release_object oid => ∀ id ∈ s.runnable, ∀ task, s.tasks.get id = some task → task.state.is_terminal = true →
      s.object_in_use oid = false → task.output ≠ oid
  | .reap_terminal_tasks now => ∀ id ∈ s.runnable, ∀ task, s.tasks.get id = some task → ¬ Overdue s now task
  | _ => True

theorem Ripples.task_keys (ripples : Ripples s s') : s'.tasks.keys = s.tasks.keys := by
  induction ripples with
  | refl => rfl
  | tail _ ripple ih => cases ripple <;> exact ih

theorem Swept.task_keys {now : Nat} (swept : Swept now s s') : s'.tasks.keys = s.tasks.keys := by
  induction swept with
  | refl => rfl
  | tail _ sweep ih => cases sweep <;> exact ih

/-- Tasks are dropped by releases and sweeps only. -/
theorem Effect.task_keys (effect : Effect blake3 op s reply s') (kept : ∀ oid, op ≠ .release_object oid)
    (untimed : ∀ now, op ≠ .reap_terminal_tasks now) : s.tasks.keys ⊆ s'.tasks.keys := by
  cases effect with
  | put admitted => rw [admitted.tasks]
  | put_meta admitted => rw [admitted.tasks]
  | submitted => exact Finset.subset_insert _ _
  | completed _ _ _ _ _ _ _ _ _ _ _ ripples => exact ripples.task_keys.symm.subset
  | failed _ _ _ _ _ _ ripples => exact ripples.task_keys.symm.subset
  | expired _ swept _ ripples => exact (ripples.task_keys.trans swept.task_keys).symm.subset
  | acknowledged _ _ _ _ _ ripples => exact ripples.task_keys.symm.subset
  | cancelled _ _ ripples => exact ripples.task_keys.symm.subset
  | reaped => exact absurd rfl (untimed _)
  | released => exact absurd rfl (kept _)
  | _ => exact Finset.Subset.refl _

theorem Released.listed (released : Released s oid s') (inv : Consistent s) (spares : Op.Spares s (.release_object oid))
    (listed : Listed s) : Listed s' := by
  cases released with
  | before => exact listed
  | @drop object found settled unused =>
    intro id queued
    obtain ⟨task,there⟩ := Table.mem_keys_iff.mp (listed id queued)
    have different : task.output ≠ oid := by
      rintro rfl
      have terminal : task.state.is_terminal = true := by
        simpa using mt (inv.reserved_iff there found).mpr settled
      exact spares id queued task there terminal unused rfl
    refine Table.mem_keys_iff.mpr ⟨task,?_⟩
    simp [dropped,there,Option.filter,different]

theorem Reclaims.listed {now count : Nat} (reclaims : Reclaims s now count s') (spares : Op.Spares s (.reap_terminal_tasks now))
    (listed : Listed s) : Listed s' := by
  intro id queued
  rw [reclaims.rest] at queued
  obtain ⟨task,there⟩ := Table.mem_keys_iff.mp (listed id queued)
  exact Table.mem_keys_iff.mpr ⟨_,reclaims.kept id task there (spares id queued task there)⟩

theorem apply_listed (blake3 : List UInt8 → Checksum) (order : HashOrder) (inv : Inv s) (newTo : op.NewTo s)
    (spares : op.Spares s) (listed : Listed s) : Listed (Outcome.state (apply blake3 order op s)) := by
  by_cases sweeps : ∃ now, op = .reap_terminal_tasks now
  · obtain ⟨now,rfl⟩ := sweeps
    obtain ⟨count,s',ran,reclaims⟩ := apply_reclaims blake3 inv.consistent order now
    rw [ran]
    exact reclaims.listed spares listed
  by_cases releases : ∃ oid, op = .release_object oid
  · obtain ⟨oid,rfl⟩ := releases
    refine apply_keeps blake3 order inv listed fun reply s' effect => ?_
    cases effect with
    | released released => exact released.listed inv.consistent spares listed
  refine apply_keeps blake3 order inv listed fun reply s' effect id queued => ?_
  have kept := effect.task_keys (fun oid same => releases ⟨oid,same⟩) fun now same => sweeps ⟨now,same⟩
  rcases (effect.moves newTo).origin (fun _ _ move => move.mentions) (.inr queued) with (there | queued) | drawn
  · exact kept there
  · exact kept (listed id queued)
  · cases effect with
    | submitted =>
      have same := (by simpa [Op.minted] using drawn : id = _)
      exact Finset.mem_insert.mpr (.inl same)
    | _ => simp [Op.minted] at drawn

/-! ### Runs -/

variable {epoch : CoordinatorEpoch} {past : List Step}

theorem Run.roomy (run : Run blake3 epoch past s) : Roomy s := by
  induction run with
  | start => exact ⟨Nat.zero_le _,Nat.zero_le _⟩
  | step run order op fresh ih => exact apply_roomy blake3 order run.inv (run.newTo fresh) ih

theorem Run.listed (run : Run blake3 epoch past s) (spares : ∀ step ∈ past, step.op.Spares step.before) : Listed s := by
  induction run with
  | start => simp [Listed,new]
  | step run order op fresh ih =>
    obtain ⟨last,earlier⟩ := List.forall_mem_cons.mp spares
    exact apply_listed blake3 order run.inv (run.newTo fresh) last (ih earlier)

/-- Blocked and cancelling tasks are different tasks of the table. -/
theorem Consistent.indices (inv : Consistent s) : s.waiting.card + s.cancel_requested.card ≤ s.tasks.len := by
  have apart : Disjoint s.waiting s.cancel_requested := by
    refine Finset.disjoint_left.mpr fun id waiting cancelling => ?_
    obtain ⟨task,found⟩ := inv.waiting id waiting
    have state := (inv.waiting_iff found).mp waiting
    rw [(inv.cancelling_iff found).mp cancelling] at state
    cases state
  rw [← Finset.card_union_of_disjoint apart]
  refine Finset.card_le_card (Finset.union_subset (fun id member => ?_) fun id member => ?_)
  · exact Table.mem_keys_iff.mpr (inv.waiting id member)
  · exact Table.mem_keys_iff.mpr (inv.cancelling id member)

/-- In every run that drops no task while its id is queued, everything is limited in every state. -/
theorem run_bounded (run : Run blake3 epoch past s) (spares : ∀ step ∈ past, step.op.Spares step.before) : Bounded s where
  tasks := run.roomy.tasks
  objects := run.roomy.objects
  indices := run.inv.consistent.indices
  queue := by
    have distinct := List.toFinset_card_of_nodup run.queue_nodup
    have listed : s.runnable.toFinset ⊆ s.tasks.keys := fun id member => run.listed spares id (List.mem_toFinset.mp member)
    calc s.runnable.length = s.runnable.toFinset.card := distinct.symm
      _ ≤ s.tasks.len := Finset.card_le_card listed
      _ ≤ MAX_TASKS := run.roomy.tasks

end

/-- The small task is cancelled while it runs, and its output is released. -/
def sparedOps : List Op :=
  .release_object smallOutput :: .acknowledge_cancel smallWorker ⟨smallTask,1,smallLease⟩ :: .cancel smallTask :: smallOps

def sparedState : CoordinatorState := (replay smallHash smallEpoch sparedOps).2

theorem spared_run : Run smallHash smallEpoch (replay smallHash smallEpoch sparedOps).1 sparedState :=
  replay_run smallHash smallEpoch sparedOps ⟨⟨⟨⟨⟨⟨trivial,by decide⟩,by decide⟩,by decide⟩,by decide⟩,by decide⟩,by decide⟩

theorem spared_bounded : sparedState.tasks.len = 0 ∧ Bounded sparedState := by
  refine ⟨by decide +kernel,run_bounded spared_run ?_⟩
  have empty : (replay smallHash smallEpoch sparedOps.tail).2.runnable = [] := by decide +kernel
  have released : Op.Spares (replay smallHash smallEpoch sparedOps.tail).2 (.release_object smallOutput) := by simp [Op.Spares,empty]
  simp only [sparedOps,smallOps,replay,List.forall_mem_cons,List.not_mem_nil,false_implies,implies_true,and_true]
  exact ⟨released,trivial,trivial,trivial,trivial,trivial⟩

/-! ### A queue that grows -/

section
variable {u : CoordinatorState} {id : TaskId} {output : ObjectId}

/-- A worker is registered that offers the small operation, and there are no tasks and no objects. -/
structure Idle (u : CoordinatorState) : Prop where
  tasks : u.tasks = .empty
  objects : u.objects = .empty
  waiting : u.waiting = ∅
  offered : u.operations.get smallKey = some ⟨smallKey,.JsonV1,.JsonV1,64⟩
  capable : (u.workers.any fun worker => worker.state = .Alive && (worker.operations.get smallKey).isSome &&
    worker.total.can_fit ⟨.empty⟩) = true

def roundTask (id : TaskId) (output : ObjectId) : TaskRecord :=
  { id, operation := smallKey, args := [], output, resources := ⟨.empty⟩, max_attempts := 1, attempt := 0, state := .Runnable,
    assigned := none, not_before_ms := 0, terminal_since_ms := 0 }

theorem idle_submit (idle : Idle u) : apply smallHash .by_id (.submit smallKey [] ⟨.empty⟩ 1 id output) u =
    .ok (.Submitted id output) { u with
      objects := Table.empty.insert output (reserved_record output .JsonV1)
      tasks := Table.empty.insert id (roundTask id output)
      runnable := u.runnable ++ [id]
      revision := u.revision + 1 } := by
  have taskRoom : u.tasks.len < MAX_TASKS := by rw [idle.tasks]; decide
  have objectRoom : u.objects.len < MAX_OBJECTS := by rw [idle.objects]; decide
  have valid : OperationDescriptor.validate_args ⟨smallKey,.JsonV1,.JsonV1,64⟩ [] = .ok () := by decide
  have attempts : (1 : UInt32) ≠ 0 := by decide
  simp only [apply,submit,bind_apply,get_apply,ensure_of attempts,ensure_of taskRoom,ensure_of objectRoom,idle.offered,ok_or_some,
    valid,lift_ok,ensure_of idle.capable,admit_args,pure_apply,set_apply,changed,modify_apply,idle.tasks,idle.objects]
  rfl

/-- With no task blocked there is nothing to reconcile. -/
theorem reconcile_idle (waiting : u.waiting = ∅) : reconcile_dependencies .by_id u = .ok () u := by
  have none : HashOrder.by_id.tasks.list ∅ = [] := rfl
  simp only [reconcile_dependencies,bind_apply,get_apply,waiting,Finset.card_empty,reconcile_passes,none,List.foldlM_nil,
    pure_apply,Bool.false_eq_true,if_false]

theorem idle_cancel (idle : Idle u) (queue : List TaskId) (revision : Nat) :
    apply smallHash .by_id (.cancel id) { u with
      objects := Table.empty.insert output (reserved_record output .JsonV1)
      tasks := Table.empty.insert id (roundTask id output)
      runnable := queue
      revision } =
    .ok .Done { u with
      objects := (Table.empty.insert output (reserved_record output .JsonV1)).modify output fun object =>
        { object with state := .Cancelled }
      tasks := (Table.empty.insert id (roundTask id output)).modify id fun task => { task with state := .Cancelled }
      runnable := queue
      revision := revision + 1 } := by
  have live : (roundTask id output).state.is_terminal = false := rfl
  have runnable : (roundTask id output).state ≠ .CancelRequested := by simp [roundTask]
  have unassigned : ¬ (roundTask id output).assigned.isSome = true := by simp [roundTask]
  have task := Table.get_insert .empty id id (roundTask id output)
  have object := Table.get_insert .empty output output (reserved_record output .JsonV1)
  have same : (roundTask id output).output = output := rfl
  rw [if_pos rfl] at task object
  simp only [apply,cancel,bind_apply,get_apply,task,ok_or_some,pure_apply,ensure_of live,if_neg runnable,if_neg unassigned,task_mut,
    unwrap_some,set_apply,modify_apply,object_mut,same,object,idle.waiting,Finset.erase_empty,reconcile_idle,changed]

theorem idle_release (idle : Idle u) (queue : List TaskId) (revision : Nat) :
    apply smallHash .by_id (.release_object output) { u with
      objects := (Table.empty.insert output (reserved_record output .JsonV1)).modify output fun object =>
        { object with state := .Cancelled }
      tasks := (Table.empty.insert id (roundTask id output)).modify id fun task => { task with state := .Cancelled }
      runnable := queue
      revision } =
    .ok .Done { u with runnable := queue, revision := revision + 1 } := by
  have object : ((Table.empty.insert output (reserved_record output .JsonV1)).modify output fun object =>
      { object with state := ObjectState.Cancelled }).get output =
      some { reserved_record output .JsonV1 with state := .Cancelled } := by simp
  have settled : ({ reserved_record output .JsonV1 with state := ObjectState.Cancelled } : ObjectRecord).state ≠ .Reserved := by simp
  have unused : object_in_use { u with
      objects := (Table.empty.insert output (reserved_record output .JsonV1)).modify output fun object =>
        { object with state := .Cancelled }
      tasks := (Table.empty.insert id (roundTask id output)).modify id fun task => { task with state := .Cancelled }
      runnable := queue
      revision } output = false := by
    rw [Bool.eq_false_iff,ne_eq,object_in_use_iff]
    rintro ⟨other,task,found,live,needed⟩
    by_cases same : other = id
    · simp [same] at found
      subst found
      cases live
    · simp [same] at found
  have noTasks : ((Table.empty.insert id (roundTask id output)).modify id fun task =>
      { task with state := TaskState.Cancelled }).retain (fun task => task.output ≠ output) = .empty := by
    refine Table.ext_get fun other => ?_
    by_cases same : other = id <;> simp [same,roundTask,Option.filter]
  have noObjects : ((Table.empty.insert output (reserved_record output .JsonV1)).modify output fun object =>
      { object with state := ObjectState.Cancelled }).remove output = .empty := by
    refine Table.ext_get fun other => ?_
    by_cases same : other = output <;> simp [same]
  simp only [apply,release_object,bind_apply,get_apply,object,ensure_of settled,ensure_of unused,pure_apply,set_apply,changed,
    modify_apply,noTasks,noObjects,idle.tasks,idle.objects]
  rfl

/-- The ids of the rounds. -/
def roundId (n : Nat) : TaskId := ⟨((Vector.replicate 16 0).set 0 (.ofNat (n / 256))).set 1 (.ofNat n)⟩
def roundOutput (n : Nat) : ObjectId := ⟨((Vector.replicate 32 0).set 0 (.ofNat (n / 256))).set 1 (.ofNat n)⟩

theorem two_bytes {a b : Nat} (small : a < 65536) (small' : b < 65536) (high : UInt8.ofNat (a / 256) = UInt8.ofNat (b / 256))
    (low : UInt8.ofNat a = UInt8.ofNat b) : a = b := by
  have high := congrArg UInt8.toNat high
  have low := congrArg UInt8.toNat low
  simp only [UInt8.toNat_ofNat'] at high low
  omega

theorem roundId_inj {a b : Nat} (small : a < 65536) (small' : b < 65536) (same : roundId a = roundId b) : a = b := by
  have bytes := congrArg TaskId.bytes same
  refine two_bytes small small' ?_ ?_
  · simpa [roundId] using congrArg (·[0]) bytes
  · simpa [roundId] using congrArg (·[1]) bytes

theorem roundOutput_inj {a b : Nat} (small : a < 65536) (small' : b < 65536) (same : roundOutput a = roundOutput b) : a = b := by
  have bytes := congrArg ObjectId.bytes same
  refine two_bytes small small' ?_ ?_
  · simpa [roundOutput] using congrArg (·[0]) bytes
  · simpa [roundOutput] using congrArg (·[1]) bytes

/-- The small worker is registered. -/
def idleOps : List Op := smallOps.drop 2
def idleState : CoordinatorState := (replay smallHash smallEpoch idleOps).2

theorem idle_run : Run smallHash smallEpoch (replay smallHash smallEpoch idleOps).1 idleState :=
  replay_run smallHash smallEpoch idleOps ⟨trivial,by decide⟩

theorem idleState_idle : Idle idleState where
  tasks := rfl
  objects := rfl
  waiting := rfl
  offered := by decide +kernel
  capable := by decide +kernel

theorem Idle.queued (idle : Idle u) (queue : List TaskId) (revision : Nat) : Idle { u with runnable := queue, revision } :=
  { idle with }

/-- After any number of rounds the queue holds the ids of all of them, and nothing else is left. -/
theorem rounds_run (n : Nat) (small : n ≤ 65536) : ∃ past, Run smallHash smallEpoch past
      { idleState with runnable := (List.range n).map roundId, revision := idleState.revision + 3 * n } ∧
    ∀ step ∈ past, ∀ m ∈ step.op.minted, m = .session smallWorker.session_id ∨
      ∃ k < n, m = .task (roundId k) ∨ m = .object (roundOutput k) := by
  induction n with
  | zero =>
    refine ⟨_,idle_run,?_⟩
    simp [idleOps,smallOps,replay,Op.minted]
  | succ n ih =>
    obtain ⟨past,run,drawn⟩ := ih (by omega)
    have idle := idleState_idle.queued ((List.range n).map roundId) (idleState.revision + 3 * n)
    have fresh : Fresh past { idleState with runnable := (List.range n).map roundId, revision := idleState.revision + 3 * n }
        (.submit smallKey [] ⟨.empty⟩ 1 (roundId n) (roundOutput n)) := by
      intro m member
      refine ⟨fun step there again => ?_,?_⟩
      · rcases drawn step there m again with rfl | ⟨k,before,rfl | rfl⟩
        · simp [Op.minted] at member
        · have same : roundId k = roundId n := by simpa [Op.minted] using member
          have := roundId_inj (by omega) (by omega) same
          omega
        · have same : roundOutput k = roundOutput n := by simpa [Op.minted] using member
          have := roundOutput_inj (by omega) (by omega) same
          omega
      · simp only [Op.minted,List.mem_cons,List.not_mem_nil,or_false] at member
        rcases member with rfl | rfl
        · rfl
        · simp [stores,idleState_idle.objects]
    have submitted := run.step .by_id _ fresh
    rw [idle_submit idle] at submitted
    have cancelled := submitted.step .by_id (.cancel (roundId n)) (by simp [Fresh,Op.minted])
    rw [Outcome.state_ok,idle_cancel idle] at cancelled
    have released := cancelled.step .by_id (.release_object (roundOutput n)) (by simp [Fresh,Op.minted])
    rw [Outcome.state_ok,idle_release idle,Outcome.state_ok] at released
    have same : (List.range n).map roundId ++ [roundId n] = (List.range (n + 1)).map roundId := by simp [List.range_succ]
    rw [same] at released
    refine ⟨_,released,?_⟩
    intro step member m minted
    simp only [List.mem_cons] at member
    rcases member with rfl | rfl | rfl | member
    · simp [Op.minted] at minted
    · simp [Op.minted] at minted
    · simp only [Op.minted,List.mem_cons,List.not_mem_nil,or_false] at minted
      exact .inr ⟨n,Nat.lt_succ_self n,minted⟩
    · rcases drawn step member m minted with session | ⟨k,before,either⟩
      · exact .inl session
      · exact .inr ⟨k,Nat.lt_succ_of_lt before,either⟩

/-- Rounds of a submission, a cancellation and a release fill the queue beyond any limit of the tables,
    with no task left in them. -/
theorem queue_outgrows_tasks : ∃ past s, Run smallHash smallEpoch past s ∧ s.tasks.len = 0 ∧ s.runnable.length = 65536 ∧
    MAX_TASKS < s.runnable.length := by
  obtain ⟨past,run,_⟩ := rounds_run 65536 le_rfl
  refine ⟨past,_,run,?_,?_,?_⟩
  · exact congrArg Table.len idleState_idle.tasks
  · simp
  · simp [MAX_TASKS]

end
end Crayon.CoordinatorState
