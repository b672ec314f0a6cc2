import Crayon.Refinement

/-!
Runs of the coordinator: any operations, with any arguments, one after the
other from the empty state. The only assumption is that ids drawn at random do
not repeat. In every state of a run the tables fit together, no operation
panics, and an operation that returns an error has changed nothing.
-/
namespace Crayon.CoordinatorState
open Command

/-- What holds between operations. -/
structure Inv (s : CoordinatorState) : Prop where
  consistent : Consistent s
  alive : NoDead s

theorem new_inv (epoch : CoordinatorEpoch) : Inv (new epoch) := ⟨new_consistent epoch,by simp [NoDead,new]⟩

/-- Nothing of it depends on which deletes are queued. -/
theorem Inv.requeued {s : CoordinatorState} (inv : Inv s) (pending_deletes : Table NodeId (List ObjectId)) :
    Inv { s with pending_deletes } := ⟨{ inv.consistent with },inv.alive⟩

section
variable {s : CoordinatorState} {op : Op}

/-- Every operation makes moves, or returns an error and changes nothing. -/
theorem apply_refines (blake3 : List UInt8 → Checksum) (order : HashOrder) (inv : Inv s) (newTo : op.NewTo s) :
    Refines op s (apply blake3 order op s) := by
  have atomic := apply_effect blake3 order inv.consistent inv.alive op
  match apply blake3 order op s,atomic with
  | .ok _ _,effect => exact Effect.moves effect newTo
  | .error (.Err _) _,same => exact same

/-- What holds before an operation and after each effect that it may have holds when it returns. -/
theorem apply_keeps (blake3 : List UInt8 → Checksum) (order : HashOrder) (inv : Inv s) {P : CoordinatorState → Prop}
    (before : P s) (after : ∀ reply s', Effect blake3 op s reply s' → P s') :
    P (Outcome.state (apply blake3 order op s)) := by
  have atomic := apply_effect blake3 order inv.consistent inv.alive op
  match apply blake3 order op s,atomic with
  | .ok reply s',effect => exact after reply s' effect
  | .error (.Err _) _,same => exact same ▸ before

theorem apply_moves (blake3 : List UInt8 → Checksum) (order : HashOrder) (inv : Inv s) (newTo : op.NewTo s) :
    Moves op s (Outcome.state (apply blake3 order op s)) := by
  have refines := apply_refines blake3 order inv newTo
  match outcome : apply blake3 order op s,refines with
  | .ok _ _,moves => exact moves
  | .error (.Err _) s',same =>
    obtain rfl : s' = s := same
    exact moves_refl s'

/-- Operations keep what holds between operations. -/
theorem apply_inv (blake3 : List UInt8 → Checksum) (order : HashOrder) (inv : Inv s) (newTo : op.NewTo s) :
    Inv (Outcome.state (apply blake3 order op s)) := by
  refine ⟨(apply_moves blake3 order inv newTo).consistent inv.consistent,?_⟩
  exact apply_keeps blake3 order inv inv.alive fun _ _ effect => effect.alive newTo inv.alive

end

/-! ### Runs -/

/-- One operation of a run: the order in which it finds things in hash tables, the state it
    starts from, and how it ends. -/
structure Step where
  order : HashOrder
  op : Op
  before : CoordinatorState
  outcome : Outcome Error CoordinatorState Reply

/-- The id is that of an object in the state. -/
def stores (s : CoordinatorState) : Minted → Bool
  | .object oid => (s.objects.get oid).isSome
  | _ => false

/-- An operation draws no id that was drawn before in the run, and no id of an object that is
    stored. -/
def Fresh (past : List Step) (s : CoordinatorState) (op : Op) : Prop :=
  ∀ id ∈ op.minted, (∀ step ∈ past, id ∉ step.op.minted) ∧ s.stores id = false

instance (past : List Step) (s : CoordinatorState) (op : Op) : Decidable (Fresh past s op) :=
  inferInstanceAs (Decidable (∀ id ∈ op.minted, (∀ step ∈ past, id ∉ step.op.minted) ∧ s.stores id = false))

/-- The runs of the coordinator and the states they lead to; the last step comes first. -/
inductive Run (blake3 : List UInt8 → Checksum) (epoch : CoordinatorEpoch) : List Step → CoordinatorState → Prop where
  | start : Run blake3 epoch [] (new epoch)
  | step {past : List Step} {s : CoordinatorState} (run : Run blake3 epoch past s) (order : HashOrder) (op : Op)
      (fresh : Fresh past s op) :
      Run blake3 epoch (⟨order,op,s,apply blake3 order op s⟩ :: past) (Outcome.state (apply blake3 order op s))

/-- The state has a task of this id, or has it queued. -/
def Mentions (s : CoordinatorState) (id : TaskId) : Prop := id ∈ s.tasks.keys ∨ id ∈ s.runnable

instance (s : CoordinatorState) (id : TaskId) : Decidable (s.Mentions id) :=
  inferInstanceAs (Decidable (id ∈ s.tasks.keys ∨ id ∈ s.runnable))

theorem Move.mentions {op : Op} {s s' : CoordinatorState} (move : Move op s s') {id : TaskId} (mentions : Mentions s' id) :
    Mentions s id ∨ .task id ∈ op.minted := by
  -- A queue grows by ids of tasks.
  have appended : ∀ {k task}, s.tasks.get k = some task → id ∈ s.tasks.keys ∨ id ∈ s.runnable ++ [k] → Mentions s id := by
    rintro k task found (there | queued)
    · exact .inl there
    · rcases List.mem_append.mp queued with old | new
      · exact .inr old
      · obtain rfl := List.mem_singleton.mp new
        exact .inl (Table.mem_keys_iff.mpr ⟨task,found⟩)
  cases move with
  | @submit k output blocked task codec newTask unqueued newOutput submitted =>
    by_cases same : id = k
    · exact .inr (same ▸ submitted.minted)
    · left
      cases blocked <;> simpa [Mentions,same] using mentions
  | requeue kept =>
    refine .inl (mentions.imp (fun there => there) fun queued => ?_)
    exact List.count_pos_iff.mp (lt_of_lt_of_le (List.count_pos_iff.mpr queued) (kept.bounded _))
  | assign head found runnable at_worker alive free fits taken minted =>
    exact .inl (mentions.imp (fun there => there) fun queued => by rw [head]; exact List.mem_cons_of_mem _ queued)
  | retry not_before_ms found state assigned budget freed => exact .inl (appended found mentions)
  | wake found state available => exact .inl (appended found mentions)
  | release pending_deletes found settled unused =>
    exact .inl (mentions.imp (fun there => (Finset.mem_filter.mp there).1) fun queued => queued)
  | _ => exact .inl mentions

theorem Fresh.newTo {past : List Step} {s : CoordinatorState} {op : Op} (fresh : Fresh past s op)
    (known : ∀ id, Mentions s id → ∃ step ∈ past, .task id ∈ step.op.minted) : op.NewTo s := by
  cases op with
  | submit operation args resources max_attempts id output =>
    have unmentioned : ¬ Mentions s id := fun mentions => by
      obtain ⟨step,member,drawn⟩ := known id mentions
      exact (fresh (.task id) (by simp [Op.minted])).1 step member drawn
    refine ⟨Table.get_eq_none_iff.mpr fun there => unmentioned (.inl there),fun queued => unmentioned (.inr queued),?_⟩
    simpa [stores] using (fresh (.object output) (by simp [Op.minted])).2
  | _ => trivial

section
variable {blake3 : List UInt8 → Checksum} {epoch : CoordinatorEpoch} {past : List Step} {s : CoordinatorState}

/-- Along a run the tables fit, and the tasks that the state mentions were drawn by the run. -/
theorem Run.known (run : Run blake3 epoch past s) :
    Inv s ∧ ∀ id, Mentions s id → ∃ step ∈ past, .task id ∈ step.op.minted := by
  induction run with
  | start => exact ⟨new_inv epoch,by simp [Mentions,new]⟩
  | @step past s run order op fresh ih =>
    obtain ⟨inv,known⟩ := ih
    have newTo := fresh.newTo known
    refine ⟨apply_inv blake3 order inv newTo,fun id mentions => ?_⟩
    have origin : Mentions s id ∨ .task id ∈ op.minted :=
      (apply_moves blake3 order inv newTo).origin (fun _ _ move => move.mentions) mentions
    rcases origin with old | drawn
    · obtain ⟨step,member,drawn⟩ := known id old
      exact ⟨step,List.mem_cons_of_mem _ member,drawn⟩
    · exact ⟨_,List.mem_cons_self,drawn⟩

theorem Run.inv (run : Run blake3 epoch past s) : Inv s := run.known.1

theorem Run.newTo (run : Run blake3 epoch past s) {op : Op} (fresh : Fresh past s op) : op.NewTo s :=
  fresh.newTo run.known.2

/-- The steps of a run determine its state. -/
theorem Run.unique (run : Run blake3 epoch past s) {s' : CoordinatorState}
    (run' : Run blake3 epoch past s') : s = s' := by
  cases run with
  | start =>
    cases run'
    rfl
  | step run order op fresh =>
    cases run'
    rfl

/-- What holds initially and survives every effect holds in every state of a run. -/
theorem Run.keeps {P : CoordinatorState → Prop} (initial : P (new epoch))
    (step : ∀ {op s reply s'}, Inv s → op.NewTo s → Effect blake3 op s reply s' → P s → P s')
    (run : Run blake3 epoch past s) : P s := by
  induction run with
  | start => exact initial
  | step run order op fresh ih =>
    exact apply_keeps blake3 order run.inv ih fun _ _ effect => step run.inv (run.newTo fresh) effect ih

end

/-! ### A small run -/

/-- The steps of a run and the state it leads to, the last operation first. -/
def replay (blake3 : List UInt8 → Checksum) (epoch : CoordinatorEpoch) : List Op → List Step × CoordinatorState
  | [] => ([],new epoch)
  | op :: earlier =>
    let (past,s) := replay blake3 epoch earlier
    (⟨.by_id,op,s,apply blake3 .by_id op s⟩ :: past,Outcome.state (apply blake3 .by_id op s))

/-- No operation of the list draws an id drawn before. -/
def Draws (blake3 : List UInt8 → Checksum) (epoch : CoordinatorEpoch) : List Op → Prop
  | [] => True
  | op :: earlier => Draws blake3 epoch earlier ∧
      Fresh (replay blake3 epoch earlier).1 (replay blake3 epoch earlier).2 op

instance decidableDraws (blake3 : List UInt8 → Checksum) (epoch : CoordinatorEpoch) :
    (ops : List Op) → Decidable (Draws blake3 epoch ops)
  | [] => .isTrue trivial
  | _ :: earlier =>
    have := decidableDraws blake3 epoch earlier
    inferInstanceAs (Decidable (_ ∧ _))

theorem replay_run (blake3 : List UInt8 → Checksum) (epoch : CoordinatorEpoch) (ops : List Op)
    (draws : Draws blake3 epoch ops) : Run blake3 epoch (replay blake3 epoch ops).1 (replay blake3 epoch ops).2 := by
  induction ops with
  | nil => exact .start
  | cons op earlier ih => exact .step (ih draws.1) _ _ draws.2

/-- A hash for runs that store nothing. -/
def smallHash : List UInt8 → Checksum := fun _ => .replicate 32 0
def smallEpoch : CoordinatorEpoch := ⟨.replicate 16 0⟩
def smallKey : OperationKey := ⟨"math","add",1⟩
def smallWorker : WorkerIdentity := ⟨⟨.replicate 16 1⟩,⟨.replicate 16 2⟩,⟨.replicate 16 3⟩,smallEpoch⟩
def smallTask : TaskId := ⟨.replicate 16 4⟩
def smallOutput : ObjectId := ⟨.replicate 32 5⟩
def smallLease : LeaseId := ⟨.replicate 16 6⟩

/-- What the small task needs, and what its worker has, are in order. -/
theorem demand_sorted : ([("cpu",⟨600⟩)] : List (String × ResourceQuantity)).Pairwise fun a b => a.1 < b.1 := by decide
theorem offer_sorted : ([("cpu",⟨1000⟩)] : List (String × ResourceQuantity)).Pairwise fun a b => a.1 < b.1 := by decide

/-- A worker of one slot registers, a task is submitted, and the worker is given the task. -/
def smallOps : List Op :=
  [.assign_next smallWorker.node_id 10 smallLease,
    .submit smallKey [] ⟨⟨[("cpu",⟨600⟩)],demand_sorted⟩⟩ 2 smallTask smallOutput,
    .register_worker ⟨smallWorker.node_id,smallWorker.worker_epoch,"host:1",⟨⟨[("cpu",⟨1000⟩)],offer_sorted⟩⟩,1,
      [⟨smallKey,.JsonV1,.JsonV1,64⟩]⟩ 0 5000 smallWorker.session_id]

def smallPast : List Step := (replay smallHash smallEpoch smallOps).1
def smallState : CoordinatorState := (replay smallHash smallEpoch smallOps).2

theorem small_run : Run smallHash smallEpoch smallPast smallState :=
  replay_run smallHash smallEpoch smallOps ⟨⟨⟨trivial,by decide⟩,by decide⟩,by decide⟩

example : (smallState.tasks.get smallTask).map (·.state) = some .Assigned := by decide

section
variable {blake3 : List UInt8 → Checksum} {epoch : CoordinatorEpoch} {past : List Step} {s : CoordinatorState}

/-! ### Tasks, outputs and workers -/

/-- How tasks, their outputs and their workers are coupled. -/
structure Coupled (s : CoordinatorState) : Prop where
  output : ∀ id task, s.tasks.get id = some task → ∃ object, s.objects.get task.output = some object ∧
    (task.state.is_terminal = false ↔ object.state = .Reserved) ∧
    (task.state = .Succeeded → object.state = .Available ∨ object.state = .Lost) ∧
    (∀ message, task.state = .Failed message → object.state = .Failed) ∧
    (task.state = .Cancelled → object.state = .Cancelled)
  distinct : ∀ id₁ id₂ task₁ task₂, s.tasks.get id₁ = some task₁ → s.tasks.get id₂ = some task₂ →
    task₁.output = task₂.output → id₁ = id₂
  reserved : ∀ oid object, s.objects.get oid = some object → object.state = .Reserved →
    ∃! id, ∃ task, s.tasks.get id = some task ∧ task.output = oid ∧ task.state.is_terminal = false
  dispatched : ∀ id task, s.tasks.get id = some task →
    ((task.state = .Assigned ∨ task.state = .Running ∨ task.state = .CancelRequested) ↔ ∃ a, task.assigned = some a)
  worker : ∀ id task a, s.tasks.get id = some task → task.assigned = some a →
    ∃ worker, s.workers.get a.node = some worker ∧ worker.state ≠ .Dead ∧
      worker.identity.worker_epoch = a.epoch ∧ worker.identity.session_id = a.session

/-- In every state of a run each task agrees with its output and with the worker it is
    dispatched to. -/
theorem run_coupled (run : Run blake3 epoch past s) : Coupled s := by
  obtain ⟨inv,alive⟩ := run.inv
  refine ⟨?_,inv.outputs,?_,?_,?_⟩
  · intro id task found
    obtain ⟨object,there⟩ := inv.output found
    have legal := inv.legal id task found
    refine ⟨object,there,(inv.reserved_iff found there).symm,?_,?_,?_⟩
    · intro state
      simp only [view,View.Legal,state,there,Option.map_some,Option.some.injEq] at legal
      exact legal.2.1
    · intro message state
      simp only [view,View.Legal,state,there,Option.map_some,Option.some.injEq] at legal
      exact legal.2.1
    · intro state
      simp only [view,View.Legal,state,there,Option.map_some,Option.some.injEq] at legal
      exact legal.2.1
  · intro oid object there reserved
    obtain ⟨id,task,found,rfl⟩ := inv.reserved oid object there reserved
    refine ⟨id,⟨task,found,rfl,(inv.reserved_iff found there).mp reserved⟩,?_⟩
    rintro id' ⟨task',found',shared,_⟩
    exact inv.outputs id' id task' task found' found shared
  · intro id task found
    rw [← inv.dispatched_iff found,Option.isSome_iff_exists]
  · intro id task a found assigned
    obtain ⟨worker,there,epoch,session⟩ := inv.served id task a found assigned
    exact ⟨worker,there,alive _ _ there,epoch,session⟩

theorem small_coupled : (smallState.tasks.get smallTask).isSome = true ∧ Coupled smallState :=
  ⟨by decide,run_coupled small_run⟩

/-! ### Indices -/

/-- How the indices list the tasks. -/
structure Indexed (s : CoordinatorState) : Prop where
  waiting : ∀ id, id ∈ s.waiting ↔ ∃ task, s.tasks.get id = some task ∧ task.state = .Waiting
  cancelling : ∀ id, id ∈ s.cancel_requested ↔ ∃ task, s.tasks.get id = some task ∧ task.state = .CancelRequested
  runnable : ∀ id task, s.tasks.get id = some task → task.state = .Runnable → s.runnable.count id = 1
  unqueued : ∀ id task, s.tasks.get id = some task →
    task.state = .Waiting ∨ task.state = .Assigned ∨ task.state = .Running ∨ task.state = .CancelRequested →
    id ∉ s.runnable
  stale : ∀ id ∈ s.runnable, ∀ task, s.tasks.get id = some task → task.state = .Runnable ∨ task.state.is_terminal = true

/-- In every state of a run the indices list exactly the tasks they are for. -/
theorem run_indexed (run : Run blake3 epoch past s) : Indexed s := by
  have inv := run.inv.consistent
  have unqueued : ∀ id task, s.tasks.get id = some task →
      task.state = .Waiting ∨ task.state = .Assigned ∨ task.state = .Running ∨ task.state = .CancelRequested →
      id ∉ s.runnable := by
    intro id task found states
    have legal := inv.legal id task found
    rw [← List.count_eq_zero]
    rcases states with state | state | state | state <;> simp only [view,View.Legal,state] at legal
    · exact legal.2.2.2.2.2
    all_goals exact legal.2.2.2.2
  refine ⟨?_,?_,?_,unqueued,?_⟩
  · intro id
    constructor
    · intro member
      obtain ⟨task,found⟩ := inv.waiting id member
      exact ⟨task,found,(inv.waiting_iff found).mp member⟩
    · rintro ⟨task,found,state⟩
      exact (inv.waiting_iff found).mpr state
  · intro id
    constructor
    · intro member
      obtain ⟨task,found⟩ := inv.cancelling id member
      exact ⟨task,found,(inv.cancelling_iff found).mp member⟩
    · rintro ⟨task,found,state⟩
      exact (inv.cancelling_iff found).mpr state
  · intro id task found state
    have legal := inv.legal id task found
    simp only [view,View.Legal,state] at legal
    exact legal.2.2.2.2.2
  · intro id queued task found
    have listed := unqueued id task found
    cases state : task.state <;> simp_all [TaskState.is_terminal]

/-- A task with the small task's needs. -/
def smallSubmit (args : List TaskArg) (n : UInt8) : Op :=
  .submit smallKey args ⟨⟨[("cpu",⟨600⟩)],demand_sorted⟩⟩ 2 ⟨.replicate 16 n⟩ ⟨.replicate 32 n⟩

/-- After the small run one task is queued, one takes the output of the small task, and the small task is to be cancelled. -/
def mixedOps : List Op := [.cancel smallTask,smallSubmit [.Object smallOutput] 8,smallSubmit [] 7] ++ smallOps

def mixedState : CoordinatorState := (replay smallHash smallEpoch mixedOps).2

theorem small_indexed : mixedState.waiting = {⟨.replicate 16 8⟩} ∧ mixedState.cancel_requested = {smallTask} ∧
    mixedState.runnable = [⟨.replicate 16 7⟩] ∧ Indexed mixedState :=
  ⟨by decide +kernel,by decide +kernel,by decide +kernel,run_indexed (replay_run smallHash smallEpoch mixedOps (by decide +kernel))⟩

/-! ### Errors and panics -/

/-- An available object has all that is told about it. -/
theorem resolve_object_clean (inv : Inv s) (id : ObjectId) : Outcome.Clean (resolve_object id s) := by
  cases found : s.objects.get id with
  | none => simp [resolve_object,found]
  | some object =>
    cases state : object.state with
    | Available =>
      obtain ⟨codec,size,checksum,location⟩ := inv.consistent.whole id object found state
      obtain ⟨codec,hasCodec⟩ := Option.isSome_iff_exists.mp codec
      obtain ⟨size,hasSize⟩ := Option.isSome_iff_exists.mp size
      obtain ⟨checksum,hasChecksum⟩ := Option.isSome_iff_exists.mp checksum
      obtain ⟨location,hasLocation⟩ := Option.isSome_iff_exists.mp location
      simp [resolve_object,found,state,hasCodec,hasSize,hasChecksum,hasLocation]
    | _ => simp [resolve_object,found,state]

/-- In no state of a run does an operation panic or loop forever, and neither does the
    resolution of an object. -/
theorem run_never_panics (run : Run blake3 epoch past s) (order : HashOrder) {op : Op} (fresh : Fresh past s op) :
    Outcome.Clean (apply blake3 order op s) ∧ ∀ id, Outcome.Clean (resolve_object id s) := by
  have inv := run.inv
  refine ⟨?_,resolve_object_clean inv⟩
  have refines := apply_refines blake3 order inv (run.newTo fresh)
  match outcome : apply blake3 order op s,refines with
  | .ok _ _,_ => trivial
  | .error (.Err _) _,_ => trivial

theorem small_never_panics : Outcome.Clean (apply smallHash .by_id (.cancel smallTask) smallState) ∧
    ∀ id, Outcome.Clean (resolve_object id smallState) :=
  run_never_panics small_run .by_id (by decide)

/-- In every state of a run an operation that returns an error leaves the state as it was. -/
theorem run_errors_change_nothing (run : Run blake3 epoch past s) (order : HashOrder) {op : Op} (fresh : Fresh past s op)
    {e : Error} {s' : CoordinatorState} (failed : apply blake3 order op s = .error (.Err e) s') : s' = s := by
  have refines := apply_refines blake3 order run.inv (run.newTo fresh)
  rw [failed] at refines
  exact refines

/-- A start report under another lease is refused. -/
theorem small_error_changes_nothing :
    Outcome.state (apply smallHash .by_id (.started smallWorker ⟨smallTask,1,⟨.replicate 16 7⟩⟩) smallState) = smallState :=
  run_errors_change_nothing small_run .by_id (by decide)
    (rfl : apply smallHash .by_id (.started smallWorker ⟨smallTask,1,⟨.replicate 16 7⟩⟩) smallState =
      .error (.Err .StaleFence) _)

end

end Crayon.CoordinatorState
