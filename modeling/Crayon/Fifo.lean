import Crayon.Changes
import Crayon.Dispatch
import Crayon.Dependencies
import Crayon.Pacing

/-!
In which order tasks are dispatched. Tasks that name the same operation, ask for
the same resources and take no object are alike to every worker (`Kind`), and until
they are first dispatched they stand in a line in the queue (`Kind.line`). A worker
that can serve them takes the first of the line. One that cannot sends those that
it has read to the back; the line is then as before if it has read all of them or
none, but not if it stopped between two of them. As long as no poll does that, the
tasks are first dispatched in the order in which they were submitted.
-/
namespace Crayon.CoordinatorState
open Command
open Relation (ReflTransGen)

/-- Tasks that are alike to every worker. -/
structure Kind where
  operation : OperationKey
  resources : ResourceSet
deriving DecidableEq

/-- The task is of the kind, and takes no object. -/
def Kind.has (k : Kind) (task : TaskRecord) : Bool :=
  task.operation = k.operation ∧ task.resources = k.resources ∧ task.dependencies = []

/-- The id is that of a runnable task of the kind that was never dispatched. -/
def Kind.waits (k : Kind) (s : CoordinatorState) (id : TaskId) : Bool :=
  (s.tasks.get id).any fun task => k.has task && task.state = .Runnable && task.attempt = 0

/-- The tasks of the kind that are queued for their first dispatch, in order. -/
def Kind.line (k : Kind) (s : CoordinatorState) : List TaskId := s.runnable.filter (k.waits s)

/-- A poll does not stop, at a local candidate or at the last one that it looks at, between two tasks of the
    kind that the worker cannot serve. -/
def Kind.Kept (k : Kind) (s : CoordinatorState) (worker : WorkerRecord) (node_id : NodeId) (now : Nat) : Prop :=
  ∀ before id after, s.runnable = before ++ id :: after → Ongoing s worker node_id now before →
    s.serves worker now id = true →
    (s.is_local node_id id = true ∨ (before.filter (s.serves worker now)).length + 1 = LOCALITY_LOOKAHEAD) →
    ∀ x ∈ before, ∀ y ∈ after, k.waits s x = true → k.waits s y = true → s.serves worker now x = true

/-- The step is no poll that stops so. -/
def Step.Keeps (k : Kind) (step : Step) : Prop :=
  match step.op with
  | .assign_next node_id now _ => ∀ worker, step.before.workers.get node_id = some worker → worker.state = .Alive →
      worker.free_slots ≠ 0 → k.Kept step.before worker node_id now
  | _ => True

/-- The task of the kind that the step accepts. -/
def Step.accepts (k : Kind) (step : Step) : Option TaskId :=
  match step.op,step.outcome with
  | .submit operation args resources _ id _,.ok _ _ =>
    if operation = k.operation ∧ resources = k.resources ∧ args.filterMap TaskArg.object? = [] then some id else none
  | _,_ => none

/-- The task that the step dispatches. -/
def Step.sends (step : Step) : Option TaskId :=
  match step.op,step.outcome with
  | .assign_next _ _ _,.ok (.Assignment (some a)) _ => some a.fence.task_id
  | _,_ => none

/-- The tasks of the kind in the order in which they were submitted. -/
def accepted (k : Kind) (past : List Step) : List TaskId := (past.filterMap (Step.accepts k)).reverse

/-- The tasks that were dispatched. -/
def sent (past : List Step) : List TaskId := past.filterMap Step.sends

section
variable {k : Kind} {s s' : CoordinatorState} {op : Op} {id : TaskId} {task : TaskRecord} {blake3 : List UInt8 → Checksum}
  {reply : Reply} {worker : WorkerRecord} {node_id : NodeId} {now : Nat}

theorem Kind.has_iff : k.has task = true ↔ task.operation = k.operation ∧ task.resources = k.resources ∧
    task.dependencies = [] := by
  simp [has]

theorem Kind.waits_iff : k.waits s id = true ↔
    ∃ task, s.tasks.get id = some task ∧ k.has task = true ∧ task.state = .Runnable ∧ task.attempt = 0 := by
  simp [waits,Option.any_eq_true,and_assoc]

/-! ### Tasks that were never dispatched -/

/-- A task that was never tried is with no worker and due at once, and one that is blocked takes an object. -/
structure Honest (task : TaskRecord) : Prop where
  fresh : task.attempt = 0 → task.assigned = none ∧ task.not_before_ms = 0
  blocked : task.state = .Waiting → task.dependencies ≠ []

/-- What is known of all tasks but those that the operation brings in. -/
def Honestly (op : Op) (s : CoordinatorState) : Prop :=
  ∀ id task, s.tasks.get id = some task → Honest task ∨ .task id ∈ op.minted

/-- Tasks of the kind that are queued for their first dispatch were so before, unless the operation
    brings them in. -/
theorem Move.honestly (move : Move op s s') (inv : Consistent s) (honest : Honestly op s) : Honestly op s' ∧
    ∀ id, k.waits s' id = true → k.waits s id = true ∨ .task id ∈ op.minted := by
  -- Only one task changes, and it is honest and not queued for its first dispatch afterwards.
  have one : ∀ {id : TaskId} {task : TaskRecord} {f : TaskRecord → TaskRecord} {u : CoordinatorState},
      s.tasks.get id = some task → u.tasks = s.tasks.modify id f →
      (Honest task → Honest (f task) ∧ ¬ (k.has (f task) = true ∧ (f task).state = .Runnable ∧ (f task).attempt = 0)) →
      Honestly op u ∧ ∀ id, k.waits u id = true → k.waits s id = true ∨ .task id ∈ op.minted := by
    intro id task f u found tasks changed
    refine ⟨fun other after there => ?_,fun other waits => ?_⟩
    · rw [tasks,Table.get_modify_of found] at there
      by_cases same : other = id
      · subst same
        obtain rfl := Option.some.inj ((if_pos rfl).symm.trans there)
        exact (honest other task found).imp_left fun honest => (changed honest).1
      · exact honest other after ((if_neg same).symm.trans there)
    · obtain ⟨after,there,waiting⟩ := Kind.waits_iff.mp waits
      rw [tasks,Table.get_modify_of found] at there
      by_cases same : other = id
      · subst same
        obtain rfl := Option.some.inj ((if_pos rfl).symm.trans there)
        exact (honest other task found).imp_left fun honest => absurd waiting (changed honest).2
      · exact .inl (Kind.waits_iff.mpr ⟨after,(if_neg same).symm.trans there,waiting⟩)
  have same : ∀ {u : CoordinatorState}, (∀ id task, u.tasks.get id = some task → ∃ before, s.tasks.get id = some before ∧
      before.state = task.state ∧ before.attempt = task.attempt ∧ before.assigned = task.assigned ∧
      before.not_before_ms = task.not_before_ms ∧ before.args = task.args ∧ before.operation = task.operation ∧
      before.resources = task.resources) → Honestly op u ∧ ∀ id, k.waits u id = true → k.waits s id = true ∨ .task id ∈ op.minted := by
    intro u kept
    refine ⟨fun id task there => ?_,fun id waits => ?_⟩
    · obtain ⟨before,found,state,attempt,assigned,due,args,_⟩ := kept id task there
      refine (honest id before found).imp_left fun honest => ⟨?_,?_⟩
      · rw [← attempt,← assigned,← due]
        exact honest.fresh
      · rw [← state,TaskRecord.dependencies,← args]
        exact honest.blocked
    · obtain ⟨task,there,has,runnable,fresh⟩ := Kind.waits_iff.mp waits
      obtain ⟨before,found,state,attempt,_,_,args,operation,resources⟩ := kept id task there
      refine .inl (Kind.waits_iff.mpr ⟨before,found,?_,state.trans runnable,attempt.trans fresh⟩)
      rw [Kind.has_iff,TaskRecord.dependencies,operation,resources,args]
      exact Kind.has_iff.mp has
  have tried : ∀ {task : TaskRecord} {a : Assigned}, task.assigned = some a → Honest task → ∀ {P : Prop}, task.attempt = 0 → P := by
    intro task a assigned honest P fresh
    rw [(honest.fresh fresh).1] at assigned
    cases assigned
  cases move with
  | @submit id output blocked task codec newTask unqueued newOutput submitted =>
    refine ⟨fun other after there => ?_,fun other waits => ?_⟩
    · rw [Table.get_insert] at there
      split at there
      · rename_i same
        exact .inr (same ▸ submitted.minted)
      · exact honest other after there
    · obtain ⟨after,there,waiting⟩ := Kind.waits_iff.mp waits
      rw [Table.get_insert] at there
      split at there
      · rename_i same
        exact .inr (same ▸ submitted.minted)
      · exact .inl (Kind.waits_iff.mpr ⟨after,there,waiting⟩)
  | @assign id queue task node worker available lease head found runnable at_worker alive free fits taken minted =>
    refine one found rfl fun honest => ⟨⟨fun wrapped => ?_,by rintro ⟨⟩⟩,by simp⟩
    have legal := inv.legal id task found
    simp only [view,View.Legal,runnable,decide_eq_true_eq] at legal
    have below := UInt32.lt_iff_toNat_lt.mp legal.2.1
    have bound := task.max_attempts.toNat_lt
    have zero := congrArg UInt32.toNat wrapped
    rw [UInt32.toNat_add] at zero
    simp at zero
    omega
  | start found assigned => exact one found rfl fun honest => ⟨⟨honest.fresh,by rintro ⟨⟩⟩,by simp⟩
  | complete asked found state assigned =>
    exact one found rfl fun honest => ⟨⟨fun fresh => tried assigned honest fresh,by rintro ⟨⟩⟩,by simp⟩
  | retry not_before_ms found state assigned =>
    exact one found rfl fun honest => ⟨⟨fun fresh => tried assigned honest fresh,by rintro ⟨⟩⟩,
      fun waits => tried assigned honest waits.2.2⟩
  | fail message found state assigned =>
    exact one found rfl fun honest => ⟨⟨fun fresh => tried assigned honest fresh,by rintro ⟨⟩⟩,by simp⟩
  | acknowledge found state assigned =>
    exact one found rfl fun honest => ⟨⟨fun fresh => tried assigned honest fresh,by rintro ⟨⟩⟩,by simp⟩
  | request_cancel found state => exact one found rfl fun honest => ⟨⟨honest.fresh,by rintro ⟨⟩⟩,by simp⟩
  | cancel found state => exact one found rfl fun honest => ⟨⟨honest.fresh,by rintro ⟨⟩⟩,by simp⟩
  | starve found state failed => exact one found rfl fun honest => ⟨⟨honest.fresh,by rintro ⟨⟩⟩,by simp⟩
  | wake found state available =>
    exact one found rfl fun honest => ⟨⟨honest.fresh,by rintro ⟨⟩⟩,fun waits => honest.blocked state (Kind.has_iff.mp waits.1).2.2⟩
  | release pending_deletes found settled unused =>
    refine same fun id task there => ?_
    rw [Table.get_retain] at there
    exact ⟨task,(Option.filter_eq_some_iff.mp there).1,rfl,rfl,rfl,rfl,rfl,rfl,rfl⟩
  | stamp now =>
    refine same fun id task there => ?_
    rw [Table.get_mapValues] at there
    obtain ⟨before,found,rfl⟩ := Option.map_eq_some_iff.mp there
    refine ⟨before,found,?_⟩
    rw [CoordinatorState.stamp]
    split <;> exact ⟨rfl,rfl,rfl,rfl,rfl,rfl,rfl⟩
  | _ => exact same fun id task there => ⟨task,there,rfl,rfl,rfl,rfl,rfl,rfl,rfl⟩

theorem Moves.honestly (moves : Moves op s s') (inv : Consistent s) (honest : Honestly op s) : Honestly op s' ∧
    ∀ id, k.waits s' id = true → k.waits s id = true ∨ .task id ∈ op.minted := by
  induction moves with
  | refl => exact ⟨honest,fun _ => .inl⟩
  | tail before move ih =>
    obtain ⟨honest,waits⟩ := ih
    obtain ⟨honest',waits'⟩ := move.honestly (k := k) (Moves.consistent before inv) honest
    exact ⟨honest',fun id waiting => (waits' id waiting).elim (waits id) .inr⟩

/-! ### The line and the search -/

/-- A worker can serve all tasks of the kind that stand in the line, or none. -/
def Kind.Served (k : Kind) (worker : WorkerRecord) : Prop :=
  (worker.operations.get k.operation).isSome = true ∧ worker.available.can_fit k.resources = true

theorem Kind.serves_iff (honest : ∀ id task, s.tasks.get id = some task → Honest task) (waits : k.waits s id = true) :
    s.serves worker now id = true ↔ k.Served worker := by
  obtain ⟨task,found,has,runnable,fresh⟩ := waits_iff.mp waits
  obtain ⟨operation,resources,_⟩ := has_iff.mp has
  have due : task.not_before_ms ≤ now := ((honest id task found).fresh fresh).2 ▸ Nat.zero_le now
  simp only [serves,found,Option.any_some,decide_eq_true_eq,Served,← operation,← resources]
  exact ⟨fun servable => servable.capable,fun capable => ⟨runnable,due,capable⟩⟩

theorem Kind.away (waits : k.waits s id = true) : s.is_local node_id id = false := by
  obtain ⟨task,found,has,_⟩ := waits_iff.mp waits
  simp [is_local,found,local_to,(has_iff.mp has).2.2]

theorem Kind.waits_runnable (waits : k.waits s id = true) : s.is_runnable id = true := by
  obtain ⟨task,found,_,runnable,_⟩ := waits_iff.mp waits
  exact is_runnable_iff.mpr ⟨task,found,runnable⟩

variable {sel : Selection}

/-- What the search has in hand, put together as the queue is afterwards, has the line in its order. -/
theorem Search.line (search : Search s worker node_id now s.runnable sel)
    (honest : ∀ id task, s.tasks.get id = some task → Honest task) (kept : k.Kept s worker node_id now) :
    (sel.passed ++ sel.rest ++ sel.requeue).filter (k.waits s) = k.line s := by
  -- What is served is not set aside, and the other way round.
  have inFront : ∀ l : List TaskId, k.Served worker →
      (l.filter (s.serves worker now)).filter (k.waits s) = l.filter (k.waits s) ∧
        (l.filter (s.unserved worker now)).filter (k.waits s) = [] := fun l served => by
    have all : ∀ id, k.waits s id = true → s.serves worker now id = true := fun id waits => (Kind.serves_iff honest waits).mpr served
    simp only [List.filter_filter,List.filter_eq_nil_iff]
    refine ⟨List.filter_congr fun id _ => ?_,fun id _ => ?_⟩
    · cases waits : k.waits s id <;> simp_all
    · cases waits : k.waits s id <;> simp_all [unserved]
  have atBack : ∀ l : List TaskId, ¬ k.Served worker → (l.filter (s.serves worker now)).filter (k.waits s) = [] ∧
      (l.filter (s.unserved worker now)).filter (k.waits s) = l.filter (k.waits s) := fun l unable => by
    have none : ∀ id, k.waits s id = true → s.serves worker now id = false := fun id waits =>
      Bool.eq_false_iff.mpr (mt (Kind.serves_iff honest waits).mp unable)
    have runnable : ∀ id, k.waits s id = true → s.is_runnable id = true := fun id => Kind.waits_runnable
    simp only [List.filter_filter,List.filter_eq_nil_iff]
    refine ⟨fun id _ => ?_,List.filter_congr fun id _ => ?_⟩
    · cases waits : k.waits s id <;> simp_all
    · cases waits : k.waits s id <;> simp_all [unserved]
  -- When the worker cannot serve the kind, the line lies on one side of where the search stops.
  have apart : ∀ {before after : List TaskId} {id : TaskId}, s.runnable = before ++ id :: after →
      Ongoing s worker node_id now before → s.serves worker now id = true →
      (s.is_local node_id id = true ∨ (before.filter (s.serves worker now)).length + 1 = LOCALITY_LOOKAHEAD) →
      ¬ k.Served worker →
      after.filter (k.waits s) ++ before.filter (k.waits s) = before.filter (k.waits s) ++ after.filter (k.waits s) := by
    intro before after id split ongoing serves stop unable
    by_cases some : ∃ x ∈ before, k.waits s x = true
    · obtain ⟨x,here,waits⟩ := some
      have none : after.filter (k.waits s) = [] := by
        refine List.filter_eq_nil_iff.mpr fun y there waits' => ?_
        exact unable ((Kind.serves_iff honest waits).mp (kept before id after split ongoing serves stop x here y there waits waits'))
      rw [none,List.append_nil,List.nil_append]
    · have none : before.filter (k.waits s) = [] := List.filter_eq_nil_iff.mpr fun x here waits => some ⟨x,here,waits⟩
      rw [none,List.append_nil,List.nil_append]
  rw [Kind.line]
  generalize queued : s.runnable = queue at search
  cases search with
  | through ongoing =>
    by_cases served : k.Served worker
    · rw [List.append_nil,List.filter_append,(inFront _ served).1,(inFront _ served).2,List.append_nil]
    · rw [List.append_nil,List.filter_append,(atBack _ served).1,(atBack _ served).2,List.nil_append]
  | @near before after id ongoing serves near =>
    have out : k.waits s id = false := Bool.eq_false_iff.mpr fun waits => by
      rw [Kind.away waits] at near
      cases near
    by_cases served : k.Served worker
    · simp only [List.filter_append,inFront _ served,List.append_nil,List.filter_cons,out,Bool.false_eq_true,if_false]
    · simp only [List.filter_append,atBack _ served,List.nil_append,List.filter_cons,out,Bool.false_eq_true,if_false]
      exact apart queued ongoing serves (.inl near) served
  | @enough before after id ongoing serves away last =>
    by_cases served : k.Served worker
    · simp only [List.filter_append,inFront _ served,List.append_nil,List.append_assoc]
      exact congrArg _ (List.filter_append [id] after).symm
    · have out : k.waits s id = false := Bool.eq_false_iff.mpr fun waits => served ((Kind.serves_iff honest waits).mp serves)
      simp only [List.filter_append,atBack _ served,List.nil_append,List.filter_cons,out,Bool.false_eq_true,if_false,
        List.filter_nil]
      exact apart queued ongoing serves (.inr last) served

/-- The pick is not in hand a second time. -/
theorem select_once (inv : Consistent s) (selected : s.select worker node_id now s.runnable [] [] 0 = sel)
    (waits : k.waits s id = true) (pick : sel.pick.map (·.1) = some id) : id ∉ sel.rest ∧ id ∉ sel.requeue := by
  obtain ⟨task,found,_,runnable,_⟩ := Kind.waits_iff.mp waits
  have legal := inv.legal id task found
  simp only [view,View.Legal,runnable] at legal
  have total := (select_total s worker node_id now s.runnable [] [] 0 id).2 task found runnable
  rw [selected,List.count_nil,legal.2.2.2.2.2,Selection.total] at total
  obtain ⟨⟨picked,near⟩,first,same⟩ := Option.map_eq_some_iff.mp pick
  obtain rfl : picked = id := same
  obtain ⟨inHand,_⟩ := Selection.queue_picked first
  have held : 1 ≤ sel.passed.count picked + sel.chosen.toList.count picked := by
    rcases inHand with passed | chosen
    · have := List.count_pos_iff.mpr passed
      omega
    · simp [chosen]
  exact ⟨List.count_eq_zero.mp (by omega),List.count_eq_zero.mp (by omega)⟩

/-- After a search the line is as before without the pick. -/
theorem select_line (inv : Consistent s) (selected : s.select worker node_id now s.runnable [] [] 0 = sel)
    (honest : ∀ id task, s.tasks.get id = some task → Honest task) (kept : k.Kept s worker node_id now) :
    sel.queue.filter (k.waits s) = (k.line s).filter fun id => sel.pick.map (·.1) ≠ some id := by
  have others : ∀ l : List TaskId, (∀ id ∈ l, k.waits s id = true → sel.pick.map (·.1) ≠ some id) →
      (l.filter (k.waits s)).filter (fun id => sel.pick.map (·.1) ≠ some id) = l.filter (k.waits s) := fun l free => by
    refine List.filter_eq_self.mpr fun id member => decide_eq_true ?_
    exact free id (List.mem_filter.mp member).1 (List.mem_filter.mp member).2
  have rest := others sel.rest fun id member waits pick => (select_once inv selected waits pick).1 member
  have requeue := others sel.requeue fun id member waits pick => (select_once inv selected waits pick).2 member
  have search := search_queue s worker node_id now s.runnable
  rw [selected] at search
  rw [← search.line honest kept,Selection.queue]
  simp only [List.filter_append,rest,requeue]
  rw [List.filter_comm]

/-- A pick of the kind that was never dispatched is the first of the line. -/
theorem Search.head_line (search : Search s worker node_id now s.runnable sel)
    (honest : ∀ id task, s.tasks.get id = some task → Honest task) (waits : k.waits s id = true)
    (pick : sel.pick.map (·.1) = some id) : (k.line s).head? = some id := by
  rw [search.pick] at pick
  have served : s.serves worker now id = true ∧ (s.runnable.filter (s.serves worker now)).head? = some id := by
    cases near : (s.ahead worker now s.runnable).find? (s.is_local node_id) with
    | some other =>
      rw [near,Option.some_or] at pick
      have found := List.find?_some near
      rw [Option.some.inj pick,Kind.away waits] at found
      cases found
    | none =>
      rw [near,Option.none_or] at pick
      exact ⟨(List.mem_filter.mp (List.mem_of_head? pick)).2,pick⟩
  -- The worker can serve the whole line, so that the line is among the candidates.
  have all : (s.runnable.filter (s.serves worker now)).filter (k.waits s) = k.line s := by
    rw [List.filter_filter,Kind.line]
    refine List.filter_congr fun other _ => ?_
    cases stands : k.waits s other with
    | false => simp
    | true =>
      have serves : s.serves worker now other = true := (Kind.serves_iff honest stands).mpr ((Kind.serves_iff honest waits).mp served.1)
      simp [serves]
  obtain ⟨rest,candidates⟩ := List.head?_eq_some_iff.mp served.2
  rw [← all,candidates,List.filter_cons_of_pos waits]
  rfl

/-! ### Steps of a run -/

theorem Ripples.appends (ripples : Ripples s s') : s.runnable <+: s'.runnable := by
  induction ripples with
  | refl => exact List.prefix_rfl
  | tail _ ripple ih =>
    cases ripple with
    | starve => exact ih
    | wake => exact ih.trans (List.prefix_append _ _)

theorem Swept.appends (swept : Swept now s s') : s.runnable <+: s'.runnable := by
  induction swept with
  | refl => exact List.prefix_rfl
  | tail _ sweep ih =>
    cases sweep with
    | retried => exact ih.trans (List.prefix_append _ _)
    | _ => exact ih

theorem Released.runnable {oid : ObjectId} (released : Released s oid s') : s'.runnable = s.runnable := by
  cases released with
  | before => rfl
  | drop => rfl

theorem Releases.runnable (releases : Releases s s') : s'.runnable = s.runnable := by
  induction releases with
  | refl => rfl
  | tail _ released ih =>
    obtain ⟨oid,released⟩ := released
    exact released.runnable.trans ih

theorem Admitted.runnable {oid : ObjectId} {codec : Codec} {size_bytes : UInt64} {checksum : Checksum}
    {bytes : Option (List UInt8)} (admitted : Admitted s oid codec size_bytes checksum bytes s') : s'.runnable = s.runnable := by
  cases admitted with
  | known => rfl
  | stored => rfl

/-- Only a poll takes ids out of the queue. -/
theorem Effect.appends (effect : Effect blake3 op s reply s') (other : ∀ node_id now lease, op ≠ .assign_next node_id now lease) :
    s.runnable <+: s'.runnable := by
  cases effect with
  | put admitted => rw [admitted.runnable]
  | put_meta admitted => rw [admitted.runnable]
  | submitted =>
    dsimp only
    split
    · exact List.prefix_rfl
    · exact List.prefix_append _ _
  | busy => exact absurd rfl (other _ _ _)
  | searched => exact absurd rfl (other _ _ _)
  | assigned => exact absurd rfl (other _ _ _)
  | completed _ _ _ _ _ _ _ _ _ _ _ ripples reconciled => exact ripples.appends
  | retried => exact List.prefix_append _ _
  | failed _ _ _ _ _ _ ripples reconciled => exact ripples.appends
  | expired report swept workers ripples reconciled => exact swept.appends.trans ripples.appends
  | reaped count released => rw [released.runnable]
  | acknowledged _ _ _ _ _ ripples reconciled => exact ripples.appends
  | cancelled _ _ ripples reconciled => exact ripples.appends
  | released released => rw [released.runnable]
  | _ => exact List.prefix_rfl

/-- A task keeps its operation, its arguments and its resources. -/
theorem Moves.alike (moves : Moves op s s') (inv : Consistent s) {task' : TaskRecord} (there : s'.tasks.get id = some task') :
    (∃ task, s.tasks.get id = some task ∧ task'.operation = task.operation ∧ task'.args = task.args ∧
      task'.resources = task.resources) ∨ .task id ∈ op.minted := by
  induction moves generalizing task' with
  | refl => exact .inl ⟨task',there,rfl,rfl,rfl⟩
  | tail before move ih =>
    have step := move.task (Moves.consistent before inv) id
    rw [there] at step
    generalize found : Table.get _ id = record at step
    cases step with
    | kept => exact ih found
    | submitted submitted => exact .inr submitted.minted
    | advanced live state attempt assigned not_before_ms =>
      have earlier := ih found
      exact earlier
    | stamped ended terminal_since_ms =>
      have earlier := ih found
      exact earlier

theorem Kind.has_alike {task' : TaskRecord} (operation : task'.operation = task.operation) (args : task'.args = task.args)
    (resources : task'.resources = task.resources) (has : k.has task = true) : k.has task' = true := by
  rw [has_iff,TaskRecord.dependencies] at has ⊢
  rwa [operation,args,resources]

/-- Apart from polls and submissions, an operation only takes tasks out of the line. -/
theorem Effect.line (effect : Effect blake3 op s reply s') (moves : Moves op s s') (inv : Consistent s)
    (honest : Honestly op s) (other : ∀ node_id now lease, op ≠ .assign_next node_id now lease)
    (mints : ∀ id, .task id ∉ op.minted) : (k.line s').Sublist (k.line s) := by
  obtain ⟨extra,queue⟩ := effect.appends other
  have traced : ∀ id, k.waits s' id = true → k.waits s id = true := fun id waits =>
    ((moves.honestly inv honest).2 id waits).resolve_right (mints id)
  have inv' := moves.consistent inv
  -- What is added to the queue was not in it, so it cannot be in the line.
  have none : extra.filter (k.waits s') = [] := by
    refine List.filter_eq_nil_iff.mpr fun id added waits => ?_
    obtain ⟨task,found,_,runnable,_⟩ := Kind.waits_iff.mp (traced id waits)
    obtain ⟨task',found',_,runnable',_⟩ := Kind.waits_iff.mp waits
    have once := inv.legal id task found
    have once' := inv'.legal id task' found'
    simp only [view,View.Legal,runnable,runnable'] at once once'
    have twice := List.count_pos_iff.mpr added
    rw [← queue,List.count_append] at once'
    omega
  rw [Kind.line,Kind.line,← queue,List.filter_append,none,List.append_nil]
  exact List.monotone_filter_right _ traced

/-- A submission puts its task at the end of the line if it is of the kind. -/
theorem submitted_line {operation : OperationKey} {args : List TaskArg} {resources : ResourceSet} {max_attempts : UInt32}
    {output : ObjectId} (effect : Effect blake3 (.submit operation args resources max_attempts id output) s reply s')
    (newTo : Op.NewTo s (.submit operation args resources max_attempts id output)) :
    k.line s' = k.line s ++ (if operation = k.operation ∧ resources = k.resources ∧ args.filterMap TaskArg.object? = [] then [id]
      else []) ∧ ∀ task, s'.tasks.get id = some task → Honest task ∧ (k.has task = true ↔
        operation = k.operation ∧ resources = k.resources ∧ args.filterMap TaskArg.object? = []) := by
  obtain ⟨absent,unqueued,_⟩ := newTo
  cases effect with
  | @submitted _ _ _ _ _ _ _ descriptor blocked attempts offered valid capable admitted =>
    have takes := (admit_args_ok admitted).2
    simp only [Bool.false_eq_true,false_or] at takes
    have bare : args.filterMap TaskArg.object? = [] → blocked = false := fun none => by
      rw [none] at takes
      by_contra waits
      obtain ⟨_,member,_⟩ := takes (by simpa using waits)
      cases member
    refine ⟨?_,fun task found => ?_⟩
    · have before : ∀ {u : CoordinatorState} {record : TaskRecord}, u.tasks = s.tasks.insert id record →
          s.runnable.filter (k.waits u) = s.runnable.filter (k.waits s) := fun tasks =>
        List.filter_congr fun other member => by
          have different : other ≠ id := fun same => unqueued (same ▸ member)
          rw [Kind.waits,Kind.waits,tasks,Table.get_insert,if_neg different]
      cases blocked with
      | true =>
        have takesObject : args.filterMap TaskArg.object? ≠ [] := fun none => Bool.noConfusion (bare none)
        simp only [Kind.line,if_true,takesObject,and_false,if_false,List.append_nil]
        exact before rfl
      | false =>
        simp only [Kind.line,Bool.false_eq_true,if_false,List.filter_append]
        refine congr (congrArg _ (before rfl)) ?_
        simp only [List.filter_cons,List.filter_nil,Kind.waits,Table.get_insert,if_true,Option.any_some,decide_true,
          Bool.and_true]
        exact if_congr Kind.has_iff rfl rfl
    · rw [Table.get_insert,if_pos rfl] at found
      obtain rfl := Option.some.inj found
      refine ⟨⟨fun _ => ⟨rfl,rfl⟩,fun waiting none => ?_⟩,by rw [Kind.has_iff]; rfl⟩
      rw [bare none] at waiting
      cases waiting

/-! ### Runs -/

@[simp] theorem accepted_cons (k : Kind) (step : Step) (past : List Step) :
    accepted k (step :: past) = accepted k past ++ (step.accepts k).toList := by
  cases found : step.accepts k <;> simp [accepted,found]

@[simp] theorem sent_cons (step : Step) (past : List Step) : sent (step :: past) = step.sends.toList ++ sent past := by
  cases found : step.sends <;> simp [sent,found]

variable {epoch : CoordinatorEpoch} {past : List Step} {step : Step} {order : HashOrder}

/-- A step that dispatches a task shows it. -/
theorem Step.sends_iff : step.sends = some id ↔ (step.mark id).attempt?.isSome = true := by
  obtain ⟨order,op,before,outcome⟩ := step
  cases outcome with
  | error fault after => cases op <;> simp [Step.sends,Step.mark,Attempts.Mark.attempt?]
  | ok reply after =>
    have ending : ∀ now final job job', (ended now final job job').attempt? = none := fun now final job job' => by
      cases job <;> cases job' <;> rfl
    cases op with
    | submit operation args resources max_attempts task output =>
      cases reply with
      | Submitted =>
        simp only [Step.sends,Step.mark,seen]
        split <;> simp [Attempts.Mark.attempt?]
      | _ => simp [Step.sends,Step.mark,seen,Attempts.Mark.attempt?]
    | assign_next node_id now lease =>
      cases reply with
      | Assignment assignment =>
        cases assignment with
        | none => simp [Step.sends,Step.mark,seen,Attempts.Mark.attempt?]
        | some a =>
          simp only [Step.sends,Step.mark,seen,Option.some.injEq]
          split <;> simp_all [Attempts.Mark.attempt?]
      | _ => simp [Step.sends,Step.mark,seen,Attempts.Mark.attempt?]
    | fail identity fence message «class» now => simp [Step.sends,Step.mark,seen,ending]
    | expire_workers now => simp [Step.sends,Step.mark,seen,ending]
    | _ => simp [Step.sends,Step.mark,seen,Attempts.Mark.attempt?]

theorem mem_sent : id ∈ sent past ↔ Attempts.attempts (past.map (Step.mark id)) ≠ [] := by
  simp only [sent,List.mem_filterMap,Attempts.attempts,ne_eq,List.filterMap_eq_nil_iff,List.mem_reverse,List.mem_map,
    Step.sends_iff]
  constructor
  · rintro ⟨step,member,shown⟩ none
    rw [none _ ⟨step,member,rfl⟩] at shown
    cases shown
  · intro some
    push Not at some
    obtain ⟨_,⟨step,member,rfl⟩,shown⟩ := some
    exact ⟨step,member,Option.isSome_iff_ne_none.mpr shown⟩

/-- A runnable task was dispatched before exactly if it was tried. -/
theorem Run.sent_iff (run : Run blake3 epoch past s) (found : s.tasks.get id = some task) (runnable : task.state = .Runnable) :
    id ∈ sent past ↔ task.attempt ≠ 0 := by
  have accords := (run.job id).accords
  rw [found,standing,TaskRecord.job_idle (.inr runnable)] at accords
  rw [mem_sent,accords.1]
  rw [ne_eq,List.range'_eq_nil_iff]
  exact not_congr (UInt32.toNat_inj (a := task.attempt) (b := 0))

/-- After a poll the line is as before without the task that is dispatched; and if that stood in the line it was the first. -/
theorem assigned_line (inv : Consistent s) (honest : ∀ id task, s.tasks.get id = some task → Honest task) {lease : LeaseId}
    {assignment : Option TaskAssignment} (ran : assign_next node_id now lease s = .ok assignment s')
    (kept : ∀ worker, s.workers.get node_id = some worker → worker.state = .Alive → worker.free_slots ≠ 0 →
      k.Kept s worker node_id now) :
    k.line s' = (k.line s).filter (fun id => assignment.map (·.fence.task_id) ≠ some id) ∧
      ∀ id, assignment.map (·.fence.task_id) = some id → (∃ task, s.tasks.get id = some task ∧ task.state = .Runnable) ∧
        (k.waits s id = true → (k.line s).head? = some id) := by
  cases found : s.workers.get node_id with
  | none => simp [assign_next,found] at ran
  | some worker =>
  by_cases busy : worker.state ≠ .Alive ∨ worker.free_slots = 0
  · simp only [assign_next,bind_apply,get_apply,found,ok_or_some,pure_apply,if_pos busy] at ran
    obtain ⟨rfl,rfl⟩ := EStateM.Result.ok.inj ran
    exact ⟨(List.filter_eq_self.mpr fun _ _ => rfl).symm,by rintro _ ⟨⟩⟩
  obtain ⟨alive,free⟩ := not_or.mp busy
  have alive := not_not.mp alive
  obtain ⟨_,_,ran',effect,_,searched⟩ := assign_next_ends (fun _ => .replicate 32 0) inv found now lease
  obtain ⟨rfl,rfl⟩ := EStateM.Result.ok.inj (ran.symm.trans ran')
  obtain ⟨queue,picked⟩ := searched alive free
  have search := search_queue s worker node_id now s.runnable
  have line := select_line inv rfl honest (kept worker found alive free)
  have waits : ∀ x, k.waits s' x = (k.waits s x && decide (assignment.map (·.fence.task_id) ≠ some x)) := by
    intro x
    cases effect with
    | busy => simp
    | searched => simp [Kind.waits]
    | @assigned _ _ _ _ id _ _ _ _ _ there =>
      rw [Kind.waits,Table.get_modify_of there]
      by_cases same : x = id
      · simp [same]
      · simp [same,Ne.symm same,Kind.waits]
  refine ⟨?_,fun id pick => ⟨?_,fun waits => search.head_line honest waits (picked.symm.trans pick)⟩⟩
  · rw [← picked] at line
    calc k.line s' = ((s.select worker node_id now s.runnable [] [] 0).queue.filter (k.waits s)).filter
          (fun id => assignment.map (·.fence.task_id) ≠ some id) := by
          rw [Kind.line,queue,List.filter_filter]
          exact List.filter_congr fun x _ => (waits x).trans (Bool.and_comm _ _)
      _ = (k.line s).filter (fun id => assignment.map (·.fence.task_id) ≠ some id) := by
          rw [line]
          exact List.filter_eq_self.mpr fun x member => (List.mem_filter.mp member).2
  · cases effect with
    | assigned _ there _ _ _ servable =>
      obtain rfl := Option.some.inj pick
      exact ⟨_,there,servable.runnable⟩
    | _ => cases pick

/-- What holds along a run whose polls leave the line alone: it has the tasks that wait for their first dispatch in the
    order in which they were submitted, and none that came before one that was dispatched. -/
structure InLine (k : Kind) (past : List Step) (s : CoordinatorState) : Prop where
  honest : ∀ id task, s.tasks.get id = some task → Honest task
  nodup : (accepted k past).Nodup
  line : (k.line s).Sublist (accepted k past)
  kind : ∀ id ∈ accepted k past, ∀ task, s.tasks.get id = some task → k.has task = true
  passed : ∀ y ∈ sent past, ∀ x, [x,y].Sublist (accepted k past) → x ∉ k.line s

theorem accepted_drawn (member : id ∈ accepted k past) : ∃ step ∈ past, .task id ∈ step.op.minted := by
  obtain ⟨step,member,accepts⟩ := List.mem_filterMap.mp (List.mem_reverse.mp member)
  refine ⟨step,member,?_⟩
  rw [Step.accepts] at accepts
  split at accepts
  · rename_i submits _
    split at accepts
    · obtain rfl := Option.some.inj accepts
      simp [submits,Op.minted]
    · cases accepts
  · cases accepts

theorem Run.sent_drawn (run : Run blake3 epoch past s) (member : id ∈ sent past) : ∃ step ∈ past, .task id ∈ step.op.minted := by
  cases found : s.tasks.get id with
  | some task => exact run.known.2 id (.inl (Table.mem_keys_iff.mpr ⟨task,found⟩))
  | none =>
    by_contra undrawn
    have unknown : past.any (·.op.draws id) = false := List.any_eq_false.mpr fun step member drawn =>
      undrawn ⟨step,member,of_decide_eq_true drawn⟩
    have accords := (run.job id).accords
    rw [found,unknown] at accords
    exact mem_sent.mp member accords.1

/-- In a list without repetitions one of two elements comes first. -/
theorem one_way {α : Type} {l : List α} (nodup : l.Nodup) {x y : α} (forth : [x,y].Sublist l) : ¬ [y,x].Sublist l := by
  induction l with
  | nil => cases forth
  | cons first rest ih =>
    obtain ⟨fresh,nodup⟩ := List.nodup_cons.mp nodup
    intro back
    cases forth with
    | cons _ forth =>
      cases back with
      | cons _ back => exact ih nodup forth back
      | cons_cons _ back => exact fresh (forth.subset (by simp))
    | cons_cons _ forth =>
      cases back with
      | cons _ back => exact fresh (back.subset (by simp))
      | cons_cons _ back => exact fresh (List.singleton_sublist.mp back)

/-- What comes before an element of the first part is in the first part. -/
theorem sublist_left {α : Type} {l r : List α} {x y : α} (both : [x,y].Sublist (l ++ r)) (left : y ∉ r) : [x,y].Sublist l := by
  obtain ⟨l₁,l₂,split,inLeft,inRight⟩ := List.sublist_append_iff.mp both
  cases l₁ with
  | nil =>
    obtain rfl : [x,y] = l₂ := split
    exact absurd (inRight.subset (by simp)) left
  | cons a l₁ =>
    obtain ⟨rfl,tail⟩ := List.cons.inj split
    cases l₁ with
    | nil =>
      obtain rfl : [y] = l₂ := tail
      exact absurd (inRight.subset (by simp)) left
    | cons b l₁ =>
      obtain ⟨rfl,none⟩ := List.cons.inj tail
      obtain ⟨rfl,rfl⟩ := List.append_eq_nil_iff.mp none.symm
      exact inLeft

theorem InLine.submitted (inLine : InLine k past s) (run : Run blake3 epoch past s) {operation : OperationKey}
    {args : List TaskArg} {resources : ResourceSet} {max_attempts : UInt32} {output : ObjectId}
    (fresh : Fresh past s (.submit operation args resources max_attempts id output))
    (effect : Effect blake3 (.submit operation args resources max_attempts id output) s reply s') :
    InLine k (⟨order,.submit operation args resources max_attempts id output,s,.ok reply s'⟩ :: past) s' := by
  have newTo := run.newTo fresh
  have inv := run.inv.consistent
  have moves := effect.moves newTo
  obtain ⟨line,mine⟩ := submitted_line (k := k) effect newTo
  have unseen : ∀ step ∈ past, .task id ∉ step.op.minted := (fresh (.task id) (by simp [Op.minted])).1
  have unaccepted : id ∉ accepted k past := fun member => by
    obtain ⟨step,member,drawn⟩ := accepted_drawn member
    exact unseen step member drawn
  have accepts : (Step.accepts k ⟨order,.submit operation args resources max_attempts id output,s,.ok reply s'⟩).toList =
      if operation = k.operation ∧ resources = k.resources ∧ args.filterMap TaskArg.object? = [] then [id] else [] := by
    simp only [Step.accepts]
    split <;> rfl
  have sends : Step.sends ⟨order,.submit operation args resources max_attempts id output,s,.ok reply s'⟩ = none := rfl
  rw [← accepts] at line
  have new : ∀ x ∈ (Step.accepts k ⟨order,.submit operation args resources max_attempts id output,s,.ok reply s'⟩).toList,
      x = id ∧ operation = k.operation ∧ resources = k.resources ∧ args.filterMap TaskArg.object? = [] := fun x member => by
    rw [accepts] at member
    split at member
    · exact ⟨List.mem_singleton.mp member,‹_›⟩
    · cases member
  refine ⟨fun other task found => ?_,?_,?_,fun other member task found => ?_,fun y sentBefore x forth inLine' => ?_⟩
  · by_cases same : other = id
    · subst same
      exact (mine task found).1
    · refine ((moves.honestly (k := k) inv fun id task found => .inl (inLine.honest id task found)).1 other task found).resolve_right ?_
      simpa [Op.minted] using same
  · rw [accepted_cons,List.nodup_append']
    refine ⟨inLine.nodup,?_,fun x member added => unaccepted ((new x added).1 ▸ member)⟩
    cases Step.accepts k _ <;> simp
  · rw [accepted_cons,line]
    exact inLine.line.append (List.Sublist.refl _)
  · rw [accepted_cons] at member
    rcases List.mem_append.mp member with earlier | added
    · rcases moves.alike inv found with ⟨before,there,operation,args,resources⟩ | drawn
      · exact Kind.has_alike operation args resources (inLine.kind other earlier before there)
      · obtain rfl : other = id := by simpa [Op.minted] using drawn
        exact absurd earlier unaccepted
    · obtain ⟨rfl,kind⟩ := new other added
      exact (mine task found).2.mpr kind
  · rw [sent_cons,sends,Option.toList_none,List.nil_append] at sentBefore
    rw [accepted_cons] at forth
    have old : ∀ z, (∃ step ∈ past, .task z ∈ step.op.minted) →
        z ∉ (Step.accepts k ⟨order,.submit operation args resources max_attempts id output,s,.ok reply s'⟩).toList := by
      rintro z ⟨step,member,drawn⟩ added
      exact unseen step member ((new z added).1 ▸ drawn)
    have before := sublist_left forth (old y (run.sent_drawn sentBefore))
    rw [line] at inLine'
    rcases List.mem_append.mp inLine' with stood | added
    · exact inLine.passed y sentBefore x before stood
    · exact old x (accepted_drawn (before.subset (by simp))) added

theorem InLine.polled (inLine : InLine k past s) (run : Run blake3 epoch past s) {lease : LeaseId}
    (fresh : Fresh past s (.assign_next node_id now lease)) {assignment : Option TaskAssignment}
    (ran : assign_next node_id now lease s = .ok assignment s')
    (effect : Effect blake3 (.assign_next node_id now lease) s (.Assignment assignment) s')
    (kept : ∀ worker, s.workers.get node_id = some worker → worker.state = .Alive → worker.free_slots ≠ 0 →
      k.Kept s worker node_id now) :
    InLine k (⟨order,.assign_next node_id now lease,s,.ok (.Assignment assignment) s'⟩ :: past) s' := by
  have inv := run.inv.consistent
  have moves := effect.moves (run.newTo fresh)
  obtain ⟨line,first⟩ := assigned_line inv inLine.honest ran kept
  have accepts : accepted k (⟨order,.assign_next node_id now lease,s,.ok (.Assignment assignment) s'⟩ :: past) = accepted k past := by
    rw [accepted_cons]
    exact List.append_nil _
  have sends : Step.sends ⟨order,.assign_next node_id now lease,s,.ok (.Assignment assignment) s'⟩ =
      assignment.map (·.fence.task_id) := by
    cases assignment <;> rfl
  have undrawn : ∀ {x : TaskId}, .task x ∉ (Op.assign_next node_id now lease).minted := by simp [Op.minted]
  refine ⟨fun other task found => ?_,?_,?_,fun other member task found => ?_,fun y sentNow x forth stands => ?_⟩
  · exact ((moves.honestly (k := k) inv fun id task found => .inl (inLine.honest id task found)).1 other task found).resolve_right
      undrawn
  · rw [accepts]
    exact inLine.nodup
  · rw [accepts,line]
    exact List.filter_sublist.trans inLine.line
  · rw [accepts] at member
    obtain ⟨before,there,operation,args,resources⟩ := (moves.alike inv found).resolve_right undrawn
    exact Kind.has_alike operation args resources (inLine.kind other member before there)
  · rw [accepts] at forth
    rw [line] at stands
    obtain ⟨stood,spared⟩ := List.mem_filter.mp stands
    have already : y ∉ sent past := fun before => inLine.passed y before x forth stood
    rw [sent_cons,sends] at sentNow
    have picked := Option.mem_toList.mp ((List.mem_append.mp sentNow).resolve_right already)
    obtain ⟨⟨task,found,runnable⟩,head⟩ := first y picked
    -- The task is dispatched for the first time, so it was the first of the line.
    have tried := not_not.mp (mt (run.sent_iff found runnable).mpr already)
    have has := inLine.kind y (forth.subset (by simp)) task found
    obtain ⟨rest,whole⟩ := List.head?_eq_some_iff.mp (head (Kind.waits_iff.mpr ⟨task,found,has,runnable,tried⟩))
    rw [whole] at stood
    rcases List.mem_cons.mp stood with rfl | behind
    · exact of_decide_eq_true spared picked
    · refine one_way inLine.nodup forth (List.Sublist.trans ?_ inLine.line)
      rw [whole]
      exact (List.singleton_sublist.mpr behind).cons_cons y

theorem InLine.other (inLine : InLine k past s) (run : Run blake3 epoch past s) (fresh : Fresh past s op)
    (effect : Effect blake3 op s reply s') (poll : ∀ node_id now lease, op ≠ .assign_next node_id now lease)
    (submission : ∀ operation args resources max_attempts id output,
      op ≠ .submit operation args resources max_attempts id output) : InLine k (⟨order,op,s,.ok reply s'⟩ :: past) s' := by
  have inv := run.inv.consistent
  have moves := effect.moves (run.newTo fresh)
  have undrawn : ∀ x, .task x ∉ op.minted := fun x => by
    cases op with
    | submit => exact absurd rfl (submission _ _ _ _ _ _)
    | _ => simp [Op.minted]
  have accepts : accepted k (⟨order,op,s,.ok reply s'⟩ :: past) = accepted k past := by
    rw [accepted_cons]
    cases op with
    | submit => exact absurd rfl (submission _ _ _ _ _ _)
    | _ => exact List.append_nil _
  have sends : sent (⟨order,op,s,.ok reply s'⟩ :: past) = sent past := by
    rw [sent_cons]
    cases op with
    | assign_next => exact absurd rfl (poll _ _ _)
    | _ => rfl
  have honest : Honestly op s := fun id task found => .inl (inLine.honest id task found)
  have line := effect.line (k := k) moves inv honest poll undrawn
  refine ⟨fun other task found => ?_,?_,?_,fun other member task found => ?_,fun y before x forth stands => ?_⟩
  · exact ((moves.honestly (k := k) inv honest).1 other task found).resolve_right (undrawn other)
  · rw [accepts]
    exact inLine.nodup
  · rw [accepts]
    exact line.trans inLine.line
  · rw [accepts] at member
    obtain ⟨before,there,operation,args,resources⟩ := (moves.alike inv found).resolve_right (undrawn other)
    exact Kind.has_alike operation args resources (inLine.kind other member before there)
  · rw [sends] at before
    rw [accepts] at forth
    exact inLine.passed y before x forth (line.subset stands)

/-- A step that fails accepts and dispatches nothing. -/
theorem InLine.refused (inLine : InLine k past s) {fault : Fault Error} :
    InLine k (⟨order,op,s,.error fault s'⟩ :: past) s := by
  have accepts : accepted k (⟨order,op,s,.error fault s'⟩ :: past) = accepted k past := by
    rw [accepted_cons]
    cases op <;> exact List.append_nil _
  have sends : sent (⟨order,op,s,.error fault s'⟩ :: past) = sent past := by
    rw [sent_cons]
    cases op <;> rfl
  obtain ⟨honest,nodup,line,kind,passed⟩ := inLine
  rw [← accepts] at nodup line kind passed
  rw [← sends] at passed
  exact ⟨honest,nodup,line,kind,passed⟩

theorem Run.inLine (run : Run blake3 epoch past s) (keeps : ∀ step ∈ past, step.Keeps k) : InLine k past s := by
  induction run with
  | start => exact ⟨by simp [new],List.nodup_nil,by simp [Kind.line,new,accepted],by simp [accepted],by simp [sent]⟩
  | @step past s run order op fresh ih =>
    obtain ⟨keep,keeps⟩ := List.forall_mem_cons.mp keeps
    have inLine := ih keeps
    have atomic := apply_effect blake3 order run.inv.consistent run.inv.alive op
    rcases atomic.returned_or_failed with ⟨reply,s',outcome,effect⟩ | ⟨e,outcome⟩
    swap
    · rw [outcome]
      exact inLine.refused
    · rw [outcome]
      by_cases submission : ∃ operation args resources max_attempts id output,
          op = .submit operation args resources max_attempts id output
      · obtain ⟨operation,args,resources,max_attempts,id,output,rfl⟩ := submission
        exact inLine.submitted run fresh effect
      by_cases poll : ∃ node_id now lease, op = .assign_next node_id now lease
      · obtain ⟨node_id,now,lease,rfl⟩ := poll
        obtain ⟨assignment,_,ran,done⟩ := bind_ok outcome
        obtain ⟨rfl,rfl⟩ := EStateM.Result.ok.inj done
        exact inLine.polled run fresh ran effect keep
      · push Not at submission poll
        exact inLine.other run fresh effect poll submission

/-- The state that a step of a run starts from. -/
theorem Run.before {later : List Step} (run : Run blake3 epoch (later ++ step :: past) s) :
    Run blake3 epoch past step.before ∧ step.outcome = apply blake3 step.order step.op step.before := by
  have here := run.at
  cases here with
  | step run order op fresh => exact ⟨run,rfl⟩

/-- How tasks of one kind come to be dispatched: in the order in which they were submitted, and undisturbed by
    workers that cannot serve them. -/
structure InOrder (k : Kind) (past : List Step) : Prop where
  /-- When a task is dispatched, one that was submitted before it was dispatched earlier or is never dispatched. -/
  first : ∀ later step earlier, past = later ++ step :: earlier → ∀ x y, [x,y].Sublist (accepted k past) →
    step.sends = some y → x ∈ sent earlier ∨ x ∉ sent later
  undisturbed : ∀ step ∈ past, ∀ node_id now lease worker, step.op = .assign_next node_id now lease →
    step.before.workers.get node_id = some worker → ¬ k.Served worker → k.line (Outcome.state step.outcome) = k.line step.before

/-- The tasks accepted by a part of the run are those of its steps. -/
theorem accepted_append (k : Kind) (later earlier : List Step) :
    accepted k (later ++ earlier) = accepted k earlier ++ accepted k later := by
  simp [accepted]

theorem sent_append (later earlier : List Step) : sent (later ++ earlier) = sent later ++ sent earlier := by
  simp [sent]

/-- No id is drawn twice. -/
theorem Run.drawn_once {later : List Step} (run : Run blake3 epoch (later ++ past) s) {m : Minted}
    (drawn : ∃ step ∈ past, m ∈ step.op.minted) : ∀ step ∈ later, m ∉ step.op.minted := by
  induction later generalizing s with
  | nil => simp
  | cons last later ih =>
    cases run with
    | step run order op fresh =>
      refine List.forall_mem_cons.mpr ⟨fun again => ?_,ih run⟩
      obtain ⟨step,member,before⟩ := drawn
      exact (fresh m again).1 step (List.mem_append_right _ member) before

theorem first_sent {later : List Step} (member : id ∈ sent later) :
    ∃ after step before, later = after ++ step :: before ∧ step.sends = some id ∧ id ∉ sent before := by
  induction later with
  | nil => cases member
  | cons last later ih =>
    by_cases earlier : id ∈ sent later
    · obtain ⟨after,step,before,rfl,sends,unsent⟩ := ih earlier
      exact ⟨last :: after,step,before,rfl,sends,unsent⟩
    · rw [sent_cons] at member
      exact ⟨[],last,later,rfl,Option.mem_toList.mp ((List.mem_append.mp member).resolve_right earlier),earlier⟩

/-- What is dispatched is runnable, and the worker can serve it. -/
theorem Step.sends_task (outcome : step.outcome = apply blake3 step.order step.op step.before)
    (inv : Inv step.before) (sends : step.sends = some id) : ∃ node_id now lease worker task,
      step.op = .assign_next node_id now lease ∧ step.before.workers.get node_id = some worker ∧
      step.before.tasks.get id = some task ∧ Servable worker now task := by
  have atomic := apply_effect blake3 step.order inv.consistent inv.alive step.op
  rw [← outcome] at atomic
  rw [Step.sends] at sends
  split at sends
  · rename_i node_id now lease a s' polls returned
    obtain rfl := Option.some.inj sends
    rw [returned,polls] at atomic
    cases atomic with
    | assigned _ found at_worker _ _ servable => exact ⟨node_id,now,lease,_,_,polls,at_worker,found,servable⟩
  · cases sends

/-- In every run in which no poll stops between two tasks of the kind that its worker cannot serve, the tasks of
    the kind are first dispatched in the order in which they were submitted. -/
theorem run_in_order (run : Run blake3 epoch past s) (keeps : ∀ step ∈ past, step.Keeps k) : InOrder k past := by
  refine ⟨?_,?_⟩
  · rintro later step earlier rfl x y forth sends
    by_contra overtaken
    push Not at overtaken
    obtain ⟨unsent,later_sent⟩ := overtaken
    obtain ⟨after,next,between,rfl,sendsNext,unsentBetween⟩ := first_sent later_sent
    rw [List.append_assoc,List.cons_append] at run keeps forth
    obtain ⟨before,outcome⟩ := run.before
    have inLine := before.inLine (k := k) fun step member => keeps step (by simp_all)
    have sentBefore : y ∈ sent (between ++ step :: earlier) := by simp [sent_append,sends]
    -- Both tasks were submitted before the step that dispatches the first of them.
    have forth' : [x,y].Sublist (accepted k (between ++ step :: earlier)) := by
      rw [show after ++ next :: (between ++ step :: earlier) = (after ++ [next]) ++ (between ++ step :: earlier) by simp] at run forth
      rw [accepted_append] at forth
      refine sublist_left forth fun again => ?_
      obtain ⟨twice,member,drawn⟩ := accepted_drawn again
      exact run.drawn_once (before.sent_drawn sentBefore) twice member drawn
    have away := inLine.passed y sentBefore x forth'
    obtain ⟨node_id,now,lease,worker,task,polls,at_worker,found,servable⟩ := Step.sends_task outcome before.inv sendsNext
    have different : x ≠ y := fun same => by
      have distinct := forth'.nodup inLine.nodup
      simp [same] at distinct
    have untried : task.attempt = 0 := by
      by_contra tried
      have again := (before.sent_iff found servable.runnable).mpr tried
      simp [sent_append,sends,unsentBetween,unsent,different] at again
    have has := inLine.kind x (forth'.subset (by simp)) task found
    have legal := before.inv.consistent.legal x task found
    simp only [view,View.Legal,servable.runnable] at legal
    refine away (List.mem_filter.mpr ⟨List.count_pos_iff.mp (by rw [legal.2.2.2.2.2]; decide),?_⟩)
    exact Kind.waits_iff.mpr ⟨task,found,has,servable.runnable,untried⟩
  · intro step member node_id now lease worker polls at_worker unable
    obtain ⟨later,earlier,rfl⟩ := List.append_of_mem member
    obtain ⟨before,outcome⟩ := run.before
    have inLine := before.inLine (k := k) fun step member => keeps step (by simp_all)
    have keep := keeps step member
    rw [Step.Keeps,polls] at keep
    have atomic := apply_effect blake3 step.order before.inv.consistent before.inv.alive step.op
    rcases atomic.returned_or_failed with ⟨reply,s',returned,effect⟩ | ⟨e,returned⟩
    swap
    · rw [outcome,returned]
      rfl
    · rw [outcome,returned]
      rw [polls] at returned effect
      obtain ⟨assignment,_,ran,done⟩ := bind_ok returned
      obtain ⟨rfl,rfl⟩ := EStateM.Result.ok.inj done
      refine (assigned_line before.inv.consistent inLine.honest ran keep).1.trans (List.filter_eq_self.mpr fun x stands => ?_)
      refine decide_eq_true fun picked => unable ?_
      cases effect with
      | assigned _ found at_worker' _ _ servable =>
        obtain rfl := Option.some.inj (at_worker.symm.trans at_worker')
        obtain rfl := Option.some.inj picked
        refine (Kind.serves_iff inLine.honest (List.mem_filter.mp stands).2).mp (?_ : step.before.serves worker now _ = true)
        simp [serves,found,servable]
      | _ => cases picked

/-! ### Two runs -/

/-- A poll keeps the line when the worker can serve all of the queue, or nothing in it. -/
def Step.uniform (step : Step) : Bool :=
  match step.op with
  | .assign_next node_id now _ => (step.before.workers.get node_id).all fun worker =>
      step.before.runnable.all (step.before.serves worker now) || step.before.runnable.all fun id => !step.before.serves worker now id
  | _ => true

theorem Step.keeps_of (uniform : step.uniform = true) (k : Kind) : step.Keeps k := by
  cases polls : step.op with
  | assign_next node_id now lease =>
    simp only [Step.uniform,polls] at uniform
    simp only [Step.Keeps,polls]
    intro worker found alive free before id after split ongoing serves stop x member y _ _ _
    rw [found,Option.all_some,Bool.or_eq_true,List.all_eq_true,List.all_eq_true] at uniform
    rcases uniform with all | none
    · exact all x (by rw [split]; simp [member])
    · have unserved := none id (by rw [split]; simp)
      simp [serves] at unserved
  | _ => simp only [Step.Keeps,polls]

def mulKey : OperationKey := ⟨"math","mul",1⟩
def mulResources : ResourceSet := ⟨⟨[("cpu",⟨300⟩)],by decide⟩⟩
def mulKind : Kind := ⟨mulKey,mulResources⟩
def mulNode : NodeId := ⟨.replicate 16 20⟩
def mulTask (n : UInt8) : TaskId := ⟨.replicate 16 n⟩
def mulLease (n : UInt8) : LeaseId := ⟨.replicate 16 n⟩

def submitMul (n : UInt8) : Op := .submit mulKey [] mulResources 1 (mulTask n) ⟨.replicate 32 n⟩

/-- The worker of the small run is done with its task and has the output; a second worker joins that can multiply. -/
def mulStart : List Op :=
  [.register_worker ⟨mulNode,⟨.replicate 16 21⟩,"host:2",⟨⟨[("cpu",⟨1000⟩)],offer_sorted⟩⟩,2,[⟨mulKey,.JsonV1,.JsonV1,64⟩]⟩ 0 5000
      ⟨.replicate 16 22⟩,
    .complete smallWorker ⟨⟨smallTask,1,smallLease⟩,smallOutput,.JsonV1,3,.replicate 32 9,"host:1",none⟩] ++ smallOps

/-- Two multiplications are submitted. The first worker cannot serve them and polls; then the second polls twice. -/
def inOrderOps : List Op :=
  [.assign_next mulNode 50 (mulLease 33),.assign_next mulNode 40 (mulLease 32),
    .assign_next smallWorker.node_id 30 (mulLease 31),submitMul 24,submitMul 23] ++ mulStart

theorem in_order_run : Run smallHash smallEpoch (replay smallHash smallEpoch inOrderOps).1 (replay smallHash smallEpoch inOrderOps).2 :=
  replay_run smallHash smallEpoch inOrderOps (by decide +kernel)

theorem multiplications_in_order : accepted mulKind (replay smallHash smallEpoch inOrderOps).1 = [mulTask 23,mulTask 24] ∧
    (sent (replay smallHash smallEpoch inOrderOps).1).reverse = [smallTask,mulTask 23,mulTask 24] ∧
    InOrder mulKind (replay smallHash smallEpoch inOrderOps).1 := by
  have uniform : ∀ step ∈ (replay smallHash smallEpoch inOrderOps).1, step.uniform = true := by decide +kernel
  exact ⟨by decide +kernel,by decide +kernel,run_in_order in_order_run fun step member => Step.keeps_of (uniform step member) mulKind⟩

/-- Between the multiplications a task is submitted that takes the output of the first one. The worker that has the output polls
    and stops there, having sent the first multiplication to the back. -/
def overtakenOps : List Op :=
  [.assign_next mulNode 50 (mulLease 33),.assign_next mulNode 40 (mulLease 32),
    .assign_next smallWorker.node_id 30 (mulLease 31),submitMul 24,
    .submit smallKey [.Object smallOutput] mulResources 1 (mulTask 25) ⟨.replicate 32 25⟩,submitMul 23] ++ mulStart

theorem multiplications_overtaken :
    Run smallHash smallEpoch (replay smallHash smallEpoch overtakenOps).1 (replay smallHash smallEpoch overtakenOps).2 ∧
    mulKind.line (replay smallHash smallEpoch (overtakenOps.drop 3)).2 = [mulTask 23,mulTask 24] ∧
    mulKind.line (replay smallHash smallEpoch (overtakenOps.drop 2)).2 = [mulTask 24,mulTask 23] ∧
    (sent (replay smallHash smallEpoch overtakenOps).1).reverse = [smallTask,mulTask 25,mulTask 24,mulTask 23] ∧
    ¬ InOrder mulKind (replay smallHash smallEpoch overtakenOps).1 := by
  refine ⟨replay_run smallHash smallEpoch overtakenOps (by decide +kernel),by decide +kernel,by decide +kernel,by decide +kernel,
    fun ordered => ?_⟩
  have submitted : accepted mulKind (replay smallHash smallEpoch overtakenOps).1 = [mulTask 23,mulTask 24] := by decide +kernel
  have dispatched := ordered.first [_] _ _ rfl (mulTask 23) (mulTask 24) (by rw [submitted]) (by decide +kernel)
  revert dispatched
  decide +kernel

end
end Crayon.CoordinatorState
