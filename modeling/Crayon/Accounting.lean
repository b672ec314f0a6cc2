import Crayon.Runs

/-!
What workers have given out: the slots and the resources that a worker lacks are
those of the tasks dispatched to it. The books balance in every state of a run
whose resource sets are not negative, so what a report gives back always fits,
and what a dispatch takes is always there.
-/
namespace Crayon.CoordinatorState
open Command

/-- What one task takes of a node's slots. -/
def slot_share (node : NodeId) (task : TaskRecord) : Nat := if task.on node then 1 else 0

/-- What one task takes of one of a node's resources. -/
def resource_share (node : NodeId) (name : String) (task : TaskRecord) : Int :=
  if task.on node then task.resources.amount name else 0

/-- How many tasks are dispatched to the node. -/
def busy (s : CoordinatorState) (node : NodeId) : Nat := s.tasks.sum (slot_share node)

/-- How much of a resource the tasks dispatched to the node take. -/
def load (s : CoordinatorState) (node : NodeId) (name : String) : Int := s.tasks.sum (resource_share node name)

/-- The books of the workers that are not dead; those of a dead worker are void. -/
structure Accounted (s : CoordinatorState) : Prop where
  needs : ∀ id task, s.tasks.get id = some task → task.resources.NonNegative
  slots : ∀ node worker, s.workers.get node = some worker → worker.state ≠ .Dead →
    worker.free_slots.toNat + s.busy node = worker.slots.toNat
  resources : ∀ node worker, s.workers.get node = some worker → worker.state ≠ .Dead → ∀ name,
    0 ≤ worker.available.amount name ∧ worker.available.amount name + s.load node name = worker.total.amount name

theorem new_accounted (epoch : CoordinatorEpoch) : Accounted (new epoch) := by
  constructor <;> simp [new]

section
variable {s s' : CoordinatorState} {op : Op} {f : TaskRecord → TaskRecord} {task : TaskRecord} {node : NodeId}
variable {id : TaskId} {worker : WorkerRecord}

theorem load_nonneg (needs : ∀ id task, s.tasks.get id = some task → task.resources.NonNegative) (node : NodeId)
    (name : String) : ∀ id task, s.tasks.get id = some task → 0 ≤ resource_share node name task := by
  intro id task found
  unfold resource_share
  split
  · exact needs id task found name
  · exact le_rfl

/-- A contribution that only dispatched tasks make, by where they are and what they take. -/
structure Contribution {M : Type} [AddCommMonoid M] (g : TaskRecord → M) : Prop where
  idle : ∀ task, task.assigned = none → g task = 0
  same : ∀ task task', task.assigned = task'.assigned → task.resources = task'.resources → g task = g task'

theorem slot_contribution (node : NodeId) : Contribution (slot_share node) where
  idle task free := by simp [slot_share,TaskRecord.on,free]
  same task task' assigned _ := by unfold slot_share TaskRecord.on; rw [assigned]

theorem resource_contribution (node : NodeId) (name : String) : Contribution (resource_share node name) where
  idle task free := by simp [resource_share,TaskRecord.on,free]
  same task task' assigned resources := by unfold resource_share TaskRecord.on; rw [assigned,resources]

/-! ### Moves that leave the books alone -/

/-- No task comes to or leaves a worker, and no living worker's books are touched; a new
    worker starts with all it has. -/
structure Quiet (op : Op) (s s' : CoordinatorState) : Prop where
  tasks : ∀ {M : Type} [AddCommMonoid M] {g : TaskRecord → M}, Contribution g → s'.tasks.sum g = s.tasks.sum g
  needs : ∀ id task', s'.tasks.get id = some task' →
    op.resources = some task'.resources ∨ ∃ task, s.tasks.get id = some task ∧ task'.resources = task.resources
  workers : ∀ node worker', s'.workers.get node = some worker' → worker'.state ≠ .Dead →
    s.workers.get node = none ∧ Enrolled op node worker' ∨
    ∃ worker, s.workers.get node = some worker ∧ worker.state ≠ .Dead ∧ worker'.total = worker.total ∧
      worker'.available = worker.available ∧ worker'.slots = worker.slots ∧ worker'.free_slots = worker.free_slots

theorem Accounted.quiet (accounted : Accounted s) (inv : Consistent s)
    (resources : ∀ r, op.resources = some r → r.NonNegative) (quiet : Quiet op s s') : Accounted s' := by
  have busy : ∀ node, s'.busy node = s.busy node := fun node => quiet.tasks (slot_contribution node)
  have load : ∀ node name, s'.load node name = s.load node name := fun node name =>
    quiet.tasks (resource_contribution node name)
  -- No task is dispatched to a node that is not registered.
  have none : ∀ {M : Type} [AddCommMonoid M] (g : TaskRecord → M) (node : NodeId), s.workers.get node = none →
      (∀ task : TaskRecord, task.on node = false → g task = 0) → s.tasks.sum g = 0 := by
    intro M _ g node absent zero
    refine (Table.sum_eq_of_contributions (u := .empty) (g := g) fun id => ?_).trans Finset.sum_empty
    cases found : s.tasks.get id with
    | none => rfl
    | some task =>
      refine zero task (Bool.eq_false_iff.mpr fun on => ?_)
      obtain ⟨a,assigned,atNode⟩ := (Option.any_eq_true _ _).mp on
      obtain ⟨worker,there,_⟩ := inv.served id task a found assigned
      rw [of_decide_eq_true atNode,absent] at there
      cases there
  refine ⟨?_,?_,?_⟩
  · intro id task' found'
    rcases quiet.needs id task' found' with new | ⟨task,found,same⟩
    · exact resources _ new
    · rw [same]
      exact accounted.needs id task found
  · intro node worker' found' living'
    rw [busy node]
    rcases quiet.workers node worker' found' living' with ⟨absent,enrolled⟩ | ⟨worker,found,living,_,_,slots,free⟩
    · have idle : s.busy node = 0 := none _ node absent fun task off => by simp [slot_share,off]
      rw [idle,enrolled.free_slots,Nat.add_zero]
    · rw [slots,free]
      exact accounted.slots node worker found living
  · intro node worker' found' living' name
    rw [load node name]
    rcases quiet.workers node worker' found' living' with ⟨absent,enrolled⟩ | ⟨worker,found,living,total,available,_,_⟩
    · have idle : s.load node name = 0 := none _ node absent fun task off => by simp [resource_share,off]
      rw [idle,enrolled.available,Int.add_zero]
      exact ⟨resources _ enrolled.resources name,rfl⟩
    · rw [total,available]
      exact accounted.resources node worker found living name

/-! ### Moves that take and give back -/

/-- A task that is dispatched to the node changes hands there, and nowhere else. -/
theorem share_elsewhere {task task' : TaskRecord} {node other : NodeId} (apart : other ≠ node)
    (here : ∀ a, task.assigned = some a → a.node = node) (here' : ∀ a, task'.assigned = some a → a.node = node) :
    task.on other = false ∧ task'.on other = false := by
  constructor
  · refine Bool.eq_false_iff.mpr fun on => ?_
    obtain ⟨a,assigned,atOther⟩ := (Option.any_eq_true _ _).mp on
    exact apart ((of_decide_eq_true atOther).symm.trans (here a assigned))
  · refine Bool.eq_false_iff.mpr fun on => ?_
    obtain ⟨a,assigned,atOther⟩ := (Option.any_eq_true _ _).mp on
    exact apart ((of_decide_eq_true atOther).symm.trans (here' a assigned))

/-- When one task changes hands at a node, the books of the other nodes stay as they are, and
    at the node they move by what the task takes. -/
theorem books_modify (found : s.tasks.get id = some task) (tasks : s'.tasks = s.tasks.modify id f)
    (here : ∀ a, task.assigned = some a → a.node = node) (here' : ∀ a, (f task).assigned = some a → a.node = node) :
    (∀ other, other ≠ node → s'.busy other = s.busy other ∧ ∀ name, s'.load other name = s.load other name) ∧
      s'.busy node + slot_share node task = s.busy node + slot_share node (f task) ∧
      ∀ name, s'.load node name + resource_share node name task = s.load node name + resource_share node name (f task) := by
  unfold busy load
  rw [tasks]
  refine ⟨fun other apart => ?_,Table.sum_modify found f _,fun name => Table.sum_modify found f _⟩
  obtain ⟨off,off'⟩ := share_elsewhere apart here here'
  have slots := Table.sum_modify found f (slot_share other)
  rw [slot_share,slot_share,off,off'] at slots
  refine ⟨by simpa using slots,fun name => ?_⟩
  have resources := Table.sum_modify found f (resource_share other name)
  rw [resource_share,resource_share,off,off'] at resources
  simpa using resources

theorem needs_modify (kept : ∀ task, (f task).resources = task.resources)
    (accounted : Accounted s) : ∀ k task, (s.tasks.modify id f).get k = some task → task.resources.NonNegative := by
  intro k task found
  rw [Table.get_modify] at found
  split at found
  · obtain ⟨before,there,rfl⟩ := Option.map_eq_some_iff.mp found
    rw [kept]
    exact accounted.needs k before there
  · exact accounted.needs k task found

/-- Taking the slot and the resources of a dispatched task. -/
theorem Accounted.take {available : ResourceSet} (accounted : Accounted s) (found : s.tasks.get id = some task)
    (unassigned : task.assigned = none) (tasks : s'.tasks = s.tasks.modify id f)
    (kept : ∀ task, (f task).resources = task.resources) (on : (f task).on node = true)
    (at_worker : s.workers.get node = some worker) (living : worker.state ≠ .Dead) (free : worker.free_slots ≠ 0)
    (fits : worker.available.can_fit task.resources = true)
    (taken : ResourceSet.subtract task.resources worker.available = .ok () available)
    (workers : s'.workers = s.workers.modify node fun w => { w with available, free_slots := worker.free_slots - 1 }) :
    Accounted s' := by
  have here' : ∀ a, (f task).assigned = some a → a.node = node := by
    intro a assigned
    obtain ⟨b,assigned',atNode⟩ := (Option.any_eq_true _ _).mp on
    rw [assigned] at assigned'
    cases assigned'
    exact of_decide_eq_true atNode
  have off : task.on node = false := by simp [TaskRecord.on,unassigned]
  obtain ⟨elsewhere,slots,resources⟩ := books_modify found tasks (by simp [unassigned]) here'
  rw [slot_share,slot_share,off,on] at slots
  have nonneg : worker.available.NonNegative := fun name => (accounted.resources node worker at_worker living name).1
  have needs := accounted.needs id task found
  refine ⟨by rw [tasks]; exact needs_modify kept accounted,?_,?_⟩
  · intro other record there alive
    rw [workers,Table.get_modify_of at_worker] at there
    split at there
    case isTrue same =>
      subst same
      cases there
      have before := accounted.slots other worker at_worker living
      have positive : 0 < worker.free_slots.toNat := by
        rw [← UInt32.toNat_zero]
        exact UInt32.lt_iff_toNat_lt.mp (UInt32.pos_iff_ne_zero.mpr free)
      have less : (worker.free_slots - 1).toNat = worker.free_slots.toNat - 1 :=
        UInt32.toNat_sub_of_le _ _ (UInt32.le_iff_toNat_le.mpr positive)
      simp only [if_true,Bool.false_eq_true,if_false] at slots
      show (worker.free_slots - 1).toNat + s'.busy other = worker.slots.toNat
      omega
    case isFalse apart =>
      rw [(elsewhere other apart).1]
      exact accounted.slots other record there alive
  · intro other record there alive name
    rw [workers,Table.get_modify_of at_worker] at there
    split at there
    case isTrue same =>
      subst same
      cases there
      have before := accounted.resources other worker at_worker living name
      have after := ResourceSet.subtract_amount nonneg needs fits taken name
      have room := ResourceSet.can_fit_amount nonneg fits name
      have moved := resources name
      rw [resource_share,resource_share,off,on,kept] at moved
      simp only [if_true,Bool.false_eq_true,if_false] at moved
      show 0 ≤ available.amount name ∧ available.amount name + s'.load other name = worker.total.amount name
      omega
    case isFalse apart =>
      rw [(elsewhere other apart).2 name]
      exact accounted.resources other record there alive name

/-- What a dispatched task takes is there to be given back. -/
theorem Accounted.room {a : Assigned} (accounted : Accounted s)
    (found : s.tasks.get id = some task) (assigned : task.assigned = some a)
    (at_worker : s.workers.get a.node = some worker) (living : worker.state ≠ .Dead) :
    worker.free_slots < worker.slots ∧
      ∀ name, worker.available.amount name + task.resources.amount name ≤ worker.total.amount name := by
  have on : task.on a.node = true := by simp [TaskRecord.on,assigned]
  constructor
  · have counted : 1 ≤ s.busy a.node := by
      have parts := Table.sum_eq_add_remove found (slot_share a.node)
      rw [slot_share,if_pos on] at parts
      show 1 ≤ s.tasks.sum (slot_share a.node)
      omega
    have slots := accounted.slots a.node worker at_worker living
    rw [UInt32.lt_iff_toNat_lt]
    omega
  · intro name
    have part := Table.le_sum found (load_nonneg accounted.needs a.node name)
    rw [resource_share,if_pos on] at part
    have books := accounted.resources a.node worker at_worker living name
    unfold load at books
    omega

/-- Giving back the slot and the resources of a task that is over. -/
theorem Accounted.give {a : Assigned} {workers : Table NodeId WorkerRecord} (accounted : Accounted s)
    (found : s.tasks.get id = some task) (assigned : task.assigned = some a) (tasks : s'.tasks = s.tasks.modify id f)
    (kept : ∀ task, (f task).resources = task.resources) (free : (f task).assigned = none)
    (freed : Freed s.workers a.node task.resources workers) (written : s'.workers = workers) : Accounted s' := by
  have here : ∀ b, task.assigned = some b → b.node = a.node := by
    intro b assigned'
    rw [assigned] at assigned'
    cases assigned'
    rfl
  have on : task.on a.node = true := by simp [TaskRecord.on,assigned]
  have off : (f task).on a.node = false := by simp [TaskRecord.on,free]
  obtain ⟨elsewhere,slots,resources⟩ := books_modify found tasks here (by simp [free])
  rw [slot_share,slot_share,off,on] at slots
  simp only [if_true,Bool.false_eq_true,if_false] at slots
  have needs : ∀ k t, s'.tasks.get k = some t → t.resources.NonNegative := by
    rw [tasks]
    exact needs_modify kept accounted
  cases freed with
  | @returned worker available at_worker living room added =>
    obtain ⟨_,capped⟩ := accounted.room found assigned at_worker living
    have nonneg : worker.available.NonNegative := fun name => (accounted.resources _ worker at_worker living name).1
    obtain ⟨next,added',sum⟩ := ResourceSet.add_capped_ok nonneg (accounted.needs id task found) capped
    rw [added] at added'
    cases added'
    refine ⟨needs,?_,?_⟩
    · intro other record there alive
      rw [written,Table.get_modify_of at_worker] at there
      split at there
      case isTrue same =>
        subst same
        cases there
        have before := accounted.slots a.node worker at_worker living
        have bound := worker.slots.toNat_lt
        have below := UInt32.lt_iff_toNat_lt.mp room
        have more : (worker.free_slots + 1).toNat = worker.free_slots.toNat + 1 := by
          rw [UInt32.toNat_add,UInt32.toNat_one,Nat.mod_eq_of_lt (by omega)]
        show (worker.free_slots + 1).toNat + s'.busy a.node = worker.slots.toNat
        omega
      case isFalse apart =>
        rw [(elsewhere other apart).1]
        exact accounted.slots other record there alive
    · intro other record there alive name
      rw [written,Table.get_modify_of at_worker] at there
      split at there
      case isTrue same =>
        subst same
        cases there
        have before := accounted.resources a.node worker at_worker living name
        have after := sum name
        have low := accounted.needs id task found name
        have moved := resources name
        rw [resource_share,resource_share,off,on] at moved
        simp only [if_true,Bool.false_eq_true,if_false] at moved
        show 0 ≤ available.amount name ∧ available.amount name + s'.load a.node name = worker.total.amount name
        omega
      case isFalse apart =>
        rw [(elsewhere other apart).2 name]
        exact accounted.resources other record there alive name
  | dropped at_worker dead =>
    have apart : ∀ other record, s'.workers.get other = some record → record.state ≠ .Dead → other ≠ a.node := by
      rintro other record there alive rfl
      rw [written,at_worker] at there
      cases there
      exact alive dead
    refine ⟨needs,?_,?_⟩
    · intro other record there alive
      rw [(elsewhere other (apart other record there alive)).1]
      exact accounted.slots other record (written ▸ there) alive
    · intro other record there alive name
      rw [(elsewhere other (apart other record there alive)).2 name]
      exact accounted.resources other record (written ▸ there) alive name

/-! ### Every move keeps the books -/

theorem sum_same {M : Type} [AddCommMonoid M] {g : TaskRecord → M} {tasks tasks' : Table TaskId TaskRecord}
    (contribution : Contribution g)
    (kept : ∀ id, (tasks'.get id).map (fun task => (task.assigned,task.resources)) =
      (tasks.get id).map fun task => (task.assigned,task.resources)) : tasks'.sum g = tasks.sum g := by
  refine Table.sum_eq_of_contributions fun id => ?_
  have same := kept id
  cases before : tasks.get id with
  | none =>
    rw [before,Option.map_none,Option.map_eq_none_iff] at same
    rw [same]
  | some task =>
    rw [before,Option.map_some,Option.map_eq_some_iff] at same
    obtain ⟨task',after,pair⟩ := same
    rw [after]
    obtain ⟨assigned,resources⟩ := Prod.mk.inj pair
    exact contribution.same task' task assigned resources

/-- The living workers, with the books they keep, are among those of before. -/
def SameBooks (workers workers' : Table NodeId WorkerRecord) : Prop :=
  ∀ node worker', workers'.get node = some worker' → worker'.state ≠ .Dead →
    ∃ worker, workers.get node = some worker ∧ worker.state ≠ .Dead ∧ worker'.total = worker.total ∧
      worker'.available = worker.available ∧ worker'.slots = worker.slots ∧ worker'.free_slots = worker.free_slots

theorem sameBooks_refl (workers : Table NodeId WorkerRecord) : SameBooks workers workers :=
  fun _ worker found living => ⟨worker,found,living,rfl,rfl,rfl,rfl⟩

theorem sameBooks_modify {workers : Table NodeId WorkerRecord} {f : WorkerRecord → WorkerRecord}
    (kept : ∀ worker, (f worker).total = worker.total ∧ (f worker).available = worker.available ∧
      (f worker).slots = worker.slots ∧ (f worker).free_slots = worker.free_slots)
    (living : ∀ worker, workers.get node = some worker → (f worker).state ≠ .Dead → worker.state ≠ .Dead) :
    SameBooks workers (workers.modify node f) := by
  intro other worker' found living'
  rw [Table.get_modify] at found
  split at found
  case isTrue same =>
    subst same
    obtain ⟨worker,there,rfl⟩ := Option.map_eq_some_iff.mp found
    exact ⟨worker,there,living worker there living',kept worker⟩
  case isFalse => exact ⟨worker',found,living',rfl,rfl,rfl,rfl⟩

/-- Moves under which every task keeps its dispatch and its resources. -/
theorem quiet_of_kept (kept : ∀ id, (s'.tasks.get id).map (fun task => (task.assigned,task.resources)) =
    (s.tasks.get id).map fun task => (task.assigned,task.resources)) (books : SameBooks s.workers s'.workers) :
    Quiet op s s' where
  tasks contribution := sum_same contribution kept
  needs id task' found := by
    have same := kept id
    rw [found,Option.map_some] at same
    obtain ⟨task,there,pair⟩ := Option.map_eq_some_iff.mp same.symm
    exact .inr ⟨task,there,(Prod.mk.inj pair).2.symm⟩
  workers node worker' found living := .inr (books node worker' found living)

theorem kept_modify (tasks : Table TaskId TaskRecord) (id : TaskId)
    (same : ∀ task, ((f task).assigned,(f task).resources) = (task.assigned,task.resources)) (k : TaskId) :
    ((tasks.modify id f).get k).map (fun task => (task.assigned,task.resources)) =
      (tasks.get k).map fun task => (task.assigned,task.resources) := by
  rw [Table.get_modify]
  split
  · cases tasks.get k <;> simp [same]
  · rfl

theorem quiet_enroll (absent : s.workers.get node = none)
    (enrolled : Enrolled op node worker) (tasks : s'.tasks = s.tasks) (workers : s'.workers = s.workers.insert node worker) :
    Quiet op s s' where
  tasks _ := by rw [tasks]
  needs id task found := .inr ⟨task,tasks ▸ found,rfl⟩
  workers other record found living := by
    rw [workers,Table.get_insert] at found
    split at found
    case isTrue same =>
      subst same
      cases found
      exact .inl ⟨absent,enrolled⟩
    case isFalse => exact .inr ⟨record,found,living,rfl,rfl,rfl,rfl⟩

theorem quiet_submit {output : ObjectId} {blocked : Bool}
    (newTask : s.tasks.get id = none) (submitted : Submitted op id output blocked task)
    (tasks : s'.tasks = s.tasks.insert id task) (workers : s'.workers = s.workers) : Quiet op s s' where
  tasks contribution := by
    rw [tasks,Table.sum_insert_new newTask,contribution.idle task submitted.assigned,zero_add]
  needs k record found := by
    rw [tasks,Table.get_insert] at found
    split at found
    · cases found
      exact .inl submitted.resources
    · exact .inr ⟨record,found,rfl⟩
  workers node worker found living := .inr ⟨worker,workers ▸ found,living,rfl,rfl,rfl,rfl⟩

/-- The task that goes with its output is not dispatched. -/
theorem quiet_release {id : ObjectId} {object : ObjectRecord} (inv : Consistent s)
    (found : s.objects.get id = some object) (settled : object.state ≠ .Reserved)
    (tasks : s'.tasks = s.tasks.retain fun task => task.output ≠ id) (workers : s'.workers = s.workers) : Quiet op s s' where
  tasks contribution := by
    rw [tasks]
    refine Table.sum_eq_of_contributions fun k => ?_
    rw [Table.get_retain]
    cases there : s.tasks.get k with
    | none => rfl
    | some task =>
      by_cases same : task.output = id
      · have terminal : ¬ task.state.is_terminal = false := fun live =>
          settled ((inv.reserved_iff there (same ▸ found)).mpr live)
        have unassigned : task.assigned = none := by
          rw [← Option.isNone_iff_eq_none,← Option.not_isSome,Bool.not_eq_true']
          refine Bool.eq_false_iff.mpr fun some => terminal ?_
          rcases (inv.dispatched_iff there).mp some with state | state | state <;> rw [state] <;> rfl
        simp [Option.filter,same,contribution.idle task unassigned]
      · simp [Option.filter,same]
  needs k task kept := by
    rw [tasks,Table.get_retain,Option.filter_eq_some_iff] at kept
    exact .inr ⟨task,kept.1,rfl⟩
  workers node worker found living := .inr ⟨worker,workers ▸ found,living,rfl,rfl,rfl,rfl⟩

theorem Move.accounted (move : Move op s s') (inv : Consistent s) (resources : ∀ r, op.resources = some r → r.NonNegative)
    (accounted : Accounted s) : Accounted s' := by
  have unassigned : ∀ {id task}, s.tasks.get id = some task → task.state = .Runnable → task.assigned = none := by
    intro id task found state
    have legal := inv.legal id task found
    simp only [view,View.Legal,state] at legal
    exact Option.isNone_iff_eq_none.mp (by rw [← Option.not_isSome,legal.1]; rfl)
  cases move with
  | assign head found runnable at_worker alive free fits taken minted =>
    exact accounted.take found (unassigned found runnable) rfl (fun _ => rfl) (by simp [TaskRecord.on]) at_worker
      (by rw [alive]; exact WorkerState.noConfusion) free fits taken rfl
  | complete asked found state assigned at_worker living location small freed =>
    exact accounted.give found assigned rfl (fun _ => rfl) rfl freed rfl
  | retry not_before_ms found state assigned budget freed =>
    exact accounted.give found assigned rfl (fun _ => rfl) rfl freed rfl
  | fail message found state assigned freed => exact accounted.give found assigned rfl (fun _ => rfl) rfl freed rfl
  | acknowledge found state assigned freed => exact accounted.give found assigned rfl (fun _ => rfl) rfl freed rfl
  | enroll absent enrolled => exact accounted.quiet inv resources (quiet_enroll absent enrolled rfl rfl)
  | submit codec newTask unqueued newOutput submitted =>
    exact accounted.quiet inv resources (quiet_submit newTask submitted rfl rfl)
  | release pending_deletes found settled unused =>
    exact accounted.quiet inv resources (quiet_release inv found settled rfl rfl)
  | renew deadline =>
    exact accounted.quiet inv resources (quiet_of_kept (fun _ => rfl)
      (sameBooks_modify (fun _ => ⟨rfl,rfl,rfl,rfl⟩) fun _ _ living => living))
  | drain found living =>
    refine accounted.quiet inv resources (quiet_of_kept (fun _ => rfl)
      (sameBooks_modify (fun _ => ⟨rfl,rfl,rfl,rfl⟩) fun worker there _ => ?_))
    rw [found] at there
    cases there
    exact living
  | expire sweep =>
    exact accounted.quiet inv resources (quiet_of_kept (fun _ => rfl)
      (sameBooks_modify (fun _ => ⟨rfl,rfl,rfl,rfl⟩) fun _ _ living => absurd rfl living))
  | evict idle =>
    refine accounted.quiet inv resources (quiet_of_kept (fun _ => rfl) fun other worker found living => ?_)
    rw [Table.get_remove] at found
    split at found
    · cases found
    · exact ⟨worker,found,living,rfl,rfl,rfl,rfl⟩
  | stamp now =>
    refine accounted.quiet inv resources (quiet_of_kept (fun id => ?_) (sameBooks_refl _))
    rw [Table.get_mapValues,Option.map_map]
    congr 1
    funext task
    simp only [Function.comp_apply,CoordinatorState.stamp]
    split <;> rfl
  | start | request_cancel | cancel | starve | wake =>
    exact accounted.quiet inv resources (quiet_of_kept (kept_modify _ _ fun _ => rfl) (sameBooks_refl _))
  | store | requeue | take_deletes | count =>
    exact accounted.quiet inv resources (quiet_of_kept (fun _ => rfl) (sameBooks_refl _))

end

/-! ### Runs -/

section
variable {blake3 : List UInt8 → Checksum} {epoch : CoordinatorEpoch} {past : List Step} {s : CoordinatorState}

/-- No resource set that the run brought in is negative. -/
def Supplied (past : List Step) : Prop := ∀ step ∈ past, ∀ r, step.op.resources = some r → r.NonNegative

theorem Run.accounted (run : Run blake3 epoch past s) (supplied : Supplied past) : Accounted s := by
  induction run with
  | start => exact new_accounted epoch
  | step run order op fresh ih =>
    obtain ⟨now,before⟩ := List.forall_mem_cons.mp supplied
    have moves := apply_moves blake3 order run.inv (run.newTo fresh)
    refine (moves.keeps (P := fun t => Consistent t ∧ Accounted t) ?_ ⟨run.inv.consistent,ih before⟩).2
    exact fun _ _ move books => ⟨move.consistent books.1,move.accounted books.1 now books.2⟩

/-- What a worker lacks of its slots and resources is what the tasks dispatched to it take. -/
structure Balanced (s : CoordinatorState) : Prop where
  slots : ∀ node worker, s.workers.get node = some worker →
    worker.free_slots.toNat ≤ worker.slots.toNat ∧ worker.slots.toNat - worker.free_slots.toNat = s.busy node
  resources : ∀ node worker, s.workers.get node = some worker → ∀ name,
    worker.total.amount name = worker.available.amount name + s.load node name ∧
      0 ≤ worker.available.amount name ∧ worker.available.amount name ≤ worker.total.amount name

theorem Accounted.balanced (accounted : Accounted s) (alive : NoDead s) : Balanced s := by
  constructor
  · intro node worker found
    have books := accounted.slots node worker found (alive node worker found)
    omega
  · intro node worker found name
    have books := accounted.resources node worker found (alive node worker found) name
    have taken : 0 ≤ s.load node name := by
      refine Finset.sum_nonneg fun id _ => ?_
      cases there : s.tasks.get id with
      | none => exact le_rfl
      | some task => exact load_nonneg accounted.needs node name id task there
    omega

/-- A report that speaks of the current dispatch can give the resources back. -/
theorem Accounted.release_ok (accounted : Accounted s) (inv : Inv s) {identity : WorkerIdentity} {fence : TaskFence}
    {task : TaskRecord} (found : s.tasks.get fence.task_id = some task) (matching : Matches s identity fence) :
    ∃ s', release identity.node_id task.resources s = .ok () s' := by
  have assigned := matching.assigned found
  obtain ⟨worker,there,_⟩ := inv.consistent.served _ task _ found assigned
  have living := inv.alive _ worker there
  obtain ⟨room,capped⟩ := accounted.room found assigned there living
  have nonneg : worker.available.NonNegative := fun name => (accounted.resources _ worker there living name).1
  obtain ⟨next,added,_⟩ := ResourceSet.add_capped_ok nonneg (accounted.needs _ task found) capped
  have there' : s.workers.get identity.node_id = some worker := there
  exact ⟨_,by
    simp only [release,bind_apply,get_apply,there',ok_or_some,pure_apply,ensure_of room,onCopy,added,increment_of room,set_apply]
    rfl⟩

/-- In every state of a run the books of the workers balance; so a report can always give back
    what its task took, and a dispatch to a registered worker never fails. -/
theorem run_balanced (run : Run blake3 epoch past s) (supplied : Supplied past) :
    Balanced s ∧
      (∀ identity fence task, s.tasks.get fence.task_id = some task → Matches s identity fence →
        ∃ s', release identity.node_id task.resources s = .ok () s') ∧
      ∀ node worker now lease, s.workers.get node = some worker →
        ∃ assignment s', assign_next node now lease s = .ok assignment s' := by
  have accounted := run.accounted supplied
  refine ⟨accounted.balanced run.inv.alive,?_,?_⟩
  · intro identity fence task found matching
    exact accounted.release_ok run.inv found matching
  · intro node worker now lease found
    obtain ⟨assignment,s',ran,_⟩ := assign_next_ends blake3 run.inv.consistent found now lease
    exact ⟨assignment,s',ran⟩

end

theorem small_supplied : Supplied smallPast := by
  have entries : ∀ step ∈ smallPast, ∀ r ∈ step.op.resources, ∀ entry ∈ r.map.entries, 0 ≤ entry.2.milli.toInt := by decide
  intro step member r some
  exact ResourceSet.nonNegative_of_entries (entries step member r some)

theorem small_balanced : smallState.busy smallWorker.node_id = 1 ∧ smallState.load smallWorker.node_id "cpu" = 600 ∧
    Balanced smallState :=
  ⟨by decide,by decide,(run_balanced small_run small_supplied).1⟩

end Crayon.CoordinatorState
