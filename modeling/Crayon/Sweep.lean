import Crayon.Effects

/-!
The sweep over workers whose lease ran out, as the code runs it: one worker after
the other in whatever order a hash table has them, and for each of them its tasks
and then all objects. What it comes to can be said of the state before, with no
order in it (`Evicted`): every task of a worker that is gone is taken back, its
output is given up unless the task is tried again, and the objects of the worker
are orphaned; and what is reported of a worker is what becomes of its tasks and
objects (`tally_of`).
-/
namespace Crayon.CoordinatorState
open Command
open Relation (ReflTransGen)
variable {s t : CoordinatorState} {now : Nat} {node : NodeId} {gone : List NodeId} {task : TaskRecord} {id : TaskId}
variable {worker : WorkerRecord} {object : ObjectRecord}

/-! ### What is to become of a task -/

/-- What becomes of a task whose worker is gone. -/
inductive Verdict where
  | Cancelled
  | Retried
  | Failed
deriving DecidableEq, Repr

def verdict (task : TaskRecord) : Verdict :=
  if task.state = .CancelRequested then .Cancelled
  else if task.attempt < task.max_attempts then .Retried
  else .Failed

/-- The task afterwards. -/
def taken_back (now : Nat) (task : TaskRecord) : TaskRecord :=
  match verdict task with
  | .Cancelled => { task with state := .Cancelled, assigned := none }
  | .Retried => { task with
      state := .Runnable
      assigned := none
      not_before_ms := saturating_add now (retry_backoff_ms task.attempt) }
  | .Failed => { task with state := .Failed "worker lease expired", assigned := none }

/-- Its output afterwards. -/
def given_up (task : TaskRecord) (object : ObjectRecord) : ObjectRecord :=
  match verdict task with
  | .Cancelled => { object with state := .Cancelled }
  | .Retried => object
  | .Failed => { object with state := .Failed }

/-- The tally with one more task in it. -/
def counted (tally : WorkerExpiry) : Verdict → WorkerExpiry
  | .Cancelled => { tally with cancelled := tally.cancelled + 1 }
  | .Retried => { tally with retried := tally.retried + 1 }
  | .Failed => { tally with failed := tally.failed + 1 }

/-- How many tasks there are in the tally. -/
def tallied (tally : WorkerExpiry) : Verdict → Nat
  | .Cancelled => tally.cancelled
  | .Retried => tally.retried
  | .Failed => tally.failed

/-- What a task adds to the tally of a node. -/
def share (node : NodeId) (v : Verdict) (task : TaskRecord) : Nat := if task.on node = true ∧ verdict task = v then 1 else 0

/-- What an object adds to it. -/
def stranded (node : NodeId) (object : ObjectRecord) : Nat := if owned_by node object && object.bytes.isNone then 1 else 0

/-- What there is to report of a node that is gone. -/
def tally_of (s : CoordinatorState) (node : NodeId) : WorkerExpiry where
  node := node
  retried := s.tasks.sum (share node .Retried)
  failed := s.tasks.sum (share node .Failed)
  cancelled := s.tasks.sum (share node .Cancelled)
  objects_lost := s.objects.sum (stranded node)

@[simp] theorem taken_back_assigned (now : Nat) (task : TaskRecord) : (taken_back now task).assigned = none := by
  unfold taken_back
  cases verdict task <;> rfl

@[simp] theorem taken_back_output (now : Nat) (task : TaskRecord) : (taken_back now task).output = task.output := by
  unfold taken_back
  cases verdict task <;> rfl

@[simp] theorem taken_back_on (now : Nat) (task : TaskRecord) (node : NodeId) : (taken_back now task).on node = false := by
  simp [TaskRecord.on]

theorem tallied_counted (tally : WorkerExpiry) (v w : Verdict) :
    tallied (counted tally v) w = tallied tally w + if v = w then 1 else 0 := by
  cases v <;> cases w <;> rfl

/-! ### One task -/

/-- The sweep takes a task back from a dead worker. -/
theorem expire_task_ends {a : Assigned} (inv : Consistent s)
    (found : s.tasks.get id = some task) (assigned : task.assigned = some a)
    (atWorker : s.workers.get a.node = some worker) (dead : worker.state = .Dead) (now : Nat) (tally : WorkerExpiry) :
    ∃ s', expire_task now tally id s = .ok (counted tally (verdict task)) s' ∧ Sweep now s s' ∧ s'.workers = s.workers ∧
      s'.tasks = s.tasks.modify id (taken_back now) ∧ s'.objects = s.objects.modify task.output (given_up task) := by
  obtain ⟨object,there⟩ := inv.output found
  have dispatched := (inv.dispatched_iff found).mp (by simp [assigned])
  -- The records are known, so that changing one is putting another in its place.
  have tasks : ∀ f : TaskRecord → TaskRecord, f task = taken_back now task →
      s.tasks.modify id f = s.tasks.modify id (taken_back now) := by
    intro f same
    rw [Table.modify_eq_insert found,Table.modify_eq_insert found,same]
  have objects : ∀ f : ObjectRecord → ObjectRecord, f object = given_up task object →
      s.objects.modify task.output f = s.objects.modify task.output (given_up task) := by
    intro f same
    rw [Table.modify_eq_insert there,Table.modify_eq_insert there,same]
  by_cases cancelling : task.state = .CancelRequested
  · have verdict : verdict task = .Cancelled := if_pos cancelling
    refine ⟨_,?_,.cancelled found cancelling assigned atWorker dead,rfl,tasks _ ?_,objects _ ?_⟩
    · simp only [expire_task,bind_apply,get_apply,found,unwrap_some,pure_apply,task_mut,set_apply,cancelling,if_true,
        Table.get_modify,Option.map_some,modify_apply,object_mut,there,Table.modify_modify,verdict,counted]
    · simp only [taken_back,verdict]
    · simp only [given_up,verdict]
  have state : task.state = .Assigned ∨ task.state = .Running := by tauto
  by_cases budget : task.attempt < task.max_attempts
  · have verdict : verdict task = .Retried := (if_neg cancelling).trans (if_pos budget)
    refine ⟨_,?_,.retried found state assigned atWorker dead budget,rfl,tasks _ ?_,?_⟩
    · simp only [expire_task,bind_apply,get_apply,found,unwrap_some,pure_apply,task_mut,set_apply,if_neg cancelling,
        if_pos budget,if_true,mark_runnable,Table.get_modify,Option.map_some,modify_apply,Table.modify_modify,verdict,counted]
    · simp only [taken_back,verdict]
    · refine Eq.trans (Table.ext_get fun oid => ?_) (objects (fun object => object) ?_)
      · simp
      · simp only [given_up,verdict]
  · have verdict : verdict task = .Failed := (if_neg cancelling).trans (if_neg budget)
    refine ⟨_,?_,.failed found state assigned atWorker dead budget,rfl,tasks _ ?_,objects _ ?_⟩
    · simp only [expire_task,bind_apply,get_apply,found,unwrap_some,pure_apply,task_mut,set_apply,if_neg cancelling,
        if_neg budget,if_true,object_mut,there,Table.get_modify,Option.map_some,modify_apply,Table.modify_modify,verdict,counted]
    · simp only [taken_back,verdict]
    · simp only [given_up,verdict]

/-! ### One worker -/

/-- During the sweep of a node: the node is dead, and the tasks still on it are those left to
    take back. -/
structure Sweeping (s : CoordinatorState) (now : Nat) (node : NodeId) (left : List TaskId) (t : CoordinatorState) :
    Prop where
  swept : Swept now s t
  workers : t.workers = s.workers.modify node fun worker => { worker with state := .Dead }
  distinct : left.Nodup
  left : ∀ k, k ∈ left ↔ ∃ task, t.tasks.get k = some task ∧ task.on node = true

theorem Sweeping.start (order : HashOrder) (inv : Consistent s)
    (found : s.workers.get node = some worker) (due : worker.lease_deadline_ms ≤ now) :
    Sweeping s now node (((s.tasks.values order.tasks).filter (·.on node)).map (·.id))
      { s with workers := s.workers.modify node fun worker => { worker with state := .Dead } } := by
  refine ⟨.single (.mark found due),rfl,Table.nodup_values_key inv.task_ids _ _,fun k => ?_⟩
  simp only [List.mem_map,List.mem_filter,Table.mem_values]
  constructor
  · rintro ⟨task,⟨⟨k',there⟩,on⟩,rfl⟩
    exact ⟨task,by rw [inv.task_ids k' task there]; exact there,on⟩
  · rintro ⟨task,there,on⟩
    exact ⟨task,⟨⟨k,there⟩,on⟩,inv.task_ids k task there⟩

theorem Sweeping.step {rest : List TaskId} (inv : Consistent s)
    (found : s.workers.get node = some worker) (sweeping : Sweeping s now node (id :: rest) t) (tally : WorkerExpiry) :
    ∃ task t', t.tasks.get id = some task ∧ task.on node = true ∧
      expire_task now tally id t = .ok (counted tally (verdict task)) t' ∧ Sweeping s now node rest t' ∧
      t'.tasks = t.tasks.modify id (taken_back now) ∧ t'.objects = t.objects.modify task.output (given_up task) := by
  obtain ⟨fresh,distinct⟩ := List.nodup_cons.mp sweeping.distinct
  obtain ⟨task,there,on⟩ := (sweeping.left id).mp List.mem_cons_self
  obtain ⟨a,assigned,atNode⟩ := (Option.any_eq_true _ _).mp on
  obtain rfl : a.node = node := of_decide_eq_true atNode
  have dead : t.workers.get a.node = some { worker with state := .Dead } := by
    rw [sweeping.workers]
    simp [found]
  obtain ⟨t',ran,sweep,workers,tasks,objects⟩ :=
    expire_task_ends (sweeping.swept.consistent inv) there assigned dead rfl now tally
  refine ⟨task,t',there,on,ran,⟨sweeping.swept.tail sweep,workers.trans sweeping.workers,distinct,fun k => ?_⟩,tasks,objects⟩
  rw [tasks,Table.get_modify_of there]
  by_cases same : k = id
  · simp [same,fresh]
  · simpa [same] using sweeping.left k

/-- What was done so far to the tasks of the node, and what was counted. -/
structure Taking (s : CoordinatorState) (now : Nat) (node : NodeId) (left : List TaskId) (tally : WorkerExpiry)
    (t : CoordinatorState) : Prop extends Sweeping s now node left t where
  name : tally.node = node
  counts : ∀ v, tallied tally v + t.tasks.sum (share node v) = s.tasks.sum (share node v)
  others : ∀ id, (s.tasks.get id).any (·.on node) = false → t.tasks.get id = s.tasks.get id
  taken : ∀ id task, s.tasks.get id = some task → task.on node = true →
    t.tasks.get id = some task ∧ t.objects.get task.output = s.objects.get task.output ∨
      t.tasks.get id = some (taken_back now task) ∧
        t.objects.get task.output = (s.objects.get task.output).map (given_up task)
  objects : ∀ oid, (∀ id task, s.tasks.get id = some task → task.on node = true → task.output ≠ oid) →
    t.objects.get oid = s.objects.get oid

theorem Taking.start {left : List TaskId} (sweeping : Sweeping s now node left t) (tasks : t.tasks = s.tasks)
    (objects : t.objects = s.objects) : Taking s now node left ⟨node,0,0,0,0⟩ t where
  toSweeping := sweeping
  name := rfl
  counts v := by
    rw [tasks]
    cases v <;> exact Nat.zero_add _
  others id _ := by rw [tasks]
  taken id task found _ := .inl ⟨by rw [tasks,found],by rw [objects]⟩
  objects oid _ := by rw [objects]

/-- A task that is still on the node is as it was. -/
theorem Taking.untouched {left : List TaskId} {tally : WorkerExpiry} (taking : Taking s now node left tally t)
    (there : t.tasks.get id = some task) (on : task.on node = true) :
    s.tasks.get id = some task ∧ t.objects.get task.output = s.objects.get task.output := by
  cases found : s.tasks.get id with
  | none =>
    rw [taking.others id (by rw [found]; rfl),found] at there
    cases there
  | some before =>
    by_cases busy : before.on node = true
    · rcases taking.taken id before found busy with ⟨same,output⟩ | ⟨same,_⟩ <;>
        obtain rfl := Option.some.inj (same.symm.trans there)
      · exact ⟨rfl,output⟩
      · rw [taken_back_on] at on
        cases on
    · rw [taking.others id (by simpa [found] using busy),found] at there
      obtain rfl := Option.some.inj there
      exact absurd on busy

theorem Taking.step {tally : WorkerExpiry} {rest : List TaskId} (inv : Consistent s)
    (found : s.workers.get node = some worker) (taking : Taking s now node (id :: rest) tally t) :
    ∃ tally' t', expire_task now tally id t = .ok tally' t' ∧ Taking s now node rest tally' t' := by
  obtain ⟨task,t',there,on,ran,sweeping,tasks,objects⟩ := taking.toSweeping.step inv found tally
  obtain ⟨before,output⟩ := taking.untouched there on
  have taskNow : ∀ k, t'.tasks.get k = if k = id then some (taken_back now task) else t.tasks.get k := fun k => by
    rw [tasks,Table.get_modify_of there]
  have objectNow : ∀ oid, t'.objects.get oid =
      if oid = task.output then (t.objects.get oid).map (given_up task) else t.objects.get oid := fun oid => by
    rw [objects,Table.get_modify]
  refine ⟨_,t',ran,sweeping,?name,?counts,?others,?taken,?objects⟩
  case name =>
    rw [← taking.name]
    cases verdict task <;> rfl
  case counts =>
    intro v
    have moved := Table.sum_modify there (taken_back now) (share node v)
    have mine : share node v task = if verdict task = v then 1 else 0 := by simp only [share,on,true_and]
    have none : share node v (taken_back now task) = 0 := by simp [share]
    have whole := taking.counts v
    rw [← tasks,mine,none] at moved
    rw [tallied_counted]
    omega
  case others =>
    intro k idle
    have different : k ≠ id := by
      rintro rfl
      rw [before] at idle
      exact absurd on (by simpa using idle)
    rw [taskNow,if_neg different,taking.others k idle]
  case taken =>
    intro k other found' busy
    by_cases same : k = id
    · subst same
      obtain rfl := Option.some.inj (before.symm.trans found')
      exact .inr ⟨by rw [taskNow,if_pos rfl],by rw [objectNow,if_pos rfl,output]⟩
    · have apart : other.output ≠ task.output := fun alike => same (inv.outputs k id other task found' before alike)
      rw [taskNow,if_neg same,objectNow,if_neg apart]
      exact taking.taken k other found' busy
  case objects =>
    intro oid unmade
    rw [objectNow,if_neg (unmade id task before on).symm,taking.objects oid unmade]

/-! ### What the sweep comes to -/

/-- The task is dispatched to one of the nodes. -/
def out_on (gone : List NodeId) (task : TaskRecord) : Bool := task.assigned.any fun a => a.node ∈ gone

/-- The object is available at one of the nodes, by its record. -/
def kept_at (gone : List NodeId) (object : ObjectRecord) : Bool :=
  object.owner.any (fun node => node ∈ gone) && object.state = .Available

/-- What becomes of an object when the nodes are gone. -/
def orphaned (gone : List NodeId) (object : ObjectRecord) : ObjectRecord :=
  if kept_at gone object then
    { object with
      owner := none
      location := if object.bytes.isSome then some "coordinator" else none
      state := if object.bytes.isNone then .Lost else object.state }
  else object

/-- The tasks and the objects once the nodes are gone. -/
structure Evicted (s : CoordinatorState) (now : Nat) (gone : List NodeId) (t : CoordinatorState) : Prop where
  tasks : ∀ id, t.tasks.get id = (s.tasks.get id).map fun task => if out_on gone task then taken_back now task else task
  outputs : ∀ id task, s.tasks.get id = some task → out_on gone task = true →
    t.objects.get task.output = (s.objects.get task.output).map (given_up task)
  objects : ∀ oid, (∀ id task, s.tasks.get id = some task → out_on gone task = true → task.output ≠ oid) →
    t.objects.get oid = (s.objects.get oid).map (orphaned gone)

theorem out_on_single (task : TaskRecord) : out_on [node] task = task.on node := by
  simp [out_on,TaskRecord.on]

theorem out_on_append (task : TaskRecord) : out_on (gone ++ [node]) task = (out_on gone task || task.on node) := by
  cases assigned : task.assigned <;> simp [out_on,TaskRecord.on,assigned]

theorem orphaned_single (object : ObjectRecord) : orphaned [node] object = orphan node object := by
  have same : kept_at [node] object = owned_by node object := by
    cases owner : object.owner <;> simp [kept_at,owned_by,owner]
  rw [orphaned,orphan,same]

/-- An object has one owner. -/
theorem kept_elsewhere (fresh : node ∉ gone) (kept : kept_at gone object = true) : owned_by node object = false := by
  simp only [kept_at,Bool.and_eq_true,Option.any_eq_true,decide_eq_true_eq] at kept
  obtain ⟨⟨owner,has,member⟩,_⟩ := kept
  have different : owner ≠ node := fun same => fresh (same ▸ member)
  simp [owned_by,has,different]

theorem owned_orphaned (fresh : node ∉ gone) (object : ObjectRecord) :
    owned_by node (orphaned gone object) = owned_by node object := by
  unfold orphaned
  cases kept : kept_at gone object with
  | false => rfl
  | true =>
    rw [kept_elsewhere fresh kept]
    simp [owned_by]

theorem orphaned_append (fresh : node ∉ gone) (object : ObjectRecord) :
    orphaned (gone ++ [node]) object = orphan node (orphaned gone object) := by
  have either : kept_at (gone ++ [node]) object = (kept_at gone object || owned_by node object) := by
    cases owner : object.owner <;> simp [kept_at,owned_by,owner,Bool.and_or_distrib_right]
  rw [orphan,owned_orphaned fresh,orphaned,either]
  cases kept : kept_at gone object with
  | false => simp [orphaned,kept]
  | true => simp [orphaned,kept,kept_elsewhere fresh kept]

/-- Only available objects are orphaned. -/
theorem orphaned_of (state : object.state ≠ .Available) : orphaned gone object = object := by
  simp [orphaned,kept_at,state]

theorem given_up_state (reserved : object.state = .Reserved) : (given_up task object).state ≠ .Available := by
  unfold given_up
  cases verdict task <;> simp [reserved]

/-- An output that is given up was not there to be lost. -/
theorem given_up_stranded (reserved : object.state = .Reserved) :
    stranded node (given_up task object) = stranded node object := by
  simp [stranded,owned_by,reserved,given_up_state reserved]

/-- The output of a task that is out at a node is still to come. -/
theorem Consistent.awaited (inv : Consistent s) (found : s.tasks.get id = some task)
    (out : out_on gone task = true) : ∃ object, s.objects.get task.output = some object ∧ object.state = .Reserved := by
  obtain ⟨object,there⟩ := inv.output found
  refine ⟨object,there,(inv.reserved_iff found there).mpr ?_⟩
  obtain ⟨a,assigned,_⟩ := (Option.any_eq_true _ _).mp out
  rcases (inv.dispatched_iff found).mp (by simp [assigned]) with state | state | state <;> rw [state] <;> rfl

/-- A task on another node is as it was. -/
theorem Evicted.out_iff (evicted : Evicted s now gone t) :
    t.tasks.get id = some task ∧ task.on node = true ↔
      s.tasks.get id = some task ∧ task.on node = true ∧ out_on gone task = false := by
  rw [evicted.tasks]
  constructor
  · rintro ⟨there,on⟩
    obtain ⟨before,found,rfl⟩ := Option.map_eq_some_iff.mp there
    cases out : out_on gone before with
    | true => simp [out] at on
    | false =>
      simp only [out,Bool.false_eq_true,if_false] at on ⊢
      exact ⟨found,on,trivial⟩
  · rintro ⟨found,on,out⟩
    simp [found,out,on]

/-- Nodes that go one after the other. -/
theorem Evicted.append {t' : CoordinatorState} (inv : Consistent s) (evicted : Evicted s now gone t) (fresh : node ∉ gone)
    (next : Evicted t now [node] t') : Evicted s now (gone ++ [node]) t' where
  tasks id := by
    rw [next.tasks,evicted.tasks,Option.map_map]
    refine congrArg (Option.map · _) (funext fun task => ?_)
    rw [Function.comp_apply,out_on_append,out_on_single]
    cases out : out_on gone task with
    | true => simp
    | false => simp
  outputs id task found out := by
    obtain ⟨object,there,reserved⟩ := inv.awaited found out
    rw [out_on_append,Bool.or_eq_true] at out
    cases earlier : out_on gone task with
    | true =>
      -- its output is that of no other task, and is not available now
      rw [next.objects,evicted.outputs id task found earlier,there,Option.map_some,Option.map_some,
        orphaned_of (given_up_state reserved)]
      intro k other there' on alike
      obtain ⟨found',_,others⟩ := evicted.out_iff.mp ⟨there',out_on_single other ▸ on⟩
      obtain rfl := inv.outputs k id other task found' found alike
      obtain rfl := Option.some.inj (found.symm.trans found')
      rw [earlier] at others
      cases others
    | false =>
      have on : task.on node = true := out.resolve_left (by rw [earlier]; nofun)
      have still : t.tasks.get id = some task ∧ task.on node = true := evicted.out_iff.mpr ⟨found,on,earlier⟩
      rw [next.outputs id task still.1 (out_on_single task ▸ on),evicted.objects,there,Option.map_some,
        orphaned_of (by rw [reserved]; nofun)]
      intro k other found' out' alike
      obtain rfl := inv.outputs k id other task found' found alike
      obtain rfl := Option.some.inj (found.symm.trans found')
      rw [earlier] at out'
      cases out'
  objects oid unmade := by
    have split : ∀ task, out_on gone task = true ∨ task.on node = true → out_on (gone ++ [node]) task = true := by
      intro task out
      rwa [out_on_append,Bool.or_eq_true]
    rw [next.objects,evicted.objects,Option.map_map]
    · refine congrArg (Option.map · _) (funext fun object => ?_)
      rw [Function.comp_apply,orphaned_append fresh,orphaned_single]
    · exact fun id task found out => unmade id task found (split task (.inl out))
    · intro id task there on
      rw [out_on_single] at on
      exact unmade id task (evicted.out_iff.mp ⟨there,on⟩).1 (split task (.inr on))

/-- What there is to report of a node does not change when others go. -/
theorem Evicted.tally_of (inv : Consistent s) (evicted : Evicted s now gone t) (fresh : node ∉ gone) :
    CoordinatorState.tally_of t node = CoordinatorState.tally_of s node := by
  have tasks : ∀ v, t.tasks.sum (share node v) = s.tasks.sum (share node v) := by
    intro v
    refine Table.sum_eq_of_contributions fun id => ?_
    rw [evicted.tasks]
    cases s.tasks.get id with
    | none => rfl
    | some task =>
      cases out : out_on gone task with
      | false => simp [out]
      | true =>
        have elsewhere : task.on node = false := by
          obtain ⟨a,assigned,member⟩ := (Option.any_eq_true _ _).mp out
          have different : a.node ≠ node := fun same => fresh (same ▸ of_decide_eq_true member)
          simp [TaskRecord.on,assigned,different]
        simp [out,share,elsewhere]
  have objects : t.objects.sum (stranded node) = s.objects.sum (stranded node) := by
    refine Table.sum_eq_of_contributions fun oid => ?_
    by_cases made : ∃ id task, s.tasks.get id = some task ∧ out_on gone task = true ∧ task.output = oid
    · obtain ⟨id,task,found,out,rfl⟩ := made
      obtain ⟨object,there,reserved⟩ := inv.awaited found out
      rw [evicted.outputs id task found out,there]
      exact given_up_stranded reserved
    · have unmade : ∀ id task, s.tasks.get id = some task → out_on gone task = true → task.output ≠ oid :=
        fun id task found out same => made ⟨id,task,found,out,same⟩
      rw [evicted.objects oid unmade]
      cases s.objects.get oid with
      | none => rfl
      | some object =>
        have bytes : (orphaned gone object).bytes = object.bytes := by
          unfold orphaned
          split <;> rfl
        simp [stranded,owned_orphaned fresh,bytes]
  rw [CoordinatorState.tally_of,CoordinatorState.tally_of,tasks,tasks,tasks,objects]

/-! ### The loops -/

/-- When no task is left on the node, the tally is that of the node. -/
theorem Taking.tally {tally : WorkerExpiry} (inv : Consistent s) (taking : Taking s now node [] tally t)
    (idle : ∀ id task, t.tasks.get id = some task → task.on node = false) :
    { tally with objects_lost := t.objects.sum (stranded node) } = tally_of s node := by
  have counts : ∀ v, tallied tally v = s.tasks.sum (share node v) := by
    intro v
    have none : t.tasks.sum (share node v) = 0 := by
      refine Finset.sum_eq_zero fun id _ => ?_
      cases there : t.tasks.get id with
      | none => rfl
      | some task => simp [share,idle id task there]
    have whole := taking.counts v
    omega
  have objects : t.objects.sum (stranded node) = s.objects.sum (stranded node) := by
    refine Table.sum_eq_of_contributions fun oid => ?_
    by_cases made : ∃ id task, s.tasks.get id = some task ∧ task.on node = true ∧ task.output = oid
    · obtain ⟨id,task,found,on,rfl⟩ := made
      obtain ⟨object,there,reserved⟩ := inv.awaited found (out_on_single task ▸ on)
      rcases taking.taken id task found on with ⟨_,output⟩ | ⟨_,output⟩ <;> rw [output,there]
      exact given_up_stranded reserved
    · rw [taking.objects oid fun id task found on same => made ⟨id,task,found,on,same⟩]
  rw [objects,taking.name,tally_of,← counts .Retried,← counts .Failed,← counts .Cancelled]
  rfl

theorem Taking.evicted {tally : WorkerExpiry} (inv : Consistent s) (taking : Taking s now node [] tally t)
    (idle : ∀ id task, t.tasks.get id = some task → task.on node = false) {t' : CoordinatorState}
    (tasks : t'.tasks = t.tasks) (objects : t'.objects = t.objects.mapValues (orphan node)) : Evicted s now [node] t' := by
  have taken : ∀ id task, s.tasks.get id = some task → task.on node = true → t.tasks.get id = some (taken_back now task) ∧
      t.objects.get task.output = (s.objects.get task.output).map (given_up task) := by
    intro id task found on
    refine (taking.taken id task found on).resolve_left fun ⟨there,_⟩ => ?_
    rw [idle id task there] at on
    cases on
  constructor
  case tasks =>
    intro id
    rw [tasks]
    cases found : s.tasks.get id with
    | none => rw [taking.others id (by rw [found]; rfl),found,Option.map_none]
    | some task =>
      rw [Option.map_some,out_on_single]
      cases on : task.on node with
      | true => exact (taken id task found on).1
      | false => exact (taking.others id (by simpa [found] using on)).trans found
  case outputs =>
    intro id task found out
    obtain ⟨object,there,reserved⟩ := inv.awaited found out
    rw [objects,Table.get_mapValues,(taken id task found (out_on_single task ▸ out)).2,there,Option.map_some,
      Option.map_some,← orphaned_single,orphaned_of (given_up_state reserved)]
  case objects =>
    intro oid unmade
    rw [objects,Table.get_mapValues,taking.objects oid fun id task found on => unmade id task found (out_on_single task ▸ on)]
    exact congrArg (Option.map · _) (funext fun object => (orphaned_single object).symm)

/-- The sweep takes all tasks back from one worker and forgets it. -/
theorem expire_worker_ends (order : HashOrder) (inv : Consistent s)
    (found : s.workers.get node = some worker) (due : worker.lease_deadline_ms ≤ now) :
    ∃ s', expire_worker order now node s = .ok (tally_of s node) s' ∧ Swept now s s' ∧
      s'.workers = s.workers.remove node ∧ Evicted s now [node] s' := by
  obtain ⟨tally,t,ran,taking⟩ := foldlM_ends (expire_task now) (Taking s now node)
    (fun _ _ _ _ taking => taking.step inv found) _ ⟨node,0,0,0,0⟩ _ (.start (.start order inv found due) rfl rfl)
  have idle : ∀ id task, t.tasks.get id = some task → task.on node = false := by
    intro id task there
    by_contra on
    exact absurd ((taking.left id).mpr ⟨task,there,by simpa using on⟩) List.not_mem_nil
  have dead : t.workers.get node = some { worker with state := .Dead } := by
    rw [taking.workers]
    simp [found]
  refine ⟨_,?_,.tail taking.swept (.evict dead rfl idle),by simp only [taking.workers,Table.remove_modify],
    taking.evicted inv idle rfl rfl⟩
  simp only [expire_worker,bind_apply,worker_mut,get_apply,found,unwrap_some,pure_apply,set_apply,ran,← taking.tally inv idle]
  rfl

/-- Between two workers of a sweep: the workers left are as they were, and those that are due are among them
    or gone. -/
structure Expiring (s : CoordinatorState) (now : Nat) (left : List NodeId) (t : CoordinatorState) : Prop where
  swept : Swept now s t
  distinct : left.Nodup
  workers : ∀ node, t.workers.get node =
    (s.workers.get node).filter fun worker => decide (now < worker.lease_deadline_ms ∨ node ∈ left)
  left : ∀ node ∈ left, ∃ worker, s.workers.get node = some worker ∧ worker.lease_deadline_ms ≤ now

theorem Expiring.start (order : HashOrder) (now : Nat) (inv : Consistent s) (alive : NoDead s) :
    Expiring s now (((s.workers.values order.nodes).filter fun worker =>
      worker.state ≠ .Dead ∧ worker.lease_deadline_ms ≤ now).map (·.identity.node_id)) s := by
  refine ⟨.refl,Table.nodup_values_key inv.worker_ids _ _,fun node => ?_,fun node member => ?_⟩
  swap
  · obtain ⟨worker,kept,rfl⟩ := List.mem_map.mp member
    obtain ⟨there,due⟩ := List.mem_filter.mp kept
    obtain ⟨node,found⟩ := Table.mem_values.mp there
    exact ⟨worker,by rw [inv.worker_ids node worker found]; exact found,(of_decide_eq_true due).2⟩
  · cases found : s.workers.get node with
    | none => rfl
    | some worker =>
      refine (Option.filter_eq_some_iff.mpr ⟨rfl,?_⟩).symm
      rw [decide_eq_true_eq]
      by_cases due : worker.lease_deadline_ms ≤ now
      · refine .inr (List.mem_map.mpr ⟨worker,List.mem_filter.mpr ⟨Table.mem_values.mpr ⟨node,found⟩,?_⟩,?_⟩)
        · exact decide_eq_true ⟨alive node worker found,due⟩
        · exact inv.worker_ids node worker found
      · exact .inl (not_le.mp due)

theorem Expiring.step {rest : List NodeId} (expiring : Expiring s now (node :: rest) t) (order : HashOrder)
    (inv : Consistent s) :
    ∃ t', expire_worker order now node t = .ok (tally_of t node) t' ∧ Expiring s now rest t' ∧ Evicted t now [node] t' := by
  obtain ⟨fresh,distinct⟩ := List.nodup_cons.mp expiring.distinct
  obtain ⟨⟨worker,found,due⟩,members⟩ := List.forall_mem_cons.mp expiring.left
  have there : t.workers.get node = some worker := by
    rw [expiring.workers node,found]
    simp
  obtain ⟨t',ran,swept,workers,evicted⟩ := expire_worker_ends order (expiring.swept.consistent inv) there due
  refine ⟨t',ran,⟨expiring.swept.trans swept,distinct,fun other => ?_,members⟩,evicted⟩
  rw [workers,Table.get_remove]
  by_cases same : other = node
  · subst same
    simp [found,fresh,Option.filter_some,due]
  · rw [if_neg same,expiring.workers other]
    simp [same]

/-- The workers that are left after a sweep. -/
theorem Expiring.done (expiring : Expiring s now [] t) (node : NodeId) :
    t.workers.get node = (s.workers.get node).filter fun worker => now < worker.lease_deadline_ms := by
  simpa using expiring.workers node

theorem evicted_none (s : CoordinatorState) (now : Nat) : Evicted s now [] s where
  tasks id := by cases s.tasks.get id <;> simp [out_on]
  outputs id task _ out := by simp [out_on] at out
  objects oid _ := by cases s.objects.get oid <;> simp [orphaned,kept_at]

/-- The body of the loop over the workers. -/
def expire_next (order : HashOrder) (now : Nat) (report : List WorkerExpiry) (node : NodeId) : Coord (List WorkerExpiry) := do
  let tally ← expire_worker order now node
  pure (report ++ [tally])

/-- All workers that are due go, and each is reported. -/
theorem expire_all (order : HashOrder) (inv : Consistent s) {expired : List NodeId} (start : Expiring s now expired s) :
    ∃ t, expired.foldlM (expire_next order now) [] s = .ok (expired.map (tally_of s)) t ∧ Expiring s now [] t ∧
      Evicted s now expired t := by
  obtain ⟨report,t,ran,done,whole,rfl,expiring,evicted⟩ := foldlM_ends (expire_next order now)
    (fun rest report t => ∃ done, done ++ rest = expired ∧ report = done.map (tally_of s) ∧ Expiring s now rest t ∧
      Evicted s now done t)
    (by
      rintro node rest _ t ⟨done,whole,rfl,expiring,evicted⟩
      have fresh : node ∉ done := by
        have distinct := start.distinct
        rw [← whole,List.nodup_append'] at distinct
        exact fun member => distinct.2.2 member List.mem_cons_self
      obtain ⟨t',ran,next,gone⟩ := expiring.step order inv
      refine ⟨done.map (tally_of s) ++ [tally_of t node],t',?_,done ++ [node],?_,?_,next,evicted.append inv fresh gone⟩
      · simp only [expire_next,bind_apply,ran,pure_apply]
      · rw [List.append_assoc,List.singleton_append,whole]
      · rw [List.map_append,evicted.tally_of inv fresh,List.map_singleton])
    expired [] s ⟨[],rfl,rfl,start,evicted_none s now⟩
  rw [List.append_nil] at whole
  subst whole
  exact ⟨t,ran,expiring,evicted⟩

/-- The sweep as a whole: the workers that are due go, and unless there are none the dependency pass follows. -/
theorem expire_workers_ends (order : HashOrder) (now : Nat) (inv : Consistent s) (alive : NoDead s) :
    ∃ expired t, Expiring s now expired s ∧ Expiring s now [] t ∧ Evicted s now expired t ∧
      (expired = [] ∧ t = s ∧ expire_workers order now s = .ok [] s ∨
        ∀ u, reconcile_dependencies order t = .ok () u →
          expire_workers order now s = .ok (expired.map (tally_of s)) { u with revision := u.revision + 1 }) := by
  have start := Expiring.start order now inv alive
  obtain ⟨t,ran,expiring,evicted⟩ := expire_all order inv start
  refine ⟨_,t,start,expiring,evicted,?_⟩
  unfold expire_next at ran
  by_cases some : ((s.workers.values order.nodes).filter fun worker =>
      worker.state ≠ .Dead ∧ worker.lease_deadline_ms ≤ now).map (·.identity.node_id) = []
  · simp only [some,List.foldlM_nil,List.map_nil,pure_apply] at ran
    cases ran
    refine .inl ⟨some,rfl,?_⟩
    simp only [expire_workers,bind_apply,get_apply,some,List.foldlM_nil,pure_apply,ne_eq,not_true_eq_false,if_false]
  · refine .inr fun u reconciled => ?_
    simp only [expire_workers,bind_apply,get_apply,ran,ne_eq,some,not_false_eq_true,if_true,reconciled,changed,modify_apply,
      pure_apply]

end Crayon.CoordinatorState
