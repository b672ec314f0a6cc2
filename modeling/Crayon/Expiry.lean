import Crayon.Propagation

/-!
The expiry of workers as a whole: the sweep over the workers whose lease ran out, and
the dependency pass after it. Of the state before one can tell what happens to each
task and to each object (`Expires`): a task of a worker that is due is taken back,
a task that waits, however indirectly, for an output that is given up or lost fails,
and no other task changes; since nothing becomes available, no task is woken. None of
this names an order, so that all orders lead to the same tasks and objects.
-/
namespace Crayon.CoordinatorState
open Command
variable {s t : CoordinatorState} {now : Nat} {id : TaskId} {task : TaskRecord} {oid : ObjectId} {object : ObjectRecord}
  {expired : List NodeId}

/-- The lease of the worker has run out. -/
def Due (s : CoordinatorState) (now : Nat) (node : NodeId) : Prop :=
  ∃ worker, s.workers.get node = some worker ∧ worker.lease_deadline_ms ≤ now

/-- The task is assigned to a worker that is due. -/
def Lapsed (s : CoordinatorState) (now : Nat) (task : TaskRecord) : Prop := ∃ a, task.assigned = some a ∧ Due s now a.node

/-- The object is available at a worker that is due. -/
def Stranded (s : CoordinatorState) (now : Nat) (object : ObjectRecord) : Prop :=
  object.state = .Available ∧ ∃ node, object.owner = some node ∧ Due s now node

/-- The output fails, is cancelled or is lost when the workers go. -/
def Broken (s : CoordinatorState) (now : Nat) (oid : ObjectId) : Prop :=
  (∃ id task, s.tasks.get id = some task ∧ Lapsed s now task ∧ verdict task ≠ .Retried ∧ task.output = oid) ∨
    ∃ object, s.objects.get oid = some object ∧ Stranded s now object ∧ object.bytes = none

/-- The task waits for such an output, itself or through other tasks. -/
def Dragged (s : CoordinatorState) (now : Nat) (id : TaskId) : Prop := ∃ oid, Needs s id oid ∧ Broken s now oid

/-- What the expiry of workers comes to, and what it reports. -/
structure Expires (s : CoordinatorState) (now : Nat) (report : List WorkerExpiry) (t : CoordinatorState) : Prop where
  workers : ∀ node, t.workers.get node = (s.workers.get node).filter fun worker => now < worker.lease_deadline_ms
  /-- A task of a worker that is due is taken back, and its output is given up unless it is tried again. -/
  taken : ∀ id task, s.tasks.get id = some task → Lapsed s now task → t.tasks.get id = some (taken_back now task) ∧
    t.objects.get task.output = (s.objects.get task.output).map (given_up task)
  /-- A task that waits for what cannot be had any more fails. -/
  dragged : ∀ id task, s.tasks.get id = some task → Dragged s now id →
    t.tasks.get id = some { task with state := .Failed "dependency failed" } ∧
      t.objects.get task.output = (s.objects.get task.output).map fun object => { object with state := .Failed }
  /-- Every other task is as it was. -/
  spared : ∀ id, (∀ task, s.tasks.get id = some task → ¬ Lapsed s now task) → ¬ Dragged s now id →
    t.tasks.get id = s.tasks.get id
  lost : ∀ oid object, s.objects.get oid = some object → Stranded s now object → object.bytes = none →
    t.objects.get oid = some { object with owner := none, location := none, state := .Lost }
  kept : ∀ oid object bytes, s.objects.get oid = some object → Stranded s now object → object.bytes = some bytes →
    t.objects.get oid = some { object with owner := none, location := some "coordinator" }
  /-- Every other object is as it was. -/
  unmoved : ∀ oid, (∀ object, s.objects.get oid = some object → ¬ Stranded s now object) →
    (∀ id task, s.tasks.get id = some task → task.output = oid → ¬ Lapsed s now task ∧ ¬ Dragged s now id) →
    t.objects.get oid = s.objects.get oid
  reported : ∀ tally, tally ∈ report ↔ Due s now tally.node ∧ tally = tally_of s tally.node
  once : (report.map (·.node)).Nodup

/-! ### The sweep -/

theorem Expiring.mem_iff (start : Expiring s now expired s) (node : NodeId) : node ∈ expired ↔ Due s now node := by
  refine ⟨start.left node,?_⟩
  rintro ⟨worker,found,due⟩
  have kept := start.workers node
  rw [found] at kept
  have either := of_decide_eq_true (Option.filter_eq_some_iff.mp kept.symm).2
  exact either.resolve_left (Nat.not_lt.mpr due)

/-- Between operations, whatever a task waits for can still be had. -/
theorem Reconciled.promised (reconciled : Reconciled s) (inv : Consistent s) (needs : Needs s id oid) : Promised s oid := by
  induction needs with
  | direct found waiting argument => exact (reconciled.awaits inv found waiting).2 _ argument
  | through _ _ _ _ _ ih => exact ih

/-- And the dependency pass has nothing to do. -/
theorem Reconciled.settles (reconciled : Reconciled s) (inv : Consistent s) : Settles s s ∅ [] := by
  refine ⟨(settled_none s).symm,fun id => ?_,fun id => ?_,List.nodup_nil⟩
  · refine iff_of_false (Finset.notMem_empty id) ?_
    rintro ⟨oid,needs,broken⟩
    exact broken (reconciled.promised inv needs)
  · refine iff_of_false List.not_mem_nil ?_
    rintro ⟨task,found,waiting,available⟩
    obtain ⟨⟨oid,argument,object,there,reserved⟩,_⟩ := reconciled.awaits inv found waiting
    obtain ⟨object',there',state⟩ := dependencies_available_iff.mp available oid argument
    obtain rfl := Option.some.inj (there.symm.trans there')
    rw [reserved] at state
    cases state

/-- All workers that are due are gone, and the dependency pass is still to come. -/
structure Cleared (s : CoordinatorState) (now : Nat) (expired : List NodeId) (t : CoordinatorState) : Prop where
  inv : Consistent s
  reconciled : Reconciled s
  members : ∀ node, node ∈ expired ↔ Due s now node
  evicted : Evicted s now expired t

theorem Cleared.lapsed_iff (cleared : Cleared s now expired t) : out_on expired task = true ↔ Lapsed s now task := by
  simp only [out_on,Lapsed,Option.any_eq_true,decide_eq_true_eq,cleared.members]

theorem Cleared.stranded_iff (cleared : Cleared s now expired t) : kept_at expired object = true ↔ Stranded s now object := by
  simp only [kept_at,Stranded,Bool.and_eq_true,Option.any_eq_true,decide_eq_true_eq,cleared.members]
  exact and_comm

theorem Lapsed.busy (lapsed : Lapsed s now task) (inv : Consistent s) (found : s.tasks.get id = some task) :
    task.state ≠ .Waiting := by
  obtain ⟨a,assigned,_⟩ := lapsed
  rcases (inv.dispatched_iff found).mp (by simp [assigned]) with state | state | state <;> rw [state] <;> nofun

/-- Its output is still to come. -/
theorem Lapsed.output (lapsed : Lapsed s now task) (inv : Consistent s) (found : s.tasks.get id = some task) :
    ∃ object, s.objects.get task.output = some object ∧ object.state = .Reserved := by
  obtain ⟨a,assigned,_⟩ := lapsed
  have out : out_on [a.node] task = true := by simp [out_on,assigned]
  exact inv.awaited found out

theorem taken_back_state (now : Nat) (task : TaskRecord) : (taken_back now task).state ≠ .Waiting := by
  unfold taken_back
  cases verdict task <;> nofun

/-- The sweep leaves alone what waits. -/
theorem Cleared.waits (cleared : Cleared s now expired t) :
    t.tasks.get id = some task ∧ task.state = .Waiting ↔ s.tasks.get id = some task ∧ task.state = .Waiting := by
  rw [cleared.evicted.tasks]
  constructor
  · rintro ⟨there,waiting⟩
    obtain ⟨before,found,rfl⟩ := Option.map_eq_some_iff.mp there
    cases out : out_on expired before with
    | true =>
      simp only [out,if_true] at waiting
      exact absurd waiting (taken_back_state now before)
    | false =>
      simp only [out,Bool.false_eq_true,if_false] at waiting ⊢
      exact ⟨found,waiting⟩
  · rintro ⟨found,waiting⟩
    have idle : out_on expired task = false := by
      rw [Bool.eq_false_iff,ne_eq,cleared.lapsed_iff]
      exact fun lapsed => lapsed.busy cleared.inv found waiting
    simp [found,idle,waiting]

theorem Cleared.outputs (cleared : Cleared s now expired t) (id : TaskId) :
    (t.tasks.get id).map (·.output) = (s.tasks.get id).map (·.output) := by
  rw [cleared.evicted.tasks,Option.map_map]
  refine congrArg (Option.map · _) (funext fun task => ?_)
  rw [Function.comp_apply]
  split
  · exact taken_back_output now task
  · rfl

theorem Cleared.needs (cleared : Cleared s now expired t) : Needs t id oid ↔ Needs s id oid := by
  have outputs := cleared.outputs
  constructor
  · intro needs
    induction needs with
    | direct found waiting argument =>
      exact .direct (cleared.waits.mp ⟨found,waiting⟩).1 waiting argument
    | @through id next task other oid found waiting there argument _ ih =>
      have output := outputs next
      rw [there] at output
      obtain ⟨before,there',same⟩ := Option.map_eq_some_iff.mp output.symm
      exact .through (cleared.waits.mp ⟨found,waiting⟩).1 waiting there' (same ▸ argument) ih
  · intro needs
    induction needs with
    | direct found waiting argument =>
      exact .direct (cleared.waits.mpr ⟨found,waiting⟩).1 waiting argument
    | @through id next task other oid found waiting there argument _ ih =>
      have output := outputs next
      rw [there] at output
      obtain ⟨now,there',same⟩ := Option.map_eq_some_iff.mp output
      exact .through (cleared.waits.mpr ⟨found,waiting⟩).1 waiting there' (same ▸ argument) ih

/-- The output of a task that is taken back. -/
theorem Cleared.made (cleared : Cleared s now expired t) (found : s.tasks.get id = some task) (lapsed : Lapsed s now task) :
    t.objects.get task.output = (s.objects.get task.output).map (given_up task) :=
  cleared.evicted.outputs id task found (cleared.lapsed_iff.mpr lapsed)

/-- Any other object. -/
theorem Cleared.unmade (cleared : Cleared s now expired t)
    (unmade : ¬ ∃ id task, s.tasks.get id = some task ∧ Lapsed s now task ∧ task.output = oid) :
    t.objects.get oid = (s.objects.get oid).map (orphaned expired) :=
  cleared.evicted.objects oid fun id task found out same => unmade ⟨id,task,found,cleared.lapsed_iff.mp out,same⟩

/-- An object can still be had unless it is broken. -/
theorem Cleared.promised (cleared : Cleared s now expired t) : Promised t oid ↔ Promised s oid ∧ ¬ Broken s now oid := by
  by_cases made : ∃ id task, s.tasks.get id = some task ∧ Lapsed s now task ∧ task.output = oid
  · obtain ⟨id,task,found,lapsed,rfl⟩ := made
    obtain ⟨object,there,reserved⟩ := lapsed.output cleared.inv found
    have broken : Broken s now task.output ↔ verdict task ≠ .Retried := by
      constructor
      · rintro (⟨k,other,found',_,verdict,alike⟩ | ⟨object',there',⟨available,_⟩,_⟩)
        · obtain rfl := cleared.inv.outputs k id other task found' found alike
          obtain rfl := Option.some.inj (found.symm.trans found')
          exact verdict
        · obtain rfl := Option.some.inj (there.symm.trans there')
          rw [reserved] at available
          cases available
      · exact fun verdict => .inl ⟨id,task,found,lapsed,verdict,rfl⟩
    rw [broken,Promised,Promised,cleared.made found lapsed,there]
    cases verdict : verdict task <;> simp [given_up,verdict,reserved]
  · have broken : Broken s now oid ↔
        ∃ object, s.objects.get oid = some object ∧ Stranded s now object ∧ object.bytes = none := by
      refine or_iff_right ?_
      rintro ⟨id,task,found,lapsed,_,same⟩
      exact made ⟨id,task,found,lapsed,same⟩
    rw [broken,Promised,Promised,cleared.unmade made]
    cases there : s.objects.get oid with
    | none => simp
    | some object =>
      simp only [Option.map_some,Option.some.injEq,exists_eq_left']
      by_cases stranded : Stranded s now object
      · have kept := cleared.stranded_iff.mpr stranded
        cases bytes : object.bytes <;> simp [orphaned,kept,bytes,stranded,stranded.1]
      · have free : kept_at expired object = false := by rwa [Bool.eq_false_iff,ne_eq,cleared.stranded_iff]
        simp [orphaned,free,stranded]

/-- Nothing becomes available. -/
theorem Cleared.available (cleared : Cleared s now expired t) {later : ObjectRecord}
    (there : t.objects.get oid = some later) (available : later.state = .Available) :
    ∃ object, s.objects.get oid = some object ∧ object.state = .Available := by
  by_cases made : ∃ id task, s.tasks.get id = some task ∧ Lapsed s now task ∧ task.output = oid
  · obtain ⟨id,task,found,lapsed,rfl⟩ := made
    obtain ⟨object,before,reserved⟩ := lapsed.output cleared.inv found
    rw [cleared.made found lapsed,before] at there
    obtain rfl := Option.some.inj there
    exact absurd available (given_up_state reserved)
  · rw [cleared.unmade made] at there
    obtain ⟨object,before,rfl⟩ := Option.map_eq_some_iff.mp there
    refine ⟨object,before,?_⟩
    by_contra other
    rw [orphaned_of other] at available
    exact other available

/-- The tasks that the dependency pass is to fail. -/
theorem Cleared.doomed (cleared : Cleared s now expired t) : Doomed t id ↔ Dragged s now id := by
  refine exists_congr fun oid => ?_
  rw [cleared.needs,cleared.promised]
  refine and_congr_right fun needs => ?_
  simp [cleared.reconciled.promised cleared.inv needs]

/-- It wakes no task. -/
theorem Cleared.ready (cleared : Cleared s now expired t) : ¬ Ready t id := by
  rintro ⟨task,there,waiting,available⟩
  obtain ⟨found,_⟩ := cleared.waits.mp ⟨there,waiting⟩
  obtain ⟨⟨oid,argument,object,before,reserved⟩,_⟩ := cleared.reconciled.awaits cleared.inv found waiting
  obtain ⟨later,after,state⟩ := dependencies_available_iff.mp available oid argument
  obtain ⟨object',before',available'⟩ := cleared.available after state
  obtain rfl := Option.some.inj (before.symm.trans before')
  rw [reserved] at available'
  cases available'

/-! ### The dependency pass -/

theorem Dragged.waiting (dragged : Dragged s now id) : ∃ task, s.tasks.get id = some task ∧ task.state = .Waiting :=
  dragged.elim fun _ ⟨needs,_⟩ => needs.waiting

/-- Its output is still to come. -/
theorem Dragged.output (dragged : Dragged s now id) (inv : Consistent s) (found : s.tasks.get id = some task) :
    ∃ object, s.objects.get task.output = some object ∧ object.state = .Reserved := by
  obtain ⟨task',found',waiting⟩ := dragged.waiting
  obtain rfl := Option.some.inj (found.symm.trans found')
  obtain ⟨object,there⟩ := inv.output found
  exact ⟨object,there,inv.waiting_output found waiting there⟩

theorem Dragged.not_lapsed (dragged : Dragged s now id) (inv : Consistent s) (found : s.tasks.get id = some task) :
    ¬ Lapsed s now task := by
  obtain ⟨task',found',waiting⟩ := dragged.waiting
  obtain rfl := Option.some.inj (found.symm.trans found')
  exact fun lapsed => lapsed.busy inv found waiting

section
variable {u : CoordinatorState} {failed : Finset TaskId} {woken : List TaskId}

theorem Cleared.spared_task (cleared : Cleared s now expired t) (settles : Settles t u failed woken)
    (spared : ¬ Dragged s now id) :
    u.tasks.get id = t.tasks.get id := by
  have left : id ∉ failed := by rwa [settles.failed_iff,cleared.doomed]
  have asleep : id ∉ woken := by
    rw [settles.woken_iff]
    exact cleared.ready
  rw [settles.state]
  simp [settled,left,asleep]

theorem Cleared.made_iff (cleared : Cleared s now expired t) (settles : Settles t u failed woken) :
    Made t failed oid ↔ ∃ id task, s.tasks.get id = some task ∧ Dragged s now id ∧ task.output = oid := by
  simp only [Made,settles.failed_iff,cleared.doomed,cleared.outputs,Option.map_eq_some_iff]
  constructor
  · rintro ⟨id,dragged,task,found,same⟩
    exact ⟨id,task,found,dragged,same⟩
  · rintro ⟨id,task,found,dragged,same⟩
    exact ⟨id,dragged,task,found,same⟩

theorem Cleared.spared_object (cleared : Cleared s now expired t) (settles : Settles t u failed woken)
    (spared : ¬ ∃ id task, s.tasks.get id = some task ∧ Dragged s now id ∧ task.output = oid) :
    u.objects.get oid = t.objects.get oid := by
  rw [settles.state,settled_object]
  simp [cleared.made_iff settles,spared]

/-- An object that is available is the output of no task that is taken back or fails. -/
theorem Stranded.unmade (stranded : Stranded s now object) (inv : Consistent s) (there : s.objects.get oid = some object) :
    (¬ ∃ id task, s.tasks.get id = some task ∧ Lapsed s now task ∧ task.output = oid) ∧
      ¬ ∃ id task, s.tasks.get id = some task ∧ Dragged s now id ∧ task.output = oid := by
  have settled : ∀ object', s.objects.get oid = some object' → object'.state ≠ .Reserved := by
    intro object' there' reserved
    obtain rfl := Option.some.inj (there.symm.trans there')
    rw [stranded.1] at reserved
    cases reserved
  constructor
  · rintro ⟨id,task,found,lapsed,rfl⟩
    obtain ⟨object',there',reserved⟩ := lapsed.output inv found
    exact settled object' there' reserved
  · rintro ⟨id,task,found,dragged,rfl⟩
    obtain ⟨object',there',reserved⟩ := dragged.output inv found
    exact settled object' there' reserved

theorem Cleared.stranded (cleared : Cleared s now expired t) (settles : Settles t u failed woken)
    (there : s.objects.get oid = some object) (stranded : Stranded s now object) :
    u.objects.get oid = some (orphaned expired object) := by
  obtain ⟨unmade,spared⟩ := stranded.unmade cleared.inv there
  rw [cleared.spared_object settles spared,cleared.unmade unmade,there,Option.map_some]

theorem Cleared.expires (cleared : Cleared s now expired t) (settles : Settles t u failed woken) (distinct : expired.Nodup)
    (workers : ∀ node, t.workers.get node = (s.workers.get node).filter fun worker => now < worker.lease_deadline_ms) :
    Expires s now (expired.map (tally_of s)) u := by
  constructor
  case workers =>
    intro node
    rw [settles.state,← workers]
    rfl
  case taken =>
    intro id task found lapsed
    have spared : ¬ Dragged s now id := fun dragged => dragged.not_lapsed cleared.inv found lapsed
    constructor
    · rw [cleared.spared_task settles spared,cleared.evicted.tasks,found,Option.map_some,if_pos (cleared.lapsed_iff.mpr lapsed)]
    · rw [cleared.spared_object settles,cleared.made found lapsed]
      rintro ⟨k,other,found',dragged,alike⟩
      obtain rfl := cleared.inv.outputs k id other task found' found alike
      exact spared dragged
  case dragged =>
    intro id task found dragged
    have idle := dragged.not_lapsed cleared.inv found
    have gone : id ∈ failed := by rwa [settles.failed_iff,cleared.doomed]
    have still : out_on expired task = false := by rwa [Bool.eq_false_iff,ne_eq,cleared.lapsed_iff]
    constructor
    · rw [settles.state]
      simp [settled,gone,cleared.evicted.tasks,found,still]
    · obtain ⟨object,there,reserved⟩ := dragged.output cleared.inv found
      have made : Made t failed task.output := (cleared.made_iff settles).mpr ⟨id,task,found,dragged,rfl⟩
      rw [settles.state,settled_object,cleared.unmade,there]
      · simp [made,orphaned_of (show object.state ≠ .Available by rw [reserved]; rintro ⟨⟩)]
      · rintro ⟨k,other,found',lapsed,alike⟩
        obtain rfl := cleared.inv.outputs k id other task found' found alike
        obtain rfl := Option.some.inj (found.symm.trans found')
        exact idle lapsed
  case spared =>
    intro id idle spared
    rw [cleared.spared_task settles spared,cleared.evicted.tasks]
    cases found : s.tasks.get id with
    | none => rfl
    | some task =>
      have still : out_on expired task = false := by
        rw [Bool.eq_false_iff,ne_eq,cleared.lapsed_iff]
        exact idle task found
      simp [still]
  case lost =>
    intro oid object there stranded bare
    rw [cleared.stranded settles there stranded,orphaned,if_pos (cleared.stranded_iff.mpr stranded)]
    simp [bare]
  case kept =>
    intro oid object bytes there stranded inline
    rw [cleared.stranded settles there stranded,orphaned,if_pos (cleared.stranded_iff.mpr stranded)]
    simp [inline]
  case unmoved =>
    intro oid free others
    rw [cleared.spared_object settles,cleared.unmade]
    · cases there : s.objects.get oid with
      | none => rfl
      | some object =>
        have still : kept_at expired object = false := by
          rw [Bool.eq_false_iff,ne_eq,cleared.stranded_iff]
          exact free object there
        simp [orphaned,still]
    · rintro ⟨id,task,found,lapsed,same⟩
      exact (others id task found same).1 lapsed
    · rintro ⟨id,task,found,dragged,same⟩
      exact (others id task found same).2 dragged
  case reported =>
    intro tally
    rw [List.mem_map]
    constructor
    · rintro ⟨node,member,rfl⟩
      exact ⟨(cleared.members node).mp member,rfl⟩
    · rintro ⟨due,same⟩
      exact ⟨tally.node,(cleared.members tally.node).mpr due,same.symm⟩
  case once =>
    rw [List.map_map]
    exact (List.map_id expired).symm ▸ distinct

end

/-- Whoever goes through the workers and tasks in another order comes to the same tasks and objects. -/
theorem Expires.unique {report report' : List WorkerExpiry} {t t' : CoordinatorState} (expires : Expires s now report t)
    (expires' : Expires s now report' t') : t.tasks = t'.tasks ∧ t.objects = t'.objects := by
  constructor
  · refine Table.ext_get fun id => ?_
    by_cases dragged : Dragged s now id
    · obtain ⟨task,found,_⟩ := dragged.waiting
      rw [(expires.dragged id task found dragged).1,(expires'.dragged id task found dragged).1]
    · by_cases lapsed : ∃ task, s.tasks.get id = some task ∧ Lapsed s now task
      · obtain ⟨task,found,lapsed⟩ := lapsed
        rw [(expires.taken id task found lapsed).1,(expires'.taken id task found lapsed).1]
      · have idle : ∀ task, s.tasks.get id = some task → ¬ Lapsed s now task := fun task found now => lapsed ⟨task,found,now⟩
        rw [expires.spared id idle dragged,expires'.spared id idle dragged]
  · refine Table.ext_get fun oid => ?_
    by_cases stranded : ∃ object, s.objects.get oid = some object ∧ Stranded s now object
    · obtain ⟨object,there,stranded⟩ := stranded
      cases bytes : object.bytes with
      | none => rw [expires.lost oid object there stranded bytes,expires'.lost oid object there stranded bytes]
      | some inline =>
        rw [expires.kept oid object inline there stranded bytes,expires'.kept oid object inline there stranded bytes]
    · by_cases made : ∃ id task, s.tasks.get id = some task ∧ task.output = oid ∧ (Lapsed s now task ∨ Dragged s now id)
      · obtain ⟨id,task,found,rfl,lapsed | dragged⟩ := made
        · rw [(expires.taken id task found lapsed).2,(expires'.taken id task found lapsed).2]
        · rw [(expires.dragged id task found dragged).2,(expires'.dragged id task found dragged).2]
      · have free : ∀ object, s.objects.get oid = some object → ¬ Stranded s now object :=
          fun object there now => stranded ⟨object,there,now⟩
        have others : ∀ id task, s.tasks.get id = some task → task.output = oid → ¬ Lapsed s now task ∧ ¬ Dragged s now id :=
          fun id task found same => not_or.mp fun either => made ⟨id,task,found,same,either⟩
        rw [expires.unmoved oid free others,expires'.unmoved oid free others]

/-! ### Runs -/

/-- The expiry of workers, in whatever order. -/
theorem expire_workers_expires (inv : Inv s) (reconciled : Reconciled s) (now : Nat) (order : HashOrder) :
    ∃ report t, expire_workers order now s = .ok report t ∧ Expires s now report t := by
  obtain ⟨expired,t,start,expiring,evicted,ends⟩ := expire_workers_ends order now inv.consistent inv.alive
  have cleared : Cleared s now expired t := ⟨inv.consistent,reconciled,start.mem_iff,evicted⟩
  rcases ends with ⟨rfl,rfl,ran⟩ | ran
  · exact ⟨[],t,ran,cleared.expires (reconciled.settles inv.consistent) start.distinct expiring.done⟩
  · obtain ⟨u,failed,woken,settled,settles⟩ :=
      reconcile_dependencies_settles order (expiring.swept.consistent inv.consistent)
    have expires := cleared.expires settles start.distinct expiring.done
    exact ⟨_,_,ran u settled,{ expires with }⟩

/-- In every state of a run the workers that are due go, their tasks are taken back and their objects are orphaned,
    what depends on an output that is given up or lost fails, and all else stays; and no order plays a part in it. -/
theorem run_expires {blake3 : List UInt8 → Checksum} {epoch : CoordinatorEpoch} {past : List Step}
    (run : Run blake3 epoch past s) (now : Nat) :
    (∀ order, ∃ report t, expire_workers order now s = .ok report t ∧ Expires s now report t) ∧
      ∀ order order' report report' t t', expire_workers order now s = .ok report t →
        expire_workers order' now s = .ok report' t' → t.tasks = t'.tasks ∧ t.objects = t'.objects := by
  have all := expire_workers_expires run.inv run.reconciled now
  refine ⟨all,fun order order' report report' t t' ran ran' => ?_⟩
  obtain ⟨_,_,same,expires⟩ := all order
  obtain ⟨_,_,same',expires'⟩ := all order'
  cases same.symm.trans ran
  cases same'.symm.trans ran'
  exact expires.unique expires'

/-- The worker of the small run has a task, another task waits for its output, and the first one is to be cancelled. -/
def draggedOps : List Op :=
  [.cancel smallTask,.submit smallKey chainSecond.args chainSecond.resources 1 chainSecond.id chainSecond.output] ++ smallOps

def draggedState : CoordinatorState := (replay smallHash smallEpoch draggedOps).2

theorem dragged_run : Run smallHash smallEpoch (replay smallHash smallEpoch draggedOps).1 draggedState :=
  replay_run smallHash smallEpoch draggedOps (by decide +kernel)

theorem dragged_expires :
    Outcome.value? (expire_workers .by_id 5000 draggedState) = some [⟨smallWorker.node_id,0,0,1,0⟩] ∧
      ∃ report t, expire_workers .by_id 5000 draggedState = .ok report t ∧ Expires draggedState 5000 report t :=
  ⟨by decide +kernel,(run_expires dragged_run 5000).1 .by_id⟩

/-- The first attempt of a task of which two are permitted ends with the lease of its worker, as late as a clock of
    64 bits can tell: the task is due again at once, and not 100 ms later. -/
theorem backoff_saturates :
    Run smallHash smallEpoch smallPast smallState ∧
      (smallState.tasks.get smallTask).map
        (fun task => (task.state,task.attempt,task.max_attempts,task.assigned.map (·.node))) =
        some (.Assigned,1,2,some smallWorker.node_id) ∧
      (smallState.workers.get smallWorker.node_id).map (·.lease_deadline_ms) = some 5000 ∧
      ((Outcome.state (expire_workers .by_id (2^64 - 1) smallState)).tasks.get smallTask).map
        (fun task => (task.state,task.not_before_ms)) = some (.Runnable,2^64 - 1) ∧
      2^64 - 1 ≠ 2^64 - 1 + retry_backoff_ms 1 :=
  ⟨small_run,by decide +kernel,by decide +kernel,by decide +kernel,by decide +kernel⟩

end Crayon.CoordinatorState
