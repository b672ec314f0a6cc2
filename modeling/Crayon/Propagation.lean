import Crayon.Dependencies

/-!
What the dependency pass comes to. It visits the tasks that wait in whatever order
a hash set has them, fails some and wakes others, and goes round again until
nothing changes. Which tasks are to fail can be said of the state before, with no
order in it: those that need an object that cannot be had any more, themselves or
through the outputs of others that wait (`Doomed`); and so can which are to be woken
(`Ready`). Every turn of the pass fails a doomed task or wakes one that is ready, and
it stops only when there are none left, so that every order leads to the same tables.
-/
namespace Crayon.CoordinatorState
open Command
variable {s t : CoordinatorState} {id : TaskId} {task : TaskRecord} {oid : ObjectId} {failed : Finset TaskId}
  {woken : List TaskId}

/-- The task waits for an object that cannot be had any more. -/
def Doomed (s : CoordinatorState) (id : TaskId) : Prop := ∃ oid, Needs s id oid ∧ ¬ Promised s oid

/-- The task waits, and all its arguments are available. -/
def Ready (s : CoordinatorState) (id : TaskId) : Prop :=
  ∃ task, s.tasks.get id = some task ∧ task.state = .Waiting ∧ s.dependencies_available task = true

/-- The object is the output of one of the tasks. -/
def Made (s : CoordinatorState) (failed : Finset TaskId) (oid : ObjectId) : Prop :=
  ∃ id ∈ failed, (s.tasks.get id).map (·.output) = some oid

instance (s : CoordinatorState) (failed : Finset TaskId) (oid : ObjectId) : Decidable (Made s failed oid) :=
  inferInstanceAs (Decidable (∃ id ∈ failed, _))

/-- The state once some tasks that waited have failed and others were woken, in this order. -/
def settled (s : CoordinatorState) (failed : Finset TaskId) (woken : List TaskId) : CoordinatorState :=
  { s with
    tasks := s.tasks.keyed fun id task =>
      if id ∈ failed then { task with state := .Failed "dependency failed" }
      else if id ∈ woken then { task with state := .Runnable }
      else task
    objects := s.objects.keyed fun oid object => if Made s failed oid then { object with state := .Failed } else object
    waiting := s.waiting.filter fun id => id ∉ failed ∧ id ∉ woken
    runnable := s.runnable ++ woken }

/-! ### Doomed tasks and tasks that are ready -/

theorem Needs.waiting (needs : Needs s id oid) : ∃ task, s.tasks.get id = some task ∧ task.state = .Waiting := by
  cases needs with
  | direct found waiting _ => exact ⟨_,found,waiting⟩
  | through found waiting _ _ _ => exact ⟨_,found,waiting⟩

theorem Doomed.waiting (doomed : Doomed s id) : ∃ task, s.tasks.get id = some task ∧ task.state = .Waiting :=
  doomed.elim fun _ ⟨needs,_⟩ => needs.waiting

/-- What a task that waits is to produce is not available. -/
theorem Consistent.waiting_output (inv : Consistent s) (found : s.tasks.get id = some task) (waiting : task.state = .Waiting)
    {object : ObjectRecord} (there : s.objects.get task.output = some object) : object.state = .Reserved := by
  rw [inv.reserved_iff found there,waiting]
  rfl

/-- No task is both. -/
theorem Ready.not_doomed (ready : Ready s id) (inv : Consistent s) : ¬ Doomed s id := by
  rintro ⟨oid,needs,broken⟩
  obtain ⟨task,found,waiting,available⟩ := ready
  have available := dependencies_available_iff.mp available
  cases needs with
  | direct found' _ argument =>
    obtain rfl := Option.some.inj (found.symm.trans found')
    obtain ⟨object,there,state⟩ := available _ argument
    exact broken ⟨object,there,.inr state⟩
  | through found' _ there argument needs =>
    obtain rfl := Option.some.inj (found.symm.trans found')
    obtain ⟨object,output,state⟩ := available _ argument
    obtain ⟨other,there',waits⟩ := needs.waiting
    obtain rfl := Option.some.inj (there.symm.trans there')
    rw [inv.waiting_output there waits output] at state
    cases state

/-! ### One turn -/

/-- Only doomed tasks have failed and only ready ones were woken, each once. -/
structure Turns (s : CoordinatorState) (failed : Finset TaskId) (woken : List TaskId) : Prop where
  doomed : ∀ id ∈ failed, Doomed s id
  ready : ∀ id ∈ woken, Ready s id
  nodup : woken.Nodup

/-- A task that still waits has not had its turn. -/
theorem settled_waits (found : (settled s failed woken).tasks.get id = some task) (waiting : task.state = .Waiting) :
    id ∉ failed ∧ id ∉ woken ∧ s.tasks.get id = some task := by
  obtain ⟨before,there,rfl⟩ := Option.map_eq_some_iff.mp ((Table.get_keyed ..).symm.trans found)
  by_cases gone : id ∈ failed
  · simp [gone] at waiting
  · by_cases up : id ∈ woken
    · simp [gone,up] at waiting
    · exact ⟨gone,up,by simp [gone,up,there]⟩

theorem settled_object (s : CoordinatorState) (failed : Finset TaskId) (woken : List TaskId) (oid : ObjectId) :
    (settled s failed woken).objects.get oid = (s.objects.get oid).map fun object =>
      if Made s failed oid then { object with state := .Failed } else object :=
  Table.get_keyed ..

theorem settled_promised : Promised (settled s failed woken) oid ↔ Promised s oid ∧ ¬ Made s failed oid := by
  simp only [Promised,settled_object,Option.map_eq_some_iff]
  by_cases made : Made s failed oid
  · simp only [made,if_true,not_true,and_false,iff_false]
    rintro ⟨_,⟨object,_,rfl⟩,state | state⟩ <;> cases state
  · simp [made]

theorem settled_available {object : ObjectRecord} : (settled s failed woken).objects.get oid = some object ∧
    object.state = .Available ↔ s.objects.get oid = some object ∧ object.state = .Available ∧ ¬ Made s failed oid := by
  rw [settled_object,Option.map_eq_some_iff]
  by_cases made : Made s failed oid
  · simp only [made,if_true,not_true,and_false,iff_false]
    rintro ⟨⟨before,_,rfl⟩,state⟩
    cases state
  · simp [made]

/-- The pass fails a task only when it is doomed. -/
theorem Turns.starve (turns : Turns s failed woken) (found : s.tasks.get id = some task) (waiting : task.state = .Waiting)
    (starving : (settled s failed woken).dependency_failed task = true) : Doomed s id := by
  obtain ⟨oid,argument,broken⟩ := dependency_failed_iff.mp starving
  rw [settled_promised,not_and_not_right] at broken
  by_cases promised : Promised s oid
  · obtain ⟨next,gone,made⟩ := broken promised
    obtain ⟨other,there,rfl⟩ := Option.map_eq_some_iff.mp made
    obtain ⟨lost,needs,broken⟩ := turns.doomed next gone
    exact ⟨lost,.through found waiting there argument needs,broken⟩
  · exact ⟨oid,.direct found waiting argument,promised⟩

/-- It wakes a task only when it is ready. -/
theorem Turns.wake (found : s.tasks.get id = some task) (waiting : task.state = .Waiting)
    (available : (settled s failed woken).dependencies_available task = true) : Ready s id := by
  refine ⟨task,found,waiting,dependencies_available_iff.mpr fun oid argument => ?_⟩
  obtain ⟨object,there⟩ := dependencies_available_iff.mp available oid argument
  obtain ⟨there,state,_⟩ := settled_available.mp there
  exact ⟨object,there,state⟩

theorem settled_starve (found : s.tasks.get id = some task) :
    { settled s failed woken with
      tasks := (settled s failed woken).tasks.modify id fun task => { task with state := .Failed "dependency failed" }
      waiting := (settled s failed woken).waiting.erase id
      objects := (settled s failed woken).objects.modify task.output fun object => { object with state := .Failed } } =
    settled s (insert id failed) woken := by
  have tasks : (settled s failed woken).tasks.modify id (fun task => { task with state := .Failed "dependency failed" }) =
      (settled s (insert id failed) woken).tasks := by
    refine Table.ext_get fun k => ?_
    by_cases same : k = id
    · subst same
      by_cases gone : k ∈ failed <;> by_cases up : k ∈ woken <;> simp [settled,found,gone,up]
    · simp [settled,same]
  have objects : (settled s failed woken).objects.modify task.output (fun object => { object with state := .Failed }) =
      (settled s (insert id failed) woken).objects := by
    have made : ∀ oid, Made s (insert id failed) oid ↔ task.output = oid ∨ Made s failed oid := fun oid => by
      simp [Made,found]
    refine Table.ext_get fun oid => ?_
    rw [Table.get_modify,settled_object,settled_object]
    by_cases same : oid = task.output
    · subst same
      cases there : s.objects.get task.output with
      | none => simp
      | some object => by_cases before : Made s failed task.output <;> simp [before,made]
    · simp [same,Ne.symm same,made]
  have waiting : (settled s failed woken).waiting.erase id = (settled s (insert id failed) woken).waiting := by
    ext k
    by_cases same : k = id <;> simp [settled,same]
  rw [tasks,objects,waiting]
  rfl

theorem settled_wake (fresh : id ∉ failed) :
    { settled s failed woken with
      tasks := (settled s failed woken).tasks.modify id fun task => { task with state := .Runnable }
      waiting := (settled s failed woken).waiting.erase id
      runnable := (settled s failed woken).runnable ++ [id] } = settled s failed (woken ++ [id]) := by
  have tasks : (settled s failed woken).tasks.modify id (fun task => { task with state := .Runnable }) =
      (settled s failed (woken ++ [id])).tasks := by
    refine Table.ext_get fun k => ?_
    by_cases same : k = id
    · subst same
      cases there : s.tasks.get k with
      | none => simp [settled,there]
      | some task => by_cases up : k ∈ woken <;> simp [settled,there,fresh,up]
    · simp [settled,same]
  have waiting : (settled s failed woken).waiting.erase id = (settled s failed (woken ++ [id])).waiting := by
    ext k
    by_cases same : k = id <;> simp [settled,same]
  have runnable : (settled s failed woken).runnable ++ [id] = (settled s failed (woken ++ [id])).runnable :=
    List.append_assoc ..
  rw [tasks,waiting,runnable]
  rfl

theorem settled_none (s : CoordinatorState) : settled s ∅ [] = s := by
  have tasks : (settled s ∅ []).tasks = s.tasks := Table.ext_get fun k => by simp [settled]
  have objects : (settled s ∅ []).objects = s.objects := Table.ext_get fun k => by simp [settled,Made]
  have waiting : (settled s ∅ []).waiting = s.waiting := by simp [settled]
  have runnable : (settled s ∅ []).runnable = s.runnable := List.append_nil _
  calc settled s ∅ [] = { s with
        tasks := (settled s ∅ []).tasks
        objects := (settled s ∅ []).objects
        waiting := (settled s ∅ []).waiting
        runnable := (settled s ∅ []).runnable } := rfl
    _ = s := by rw [tasks,objects,waiting,runnable]

/-- Every turn of the pass fails a doomed task or wakes one that is ready. -/
theorem Ripples.turns (ripples : Ripples s t) : ∃ failed woken, Turns s failed woken ∧ t = settled s failed woken := by
  induction ripples with
  | refl => exact ⟨∅,[],⟨by simp,by simp,List.nodup_nil⟩,(settled_none s).symm⟩
  | tail _ ripple ih =>
    obtain ⟨failed,woken,turns,rfl⟩ := ih
    cases ripple with
    | @starve id task found waiting starving =>
      obtain ⟨fresh,unwoken,before⟩ := settled_waits found waiting
      have doomed := turns.starve before waiting starving
      refine ⟨insert id failed,woken,⟨?_,turns.ready,turns.nodup⟩,settled_starve before⟩
      exact Finset.forall_mem_insert .. |>.mpr ⟨doomed,turns.doomed⟩
    | @wake id task found waiting available =>
      obtain ⟨fresh,unwoken,before⟩ := settled_waits found waiting
      have ready := Turns.wake before waiting available
      refine ⟨failed,woken ++ [id],⟨turns.doomed,?_,?_⟩,settled_wake fresh⟩
      · intro k up
        rcases List.mem_append.mp up with earlier | now
        · exact turns.ready k earlier
        · exact List.mem_singleton.mp now ▸ ready
      · exact List.nodup_append'.mpr ⟨turns.nodup,List.nodup_singleton _,List.disjoint_singleton.mpr unwoken⟩

/-! ### The end of the pass -/

/-- When nothing is left to do, all doomed tasks have failed. -/
theorem Turns.failed_iff (turns : Turns s failed woken) (inv : Consistent s) (reconciled : Reconciled (settled s failed woken)) :
    id ∈ failed ↔ Doomed s id := by
  refine ⟨turns.doomed id,fun doomed => ?_⟩
  -- A doomed task that has not failed still waits, and has its arguments promised.
  have promised : ∀ id task, s.tasks.get id = some task → task.state = .Waiting → Doomed s id → id ∉ failed →
      ∀ oid ∈ task.dependencies, Promised s oid ∧ ¬ Made s failed oid := by
    intro id task found waiting doomed left oid argument
    have unwoken : id ∉ woken := fun up => (turns.ready id up).not_doomed inv doomed
    have waits : id ∈ (settled s failed woken).waiting := by
      simpa [settled,left,unwoken] using (inv.waiting_iff found).mpr waiting
    obtain ⟨task',found',_,all⟩ := blocked_iff.mp (reconciled id waits)
    obtain rfl : task = task' := by simpa [settled,found,left,unwoken] using found'
    exact settled_promised.mp (all oid argument)
  obtain ⟨oid,needs,broken⟩ := doomed
  by_contra left
  induction needs with
  | direct found waiting argument =>
    exact broken (promised _ _ found waiting ⟨_,.direct found waiting argument,broken⟩ left _ argument).1
  | @through id next task other oid found waiting there argument needs ih =>
    have unmade := (promised _ _ found waiting ⟨_,.through found waiting there argument needs,broken⟩ left _ argument).2
    refine ih broken fun gone => unmade ⟨next,gone,?_⟩
    simp [there]

/-- And all tasks that were ready have been woken. -/
theorem Turns.woken_iff (turns : Turns s failed woken) (inv : Consistent s) (reconciled : Reconciled (settled s failed woken)) :
    id ∈ woken ↔ Ready s id := by
  refine ⟨turns.ready id,fun ready => ?_⟩
  by_contra unwoken
  have left : id ∉ failed := fun gone => ready.not_doomed inv (turns.doomed id gone)
  obtain ⟨task,found,waiting,available⟩ := ready
  have waits : id ∈ (settled s failed woken).waiting := by
    simpa [settled,left,unwoken] using (inv.waiting_iff found).mpr waiting
  obtain ⟨task',found',⟨oid,argument,object,there,reserved⟩,all⟩ := blocked_iff.mp (reconciled id waits)
  obtain rfl : task = task' := by simpa [settled,found,left,unwoken] using found'
  obtain ⟨before,there',state⟩ := dependencies_available_iff.mp available oid argument
  have unmade := (settled_promised.mp (all oid argument)).2
  rw [settled_object,there'] at there
  simp only [unmade,if_false,Option.map_some,Option.some.injEq] at there
  rw [← there,state] at reserved
  cases reserved

/-- The state that the pass ends in: exactly the doomed tasks have failed, and exactly those that
    were ready are queued, in some order. -/
structure Settles (s t : CoordinatorState) (failed : Finset TaskId) (woken : List TaskId) : Prop where
  state : t = settled s failed woken
  failed_iff : ∀ id, id ∈ failed ↔ Doomed s id
  woken_iff : ∀ id, id ∈ woken ↔ Ready s id
  nodup : woken.Nodup

theorem reconcile_dependencies_settles (order : HashOrder) (inv : Consistent s) :
    ∃ t failed woken, reconcile_dependencies order s = .ok () t ∧ Settles s t failed woken := by
  obtain ⟨t,ran,ripples,reconciled⟩ := reconcile_dependencies_ends order inv
  obtain ⟨failed,woken,turns,rfl⟩ := ripples.turns
  exact ⟨_,failed,woken,ran,rfl,fun _ => turns.failed_iff inv reconciled,fun _ => turns.woken_iff inv reconciled,turns.nodup⟩

/-- Two orders differ in the order of the tasks that they queue, and in nothing else. -/
theorem Settles.unique {t' : CoordinatorState} {failed' : Finset TaskId} {woken' : List TaskId}
    (settles : Settles s t failed woken) (settles' : Settles s t' failed' woken') :
    woken.Perm woken' ∧ t = { t' with runnable := s.runnable ++ woken } := by
  have same : failed = failed' := by
    ext id
    rw [settles.failed_iff,settles'.failed_iff]
  have members : ∀ id, id ∈ woken ↔ id ∈ woken' := fun id => by rw [settles.woken_iff,settles'.woken_iff]
  refine ⟨(List.perm_ext_iff_of_nodup settles.nodup settles'.nodup).mpr members,?_⟩
  rw [settles.state,settles'.state,same]
  simp only [settled,members]

/-- A task that waited has failed, is queued or still waits; the others are as they were. -/
theorem Settles.waited (settles : Settles s t failed woken) (inv : Consistent s) (waits : id ∈ s.waiting) :
    ((∃ task message, t.tasks.get id = some task ∧ task.state = .Failed message) ↔ Doomed s id) ∧
      ((∃ task, t.tasks.get id = some task ∧ task.state = .Runnable) ↔ Ready s id ∧ ¬ Doomed s id) := by
  obtain ⟨task,found⟩ := inv.waiting id waits
  have waiting := (inv.waiting_iff found).mp waits
  rw [← settles.failed_iff,← settles.woken_iff,settles.state]
  by_cases gone : id ∈ failed
  · simp [settled,found,gone]
  · by_cases up : id ∈ woken <;> simp [settled,found,gone,up,waiting]

theorem Settles.other (settles : Settles s t failed woken) (inv : Consistent s) (idle : id ∉ s.waiting) :
    t.tasks.get id = s.tasks.get id := by
  have left : ∀ task, s.tasks.get id = some task → task.state ≠ .Waiting := fun task found waiting =>
    idle ((inv.waiting_iff found).mpr waiting)
  have spared : id ∉ failed := fun gone => by
    obtain ⟨task,found,waiting⟩ := ((settles.failed_iff id).mp gone).waiting
    exact left task found waiting
  have unwoken : id ∉ woken := fun up => by
    obtain ⟨task,found,waiting,_⟩ := (settles.woken_iff id).mp up
    exact left task found waiting
  rw [settles.state]
  simp [settled,spared,unwoken]

/-- What two passes over one state, in whatever orders, have in common. -/
structure Confluent (s t t' : CoordinatorState) : Prop where
  tasks : t.tasks = t'.tasks
  objects : t.objects = t'.objects
  waiting : t.waiting = t'.waiting
  queues : ∃ new new', t.runnable = s.runnable ++ new ∧ t'.runnable = s.runnable ++ new' ∧ new.Perm new'
  failed : ∀ id ∈ s.waiting, (∃ task message, t.tasks.get id = some task ∧ task.state = .Failed message) ↔ Doomed s id
  queued : ∀ id ∈ s.waiting, (∃ task, t.tasks.get id = some task ∧ task.state = .Runnable) ↔ Ready s id ∧ ¬ Doomed s id
  others : ∀ id, id ∉ s.waiting → t.tasks.get id = s.tasks.get id

/-- The dependency pass ends, and what it leads to does not depend on the order in which it finds
    the tasks that wait. No two rounds of it start with the same tasks waiting, so that the order of each
    round is free. -/
theorem reconcile_order_free (inv : Consistent s) (order order' : HashOrder) :
    ∃ t t', reconcile_dependencies order s = .ok () t ∧ reconcile_dependencies order' s = .ok () t' ∧ Confluent s t t' := by
  obtain ⟨t,failed,woken,ran,settles⟩ := reconcile_dependencies_settles order inv
  obtain ⟨t',failed',woken',ran',settles'⟩ := reconcile_dependencies_settles order' inv
  obtain ⟨perm,same⟩ := settles.unique settles'
  refine ⟨t,t',ran,ran',?_,?_,?_,⟨woken,woken',?_,?_,perm⟩,?_,?_,?_⟩
  · rw [same]
  · rw [same]
  · rw [same]
  · rw [settles.state,settled]
  · rw [settles'.state,settled]
  · exact fun id waits => (settles.waited inv waits).1
  · exact fun id waits => (settles.waited inv waits).2
  · exact fun id idle => settles.other inv idle

/-- The chain of tasks once the first is cancelled, with the dependency pass still to come. -/
def brokenChain : CoordinatorState :=
  { chainState with
    tasks := chainState.tasks.modify smallTask fun task => { task with state := .Cancelled }
    waiting := chainState.waiting.erase smallTask
    objects := chainState.objects.modify smallOutput fun object => { object with state := .Cancelled } }

/-- Tasks are found from the last to the first. -/
def backwards : HashOrder where
  nodes := HashOrder.by_id.nodes
  tasks :=
    { list := fun ids => (HashOrder.by_id.tasks.list ids).reverse
      nodup := fun ids => List.nodup_reverse.mpr (HashOrder.by_id.tasks.nodup ids)
      mem_list := fun ids id => List.mem_reverse.trans (HashOrder.by_id.tasks.mem_list ids id) }

/-- The second and the third fail in either order. -/
theorem broken_chain_confluent : brokenChain.waiting.card = 2 ∧
    ∃ t t', reconcile_dependencies .by_id brokenChain = .ok () t ∧ reconcile_dependencies backwards brokenChain = .ok () t' ∧
      Confluent brokenChain t t' := by
  have first : ∃ task, chainState.tasks.get smallTask = some task ∧ task.state = .Runnable ∧ task.output = smallOutput := by
    decide +kernel
  obtain ⟨task,found,state,output⟩ := first
  have move : Move (.cancel smallTask) chainState _ := .cancel found (.inr state)
  rw [output] at move
  exact ⟨by decide +kernel,reconcile_order_free (move.consistent chain_run.inv.consistent) .by_id backwards⟩

end Crayon.CoordinatorState
