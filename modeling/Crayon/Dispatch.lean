import Crayon.Runs

/-!
Which task a poll gets. The search pops ids off the queue, sets aside what the
worker cannot serve and what is servable but has no argument at the worker, and
stops at the first task that has one, or when it has passed over enough
(`Search`). So the pick is a function of the candidates alone, the tasks in the
queue that the worker can serve, in order; nothing that is runnable is lost, and
the candidates passed over are in front afterwards, in order.
-/
namespace Crayon.CoordinatorState
open Command

instance (worker : WorkerRecord) (now : Nat) (task : TaskRecord) : Decidable (Servable worker now task) :=
  decidable_of_iff (task.state = .Runnable ∧ task.not_before_ms ≤ now ∧
      ((worker.operations.get task.operation).isSome = true ∧ worker.available.can_fit task.resources = true))
    ⟨fun ⟨runnable,due,capable⟩ => ⟨runnable,due,capable⟩,fun ⟨runnable,due,capable⟩ => ⟨runnable,due,capable⟩⟩

/-- The id is that of a runnable task. -/
def is_runnable (s : CoordinatorState) (id : TaskId) : Bool := (s.tasks.get id).any fun task => task.state = .Runnable

/-- The id is that of a task that the worker can be given now. -/
def serves (s : CoordinatorState) (worker : WorkerRecord) (now : Nat) (id : TaskId) : Bool :=
  (s.tasks.get id).any fun task => Servable worker now task

/-- The id is that of a task with an argument that the node owns. -/
def is_local (s : CoordinatorState) (node_id : NodeId) (id : TaskId) : Bool := (s.tasks.get id).any (s.local_to node_id)

/-- The tasks in the queue that the worker can be given now, in order. -/
def candidates (s : CoordinatorState) (worker : WorkerRecord) (now : Nat) : List TaskId :=
  s.runnable.filter (s.serves worker now)

/-- Runnable, but not for this worker at this moment. -/
def unserved (s : CoordinatorState) (worker : WorkerRecord) (now : Nat) (id : TaskId) : Bool :=
  s.is_runnable id && !s.serves worker now id

variable {s t : CoordinatorState} {worker : WorkerRecord} {node_id : NodeId} {now : Nat} {id : TaskId}
  {queue before : List TaskId} {sel : Selection}

/-! ### The search -/

/-- The search has read `before` without finding a local candidate or passing over too many. -/
structure Ongoing (s : CoordinatorState) (worker : WorkerRecord) (node_id : NodeId) (now : Nat) (before : List TaskId) :
    Prop where
  away : ∀ id ∈ before, s.serves worker now id = true → s.is_local node_id id = false
  few : (before.filter (s.serves worker now)).length < LOCALITY_LOOKAHEAD

/-- How a search of the queue ends: it has read all of it, or stopped at a local candidate, or
    stopped at the last candidate that it looks at. -/
inductive Search (s : CoordinatorState) (worker : WorkerRecord) (node_id : NodeId) (now : Nat) :
    List TaskId → Selection → Prop where
  | through {queue : List TaskId} (ongoing : Ongoing s worker node_id now queue) :
      Search s worker node_id now queue
        ⟨queue.filter (s.unserved worker now),queue.filter (s.serves worker now),none,[]⟩
  | near {before after : List TaskId} {id : TaskId} (ongoing : Ongoing s worker node_id now before)
      (serves : s.serves worker now id = true) (near : s.is_local node_id id = true) :
      Search s worker node_id now (before ++ id :: after)
        ⟨before.filter (s.unserved worker now),before.filter (s.serves worker now),some id,after⟩
  | enough {before after : List TaskId} {id : TaskId} (ongoing : Ongoing s worker node_id now before)
      (serves : s.serves worker now id = true) (away : s.is_local node_id id = false)
      (last : (before.filter (s.serves worker now)).length + 1 = LOCALITY_LOOKAHEAD) :
      Search s worker node_id now (before ++ id :: after)
        ⟨before.filter (s.unserved worker now),before.filter (s.serves worker now) ++ [id],none,after⟩

theorem Ongoing.skip (ongoing : Ongoing s worker node_id now before) (unserved : s.serves worker now id = false) :
    Ongoing s worker node_id now (before ++ [id]) := by
  refine ⟨fun k member serves => ?_,by simpa [unserved] using ongoing.few⟩
  rcases List.mem_append.mp member with earlier | here
  · exact ongoing.away k earlier serves
  · rw [List.mem_singleton.mp here,unserved] at serves
    cases serves

theorem Ongoing.pass (ongoing : Ongoing s worker node_id now before) (away : s.is_local node_id id = false)
    (more : (before.filter (s.serves worker now)).length + 1 < LOCALITY_LOOKAHEAD) :
    Ongoing s worker node_id now (before ++ [id]) := by
  refine ⟨fun k member serves => ?_,?_⟩
  · rcases List.mem_append.mp member with earlier | here
    · exact ongoing.away k earlier serves
    · exact List.mem_singleton.mp here ▸ away
  · by_cases serves : s.serves worker now id = true
    · simpa [serves] using more
    · simpa [serves] using ongoing.few

/-- The loop is such a search: it has read `before` and is about to read `queue`. -/
theorem select_search (ongoing : Ongoing s worker node_id now before) (queue : List TaskId) :
    Search s worker node_id now (before ++ queue)
      (s.select worker node_id now queue (before.filter (s.unserved worker now)) (before.filter (s.serves worker now))
        (before.filter (s.serves worker now)).length) := by
  induction queue generalizing before with
  | nil =>
    rw [List.append_nil]
    exact .through ongoing
  | cons id queue ih =>
    have shift : before ++ id :: queue = before ++ [id] ++ queue := by simp
    -- An id that is not a candidate is dropped when stale, and set aside when runnable.
    have skip : s.serves worker now id = false →
        Search s worker node_id now (before ++ id :: queue) (s.select worker node_id now queue
          (before.filter (s.unserved worker now) ++ [id].filter (s.unserved worker now)) (before.filter (s.serves worker now))
          (before.filter (s.serves worker now)).length) := fun unserved => by
      have rest := ih (ongoing.skip unserved)
      have none : [id].filter (s.serves worker now) = [] := by simp [unserved]
      rwa [List.filter_append,List.filter_append,none,List.append_nil,← shift] at rest
    rw [select]
    cases found : s.tasks.get id with
    | none => simpa [unserved,is_runnable,found] using skip (by simp [serves,found])
    | some task =>
    dsimp only
    by_cases runnable : task.state = .Runnable
    swap
    · rw [if_pos runnable]
      have stale : ¬ Servable worker now task := fun servable => runnable servable.runnable
      simpa [unserved,is_runnable,found,runnable] using skip (by simp [serves,found,stale])
    rw [if_neg (not_not.mpr runnable)]
    by_cases servable : Servable worker now task
    swap
    · have serves : s.serves worker now id = false := by simp [serves,found,servable]
      have aside : [id].filter (s.unserved worker now) = [id] := by simp [unserved,is_runnable,found,runnable,serves]
      rw [aside] at skip
      by_cases due : task.not_before_ms ≤ now
      · rw [if_neg (not_lt.mpr due),if_pos fun capable => servable ⟨runnable,due,capable⟩]
        exact skip serves
      · rw [if_pos (not_le.mp due)]
        exact skip serves
    have serves : s.serves worker now id = true := by simp [serves,found,servable]
    rw [if_neg (not_lt.mpr servable.due),if_neg (not_not.mpr servable.capable)]
    by_cases near : s.local_to node_id task = true
    · rw [if_pos near]
      exact .near ongoing serves (by simp [is_local,found,near])
    have away : s.is_local node_id id = false := by simp [is_local,found,near]
    rw [if_neg near]
    by_cases enough : (before.filter (s.serves worker now)).length + 1 ≥ LOCALITY_LOOKAHEAD
    · rw [if_pos enough]
      exact .enough ongoing serves away (by have few := ongoing.few; omega)
    · rw [if_neg enough]
      have rest := ih (ongoing.pass away (not_le.mp enough))
      have one : [id].filter (s.serves worker now) = [id] := by simp [serves]
      have none : [id].filter (s.unserved worker now) = [] := by simp [unserved,serves]
      rwa [List.filter_append,List.filter_append,one,none,List.append_nil,List.length_append,List.length_singleton,← shift] at rest

theorem search_queue (s : CoordinatorState) (worker : WorkerRecord) (node_id : NodeId) (now : Nat) (queue : List TaskId) :
    Search s worker node_id now queue (s.select worker node_id now queue [] [] 0) := by
  have start : Ongoing s worker node_id now [] := ⟨by simp,Nat.zero_lt_succ _⟩
  exact select_search start queue

/-! ### The pick -/

/-- The candidates that the search looks at. -/
def ahead (s : CoordinatorState) (worker : WorkerRecord) (now : Nat) (queue : List TaskId) : List TaskId :=
  (queue.filter (s.serves worker now)).take LOCALITY_LOOKAHEAD

theorem Ongoing.find? (ongoing : Ongoing s worker node_id now before) :
    (before.filter (s.serves worker now)).find? (s.is_local node_id) = none := by
  rw [List.find?_eq_none]
  intro id member near
  obtain ⟨member,serves⟩ := List.mem_filter.mp member
  rw [ongoing.away id member serves] at near
  cases near

theorem Ongoing.takeWhile (ongoing : Ongoing s worker node_id now before) (rest : List TaskId) :
    (before.filter (s.serves worker now) ++ rest).takeWhile (fun id => !s.is_local node_id id) =
      before.filter (s.serves worker now) ++ rest.takeWhile fun id => !s.is_local node_id id := by
  refine List.takeWhile_append_of_pos fun id member => ?_
  obtain ⟨member,serves⟩ := List.mem_filter.mp member
  rw [ongoing.away id member serves]
  rfl

/-- What the search looks at when it has passed over `before` and come to a candidate. -/
theorem Ongoing.ahead (ongoing : Ongoing s worker node_id now before) (serves : s.serves worker now id = true)
    (after : List TaskId) : s.ahead worker now (before ++ id :: after) = before.filter (s.serves worker now) ++
      id :: (after.filter (s.serves worker now)).take (LOCALITY_LOOKAHEAD - (before.filter (s.serves worker now)).length - 1) := by
  have few := ongoing.few
  rw [CoordinatorState.ahead,List.filter_append,List.filter_cons_of_pos serves,List.take_append,
    List.take_of_length_le (Nat.le_of_lt few)]
  obtain ⟨left,more⟩ := Nat.exists_eq_add_of_lt few
  rw [show LOCALITY_LOOKAHEAD - (before.filter (s.serves worker now)).length = left + 1 by omega,List.take_succ_cons,
    Nat.add_sub_cancel]

/-- The pick is the first candidate ahead that is local, or else the first candidate. -/
theorem Search.pick (search : Search s worker node_id now queue sel) :
    sel.pick.map (·.1) = ((s.ahead worker now queue).find? (s.is_local node_id)).or
      (queue.filter (s.serves worker now)).head? := by
  cases search with
  | through ongoing =>
    rw [ahead,List.take_of_length_le (Nat.le_of_lt ongoing.few),ongoing.find?,Option.none_or]
    simp only [Selection.pick,Option.map_map,Function.comp_def,Option.map_id']
  | near ongoing serves near =>
    rw [ongoing.ahead serves,List.find?_append,ongoing.find?,List.find?_cons_of_pos near]
    rfl
  | @enough before after id ongoing serves away last =>
    rw [ongoing.ahead serves,last.symm,Nat.add_sub_cancel_left,Nat.sub_self,List.take_zero,List.find?_append,ongoing.find?,
      List.find?_cons_of_neg (by simp [away]),List.filter_append,List.filter_cons_of_pos serves]
    cases before.filter (s.serves worker now) <;> rfl

/-- Passed over are the candidates ahead up to the first that is local. -/
theorem Search.passed (search : Search s worker node_id now queue sel) :
    sel.passed = (s.ahead worker now queue).takeWhile fun id => !s.is_local node_id id := by
  cases search with
  | through ongoing =>
    have all := ongoing.takeWhile []
    rw [List.append_nil,List.takeWhile_nil,List.append_nil] at all
    rw [ahead,List.take_of_length_le (Nat.le_of_lt ongoing.few),all]
  | near ongoing serves near =>
    rw [ongoing.ahead serves,ongoing.takeWhile,List.takeWhile_cons_of_neg (by simp [near]),List.append_nil]
  | enough ongoing serves away last =>
    rw [ongoing.ahead serves,last.symm,Nat.add_sub_cancel_left,Nat.sub_self,List.take_zero,ongoing.takeWhile,
      List.takeWhile_cons_of_pos (by simp [away]),List.takeWhile_nil]

/-! ### Polls -/

/-- What a poll of a worker that is not busy does, told by the candidates of the state before. -/
structure Dispatches (s t : CoordinatorState) (worker : WorkerRecord) (node_id : NodeId) (now : Nat)
    (assignment : Option TaskAssignment) : Prop where
  chosen : assignment.map (·.fence.task_id) =
    (((s.candidates worker now).take 16).find? (s.is_local node_id)).or (s.candidates worker now).head?
  none_iff : assignment = none ↔ s.candidates worker now = []
  unservable : assignment = none ↔ ∀ id task, s.tasks.get id = some task → ¬ Servable worker now task
  given : ∀ a, assignment = some a → ∃ task, t.tasks.get a.fence.task_id = some task ∧ task.state = .Assigned ∧
    task.on node_id = true
  runnable : (t.runnable.filter s.is_runnable).Perm
    ((s.runnable.filter s.is_runnable).filter fun id => assignment.map (·.fence.task_id) ≠ some id)
  front : ((((s.candidates worker now).take 16).takeWhile fun id => !s.is_local node_id id).filter
    fun id => assignment.map (·.fence.task_id) ≠ some id) <+: t.runnable

theorem candidates_nil (inv : Consistent s) :
    s.candidates worker now = [] ↔ ∀ id task, s.tasks.get id = some task → ¬ Servable worker now task := by
  rw [candidates,List.filter_eq_nil_iff]
  constructor
  · intro none id task found servable
    have legal := inv.legal id task found
    simp only [view,View.Legal,servable.runnable] at legal
    have queued : id ∈ s.runnable := List.count_pos_iff.mp (by rw [legal.2.2.2.2.2]; decide)
    exact none id queued (by simp [serves,found,servable])
  · intro none id _ serves
    obtain ⟨task,found,servable⟩ := (Option.any_eq_true _ _).mp serves
    exact none id task found (of_decide_eq_true servable)

theorem is_runnable_iff : s.is_runnable id = true ↔ ∃ task, s.tasks.get id = some task ∧ task.state = .Runnable := by
  simp [is_runnable,Option.any_eq_true]

/-- A queue that keeps the runnable ids of another but for one that is taken out. -/
theorem Requeued.perm (taken : Option TaskId) (inv : Consistent s)
    (requeued : Requeued s (taken.toList ++ queue)) :
    (queue.filter s.is_runnable).Perm ((s.runnable.filter s.is_runnable).filter fun id => taken ≠ some id) := by
  refine List.perm_iff_count.mpr fun id => ?_
  by_cases runnable : s.is_runnable id = true
  swap
  · rw [List.count_eq_zero.mpr fun member => runnable (List.mem_filter.mp member).2,
      List.count_eq_zero.mpr fun member => runnable (List.mem_filter.mp (List.mem_filter.mp member).1).2]
  obtain ⟨task,found,state⟩ := is_runnable_iff.mp runnable
  have legal := inv.legal id task found
  simp only [view,View.Legal,state] at legal
  have once := requeued.kept id task found state
  rw [List.count_append,legal.2.2.2.2.2] at once
  rw [List.count_filter runnable]
  by_cases same : taken = some id
  · have out : ((s.runnable.filter s.is_runnable).filter fun id => taken ≠ some id).count id = 0 := by
      simp [List.count_eq_zero,same]
    rw [out]
    simpa [same] using once
  · have other : taken.toList.count id = 0 := by
      cases taken with
      | none => rfl
      | some k => simpa [List.count_eq_zero] using fun h : id = k => same (congrArg some h.symm)
    rw [List.count_filter (by simpa using same),List.count_filter runnable,legal.2.2.2.2.2]
    omega

/-- A worker that polls with a free slot is given the first of the candidates ahead that has an
    argument at the worker, or else the first candidate; and no other task that is runnable leaves
    the queue. -/
theorem poll_dispatches {blake3 : List UInt8 → Checksum} {epoch : CoordinatorEpoch} {past : List Step}
    (run : Run blake3 epoch past s) (found : s.workers.get node_id = some worker) (alive : worker.state = .Alive)
    (free : worker.free_slots ≠ 0) (now : Nat) (lease : LeaseId) :
    ∃ assignment t, assign_next node_id now lease s = .ok assignment t ∧ Dispatches s t worker node_id now assignment := by
  have inv := run.inv.consistent
  obtain ⟨assignment,t,ran,effect,_,searched⟩ := assign_next_ends blake3 inv found now lease
  obtain ⟨queue,picked⟩ := searched alive free
  have search := search_queue s worker node_id now s.runnable
  have chosen := picked.trans search.pick
  have none_iff : assignment = none ↔ s.candidates worker now = [] := by
    rw [← Option.map_eq_none_iff,chosen,Option.or_eq_none_iff,List.head?_eq_none_iff,candidates]
    exact ⟨And.right,fun none => ⟨by rw [ahead,none]; rfl,none⟩⟩
  refine ⟨assignment,t,ran,chosen,none_iff,none_iff.trans (candidates_nil inv),?_,?_,?_⟩
  · rintro a rfl
    cases effect with
    | assigned requeued there atWorker _ _ _ _ _ _ _ _ => exact ⟨_,Table.get_modify_of there _ _ |>.trans (if_pos rfl),rfl,by simp [TaskRecord.on]⟩
  · cases effect with
    | busy found' busy =>
      obtain rfl := Option.some.inj (found.symm.trans found')
      exact busy.elim (absurd alive) fun full => absurd full free
    | searched requeued => exact Requeued.perm none inv requeued
    | assigned requeued _ _ _ _ _ _ _ _ _ _ => exact Requeued.perm (some _) inv requeued
  · rw [queue,Selection.queue,← picked,search.passed,List.append_assoc]
    exact List.prefix_append _ _

/-- The worker keeps the output of its task. Three tasks are submitted, of which the second is cancelled in the queue and the
    third takes that output. -/
def queuedOps : List Op :=
  [smallSubmit [.Object smallOutput] 9,.cancel ⟨.replicate 16 8⟩,smallSubmit [] 8,smallSubmit [] 7,
    .complete smallWorker ⟨⟨smallTask,1,smallLease⟩,smallOutput,.JsonV1,3,.replicate 32 9,"host:1",none⟩] ++ smallOps

def queuedState : CoordinatorState := (replay smallHash smallEpoch queuedOps).2

theorem queued_poll : ∃ worker, queuedState.workers.get smallWorker.node_id = some worker ∧
    queuedState.runnable = [⟨.replicate 16 7⟩,⟨.replicate 16 8⟩,⟨.replicate 16 9⟩] ∧
    queuedState.candidates worker 10 = [⟨.replicate 16 7⟩,⟨.replicate 16 9⟩] ∧
    ∃ assignment t, assign_next smallWorker.node_id 10 smallLease queuedState = .ok assignment t ∧
      assignment.map (·.fence.task_id) = some ⟨.replicate 16 9⟩ ∧
      Dispatches queuedState t worker smallWorker.node_id 10 assignment := by
  have registered : ∃ worker, queuedState.workers.get smallWorker.node_id = some worker ∧ worker.state = .Alive ∧
      worker.free_slots ≠ 0 ∧ queuedState.candidates worker 10 = [⟨.replicate 16 7⟩,⟨.replicate 16 9⟩] := by decide +kernel
  have near : queuedState.is_local smallWorker.node_id ⟨.replicate 16 7⟩ = false ∧
    queuedState.is_local smallWorker.node_id ⟨.replicate 16 9⟩ = true := by decide +kernel
  obtain ⟨worker,found,alive,free,queue⟩ := registered
  have run : Run smallHash smallEpoch _ queuedState := replay_run smallHash smallEpoch queuedOps (by decide +kernel)
  obtain ⟨assignment,t,ran,dispatches⟩ := poll_dispatches run found alive free 10 smallLease
  refine ⟨worker,found,by decide +kernel,queue,assignment,t,ran,?_,dispatches⟩
  rw [dispatches.chosen,queue]
  simp [near]

end Crayon.CoordinatorState
