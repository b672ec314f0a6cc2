import Crayon.Changes
import Crayon.Dependencies

/-!
What the sweep of terminal tasks reclaims. A terminal task is stamped by the first
sweep that sees it, and once the stamp is old enough and no live task takes its
output, a sweep releases the output and the task goes with it. No release of a
sweep fails, since the outputs of terminal tasks are settled, and none takes more
than one task, since outputs are not shared; so a sweep reclaims the overdue tasks
and nothing else (`Reclaims`). Stamps come from sweeps only, so with a clock that
never goes back no task is reclaimed early.
-/
namespace Crayon.CoordinatorState
open Command
open Relation (ReflTransGen)

section
variable {s s' u : CoordinatorState} {now : Nat} {id : TaskId} {task : TaskRecord} {oid : ObjectId} {object : ObjectRecord}
  {oids : List ObjectId}

/-- The task was stamped long ago, and no live task takes its output. -/
structure Overdue (s : CoordinatorState) (now : Nat) (task : TaskRecord) : Prop where
  terminal : task.state.is_terminal = true
  stamped : task.terminal_since_ms ≠ 0
  old : task.terminal_since_ms + TERMINAL_TASK_TTL_MS ≤ now
  unused : ∀ other record, s.tasks.get other = some record → record.state.is_terminal = false →
    task.output ∉ record.dependencies

/-! ### Releasing one output after the other -/

/-- The worker is registered and owns the object, so that it is to delete it. -/
def must_delete (s : CoordinatorState) (node : NodeId) (oid : ObjectId) : Bool :=
  (s.workers.get node).isSome && (s.objects.get oid).any fun object => object.owner = some node

/-- The objects can be released one after the other. -/
structure Spare (s : CoordinatorState) (oids : List ObjectId) : Prop where
  nodup : oids.Nodup
  settled : ∀ oid ∈ oids, ∃ object, s.objects.get oid = some object ∧ object.state ≠ .Reserved
  unused : ∀ oid ∈ oids, s.object_in_use oid = false

/-- The second state is the first without the objects and the tasks they came from. -/
structure Without (s : CoordinatorState) (oids : List ObjectId) (s' : CoordinatorState) : Prop where
  tasks : ∀ id, s'.tasks.get id = (s.tasks.get id).filter fun task => task.output ∉ oids
  objects : ∀ oid, s'.objects.get oid = if oid ∈ oids then none else s.objects.get oid
  queued : ∀ node, s'.pending_deletes.get node =
    if oids.filter (s.must_delete node) = [] then s.pending_deletes.get node
    else some ((s.pending_deletes.get node).getD [] ++ oids.filter (s.must_delete node))
  rest : s' = { s with
    tasks := s'.tasks
    objects := s'.objects
    pending_deletes := s'.pending_deletes
    revision := s.revision + oids.length }

theorem without_nil (s : CoordinatorState) : Without s [] s where
  tasks id := by cases there : s.tasks.get id <;> simp [Option.filter]
  objects oid := by simp
  queued node := by simp
  rest := rfl

theorem dropped_queued (found : s.objects.get oid = some object) (node : NodeId) :
    (s.dropped oid object).pending_deletes.get node =
      if s.must_delete node oid = true then some ((s.pending_deletes.get node).getD [] ++ [oid])
      else s.pending_deletes.get node := by
  cases owner : object.owner with
  | none => simp [dropped,must_delete,found,owner]
  | some holder =>
    by_cases registered : (s.workers.get holder).isSome = true
    · by_cases same : node = holder
      · subst same
        simp [dropped,must_delete,found,owner,registered]
      · simp [dropped,must_delete,found,owner,registered,same,Ne.symm same]
    · by_cases same : holder = node
      · subst same
        simp [dropped,must_delete,found,owner,registered]
      · simp [dropped,must_delete,found,owner,registered,same]

theorem dropped_object (oid' : ObjectId) :
    (s.dropped oid object).objects.get oid' = if oid' = oid then none else s.objects.get oid' := by
  simp [dropped]

theorem Spare.dropped (spare : Spare s (oid :: oids)) : Spare (s.dropped oid object) oids where
  nodup := (List.nodup_cons.mp spare.nodup).2
  settled other member := by
    have different : other ≠ oid := fun same => (List.nodup_cons.mp spare.nodup).1 (same ▸ member)
    rw [dropped_object,if_neg different]
    exact spare.settled other (List.mem_cons_of_mem _ member)
  unused other member := by
    have unused := spare.unused other (List.mem_cons_of_mem _ member)
    rw [Bool.eq_false_iff,ne_eq,object_in_use_iff] at unused ⊢
    rintro ⟨id,task,found,live,needed⟩
    exact unused ⟨id,task,(Option.filter_eq_some_iff.mp found).1,live,needed⟩

theorem Without.cons (found : s.objects.get oid = some object) (fresh : oid ∉ oids)
    (without : Without (s.dropped oid object) oids s') : Without s (oid :: oids) s' where
  tasks id := by
    rw [without.tasks]
    cases there : s.tasks.get id with
    | none => simp [CoordinatorState.dropped,there]
    | some task => simp [CoordinatorState.dropped,there,Option.filter]; grind
  objects oid' := by
    rw [without.objects,dropped_object]
    by_cases same : oid' = oid <;> by_cases member : oid' ∈ oids <;> simp [same,member]
  queued node := by
    have alike : oids.filter ((s.dropped oid object).must_delete node) = oids.filter (s.must_delete node) := by
      refine List.filter_congr fun other member => ?_
      have different : other ≠ oid := fun same => fresh (same ▸ member)
      simp only [must_delete,dropped_object,if_neg different]
      rfl
    rw [without.queued,alike,dropped_queued found,List.filter_cons]
    cases s.must_delete node oid <;> by_cases none : oids.filter (s.must_delete node) = [] <;> simp [none]
  rest := by
    rw [without.rest]
    simp only [CoordinatorState.dropped,List.length_cons,Nat.add_assoc,Nat.add_comm 1]

/-- The body of the loop of a sweep. -/
def reclaim (reclaimed : Nat) (output : ObjectId) : Coord Nat := do
  let released ← is_ok (release_object output)
  pure (if released then reclaimed + 1 else reclaimed)

/-- Every release of a sweep goes through. -/
theorem release_all (spare : Spare s oids) (count : Nat) :
    ∃ s', oids.foldlM reclaim count s = .ok (count + oids.length) s' ∧ Without s oids s' := by
  induction oids generalizing s count with
  | nil => exact ⟨s,rfl,without_nil s⟩
  | cons oid rest ih =>
    obtain ⟨object,found,settled⟩ := spare.settled oid (by simp)
    have unused := spare.unused oid (by simp)
    have released : release_object oid s = .ok ⟨⟩ (s.dropped oid object) := by
      simp only [release_object,bind_apply,get_apply,found,ensure_of settled,ensure_of unused,pure_apply,set_apply,changed,
        modify_apply]
      rfl
    have still : Spare (s.dropped oid object) rest := spare.dropped
    obtain ⟨s',ran,without⟩ := ih still (count + 1)
    refine ⟨s',?_,without.cons found (List.nodup_cons.mp spare.nodup).1⟩
    simp only [List.foldlM_cons,bind_apply,reclaim,is_ok,released,pure_apply,if_true]
    rw [ran,List.length_cons]
    congr 1
    omega

/-! ### The sweep -/

/-- What a sweep does: the overdue tasks go with their outputs, and the others are stamped. -/
structure Reclaims (s : CoordinatorState) (now count : Nat) (s' : CoordinatorState) : Prop where
  removed : ∀ id task, s.tasks.get id = some task → Overdue s now task →
    s'.tasks.get id = none ∧ s'.objects.get task.output = none
  kept : ∀ id task, s.tasks.get id = some task → ¬ Overdue s now task → s'.tasks.get id = some (stamp now task)
  absent : ∀ id, s.tasks.get id = none → s'.tasks.get id = none
  objects : ∀ oid, (∀ id task, s.tasks.get id = some task → Overdue s now task → task.output ≠ oid) →
    s'.objects.get oid = s.objects.get oid
  counted : ∃ ids : List TaskId, ids.Nodup ∧ (∀ id, id ∈ ids ↔ ∃ task, s.tasks.get id = some task ∧ Overdue s now task) ∧
    ids.length = count
  queued : ∀ node, ∃ oids : List ObjectId, oids.Nodup ∧
    (∀ oid, oid ∈ oids ↔ (∃ id task, s.tasks.get id = some task ∧ Overdue s now task ∧ task.output = oid) ∧
      (s.workers.get node).isSome = true ∧ ∃ object, s.objects.get oid = some object ∧ object.owner = some node) ∧
    s'.pending_deletes.get node =
      if oids = [] then s.pending_deletes.get node else some ((s.pending_deletes.get node).getD [] ++ oids)
  rest : s' = { s with
    tasks := s'.tasks
    objects := s'.objects
    pending_deletes := s'.pending_deletes
    revision := s.revision + count }

/-- The tasks that the sweep finds due, stamps included. -/
def is_due (s : CoordinatorState) (now : Nat) (task : TaskRecord) : Bool :=
  task.state.is_terminal = true ∧ now - task.terminal_since_ms ≥ TERMINAL_TASK_TTL_MS ∧ s.object_in_use task.output = false

theorem stamp_output (now : Nat) (task : TaskRecord) : (stamp now task).output = task.output := by
  rw [stamp]
  split <;> rfl

theorem stamp_id (now : Nat) (task : TaskRecord) : (stamp now task).id = task.id := by
  rw [stamp]
  split <;> rfl

theorem stamp_state (now : Nat) (task : TaskRecord) : (stamp now task).state = task.state := by
  rw [stamp]
  split <;> rfl

/-- A task that was stamped just now is not due. -/
theorem is_due_stamp : s.is_due now (stamp now task) = true ↔ Overdue s now task := by
  have positive : 0 < TERMINAL_TASK_TTL_MS := by decide
  have unused : s.object_in_use task.output = false ↔ ∀ other record, s.tasks.get other = some record →
      record.state.is_terminal = false → task.output ∉ record.dependencies := by
    rw [Bool.eq_false_iff,ne_eq,object_in_use_iff]
    push Not
    rfl
  simp only [is_due,decide_eq_true_eq,stamp_state,stamp_output,unused]
  constructor
  · rintro ⟨terminal,old,unused⟩
    by_cases unstamped : task.terminal_since_ms = 0
    · simp only [stamp,terminal,unstamped,and_self,if_true,Nat.sub_self] at old
      omega
    · simp only [stamp,unstamped,and_false,if_false] at old
      exact ⟨terminal,unstamped,by omega,unused⟩
  · rintro ⟨terminal,stamped,old,unused⟩
    refine ⟨terminal,?_,unused⟩
    simp only [stamp,stamped,and_false,if_false]
    omega

theorem stamped_task_ids (inv : Consistent s) : ∀ id task, (s.tasks.mapValues (stamp now)).get id = some task → task.id = id := by
  intro id task found
  obtain ⟨record,there,rfl⟩ := Option.map_eq_some_iff.mp found
  rw [stamp_id]
  exact inv.task_ids id record there

/-- The tasks that a sweep reclaims, in the order in which it finds them. -/
def reclaimed (s : CoordinatorState) (order : HashOrder) (now : Nat) : List TaskRecord :=
  ((s.tasks.mapValues (stamp now)).values order.tasks).filter (s.is_due now)

theorem mem_reclaimed {order : HashOrder} {record : TaskRecord} : record ∈ s.reclaimed order now ↔
    ∃ id task, s.tasks.get id = some task ∧ Overdue s now task ∧ stamp now task = record := by
  simp only [reclaimed,List.mem_filter,Table.mem_values,Table.get_mapValues,Option.map_eq_some_iff]
  constructor
  · rintro ⟨⟨id,task,found,rfl⟩,due⟩
    exact ⟨id,task,found,is_due_stamp.mp due,rfl⟩
  · rintro ⟨id,task,found,overdue,rfl⟩
    exact ⟨⟨id,task,found,rfl⟩,is_due_stamp.mpr overdue⟩

theorem mem_outputs {order : HashOrder} : oid ∈ (s.reclaimed order now).map (·.output) ↔
    ∃ id task, s.tasks.get id = some task ∧ Overdue s now task ∧ task.output = oid := by
  simp only [List.mem_map,mem_reclaimed]
  constructor
  · rintro ⟨record,⟨id,task,found,overdue,rfl⟩,rfl⟩
    exact ⟨id,task,found,overdue,(stamp_output now task).symm⟩
  · rintro ⟨id,task,found,overdue,rfl⟩
    exact ⟨_,⟨id,task,found,overdue,rfl⟩,stamp_output now task⟩

/-- The outputs that a sweep releases are settled, not shared and not in use. -/
theorem reclaimed_spare (inv : Consistent s) (order : HashOrder) (now : Nat) :
    Spare { s with tasks := s.tasks.mapValues (stamp now) } ((s.reclaimed order now).map (·.output)) where
  nodup := by
    have distinct : (s.reclaimed order now).Nodup :=
      .of_map _ (Table.nodup_values_key (stamped_task_ids inv) order.tasks (s.is_due now))
    refine List.Nodup.map_on (fun a there b there' same => ?_) distinct
    obtain ⟨id,task,found,_,rfl⟩ := mem_reclaimed.mp there
    obtain ⟨id',task',found',_,rfl⟩ := mem_reclaimed.mp there'
    rw [stamp_output,stamp_output] at same
    obtain rfl := inv.outputs id id' task task' found found' same
    rw [Option.some.inj (found.symm.trans found')]
  settled oid member := by
    obtain ⟨id,task,found,overdue,rfl⟩ := mem_outputs.mp member
    obtain ⟨object,there⟩ := inv.output found
    refine ⟨object,there,fun reserved => ?_⟩
    have live := (inv.reserved_iff found there).mp reserved
    rw [overdue.terminal] at live
    cases live
  unused oid member := by
    obtain ⟨id,task,found,overdue,rfl⟩ := mem_outputs.mp member
    rw [Bool.eq_false_iff,ne_eq,object_in_use_iff]
    rintro ⟨other,record,there,live,needed⟩
    obtain ⟨record,there',rfl⟩ := Option.map_eq_some_iff.mp there
    rw [stamp_state] at live
    rw [stamp_live live] at needed
    exact overdue.unused other record there' live needed

theorem reap_terminal_tasks_reclaims (inv : Consistent s) (order : HashOrder) (now : Nat) :
    ∃ count s', reap_terminal_tasks order now s = .ok count s' ∧ Reclaims s now count s' := by
  obtain ⟨s',ran,without⟩ := release_all (reclaimed_spare inv order now) 0
  have task_of : ∀ id, s'.tasks.get id =
      ((s.tasks.get id).map (stamp now)).filter fun task => task.output ∉ (s.reclaimed order now).map (·.output) := without.tasks
  -- A task goes with its own output only.
  have goes : ∀ id task, s.tasks.get id = some task →
      (task.output ∈ (s.reclaimed order now).map (·.output) ↔ Overdue s now task) := by
    intro id task found
    rw [mem_outputs]
    constructor
    · rintro ⟨id',task',found',overdue,shared⟩
      obtain rfl := inv.outputs id' id task' task found' found shared
      rwa [← Option.some.inj (found'.symm.trans found)]
    · exact fun overdue => ⟨id,task,found,overdue,rfl⟩
  refine ⟨_,s',ran,?_,?_,?_,?_,?_,?_,?_⟩
  · intro id task found overdue
    have member := (goes id task found).mpr overdue
    refine ⟨?_,by rw [without.objects,if_pos member]⟩
    rw [task_of,found,Option.map_some,Option.filter_some,if_neg (by simpa [stamp_output] using member)]
  · intro id task found spared
    have outside := mt (goes id task found).mp spared
    rw [task_of,found,Option.map_some,Option.filter_some,if_pos (by simpa [stamp_output] using outside)]
  · intro id missing
    rw [task_of,missing]
    rfl
  · intro oid other
    have outside : oid ∉ (s.reclaimed order now).map (·.output) := fun member => by
      obtain ⟨id,task,found,overdue,same⟩ := mem_outputs.mp member
      exact other id task found overdue same
    rw [without.objects,if_neg outside]
  · refine ⟨(s.reclaimed order now).map (·.id),Table.nodup_values_key (stamped_task_ids inv) order.tasks (s.is_due now),?_,by simp⟩
    intro id
    simp only [List.mem_map,mem_reclaimed]
    constructor
    · rintro ⟨record,⟨id',task,found,overdue,rfl⟩,rfl⟩
      rw [stamp_id,inv.task_ids id' task found]
      exact ⟨task,found,overdue⟩
    · rintro ⟨task,found,overdue⟩
      exact ⟨_,⟨id,task,found,overdue,rfl⟩,(stamp_id now task).trans (inv.task_ids id task found)⟩
  · intro node
    refine ⟨_,(reclaimed_spare inv order now).nodup.filter _,fun oid => ?_,without.queued node⟩
    rw [List.mem_filter,mem_outputs]
    simp [must_delete,Option.any_eq_true]
  · rw [Nat.zero_add]
    have rest := without.rest
    exact rest

theorem Reclaims.back {count : Nat} (reclaims : Reclaims s now count s') {task' : TaskRecord}
    (found' : s'.tasks.get id = some task') : ∃ task, s.tasks.get id = some task ∧ task' = stamp now task := by
  cases found : s.tasks.get id with
  | none =>
    rw [reclaims.absent id found] at found'
    cases found'
  | some task =>
    by_cases overdue : Overdue s now task
    · rw [(reclaims.removed id task found overdue).1] at found'
      cases found'
    · rw [reclaims.kept id task found overdue] at found'
      exact ⟨task,rfl,(Option.some.inj found').symm⟩

theorem apply_reclaims (blake3 : List UInt8 → Checksum) (inv : Consistent s) (order : HashOrder) (now : Nat) :
    ∃ count s', apply blake3 order (.reap_terminal_tasks now) s = .ok (.Reclaimed count) s' ∧ Reclaims s now count s' := by
  obtain ⟨count,s',ran,reclaims⟩ := reap_terminal_tasks_reclaims inv order now
  exact ⟨count,s',by simp only [apply,bind_apply,ran,pure_apply],reclaims⟩

/-! ### Stamps -/

/-- Every task of the second table is one of the first, with its stamp, and is still over if it was. -/
def Unstamped (tasks tasks' : Table TaskId TaskRecord) : Prop :=
  ∀ id task', tasks'.get id = some task' → ∃ task, tasks.get id = some task ∧
    task'.terminal_since_ms = task.terminal_since_ms ∧ (task.state.is_terminal = true → task'.state.is_terminal = true)

variable {tasks tasks' tasks'' : Table TaskId TaskRecord}

theorem unstamped_refl (tasks : Table TaskId TaskRecord) : Unstamped tasks tasks :=
  fun _ task found => ⟨task,found,rfl,fun terminal => terminal⟩

theorem Unstamped.trans (first : Unstamped tasks tasks') (second : Unstamped tasks' tasks'') : Unstamped tasks tasks'' := by
  intro id task'' found''
  obtain ⟨task',found',since',ended'⟩ := second id task'' found''
  obtain ⟨task,found,since,ended⟩ := first id task' found'
  exact ⟨task,found,since'.trans since,fun terminal => ended' (ended terminal)⟩

/-- A live task changes. -/
theorem Unstamped.modify {f : TaskRecord → TaskRecord} (first : Unstamped tasks tasks') (found : tasks'.get id = some task)
    (live : task.state.is_terminal = false) (since : (f task).terminal_since_ms = task.terminal_since_ms) :
    Unstamped tasks (tasks'.modify id f) := by
  refine first.trans fun other record there => ?_
  rw [Table.get_modify_of found] at there
  split at there
  · rename_i same
    subst same
    obtain rfl := Option.some.inj there
    refine ⟨task,found,since,fun terminal => ?_⟩
    rw [live] at terminal
    cases terminal
  · exact ⟨record,there,rfl,fun terminal => terminal⟩

theorem Unstamped.retain {p : TaskRecord → Bool} (first : Unstamped tasks tasks') : Unstamped tasks (tasks'.retain p) :=
  first.trans fun _ record found => ⟨record,(Option.filter_eq_some_iff.mp found).1,rfl,fun terminal => terminal⟩

theorem waiting_live (waiting : task.state = .Waiting) : task.state.is_terminal = false := by rw [waiting]; rfl

theorem Ripples.unstamped (ripples : Ripples s s') (first : Unstamped tasks s.tasks) : Unstamped tasks s'.tasks := by
  induction ripples with
  | refl => exact first
  | tail _ ripple ih =>
    cases ripple with
    | starve found waiting failed => exact ih.modify found (waiting_live waiting) rfl
    | wake found waiting available => exact ih.modify found (waiting_live waiting) rfl

theorem Swept.unstamped (swept : Swept now s s') : Unstamped s.tasks s'.tasks := by
  induction swept with
  | refl => exact unstamped_refl _
  | tail _ sweep ih =>
    cases sweep with
    | cancelled found state => exact ih.modify found (by rw [state]; rfl) rfl
    | retried found state => exact ih.modify found (live_of_dispatched state) rfl
    | failed found state => exact ih.modify found (live_of_dispatched state) rfl
    | _ => exact ih

theorem Released.unstamped (released : Released s oid s') : Unstamped s.tasks s'.tasks := by
  cases released with
  | before => exact unstamped_refl _
  | drop => exact (unstamped_refl _).retain

/-- Only sweeps stamp tasks, and a task that was just submitted has no stamp. -/
theorem Effect.unstamped {blake3 : List UInt8 → Checksum} {op : Op} {reply : Reply} (effect : Effect blake3 op s reply s')
    (other : ∀ now, op ≠ .reap_terminal_tasks now) {task' : TaskRecord} (found' : s'.tasks.get id = some task') :
    (∃ task, s.tasks.get id = some task ∧ task'.terminal_since_ms = task.terminal_since_ms ∧
        (task.state.is_terminal = true → task'.state.is_terminal = true)) ∨
      (.task id ∈ op.minted ∧ task'.terminal_since_ms = 0) := by
  have same := unstamped_refl s.tasks
  cases effect with
  | put admitted =>
    rw [admitted.tasks] at found'
    exact .inl (same id task' found')
  | put_meta admitted =>
    rw [admitted.tasks] at found'
    exact .inl (same id task' found')
  | @submitted _ _ _ _ _ drawn =>
    dsimp only at found'
    rw [Table.get_insert] at found'
    split at found'
    · rename_i equal
      subst equal
      obtain rfl := Option.some.inj found'
      exact .inr ⟨by simp [Op.minted],rfl⟩
    · exact .inl (same id task' found')
  | assigned requeued found at_worker alive free servable =>
    exact .inl (same.modify found (by rw [servable.runnable]; rfl) rfl id task' found')
  | started current matching found assigned => exact .inl (same.modify found (by rw [assigned]; rfl) rfl id task' found')
  | completed current matching found state _ _ _ _ _ _ _ ripples =>
    exact .inl (ripples.unstamped (same.modify found (live_of_dispatched state) rfl) id task' found')
  | retried current matching found state => exact .inl (same.modify found (live_of_dispatched state) rfl id task' found')
  | failed current matching found state _ _ ripples =>
    exact .inl (ripples.unstamped (same.modify found (live_of_dispatched state) rfl) id task' found')
  | expired report swept workers ripples => exact .inl (ripples.unstamped swept.unstamped id task' found')
  | reaped => exact absurd rfl (other _)
  | acknowledged current matching found state _ ripples =>
    exact .inl (ripples.unstamped (same.modify found (by rw [state]; rfl) rfl) id task' found')
  | requested found state => exact .inl (same.modify found (live_of_dispatched state) rfl id task' found')
  | cancelled found state ripples =>
    exact .inl (ripples.unstamped (same.modify found (live_of_blocked state) rfl) id task' found')
  | released released => exact .inl (released.unstamped id task' found')
  | _ => exact .inl (same id task' found')

end

/-! ### Runs -/

section
variable {blake3 : List UInt8 → Checksum} {epoch : CoordinatorEpoch} {past : List Step} {s : CoordinatorState} {now : Nat}
  {id : TaskId} {task : TaskRecord}

/-- The state has the task, and it is over. -/
def is_over (s : CoordinatorState) (id : TaskId) : Bool := (s.tasks.get id).any (·.state.is_terminal)

/-- The clock of a sweep that sees the task to be over. -/
def Step.sees (id : TaskId) (step : Step) : Nat :=
  match step.op with
  | .reap_terminal_tasks now => if step.before.is_over id then now else 0
  | _ => 0

/-- The clock of the first sweep of a run that saw the task to be over, if its clock was not zero. -/
def first_seen (id : TaskId) : List Step → Nat
  | [] => 0
  | step :: past => if first_seen id past = 0 then step.sees id else first_seen id past

/-- A run with the times of its steps, the last first: time never goes back, and sweeps are told the time. -/
structure Clocked (timed : List (Nat × Step)) : Prop where
  steady : timed.Pairwise fun later earlier => earlier.1 ≤ later.1
  told : ∀ entry ∈ timed, ∀ now, entry.2.op = .reap_terminal_tasks now → now = entry.1

/-- The stamps of a state are those of the run that led to it. -/
structure Stamps (past : List Step) (s : CoordinatorState) : Prop where
  first : ∀ id task, s.tasks.get id = some task → task.terminal_since_ms = first_seen id past
  terminal : ∀ id task, s.tasks.get id = some task → task.terminal_since_ms ≠ 0 → task.state.is_terminal = true

/-- No sweep saw a task before its id was drawn. -/
theorem Run.unseen (run : Run blake3 epoch past s) (undrawn : ∀ step ∈ past, .task id ∉ step.op.minted) :
    first_seen id past = 0 := by
  induction run with
  | start => rfl
  | @step past s run order op fresh ih =>
    obtain ⟨_,earlier⟩ := List.forall_mem_cons.mp undrawn
    rw [first_seen,if_pos (ih earlier),Step.sees]
    have absent : s.is_over id = false := by
      by_contra ended
      simp only [is_over,Bool.not_eq_false,Option.any_eq_true] at ended
      obtain ⟨task,found,_⟩ := ended
      obtain ⟨step,member,drawn⟩ := run.known.2 id (.inl (Table.mem_keys_iff.mpr ⟨task,found⟩))
      exact earlier step member drawn
    cases op <;> simp [absent]

theorem Stamps.stay {order : HashOrder} {op : Op} (stamps : Stamps past s) (run : Run blake3 epoch past s)
    (fresh : Fresh past s op) (other : ∀ now, op ≠ .reap_terminal_tasks now) :
    Stamps (⟨order,op,s,apply blake3 order op s⟩ :: past) (Outcome.state (apply blake3 order op s)) := by
  have silent : ∀ id, first_seen id (⟨order,op,s,apply blake3 order op s⟩ :: past) = first_seen id past := by
    intro id
    have sees : Step.sees id ⟨order,op,s,apply blake3 order op s⟩ = 0 := by
      rw [Step.sees]
      split
      · exact absurd ‹_› (other _)
      · rfl
    rw [first_seen,sees]
    split <;> omega
  refine apply_keeps blake3 order run.inv ?_ fun reply s' effect => ?_
  · exact ⟨fun id task found => (stamps.first id task found).trans (silent id).symm,stamps.terminal⟩
  constructor
  · intro id task' found'
    rw [silent]
    rcases effect.unstamped other found' with ⟨task,found,since,_⟩ | ⟨drawn,unset⟩
    · exact since.trans (stamps.first id task found)
    · rw [unset,run.unseen (fresh _ drawn).1]
  · intro id task' found' stamped
    rcases effect.unstamped other found' with ⟨task,found,since,ended⟩ | ⟨drawn,unset⟩
    · exact ended (stamps.terminal id task found (since ▸ stamped))
    · exact absurd unset stamped

theorem Stamps.sweep {order : HashOrder} (stamps : Stamps past s) {count : Nat} {s' : CoordinatorState}
    (reclaims : Reclaims s now count s') (outcome : Outcome Error CoordinatorState Reply) :
    Stamps (⟨order,.reap_terminal_tasks now,s,outcome⟩ :: past) s' := by
  constructor
  · intro id task' found'
    obtain ⟨task,found,rfl⟩ := reclaims.back found'
    simp only [first_seen,← stamps.first id task found,Step.sees,is_over,found,Option.any_some,stamp]
    by_cases terminal : task.state.is_terminal = true <;> by_cases unset : task.terminal_since_ms = 0 <;>
      simp [terminal,unset]
  · intro id task' found' stamped
    obtain ⟨task,found,rfl⟩ := reclaims.back found'
    rw [stamp_state]
    by_contra live
    rw [stamp_live (by simpa using live)] at stamped
    exact live (stamps.terminal id task found stamped)

theorem Run.stamps (run : Run blake3 epoch past s) : Stamps past s := by
  induction run with
  | start => constructor <;> simp [new]
  | @step past s run order op fresh ih =>
    by_cases sweep : ∃ now, op = .reap_terminal_tasks now
    · obtain ⟨now,rfl⟩ := sweep
      obtain ⟨count,s',ran,reclaims⟩ := apply_reclaims blake3 run.inv.consistent order now
      rw [ran]
      exact ih.sweep reclaims _
    · exact ih.stay run fresh fun now same => sweep ⟨now,same⟩

/-- Whenever a task was not over, it had no stamp yet, so that its stamp is later. -/
theorem Run.stamped_late (run : Run blake3 epoch past s) {timed : List (Nat × Step)} (steps : timed.map (·.2) = past)
    (clocked : Clocked timed) (found : s.tasks.get id = some task) (stamped : task.terminal_since_ms ≠ 0)
    {entry : Nat × Step} (member : entry ∈ timed) (live : entry.2.before.is_over id = false) :
    entry.1 ≤ task.terminal_since_ms := by
  -- By induction on the run; a stamp is set at the time of a sweep, which is that of the last step so far.
  induction run generalizing timed task entry with
  | start => simp [List.map_eq_nil_iff.mp steps] at member
  | @step past s run order op fresh ih =>
    obtain ⟨last,earlier,rfl,head,tail⟩ := List.map_eq_cons_iff.mp steps
    obtain ⟨latest,steady⟩ := List.pairwise_cons.mp clocked.steady
    have clocked' : Clocked earlier := ⟨steady,fun entry there => clocked.told entry (List.mem_cons_of_mem _ there)⟩
    -- A stamp that was there before.
    have before : ∀ record, s.tasks.get id = some record → record.terminal_since_ms ≠ 0 →
        entry.1 ≤ record.terminal_since_ms := by
      intro record there set
      rcases List.mem_cons.mp member with rfl | member
      · have ended := run.stamps.terminal id record there set
        rw [head] at live
        simp [is_over,there,ended] at live
      · exact ih tail clocked' there set member live
    by_cases sweep : ∃ now, op = .reap_terminal_tasks now
    · obtain ⟨now,rfl⟩ := sweep
      obtain ⟨count,s',ran,reclaims⟩ := apply_reclaims blake3 run.inv.consistent order now
      rw [ran] at found
      obtain ⟨record,there,rfl⟩ := reclaims.back found
      by_cases fresh : record.state.is_terminal = true ∧ record.terminal_since_ms = 0
      · have time := clocked.told last (by simp) now (by rw [head])
        simp only [stamp,if_pos fresh]
        rcases List.mem_cons.mp member with rfl | member
        · exact time.ge
        · exact (latest entry member).trans time.ge
      · simp only [stamp,if_neg fresh] at stamped ⊢
        exact before record there stamped
    · have kept : ∃ record, s.tasks.get id = some record ∧ task.terminal_since_ms = record.terminal_since_ms := by
        refine apply_keeps blake3 order run.inv (P := fun t => t.tasks.get id = some task →
          ∃ record, s.tasks.get id = some record ∧ task.terminal_since_ms = record.terminal_since_ms)
          (fun found => ⟨task,found,rfl⟩) (fun reply s' effect found => ?_) found
        rcases effect.unstamped (fun now same => sweep ⟨now,same⟩) found with ⟨record,there,since,_⟩ | ⟨_,unset⟩
        · exact ⟨record,there,since⟩
        · exact absurd unset stamped
      obtain ⟨record,there,since⟩ := kept
      rw [since] at stamped ⊢
      exact before record there stamped

/-- In every state of a run a sweep reclaims the overdue tasks and nothing else, where stamps are the clocks
    of the sweeps that first saw the tasks to be over; and if the clock never went back, every step that
    found a reclaimed task not over yet, the one that ended it among them, is `TERMINAL_TASK_TTL_MS` old. -/
theorem run_reclaims (run : Run blake3 epoch past s) (order : HashOrder) (now : Nat) :
    (∀ id task, s.tasks.get id = some task → task.terminal_since_ms = first_seen id past) ∧
    ∃ count s', apply blake3 order (.reap_terminal_tasks now) s = .ok (.Reclaimed count) s' ∧ Reclaims s now count s' ∧
      ∀ timed : List (Nat × Step), timed.map (·.2) = past → Clocked timed →
        ∀ id, s.tasks.get id ≠ none → s'.tasks.get id = none →
          ∀ entry ∈ timed, entry.2.before.is_over id = false → entry.1 + TERMINAL_TASK_TTL_MS ≤ now := by
  obtain ⟨count,s',ran,reclaims⟩ := apply_reclaims blake3 run.inv.consistent order now
  refine ⟨run.stamps.first,count,s',ran,reclaims,fun timed steps clocked id there gone entry member live => ?_⟩
  obtain ⟨task,found⟩ := Option.ne_none_iff_exists'.mp there
  by_cases overdue : Overdue s now task
  · have late := run.stamped_late steps clocked found overdue.stamped member live
    have old := overdue.old
    omega
  · rw [reclaims.kept id task found overdue] at gone
    cases gone

/-- The small task is cancelled before it is dispatched, and a sweep sees it. -/
def endedOps : List Op := .reap_terminal_tasks 1000 :: .cancel smallTask :: smallOps.tail

def endedPast : List Step := (replay smallHash smallEpoch endedOps).1
def endedState : CoordinatorState := (replay smallHash smallEpoch endedOps).2

theorem ended_run : Run smallHash smallEpoch endedPast endedState :=
  replay_run smallHash smallEpoch endedOps ⟨⟨⟨⟨trivial,by decide⟩,by decide⟩,by decide⟩,by decide⟩

theorem ended_clocked : Clocked (List.zip [1000,900,10,0] endedPast) where
  steady := by decide
  told := by simp [endedPast,endedOps,smallOps,replay]

theorem ended_reclaimed : first_seen smallTask endedPast = 1000 ∧ 900 + TERMINAL_TASK_TTL_MS ≤ 601000 ∧
    ∃ s', apply smallHash .by_id (.reap_terminal_tasks 601000) endedState = .ok (.Reclaimed 1) s' ∧
      Reclaims endedState 601000 1 s' := by
  obtain ⟨stamps,count,s',ran,reclaims,late⟩ := run_reclaims ended_run .by_id 601000
  have task : ∃ task, endedState.tasks.get smallTask = some task ∧ task.terminal_since_ms = 1000 := by decide +kernel
  have gone : (Outcome.state (apply smallHash .by_id (.reap_terminal_tasks 601000) endedState)).tasks.get smallTask = none := by
    decide +kernel
  have one : Outcome.value? (apply smallHash .by_id (.reap_terminal_tasks 601000) endedState) = some (.Reclaimed 1) := by
    decide +kernel
  obtain ⟨task,found,since⟩ := task
  rw [ran] at gone one
  obtain rfl : count = 1 := by simpa [Outcome.value?] using one
  refine ⟨(stamps smallTask task found).symm.trans since,?_,s',ran,reclaims⟩
  -- The second entry is the step that cancels the task.
  exact late _ rfl ended_clocked smallTask (by simp [found]) gone (900,_) (.tail _ (.head _)) (by decide +kernel)

end
end Crayon.CoordinatorState
