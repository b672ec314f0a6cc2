import Crayon.Runs

/-!
Dependencies. A task waits for objects that other tasks are to produce. Every
operation that settles an object ends with the dependency pass, so that between
operations a task that waits has all its arguments promised and one of them
still to come; and when an argument can no longer be had, the task and all that
wait for its output, however indirectly, have failed by the end of the
operation. The chains end, since the arguments of a task are older than its
output (`Ranked`).
-/
namespace Crayon.CoordinatorState
open Command
open Relation (ReflTransGen)

section
variable {s s' : CoordinatorState} {op : Op} {id : TaskId} {task : TaskRecord} {oid : ObjectId} {other : TaskRecord}
variable {reply : Reply} {blake3 : List UInt8 → Checksum}

/-- The object is available, or its task is still to produce it. -/
def Promised (s : CoordinatorState) (oid : ObjectId) : Prop :=
  ∃ object, s.objects.get oid = some object ∧ (object.state = .Reserved ∨ object.state = .Available)

/-! ### Blocked tasks -/

theorem dependency_failed_iff : s.dependency_failed task = true ↔ ∃ oid ∈ task.dependencies, ¬ Promised s oid := by
  simp only [dependency_failed,List.any_eq_true,Promised]
  refine exists_congr fun oid => and_congr_right fun _ => ?_
  cases s.objects.get oid with
  | none => simp
  | some object => simp

theorem dependencies_available_iff : s.dependencies_available task = true ↔
    ∀ oid ∈ task.dependencies, ∃ object, s.objects.get oid = some object ∧ object.state = .Available := by
  simp only [dependencies_available,List.all_eq_true]
  refine forall₂_congr fun oid _ => ?_
  cases s.objects.get oid with
  | none => simp
  | some object => simp

theorem object_in_use_iff : s.object_in_use oid = true ↔
    ∃ id task, s.tasks.get id = some task ∧ task.state.is_terminal = false ∧ oid ∈ task.dependencies := by
  simp [object_in_use,Table.any_iff]

/-- The arguments of the task are promised, and one of them is still to come. -/
def Awaits (s : CoordinatorState) (task : TaskRecord) : Prop :=
  (∃ oid ∈ task.dependencies, ∃ object, s.objects.get oid = some object ∧ object.state = .Reserved) ∧
    ∀ oid ∈ task.dependencies, Promised s oid

theorem blocked_iff : Blocked s id ↔ ∃ task, s.tasks.get id = some task ∧ Awaits s task := by
  refine exists_congr fun task => and_congr_right fun _ => ?_
  simp only [Bool.eq_false_iff,ne_eq,dependency_failed_iff,dependencies_available_iff,not_exists,not_and,not_not,Awaits]
  constructor
  · rintro ⟨promised,missing⟩
    refine ⟨?_,promised⟩
    push Not at missing
    obtain ⟨oid,member,pending⟩ := missing
    obtain ⟨object,found,state⟩ := promised oid member
    exact ⟨oid,member,object,found,state.resolve_right (pending object found)⟩
  · rintro ⟨⟨oid,member,object,found,reserved⟩,promised⟩
    refine ⟨promised,fun available => ?_⟩
    obtain ⟨object',found',state⟩ := available oid member
    rw [found] at found'
    cases found'
    rw [reserved] at state
    cases state

theorem Reconciled.awaits (reconciled : Reconciled s) (inv : Consistent s) (found : s.tasks.get id = some task)
    (waiting : task.state = .Waiting) : Awaits s task := by
  obtain ⟨task',found',awaits⟩ := blocked_iff.mp (reconciled id ((inv.waiting_iff found).mpr waiting))
  rw [found] at found'
  cases found'
  exact awaits

/-- A blocked task stays blocked while its arguments stay as they are. -/
theorem Blocked.frame (blocked : Blocked s id)
    (kept : ∀ task, s.tasks.get id = some task → ∃ task', s'.tasks.get id = some task' ∧
      task'.dependencies = task.dependencies ∧
      ∀ oid ∈ task.dependencies, ∀ object, s.objects.get oid = some object → s'.objects.get oid = some object) :
    Blocked s' id := by
  obtain ⟨task,found,⟨oid,member,object,there,reserved⟩,promised⟩ := blocked_iff.mp blocked
  obtain ⟨task',found',same,objects⟩ := kept task found
  refine blocked_iff.mpr ⟨task',found',?_⟩
  rw [Awaits,same]
  refine ⟨⟨oid,member,object,objects oid member object there,reserved⟩,fun oid member => ?_⟩
  obtain ⟨object,there,state⟩ := promised oid member
  exact ⟨object,objects oid member object there,state⟩

/-- What a submission learns about the arguments. -/
theorem admit_args_ok {input_codec : Codec} {args : List TaskArg} {before blocked : Bool}
    (ok : s.admit_args input_codec args before = .ok blocked) :
    (∀ oid ∈ args.filterMap TaskArg.object?, ∃ object, s.objects.get oid = some object ∧
        object.codec.any (· ≠ input_codec) = false ∧ (object.state = .Reserved ∨ object.state = .Available)) ∧
      (blocked = true → before = true ∨ ∃ oid ∈ args.filterMap TaskArg.object?, ∃ object,
        s.objects.get oid = some object ∧ object.state = .Reserved) := by
  fun_induction admit_args s input_codec args before with
  | case1 before =>
    cases ok
    exact ⟨by simp,.inl⟩
  | case2 codec bytes rest before ih => simpa [TaskArg.object?] using ih ok
  | case3 oid rest before absent => cases ok
  | case4 oid rest before object there mismatch => cases ok
  | case5 oid rest before object there sameCodec available ih =>
    obtain ⟨later,pending⟩ := ih ok
    simp only [List.filterMap_cons,TaskArg.object?]
    refine ⟨List.forall_mem_cons.mpr ⟨⟨object,there,Bool.eq_false_iff.mpr sameCodec,.inr available⟩,later⟩,fun waits => ?_⟩
    refine (pending waits).imp_right ?_
    rintro ⟨oid',member,reserved⟩
    exact ⟨oid',List.mem_cons_of_mem _ member,reserved⟩
  | case6 oid rest before object there sameCodec reserved ih =>
    obtain ⟨later,_⟩ := ih ok
    simp only [List.filterMap_cons,TaskArg.object?]
    refine ⟨List.forall_mem_cons.mpr ⟨⟨object,there,Bool.eq_false_iff.mpr sameCodec,.inl reserved⟩,later⟩,fun _ => ?_⟩
    exact .inr ⟨oid,List.mem_cons_self,object,there,reserved⟩
  | case7 oid rest before object there sameCodec settled unavailable => cases ok

/-! ### Every operation leaves waiting tasks blocked -/

/-- A task that waits is none of those that other moves are about. -/
theorem Reconciled.modify {k : TaskId} {f : TaskRecord → TaskRecord} (reconciled : Reconciled s) (inv : Consistent s)
    (found : s.tasks.get k = some other) (busy : other.state ≠ .Waiting) (tasks : s'.tasks = s.tasks.modify k f)
    (objects : s'.objects = s.objects) (waiting : s'.waiting ⊆ s.waiting) : Reconciled s' := by
  intro id member
  have apart : id ≠ k := by
    rintro rfl
    exact busy ((inv.waiting_iff found).mp (waiting member))
  refine (reconciled id (waiting member)).frame fun task there => ⟨task,?_,rfl,fun oid _ object present => ?_⟩
  · rw [tasks,Table.get_modify,if_neg apart]
    exact there
  · rw [objects]
    exact present

/-- An object that was not there is no argument of a task that waits. -/
theorem Reconciled.insert {object : ObjectRecord} (reconciled : Reconciled s)
    (absent : s.objects.get oid = none) (tasks : s'.tasks = s.tasks) (objects : s'.objects = s.objects.insert oid object)
    (waiting : s'.waiting = s.waiting) : Reconciled s' := by
  intro id member
  refine (reconciled id (waiting ▸ member)).frame fun task there => ⟨task,tasks ▸ there,rfl,fun k _ record found => ?_⟩
  have apart : k ≠ oid := by
    rintro rfl
    rw [absent] at found
    cases found
  rw [objects,Table.get_insert,if_neg apart]
  exact found

theorem Released.reconciled (released : Released s oid s') (inv : Consistent s) (before : Reconciled s) :
    Reconciled s' := by
  cases released with
  | before absent => exact before
  | @drop object there settled unused =>
    intro id member
    refine (before id member).frame fun task found => ⟨task,?_,rfl,fun k argument record present => ?_⟩
    · have waiting := (inv.waiting_iff found).mp member
      obtain ⟨output,written⟩ := inv.output found
      have reserved := (inv.reserved_iff found written).mpr (by rw [waiting]; rfl)
      have apart : task.output ≠ oid := by
        rintro rfl
        rw [there] at written
        cases written
        exact settled reserved
      simpa [dropped,found] using apart
    · have waiting := (inv.waiting_iff found).mp member
      have apart : k ≠ oid := by
        rintro rfl
        have used : s.object_in_use k = true := by
          refine object_in_use_iff.mpr ⟨id,task,found,?_,argument⟩
          rw [waiting]
          rfl
        rw [unused] at used
        cases used
      simpa [dropped,apart] using present

theorem Releases.reconciled (releases : Releases s s') (inv : Consistent s) (before : Reconciled s) : Reconciled s' := by
  suffices both : Consistent s' ∧ Reconciled s' from both.2
  induction releases with
  | refl => exact ⟨inv,before⟩
  | tail _ released ih =>
    obtain ⟨oid,released⟩ := released
    exact ⟨(released.moves (.release_object oid)).consistent ih.1,released.reconciled ih.1 ih.2⟩

theorem Admitted.reconciled {codec : Codec} {size_bytes : UInt64} {checksum : Checksum} {bytes : Option (List UInt8)}
    (admitted : Admitted s oid codec size_bytes checksum bytes s') (before : Reconciled s) : Reconciled s' := by
  cases admitted with
  | known => exact before
  | stored absent => exact before.insert absent rfl rfl rfl

theorem stamp_live {now : Nat} (live : task.state.is_terminal = false) : stamp now task = task := by
  simp [stamp,live]

/-- Every operation leaves the tasks that wait blocked. -/
theorem Effect.reconciled (effect : Effect blake3 op s reply s')
    (inv : Consistent s) (newTo : op.NewTo s) (before : Reconciled s) : Reconciled s' := by
  cases effect with
  | put admitted => exact admitted.reconciled before
  | put_meta admitted => exact admitted.reconciled before
  | @submitted _ operation args resources max_attempts id output descriptor blocked attempts offered valid capable admitted =>
    obtain ⟨newTask,_,newOutput⟩ := newTo
    obtain ⟨known,pending⟩ := admit_args_ok admitted
    intro k member
    by_cases same : k = id
    · subst same
      have waits : blocked = true := by
        by_contra free
        obtain ⟨task,found⟩ := inv.waiting k (by simpa [free] using member)
        rw [newTask] at found
        cases found
      refine blocked_iff.mpr ⟨_,by simp; rfl,?_,fun oid argument => ?_⟩
      · obtain ⟨oid,argument,object,there,reserved⟩ := (pending waits).resolve_left nofun
        refine ⟨oid,argument,object,?_,reserved⟩
        rw [Table.get_insert,if_neg (by rintro rfl; rw [newOutput] at there; cases there)]
        exact there
      · obtain ⟨object,there,_,state⟩ := known oid argument
        refine ⟨object,?_,state⟩
        rw [Table.get_insert,if_neg (by rintro rfl; rw [newOutput] at there; cases there)]
        exact there
    · have waiting : k ∈ s.waiting := by
        cases blocked <;> simpa [same] using member
      refine (before k waiting).frame fun task found => ⟨task,?_,rfl,fun oid _ object there => ?_⟩
      · rw [Table.get_insert,if_neg same]
        exact found
      · rw [Table.get_insert,if_neg (by rintro rfl; rw [newOutput] at there; cases there)]
        exact there
  | assigned requeued found at_worker alive free servable budget taken assigns owned hits =>
    exact before.modify inv found (by rw [servable.runnable]; nofun) rfl rfl (Finset.Subset.refl _)
  | started current matching found assigned =>
    exact before.modify inv found (by rw [assigned]; nofun) rfl rfl (Finset.Subset.refl _)
  | completed current matching found state at_worker living offered verified output accepted freed ripples reconciled =>
    exact reconciled
  | retried current matching found state retry freed =>
    exact before.modify inv found (by rcases state with state | state <;> rw [state] <;> nofun) rfl rfl (Finset.erase_subset _ _)
  | failed current matching found state final freed ripples reconciled => exact reconciled
  | expired report swept workers ripples reconciled => exact reconciled
  | @reaped _ _ now count released =>
    have stamped : Move (.reap_terminal_tasks now) s _ := .stamp now
    refine released.reconciled (stamped.consistent inv) fun id member => ?_
    refine (before id member).frame fun task found => ⟨stamp now task,by simp [found],?_,fun _ _ _ there => there⟩
    rw [stamp_live]
    rw [(inv.waiting_iff found).mp member]
    rfl
  | acknowledged current matching found state freed ripples reconciled => exact reconciled
  | requested found state =>
    exact before.modify inv found (by rcases state with state | state <;> rw [state] <;> nofun) rfl rfl (Finset.Subset.refl _)
  | cancelled found state ripples reconciled => exact reconciled
  | released released => exact released.reconciled inv before
  | _ => exact before

theorem Run.reconciled {epoch : CoordinatorEpoch} {past : List Step} (run : Run blake3 epoch past s) : Reconciled s :=
  run.keeps (by simp [Reconciled,new]) fun inv newTo effect => effect.reconciled inv.consistent newTo

/-! ### What becomes of a task that waits -/

/-- What became of a task that waited: it still waits, or has its arguments, or failed with one of them. -/
inductive Fate (id : TaskId) (task : TaskRecord) (s : CoordinatorState) : Prop where
  | waits (found : s.tasks.get id = some task)
  | woken (found : s.tasks.get id = some { task with state := .Runnable })
      (available : s.dependencies_available task = true)
  | starved (found : s.tasks.get id = some { task with state := .Failed "dependency failed" })

theorem Fate.counted (fate : Fate id task s) (tasks : s'.tasks = s.tasks) (objects : s'.objects = s.objects) :
    Fate id task s' := by
  cases fate with
  | waits found => exact .waits (tasks ▸ found)
  | woken found available => exact .woken (tasks ▸ found) (by rwa [dependencies_available,objects])
  | starved found => exact .starved (tasks ▸ found)

theorem Ripple.fate (ripple : Ripple s s') (inv : Consistent s) (fate : Fate id task s) :
    Fate id task s' := by
  cases ripple with
  | @starve k other found state failed =>
    by_cases same : id = k
    · subst same
      cases fate with
      | waits found' =>
        rw [found] at found'
        cases found'
        exact .starved (by rw [Table.get_modify_of found,if_pos rfl])
      | woken found' available =>
        rw [found] at found'
        cases found'
        cases state
      | starved found' =>
        rw [found] at found'
        cases found'
        cases state
    · cases fate with
      | waits found' => exact .waits (by rw [Table.get_modify,if_neg same]; exact found')
      | starved found' => exact .starved (by rw [Table.get_modify,if_neg same]; exact found')
      | woken found' available =>
        refine .woken (by rw [Table.get_modify,if_neg same]; exact found') (dependencies_available_iff.mpr fun oid member => ?_)
        obtain ⟨object,there,settled⟩ := dependencies_available_iff.mp available oid member
        -- The output that fails was reserved.
        have apart : oid ≠ other.output := by
          rintro rfl
          have reserved := (inv.reserved_iff found there).mpr (by rw [state]; rfl)
          rw [reserved] at settled
          cases settled
        exact ⟨object,by rw [Table.get_modify,if_neg apart]; exact there,settled⟩
  | @wake k other found state available =>
    by_cases same : id = k
    · subst same
      cases fate with
      | waits found' =>
        rw [found] at found'
        cases found'
        exact .woken (by rw [Table.get_modify_of found,if_pos rfl]) available
      | woken found' _ =>
        rw [found] at found'
        cases found'
        cases state
      | starved found' =>
        rw [found] at found'
        cases found'
        cases state
    · cases fate with
      | waits found' => exact .waits (by rw [Table.get_modify,if_neg same]; exact found')
      | woken found' available => exact .woken (by rw [Table.get_modify,if_neg same]; exact found') available
      | starved found' => exact .starved (by rw [Table.get_modify,if_neg same]; exact found')

theorem Ripples.fate (ripples : Ripples s s') (inv : Consistent s) (found : s.tasks.get id = some task) :
    Fate id task s' := by
  induction ripples with
  | refl => exact .waits found
  | tail before ripple ih => exact ripple.fate (Ripples.consistent before inv) ih

/-- A change of a task that does not wait is none of a task that does. -/
theorem waits_modify {k : TaskId} {f : TaskRecord → TaskRecord} (found : s.tasks.get id = some task)
    (waiting : task.state = .Waiting) (there : s.tasks.get k = some other) (busy : other.state ≠ .Waiting) :
    (s.tasks.modify k f).get id = some task := by
  have apart : id ≠ k := by
    rintro rfl
    rw [found] at there
    cases there
    exact busy waiting
  rw [Table.get_modify,if_neg apart]
  exact found

/-- A dispatched task does not wait. -/
theorem busy_of (state : other.state = .Assigned ∨ other.state = .Running) : other.state ≠ .Waiting := by
  rcases state with state | state <;> rw [state] <;> nofun

theorem Swept.waits {now : Nat} (swept : Swept now s s') (waiting : task.state = .Waiting)
    (found : s.tasks.get id = some task) : s'.tasks.get id = some task := by
  induction swept with
  | refl => exact found
  | tail _ sweep ih =>
    cases sweep with
    | mark | evict => exact ih
    | cancelled there state => exact waits_modify ih waiting there (by rw [state]; nofun)
    | retried there state => exact waits_modify ih waiting there (busy_of state)
    | failed there state => exact waits_modify ih waiting there (busy_of state)

theorem Releases.waits (releases : Releases s s') (inv : Consistent s) (waiting : task.state = .Waiting)
    (found : s.tasks.get id = some task) : s'.tasks.get id = some task := by
  suffices both : Consistent s' ∧ s'.tasks.get id = some task from both.2
  induction releases with
  | refl => exact ⟨inv,found⟩
  | tail _ released ih =>
    obtain ⟨inv,found⟩ := ih
    obtain ⟨oid,released⟩ := released
    refine ⟨(released.moves (.release_object oid)).consistent inv,?_⟩
    cases released with
    | before absent => exact found
    | drop there settled unused =>
      obtain ⟨output,written⟩ := inv.output found
      have reserved := (inv.reserved_iff found written).mpr (by rw [waiting]; rfl)
      have apart : task.output ≠ oid := by
        rintro rfl
        rw [there] at written
        cases written
        exact settled reserved
      simpa [dropped,found] using apart

/-- Only its own cancellation takes a task out of waiting otherwise. -/
theorem Effect.fate (effect : Effect blake3 op s reply s') (inv : Consistent s) (newTo : op.NewTo s)
    (found : s.tasks.get id = some task) (waiting : task.state = .Waiting) : Fate id task s' ∨ op = .cancel id := by
  cases effect with
  | put admitted => cases admitted <;> exact .inl (.waits found)
  | put_meta admitted => cases admitted <;> exact .inl (.waits found)
  | submitted =>
    refine .inl (.waits ?_)
    rw [Table.get_insert,if_neg (by rintro rfl; rw [newTo.1] at found; cases found)]
    exact found
  | assigned requeued there at_worker alive free servable =>
    exact .inl (.waits (waits_modify found waiting there (by rw [servable.runnable]; nofun)))
  | started current matching there assigned =>
    exact .inl (.waits (waits_modify found waiting there (by rw [assigned]; nofun)))
  | @completed _ _ identity report _ _ _ _ _ current matching there state at_worker living offered verified output accepted
      freed ripples =>
    have move : Move (.complete identity report) s _ :=
      .complete rfl there state (matching.assigned there) at_worker living accepted.2.2.1 accepted.2.2.2 freed
    exact .inl (.counted (ripples.fate (move.consistent inv) (waits_modify found waiting there (busy_of state))) rfl rfl)
  | retried current matching there state => exact .inl (.waits (waits_modify found waiting there (busy_of state)))
  | @failed _ _ identity fence message «class» now _ _ current matching there state final freed ripples =>
    have move : Move (.fail identity fence message «class» now) s _ :=
      .fail message there state (matching.assigned there) freed
    exact .inl (.counted (ripples.fate (move.consistent inv) (waits_modify found waiting there (busy_of state))) rfl rfl)
  | expired report swept workers ripples =>
    exact .inl (.counted (ripples.fate (swept.consistent inv) (swept.waits waiting found)) rfl rfl)
  | @reaped _ _ now count released =>
    have stamped : Move (.reap_terminal_tasks now) s _ := .stamp now
    refine .inl (.waits (released.waits (stamped.consistent inv) waiting ?_))
    rw [Table.get_mapValues,found,Option.map_some,stamp_live (by rw [waiting]; rfl)]
  | @acknowledged _ _ identity fence _ _ current matching there state freed ripples =>
    have move : Move (.acknowledge_cancel identity fence) s _ := .acknowledge there state (matching.assigned there) freed
    exact .inl (.counted (ripples.fate (move.consistent inv) (waits_modify found waiting there (by rw [state]; nofun))) rfl rfl)
  | requested there state => exact .inl (.waits (waits_modify found waiting there (busy_of state)))
  | @cancelled _ _ k other there state ripples =>
    by_cases same : id = k
    · exact .inr (congrArg _ same.symm)
    · have move : Move (.cancel k) s _ := .cancel there state
      exact .inl (.counted (ripples.fate (move.consistent inv) (by rw [Table.get_modify,if_neg same]; exact found)) rfl rfl)
  | released released => exact .inl (.waits (Releases.waits (.single ⟨_,released⟩) inv waiting found))
  | _ => exact .inl (.waits found)

/-! ### Chains -/

/-- The task waits for the object, itself or through the outputs of other tasks that wait. -/
inductive Needs (s : CoordinatorState) : TaskId → ObjectId → Prop where
  | direct {id : TaskId} {task : TaskRecord} {oid : ObjectId} (found : s.tasks.get id = some task)
      (waiting : task.state = .Waiting) (argument : oid ∈ task.dependencies) : Needs s id oid
  | through {id next : TaskId} {task other : TaskRecord} {oid : ObjectId} (found : s.tasks.get id = some task)
      (waiting : task.state = .Waiting) (there : s.tasks.get next = some other) (argument : other.output ∈ task.dependencies)
      (needs : Needs s next oid) : Needs s id oid

/-- The task failed for want of an argument, and its output with it. -/
def Starved (s : CoordinatorState) (id : TaskId) : Prop :=
  ∃ task object, s.tasks.get id = some task ∧ task.state = .Failed "dependency failed" ∧
    s.objects.get task.output = some object ∧ object.state = .Failed

/-- The arguments of tasks that wait come before their outputs. -/
def Ranked (rank : ObjectId → Nat) (s : CoordinatorState) : Prop :=
  ∀ id task, s.tasks.get id = some task → task.state = .Waiting → ∀ oid ∈ task.dependencies, rank oid < rank task.output

/-- Tasks come to wait by being submitted. -/
theorem Move.waited (move : Move op s s') (found : s'.tasks.get id = some task) (waiting : task.state = .Waiting) :
    s.tasks.get id = some task ∨ .task id ∈ op.minted := by
  have modified : ∀ (k : TaskId) (f : TaskRecord → TaskRecord), (∀ t, (f t).state ≠ .Waiting) →
      (s.tasks.modify k f).get id = some task → s.tasks.get id = some task := by
    intro k f busy there
    rw [Table.get_modify] at there
    split at there
    · obtain ⟨before,_,rfl⟩ := Option.map_eq_some_iff.mp there
      exact absurd waiting (busy before)
    · exact there
  cases move with
  | submit codec newTask unqueued newOutput submitted =>
    rw [Table.get_insert] at found
    split at found
    · rename_i same
      exact .inr (same ▸ submitted.minted)
    · exact .inl found
  | assign | start | complete | retry | fail | acknowledge | request_cancel | cancel | starve | wake =>
    exact .inl (modified _ _ (fun _ same => by cases same) found)
  | release =>
    rw [Table.get_retain,Option.filter_eq_some_iff] at found
    exact .inl found.1
  | stamp now =>
    rw [Table.get_mapValues] at found
    obtain ⟨before,there,rfl⟩ := Option.map_eq_some_iff.mp found
    have same : (CoordinatorState.stamp now before).state = before.state := by
      unfold CoordinatorState.stamp
      split <;> rfl
    rw [stamp_live (by rw [← same,waiting]; rfl)]
    exact .inl there
  | _ => exact .inl found

theorem Ripples.waited (ripples : Ripples s s') (found : s'.tasks.get id = some task) (waiting : task.state = .Waiting) :
    s.tasks.get id = some task :=
  ((ripples.moves (.reap_terminal_tasks 0)).origin (fun _ _ move there => move.waited there waiting) found).resolve_right nofun

theorem Effect.ranked (effect : Effect blake3 op s reply s') (inv : Consistent s) (newTo : op.NewTo s)
    (reconciled : Reconciled s) (before : ∃ rank, Ranked rank s) : ∃ rank, Ranked rank s' := by
  obtain ⟨rank,ranked⟩ := before
  have kept : (∀ id, .task id ∉ op.minted) → Ranked rank s' := fun none id task found waiting =>
    ranked id task (((effect.moves newTo).origin (fun _ _ move there => move.waited there waiting) found).resolve_right
      (none id)) waiting
  cases effect with
  | @submitted _ operation args resources max_attempts id output descriptor blocked attempts offered valid capable admitted =>
    obtain ⟨newTask,_,newOutput⟩ := newTo
    obtain ⟨known,_⟩ := admit_args_ok admitted
    -- The output of the new task comes after everything the task takes.
    refine ⟨Function.update rank output (((args.filterMap TaskArg.object?).map rank).sum + 1),fun k task found waiting oid
      argument => ?_⟩
    rw [Table.get_insert] at found
    split at found
    · cases found
      have apart : oid ≠ output := by
        rintro rfl
        obtain ⟨object,there,_⟩ := known oid argument
        rw [newOutput] at there
        cases there
      rw [Function.update_of_ne apart,Function.update_self]
      exact Nat.lt_succ_of_le (List.single_le_sum (fun _ _ => Nat.zero_le _) _ (List.mem_map_of_mem argument))
    · obtain ⟨object,there,_⟩ := (reconciled.awaits inv found waiting).2 oid argument
      obtain ⟨own,written⟩ := inv.output found
      have apart : oid ≠ output := by
        rintro rfl
        rw [newOutput] at there
        cases there
      have apart' : task.output ≠ output := by
        intro same
        rw [same,newOutput] at written
        cases written
      rw [Function.update_of_ne apart,Function.update_of_ne apart']
      exact ranked k task found waiting oid argument
  | _ => exact ⟨rank,kept fun _ => by simp [Op.minted]⟩

theorem Run.ranked {epoch : CoordinatorEpoch} {past : List Step}
    (run : Run blake3 epoch past s) : ∃ rank, Ranked rank s := by
  suffices both : Reconciled s ∧ ∃ rank, Ranked rank s from both.2
  refine run.keeps (P := fun s => Reconciled s ∧ ∃ rank, Ranked rank s) ⟨by simp [Reconciled,new],fun _ => 0,by simp [Ranked,new]⟩
    fun inv newTo effect before => ?_
  exact ⟨effect.reconciled inv.consistent newTo before.1,effect.ranked inv.consistent newTo before.1 before.2⟩

/-- The dependency pass leaves objects alone that come before everything that failed. -/
theorem Ripples.below {rank : ObjectId → Nat} (ripples : Ripples s s') (bound : Nat) (ranked : Ranked rank s)
    (promised : ∀ id task, s.tasks.get id = some task → task.state = .Waiting → ∀ oid ∈ task.dependencies,
      rank oid < bound → Promised s oid) (below : rank oid < bound) : s'.objects.get oid = s.objects.get oid := by
  induction ripples generalizing oid with
  | refl => rfl
  | tail before ripple ih =>
    cases ripple with
    | wake => exact ih below
    | @starve id task found state failed =>
      have there := Ripples.waited before found state
      obtain ⟨lost,argument,gone⟩ := dependency_failed_iff.mp failed
      have late : bound ≤ rank lost := by
        by_contra early
        obtain ⟨object,held,settled⟩ := promised id task there state lost argument (not_le.mp early)
        exact gone ⟨object,by rw [ih (not_le.mp early)]; exact held,settled⟩
      have later := ranked id task there state lost argument
      rw [Table.get_modify,if_neg (by rintro rfl; omega)]
      exact ih below

/-- An argument of a task is not lost by the cancellation of the task. -/
theorem cancelled_keeps_arguments (effect : Effect blake3 (.cancel id) s reply s') (inv : Consistent s)
    (reconciled : Reconciled s) (ranked : ∃ rank, Ranked rank s) (found : s.tasks.get id = some task)
    (waiting : task.state = .Waiting) (argument : oid ∈ task.dependencies) : s'.objects.get oid = s.objects.get oid := by
  obtain ⟨rank,ranked⟩ := ranked
  cases effect with
  | requested_before => rfl
  | requested => rfl
  | cancelled there state ripples =>
    rw [found] at there
    cases there
    have others : ∀ k other, (s.tasks.modify id fun task => { task with state := .Cancelled }).get k = some other →
        other.state = .Waiting → s.tasks.get k = some other := by
      intro k other found' state'
      have move : Move (.cancel id) s _ := .cancel found state
      exact (move.waited found' state').resolve_right (by simp [Op.minted])
    have same := ripples.below (rank task.output)
      (fun k other found' state' => ranked k other (others k other found' state') state')
      (fun k other found' state' oid' argument' early => by
        obtain ⟨object,held,settled⟩ := (reconciled.awaits inv (others k other found' state') state').2 oid' argument'
        exact ⟨object,by rw [Table.get_modify,if_neg (by rintro rfl; omega)]; exact held,settled⟩)
      (ranked id task found waiting oid argument)
    rw [same,Table.get_modify,if_neg]
    rintro rfl
    exact lt_irrefl _ (ranked id task found waiting _ argument)

/-- A task that waits fails with any of its arguments. -/
theorem Effect.starves (effect : Effect blake3 op s reply s') (inv : Consistent s) (newTo : op.NewTo s)
    (reconciled : Reconciled s) (ranked : ∃ rank, Ranked rank s) (found : s.tasks.get id = some task)
    (waiting : task.state = .Waiting) (argument : oid ∈ task.dependencies) (gone : ¬ Promised s' oid) :
    s'.tasks.get id = some { task with state := .Failed "dependency failed" } := by
  have inv' : Consistent s' := (effect.moves newTo).consistent inv
  rcases effect.fate inv newTo found waiting with fate | rfl
  · cases fate with
    | waits found' =>
      exact absurd (((effect.reconciled inv newTo reconciled).awaits inv' found' waiting).2 oid argument) gone
    | woken _ available =>
      obtain ⟨object,there,settled⟩ := dependencies_available_iff.mp available oid argument
      exact absurd ⟨object,there,.inr settled⟩ gone
    | starved found' => exact found'
  · have promised := (reconciled.awaits inv found waiting).2 oid argument
    refine absurd ?_ gone
    rwa [Promised,cancelled_keeps_arguments effect inv reconciled ranked found waiting argument]

/-- The output of a failed task has failed. -/
theorem Consistent.failed_output (inv : Consistent s) (found : s.tasks.get id = some task) {message : String}
    (state : task.state = .Failed message) : ∃ object, s.objects.get task.output = some object ∧ object.state = .Failed := by
  obtain ⟨object,there⟩ := inv.output found
  have legal := inv.legal id task found
  simp only [view,View.Legal,state,there,Option.map_some,Option.some.injEq] at legal
  exact ⟨object,there,legal.2.1⟩

theorem Effect.starves_chain (effect : Effect blake3 op s reply s') (inv : Consistent s) (newTo : op.NewTo s)
    (reconciled : Reconciled s) (ranked : ∃ rank, Ranked rank s) (needs : Needs s id oid) (gone : ¬ Promised s' oid) :
    ∃ task, s.tasks.get id = some task ∧ s'.tasks.get id = some { task with state := .Failed "dependency failed" } := by
  induction needs with
  | direct found waiting argument =>
    exact ⟨_,found,effect.starves inv newTo reconciled ranked found waiting argument gone⟩
  | through found waiting there argument needs ih =>
    obtain ⟨other,there',failed⟩ := ih gone
    rw [there] at there'
    cases there'
    refine ⟨_,found,effect.starves inv newTo reconciled ranked found waiting argument ?_⟩
    -- The output in between failed with its task.
    obtain ⟨output,written,lost⟩ := ((effect.moves newTo).consistent inv).failed_output failed rfl
    rintro ⟨object,held,state⟩
    rw [written] at held
    cases held
    rw [lost] at state
    rcases state with state | state <;> cases state

end

/-- In every state of a run a task that waits has every argument promised and one still to come; and whatever operation
    comes next, the tasks that need an object that is then not to be had any more have failed, and their outputs. -/
theorem run_dependencies {blake3 : List UInt8 → Checksum} {epoch : CoordinatorEpoch} {past : List Step}
    {s : CoordinatorState} (run : Run blake3 epoch past s) :
    (∀ id task, s.tasks.get id = some task → task.state = .Waiting →
        (∃ oid ∈ task.dependencies, ∃ object, s.objects.get oid = some object ∧ object.state = .Reserved) ∧
          ∀ oid ∈ task.dependencies, ∃ object, s.objects.get oid = some object ∧
            (object.state = .Reserved ∨ object.state = .Available)) ∧
      ∀ order op, Fresh past s op → ∀ id oid, Needs s id oid →
        ¬ Promised (Outcome.state (apply blake3 order op s)) oid → Starved (Outcome.state (apply blake3 order op s)) id := by
  have inv := run.inv.consistent
  have reconciled := run.reconciled
  refine ⟨fun id task found waiting => reconciled.awaits inv found waiting,fun order op fresh id oid needs => ?_⟩
  have newTo := run.newTo fresh
  refine apply_keeps blake3 order run.inv (P := fun s' => ¬ Promised s' oid → Starved s' id) ?_ fun reply s' effect gone => ?_
  · -- A refused operation loses nothing.
    intro gone
    refine absurd ?_ gone
    clear gone
    induction needs with
    | direct found waiting argument => exact (reconciled.awaits inv found waiting).2 _ argument
    | through _ _ _ _ _ ih => exact ih
  · obtain ⟨task,_,failed⟩ := effect.starves_chain inv newTo reconciled run.ranked needs gone
    obtain ⟨object,there,lost⟩ := ((effect.moves newTo).consistent inv).failed_output failed rfl
    exact ⟨_,object,failed,rfl,there,lost⟩

/-- A task that takes one object. -/
def chainTask (id : TaskId) (output arg : ObjectId) : TaskRecord :=
  { id, operation := smallKey, args := [.Object arg], output, resources := ⟨⟨[("cpu",⟨600⟩)],demand_sorted⟩⟩, max_attempts := 1
    attempt := 0, state := .Waiting, assigned := none, not_before_ms := 0, terminal_since_ms := 0 }

def chainSecond : TaskRecord := chainTask ⟨.replicate 16 8⟩ ⟨.replicate 32 8⟩ smallOutput
def chainThird : TaskRecord := chainTask ⟨.replicate 16 9⟩ ⟨.replicate 32 9⟩ chainSecond.output

/-- The task of the small run, and two more: the second takes the output of the first, and the third that of the second. -/
def chainOps : List Op :=
  [.submit smallKey chainThird.args chainThird.resources 1 chainThird.id chainThird.output,
    .submit smallKey chainSecond.args chainSecond.resources 1 chainSecond.id chainSecond.output] ++ smallOps.tail

def chainState : CoordinatorState := (replay smallHash smallEpoch chainOps).2

theorem chain_run : Run smallHash smallEpoch (replay smallHash smallEpoch chainOps).1 chainState :=
  replay_run smallHash smallEpoch chainOps ⟨⟨⟨⟨trivial,by decide⟩,by decide⟩,by decide⟩,by decide⟩

/-- When the first task is cancelled the third one fails. -/
theorem chain_starves : chainState.tasks.get chainThird.id = some chainThird ∧
    Starved (Outcome.state (apply smallHash .by_id (.cancel smallTask) chainState)) chainThird.id := by
  have second : chainState.tasks.get chainSecond.id = some chainSecond := by decide +kernel
  have third : chainState.tasks.get chainThird.id = some chainThird := by decide +kernel
  refine ⟨third,(run_dependencies chain_run).2 .by_id (.cancel smallTask) (by decide) _ smallOutput ?_ ?_⟩
  · exact .through third rfl second (List.mem_singleton.mpr rfl) (.direct second rfl (List.mem_singleton.mpr rfl))
  · rintro ⟨object,there,state⟩
    have cancelled : ((Outcome.state (apply smallHash .by_id (.cancel smallTask) chainState)).objects.get smallOutput).map
        (·.state) = some .Cancelled := by decide +kernel
    rw [there,Option.map_some,Option.some.injEq] at cancelled
    rw [cancelled] at state
    rcases state with state | state <;> cases state

end Crayon.CoordinatorState
