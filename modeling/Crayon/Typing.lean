import Crayon.Changes
import Crayon.Dependencies

/-!
Types of arguments. The operations known to the coordinator only grow, and a
worker that registers must describe an operation as it is known. A submission is
checked once, against the codec that an argument has or, when the argument is
still to be produced, the codec that was promised for it; the worker that
produces it must keep the promise, and nothing that a live task needs is
released. So the arguments of a task suit its operation for as long as the task
is live, whenever it is dispatched.
-/
namespace Crayon.CoordinatorState
open Command

/-- An argument that an operation takes: its codec is the operation's, and it is short if it is
    inline, or has a record. -/
def Suits (s : CoordinatorState) (descriptor : OperationDescriptor) : TaskArg → Prop
  | .Inline codec bytes => codec = descriptor.input_codec ∧ UInt64.ofNat bytes.length ≤ descriptor.max_inline_arg_bytes
  | .Object id => ∃ object, s.objects.get id = some object ∧ object.codec = some descriptor.input_codec

/-- The arguments of a task suit its operation, and its output is promised with the codec of the
    operation's results. -/
def Checked (s : CoordinatorState) (task : TaskRecord) : Prop :=
  ∃ descriptor, s.operations.get task.operation = some descriptor ∧ (∀ arg ∈ task.args, s.Suits descriptor arg) ∧
    ∃ object, s.objects.get task.output = some object ∧ object.codec = some descriptor.output_codec

/-- Live tasks are checked, and the workers agree on the operations. -/
structure Typed (s : CoordinatorState) : Prop where
  codecs : ∀ id object, s.objects.get id = some object → object.codec.isSome = true
  tasks : ∀ id task, s.tasks.get id = some task → task.state.is_terminal = false → s.Checked task
  catalog : ∀ node worker key descriptor, s.workers.get node = some worker →
    worker.operations.get key = some descriptor → s.operations.get key = some descriptor

theorem new_typed (epoch : CoordinatorEpoch) : Typed (new epoch) := by
  constructor <;> simp [new]

/-- An object that a live task takes or is to produce. -/
def Needed (s : CoordinatorState) (oid : ObjectId) : Prop :=
  ∃ id task, s.tasks.get id = some task ∧ task.state.is_terminal = false ∧
    (task.output = oid ∨ TaskArg.Object oid ∈ task.args)

section
variable {s s' : CoordinatorState} {op : Op} {descriptor : OperationDescriptor} {args : List TaskArg}

theorem Suits.later {arg : TaskArg} (suits : s.Suits descriptor arg)
    (objects : ∀ oid object, arg = .Object oid → s.objects.get oid = some object →
      ∃ object', s'.objects.get oid = some object' ∧ object'.codec = object.codec) : s'.Suits descriptor arg := by
  cases arg with
  | Inline codec bytes => exact suits
  | Object oid =>
    obtain ⟨object,there,codec⟩ := suits
    obtain ⟨object',there',same⟩ := objects oid object rfl there
    exact ⟨object',there',same.trans codec⟩

/-- A checked task stays so while the operations only grow and what it needs keeps its codec. -/
theorem Checked.later {task task' : TaskRecord} (checked : s.Checked task)
    (operations : ∀ key descriptor, s.operations.get key = some descriptor → s'.operations.get key = some descriptor)
    (same : task'.operation = task.operation ∧ task'.args = task.args ∧ task'.output = task.output)
    (objects : ∀ oid object, task.output = oid ∨ TaskArg.Object oid ∈ task.args → s.objects.get oid = some object →
      ∃ object', s'.objects.get oid = some object' ∧ object'.codec = object.codec) : s'.Checked task' := by
  obtain ⟨operation,args,output⟩ := same
  obtain ⟨descriptor,offered,suits,object,there,codec⟩ := checked
  obtain ⟨object',there',kept⟩ := objects task.output object (.inl rfl) there
  refine ⟨descriptor,?_,?_,object',?_,kept.trans codec⟩
  · rw [operation]
    exact operations _ _ offered
  · rw [args]
    intro arg member
    exact (suits arg member).later fun oid object named => objects oid object (.inr (named ▸ member))
  · rw [output]
    exact there'

/-! ### Moves that bring in nothing -/

/-- A move of an operation that brings in no worker and no task, and delivers nothing, keeps what
    live tasks need, and its codec. -/
theorem Move.needed (move : Move op s s') (inv : Consistent s) (undelivered : ∀ identity report, op ≠ .complete identity report)
    {oid : ObjectId} {object : ObjectRecord} (needed : s.Needed oid) (found : s.objects.get oid = some object) :
    ∃ object', s'.objects.get oid = some object' ∧ object'.codec = object.codec := by
  have step := move.object inv oid
  rw [found] at step
  obtain ⟨id,task,there,live,use⟩ := needed
  generalize s'.objects.get oid = after at step
  cases step with
  | kept => exact ⟨object,rfl,rfl⟩
  | delivered reserved asked => exact absurd asked (undelivered _ _)
  | ended reserved final => exact ⟨_,rfl,rfl⟩
  | orphaned node =>
    rcases orphan_cases node object with ⟨same,_⟩ | ⟨_,_,⟨_,same⟩ | ⟨_,same⟩⟩
    all_goals rw [same]; exact ⟨_,rfl,rfl⟩
  | removed settled unused =>
    rcases use with rfl | argument
    · exact absurd ((inv.reserved_iff there found).mpr live) settled
    · have inUse : s.object_in_use oid = true :=
        object_in_use_iff.mpr ⟨id,task,there,live,List.mem_filterMap.mpr ⟨_,argument,rfl⟩⟩
      rw [unused] at inUse
      cases inUse

theorem Move.codecs (move : Move op s s') (inv : Consistent s)
    (codecs : ∀ id object, s.objects.get id = some object → object.codec.isSome = true) :
    ∀ id object, s'.objects.get id = some object → object.codec.isSome = true := by
  intro id object found
  have step := move.object inv id
  rw [found] at step
  cases there : s.objects.get id with
  | none =>
    rw [there] at step
    cases step <;> rfl
  | some old =>
    have before := codecs id old there
    rw [there] at step
    cases step with
    | kept => exact before
    | delivered => rfl
    | ended reserved final => exact before
    | orphaned node =>
      rcases orphan_cases node old with ⟨same,_⟩ | ⟨_,_,⟨_,same⟩ | ⟨_,same⟩⟩
      all_goals rw [same]; exact before

/-- A live task was live before, with the same operation, arguments and output. -/
theorem Move.live_before (move : Move op s s') (inv : Consistent s) (brings : op.resources = none) {id : TaskId}
    {task' : TaskRecord} (found : s'.tasks.get id = some task') (live : task'.state.is_terminal = false) :
    ∃ task, s.tasks.get id = some task ∧ task.state.is_terminal = false ∧
      task'.operation = task.operation ∧ task'.args = task.args ∧ task'.output = task.output := by
  have step := move.task inv id
  rw [found] at step
  cases there : s.tasks.get id with
  | none =>
    rw [there] at step
    cases step with
    | submitted submitted =>
      have some := submitted.resources
      rw [brings] at some
      cases some
  | some task =>
    rw [there] at step
    refine ⟨task,rfl,?_⟩
    cases step with
    | kept => exact ⟨live,rfl,rfl,rfl⟩
    | advanced before => exact ⟨before,rfl,rfl,rfl⟩
    | stamped ended now => exact ⟨live,rfl,rfl,rfl⟩

theorem Move.operations (move : Move op s s') (brings : op.resources = none) : s'.operations = s.operations := by
  cases move with
  | enroll absent enrolled =>
    have some := enrolled.resources
    rw [brings] at some
    cases some
  | _ => rfl

theorem Move.catalog (move : Move op s s') (brings : op.resources = none)
    (catalog : ∀ node worker key descriptor, s.workers.get node = some worker →
      worker.operations.get key = some descriptor → s.operations.get key = some descriptor) :
    ∀ node worker key descriptor, s'.workers.get node = some worker →
      worker.operations.get key = some descriptor → s'.operations.get key = some descriptor := by
  rw [move.operations brings]
  intro node worker key descriptor found
  refine move.workers (P := fun worker => worker.operations.get key = some descriptor →
    s.operations.get key = some descriptor) (fun node worker there => catalog node worker key descriptor there)
    (fun node worker enrolled => ?_) (fun _ _ held => held) (fun _ held => held) (fun _ _ _ held => held)
    (fun _ _ _ held => held) node worker found
  have some := enrolled.resources
  rw [brings] at some
  cases some

theorem Move.typed (move : Move op s s') (inv : Consistent s) (brings : op.resources = none)
    (undelivered : ∀ identity report, op ≠ .complete identity report) (typed : Typed s) : Typed s' where
  codecs := move.codecs inv typed.codecs
  tasks id task' found live := by
    obtain ⟨task,there,before,same⟩ := move.live_before inv brings found live
    refine (typed.tasks id task there before).later (fun key descriptor offered => ?_) same fun oid object use found => ?_
    · rw [move.operations brings]
      exact offered
    · exact move.needed inv undelivered ⟨id,task,there,before,use⟩ found
  catalog := move.catalog brings typed.catalog

theorem Moves.typed (moves : Moves op s s') (inv : Consistent s) (brings : op.resources = none)
    (undelivered : ∀ identity report, op ≠ .complete identity report) (typed : Typed s) : Typed s' :=
  (moves.keeps (P := fun t => Consistent t ∧ Typed t) (fun _ _ move now =>
    ⟨move.consistent now.1,move.typed now.1 brings undelivered now.2⟩) ⟨inv,typed⟩).2

/-! ### Registrations -/

/-- What a registration offers is known as it is offered, or not known yet. -/
theorem collect_operations_ok {known table operations : Table OperationKey OperationDescriptor}
    {descriptors : List OperationDescriptor} (ok : collect_operations known descriptors table = .ok operations)
    (base : ∀ key descriptor, table.get key = some descriptor → ∀ other, known.get key = some other → other = descriptor) :
    ∀ key descriptor, operations.get key = some descriptor → ∀ other, known.get key = some other → other = descriptor := by
  induction descriptors generalizing table with
  | nil =>
    cases ok
    exact base
  | cons first rest ih =>
    rw [collect_operations] at ok
    cases valid : first.validate with
    | error e =>
      rw [valid] at ok
      cases ok
    | ok _ =>
      simp only [valid,bind,Except.bind] at ok
      split at ok
      · cases ok
      split at ok
      · cases ok
      rename_i agrees
      refine ih ok fun key descriptor found other there => ?_
      rw [Table.get_insert] at found
      split at found
      · rename_i same
        subst same
        cases found
        by_contra different
        exact agrees (by simp [there,different])
      · exact base key descriptor found other there

theorem extend_grows {known operations : Table OperationKey OperationDescriptor}
    (agrees : ∀ key descriptor, operations.get key = some descriptor → ∀ other, known.get key = some other → other = descriptor)
    {key : OperationKey} (offered : known.get key = some descriptor) :
    (known.extend operations).get key = some descriptor := by
  rw [Table.get_extend]
  cases found : operations.get key with
  | none => exact offered
  | some other =>
    obtain rfl := agrees key other found descriptor offered
    rfl

/-! ### Submissions -/

theorem validate_args_ok
    (ok : descriptor.validate_args args = .ok ()) : ∀ codec bytes, TaskArg.Inline codec bytes ∈ args →
      codec = descriptor.input_codec ∧ UInt64.ofNat bytes.length ≤ descriptor.max_inline_arg_bytes := by
  fun_induction OperationDescriptor.validate_args descriptor args with
  | case1 => exact fun _ _ member => by cases member
  | case2 codec bytes rest mismatch => cases ok
  | case3 codec bytes rest same long => cases ok
  | case4 codec bytes rest same short ih =>
    intro codec' bytes' member
    rcases List.mem_cons.mp member with first | later
    · cases first
      exact ⟨not_not.mp same,UInt64.not_lt.mp short⟩
    · exact ih ok codec' bytes' later
  | case5 oid rest ih =>
    intro codec bytes member
    rcases List.mem_cons.mp member with first | later
    · cases first
    · exact ih ok codec bytes later

/-- The arguments of a submission that is accepted suit its operation. -/
theorem suits_of_admitted {blocked : Bool}
    (codecs : ∀ id object, s.objects.get id = some object → object.codec.isSome = true)
    (valid : descriptor.validate_args args = .ok ()) (admitted : s.admit_args descriptor.input_codec args false = .ok blocked) :
    ∀ arg ∈ args, s.Suits descriptor arg := by
  intro arg member
  cases arg with
  | Inline codec bytes => exact validate_args_ok valid codec bytes member
  | Object oid =>
    obtain ⟨object,there,same,_⟩ := (admit_args_ok admitted).1 oid (List.mem_filterMap.mpr ⟨_,member,rfl⟩)
    obtain ⟨codec,coded⟩ := Option.isSome_iff_exists.mp (codecs oid object there)
    refine ⟨object,there,?_⟩
    rw [coded] at same ⊢
    simpa using same

theorem typed_submitted {operation : OperationKey} {blocked : Bool}
    {id : TaskId} {output : ObjectId} {task : TaskRecord} (typed : Typed s)
    (offered : s.operations.get operation = some descriptor) (valid : descriptor.validate_args args = .ok ())
    (admitted : s.admit_args descriptor.input_codec args false = .ok blocked) (absent : s.objects.get output = none)
    (made : task.operation = operation ∧ task.args = args ∧ task.output = output) (operations : s'.operations = s.operations)
    (workers : s'.workers = s.workers)
    (objects : s'.objects = s.objects.insert output (reserved_record output descriptor.output_codec))
    (tasks : s'.tasks = s.tasks.insert id task) : Typed s' := by
  obtain ⟨rfl,rfl,rfl⟩ := made
  have kept : ∀ oid object, s.objects.get oid = some object → ∃ object', s'.objects.get oid = some object' ∧
      object'.codec = object.codec := by
    intro oid object there
    refine ⟨object,?_,rfl⟩
    rw [objects,Table.get_insert,if_neg,there]
    rintro rfl
    rw [absent] at there
    cases there
  constructor
  · intro oid object found
    rw [objects,Table.get_insert] at found
    split at found
    · cases found
      rfl
    · exact typed.codecs oid object found
  · intro id' task' found live
    rw [tasks,Table.get_insert] at found
    split at found
    · cases found
      refine ⟨descriptor,operations ▸ offered,fun arg member => ?_,_,by rw [objects,Table.get_insert,if_pos rfl],rfl⟩
      exact (suits_of_admitted typed.codecs valid admitted arg member).later fun oid object _ => kept oid object
    · exact (typed.tasks id' task' found live).later (fun key descriptor offered => operations ▸ offered) ⟨rfl,rfl,rfl⟩
        fun oid object _ => kept oid object
  · rw [operations,workers]
    exact typed.catalog

/-! ### Reports -/

/-- The worker that completes a task delivers what was promised. -/
theorem typed_completed (identity : WorkerIdentity) {report : TaskCompletion} {task : TaskRecord}
    {id : TaskId} {workers : Table NodeId WorkerRecord} (typed : Typed s) (found : s.tasks.get id = some task)
    (live : task.state.is_terminal = false) (offered : s.operations.get task.operation = some descriptor)
    (codec : report.codec = descriptor.output_codec)
    (catalog : ∀ node worker key descriptor, workers.get node = some worker →
      worker.operations.get key = some descriptor → s.operations.get key = some descriptor) :
    Typed { s with
      workers
      tasks := s.tasks.modify id fun task => { task with state := .Succeeded, assigned := none }
      objects := s.objects.modify task.output (reported_output identity report) } := by
  have promised : ∀ object, s.objects.get task.output = some object → object.codec = some report.codec := by
    intro object there
    obtain ⟨descriptor',offered',_,object',there',promise⟩ := typed.tasks id task found live
    rw [offered] at offered'
    cases offered'
    rw [there] at there'
    cases there'
    rw [promise,codec]
  constructor
  · intro oid object found
    rw [Table.get_modify] at found
    split at found
    · obtain ⟨old,_,rfl⟩ := Option.map_eq_some_iff.mp found
      rfl
    · exact typed.codecs oid object found
  · intro id' task' found' live'
    rw [Table.get_modify] at found'
    split at found'
    · obtain ⟨old,_,rfl⟩ := Option.map_eq_some_iff.mp found'
      cases live'
    refine (typed.tasks id' task' found' live').later (fun _ _ offered => offered) ⟨rfl,rfl,rfl⟩ fun oid object _ there => ?_
    by_cases same : oid = task.output
    · subst same
      exact ⟨reported_output identity report object,by simp [there],(promised object there).symm⟩
    · exact ⟨object,by simp [same,there],rfl⟩
  · exact catalog

/-! ### Every effect keeps the types -/

variable {blake3 : List UInt8 → Checksum} {reply : Reply}

theorem Effect.typed (effect : Effect blake3 op s reply s') (inv : Consistent s) (newTo : op.NewTo s) (typed : Typed s) :
    Typed s' := by
  have moves := effect.moves newTo
  cases effect with
  | renewed collected found same =>
    refine ⟨typed.codecs,typed.tasks,fun node worker key descriptor there => ?_⟩
    rw [Table.get_modify] at there
    split at there
    · obtain ⟨old,was,rfl⟩ := Option.map_eq_some_iff.mp there
      exact typed.catalog node old key descriptor was
    · exact typed.catalog node worker key descriptor there
  | enrolled address collected absent =>
    have agrees := collect_operations_ok collected (by simp)
    refine ⟨typed.codecs,fun id task found live => ?_,fun node worker key descriptor there held => ?_⟩
    · exact (typed.tasks id task found live).later (fun _ _ offered => extend_grows agrees offered) ⟨rfl,rfl,rfl⟩
        fun oid object _ there => ⟨object,there,rfl⟩
    · rw [Table.get_insert] at there
      split at there
      · cases there
        rw [Table.get_extend,held]
        rfl
      · exact extend_grows agrees (typed.catalog node worker key descriptor there held)
  | submitted attempts offered valid capable admitted =>
    exact typed_submitted typed offered valid admitted newTo.2.2 ⟨rfl,rfl,rfl⟩ rfl rfl rfl rfl
  | completed_before => exact typed
  | @completed _ _ identity report _ _ _ _ _ current matching found state at_worker living offered verified output accepted freed
      ripples =>
    have move : Move (.complete identity report) s _ :=
      .complete rfl found state (matching.assigned found) at_worker living accepted.2.2.1 accepted.2.2.2 freed
    have delivered := typed_completed identity typed found (live_of_dispatched state) offered accepted.2.1
      (move.catalog rfl typed.catalog)
    have settled := (ripples.moves (.reap_terminal_tasks 0)).typed (move.consistent inv) rfl nofun delivered
    exact ⟨settled.codecs,settled.tasks,settled.catalog⟩
  | _ => exact moves.typed inv rfl nofun typed

/-- What is known about an operation stays known. -/
theorem Effect.operations_stay (effect : Effect blake3 op s reply s') (newTo : op.NewTo s) {key : OperationKey}
    (offered : s.operations.get key = some descriptor) : s'.operations.get key = some descriptor := by
  have moves := effect.moves newTo
  have unchanged : op.resources = none → s'.operations.get key = some descriptor := fun brings =>
    moves.keeps (P := fun t => t.operations.get key = some descriptor)
      (fun t t' move there => by rw [move.operations brings]; exact there) offered
  cases effect with
  | renewed => exact offered
  | enrolled address collected absent => exact extend_grows (collect_operations_ok collected (by simp)) offered
  | submitted => exact offered
  | _ => exact unchanged rfl

end

/-! ### Runs -/

section
variable {blake3 : List UInt8 → Checksum} {epoch : CoordinatorEpoch} {past later : List Step} {s s' : CoordinatorState}

theorem Run.typed (run : Run blake3 epoch past s) : Typed s := by
  refine run.keeps (new_typed epoch) fun inv newTo effect typed => ?_
  exact effect.typed inv.consistent newTo typed

theorem Run.operations_stay (earlier : Run blake3 epoch past s) (run : Run blake3 epoch (later ++ past) s')
    {key : OperationKey} {descriptor : OperationDescriptor} (offered : s.operations.get key = some descriptor) :
    s'.operations.get key = some descriptor := by
  induction later generalizing s' with
  | nil =>
    obtain rfl := earlier.unique run
    exact offered
  | cons last later ih =>
    cases run with
    | step run order op fresh =>
      have before := ih run
      exact apply_keeps blake3 order run.inv (P := fun t => t.operations.get key = some descriptor) before
        fun reply s' effect => effect.operations_stay (run.newTo fresh) before

/-- An assignment whose arguments suit its operation. -/
def WellTyped (s : CoordinatorState) (assignment : TaskAssignment) : Prop :=
  ∃ descriptor, s.operations.get assignment.operation = some descriptor ∧ ∀ arg ∈ assignment.args, s.Suits descriptor arg

/-- What a worker is sent is well typed, and the worker describes the operation as the coordinator does. -/
theorem Typed.assign_next (typed : Typed s) (inv : Consistent s) {node : NodeId} {now : Nat} {lease : LeaseId}
    {assignment : TaskAssignment} (ran : CoordinatorState.assign_next node now lease s = .ok (some assignment) s') :
    s'.WellTyped assignment ∧ ∃ worker, s.workers.get node = some worker ∧
      worker.operations.get assignment.operation = s'.operations.get assignment.operation := by
  have atomic := assign_next_effect (fun _ => Vector.replicate 32 0) inv node now lease
  rw [ran] at atomic
  cases atomic with
  | @assigned _ _ _ _ id _ task worker _ requeued found at_worker alive free servable =>
    obtain ⟨descriptor,offered,suits,_⟩ := typed.tasks id task found (by rw [servable.runnable]; rfl)
    refine ⟨⟨descriptor,offered,suits⟩,worker,at_worker,?_⟩
    obtain ⟨own,offers⟩ := Option.isSome_iff_exists.mp servable.capable.1
    exact offers.trans (typed.catalog _ worker _ own at_worker offers).symm

theorem Typed.assigned_unstarted (typed : Typed s) {order : HashOrder} {identity : WorkerIdentity} {assignment : TaskAssignment}
    (ran : CoordinatorState.assigned_unstarted order identity s = .ok (some assignment) s') : s'.WellTyped assignment := by
  rcases check_identity_cases s identity with stale | ⟨passed,_⟩
  · simp [CoordinatorState.assigned_unstarted,stale] at ran
  simp only [CoordinatorState.assigned_unstarted,bind_apply,passed,get_apply,pure_apply] at ran
  obtain ⟨first,rfl⟩ := EStateM.Result.ok.inj ran
  obtain ⟨task,member,sent⟩ := List.exists_of_findSome?_eq_some first
  obtain ⟨id,found⟩ := Table.mem_values.mp member
  cases assigned : task.assigned with
  | none =>
    rw [assigned] at sent
    cases sent
  | some a =>
    rw [assigned] at sent
    dsimp only at sent
    split at sent
    · rename_i held
      obtain rfl := Option.some.inj sent
      rw [Bool.and_eq_true,decide_eq_true_eq] at held
      obtain ⟨descriptor,offered,suits,_⟩ := typed.tasks id task found (by rw [held.1]; rfl)
      exact ⟨descriptor,offered,suits⟩
    · cases sent

/-- In every state of a run the arguments of live tasks suit their operations, the workers
    describe operations as the coordinator does, and what is known about an operation stays so;
    hence every assignment is well typed. -/
theorem run_typed (run : Run blake3 epoch past s) :
    (∀ id task, s.tasks.get id = some task → task.state.is_terminal = false →
      ∃ descriptor, s.operations.get task.operation = some descriptor ∧ ∀ arg ∈ task.args, s.Suits descriptor arg) ∧
    (∀ later s', Run blake3 epoch (later ++ past) s' → ∀ key descriptor,
      s.operations.get key = some descriptor → s'.operations.get key = some descriptor) ∧
    (∀ node worker key descriptor, s.workers.get node = some worker →
      worker.operations.get key = some descriptor → s.operations.get key = some descriptor) ∧
    (∀ node now lease assignment s', assign_next node now lease s = .ok (some assignment) s' →
      s'.WellTyped assignment ∧ ∃ worker, s.workers.get node = some worker ∧
        worker.operations.get assignment.operation = s'.operations.get assignment.operation) ∧
    ∀ order identity assignment s', assigned_unstarted order identity s = .ok (some assignment) s' →
      s'.WellTyped assignment := by
  have typed := run.typed
  refine ⟨?_,?_,typed.catalog,?_,?_⟩
  · intro id task found live
    obtain ⟨descriptor,offered,suits,_⟩ := typed.tasks id task found live
    exact ⟨descriptor,offered,suits⟩
  · exact fun later s' run' key descriptor offered => run.operations_stay run' offered
  · exact fun node now lease assignment s' ran => typed.assign_next run.inv.consistent ran
  · exact fun order identity assignment s' ran => typed.assigned_unstarted ran

end

/-- A task that takes an output which is still to be produced. -/
theorem chain_typed : (chainState.objects.get smallOutput).map (·.state) = some .Reserved ∧
    (chainState.tasks.get chainSecond.id).map (·.args) = some [.Object smallOutput] ∧
    ∃ object, chainState.objects.get smallOutput = some object ∧ object.codec = some .JsonV1 := by
  have second : chainState.tasks.get chainSecond.id = some chainSecond := by decide +kernel
  obtain ⟨descriptor,offered,suits⟩ := (run_typed chain_run).1 chainSecond.id chainSecond second (by decide)
  have known : chainState.operations.get chainSecond.operation = some ⟨smallKey,.JsonV1,.JsonV1,64⟩ := by decide +kernel
  rw [known] at offered
  cases offered
  exact ⟨by decide +kernel,by rw [second]; rfl,suits (.Object smallOutput) List.mem_cons_self⟩

end Crayon.CoordinatorState
