import Crayon.Dataflow
import Crayon.Execution
import Crayon.Fifo
import Crayon.Sessions
import Crayon.Turns

/-!
What the coordinator and its workers compute. The puts and the submissions of a run are
a graph of computations (`graph`): an object that was put is a source, and the output of
a task applies the task's operation to its arguments. Workers come and go, attempts fail
and are made again, objects move and are lost; but if every report comes of an execution
(`Faithful`) and a mapped arena shows what the records tell of (`Site.Truthful`), whatever
a reader accepts as the content of an object is a value of that object in the graph
(`run_serves_values`). An object that was put without a digest has any bytes as a value
(`Passes`). Where all are put under digests that tell contents apart, and operations are
functions, runs that were asked the same agree on every object (`run_reads_agree`).
-/
namespace Crayon
open CoordinatorState Command

/-- An argument of a task, in the graph. -/
def TaskArg.toArg : TaskArg → Dataflow.Arg ObjectId (List UInt8)
  | .Inline _ bytes => .const bytes
  | .Object id => .node id

namespace CoordinatorState

/-! ### The graph of a run -/

section
variable (blake3 : List UInt8 → Checksum)

/-- The bytes pass for those with the digest. All zeros are no digest, and let any bytes pass. -/
def Passes (checksum : Checksum) (bytes : List UInt8) : Prop := checksum = .replicate 32 0 ∨ blake3 bytes = checksum

/-- What a put stores under the id passes for the bytes. -/
inductive Step.Stores (step : Step) (id : ObjectId) (bytes : List UInt8) : Prop where
  | put {codec : Codec} {given : List UInt8} {outcome : PutOutcome} {s' : CoordinatorState}
      (asked : step.op = .put codec given) (done : step.outcome = .ok (.Put outcome) s')
      (same : id = .from_checksum (blake3 given)) (passes : Passes blake3 (blake3 given) bytes)
  | put_meta {codec : Codec} {size_bytes : UInt64} {checksum : Checksum} {s' : CoordinatorState}
      (asked : step.op = .put_meta id codec size_bytes checksum) (done : step.outcome = .ok (.Object id) s')
      (passes : Passes blake3 checksum bytes)

/-- The step accepts the task. -/
def Step.Submits (step : Step) (operation : OperationKey) (args : List TaskArg) (task : TaskId) (output : ObjectId) : Prop :=
  ∃ resources max_attempts s', step.op = .submit operation args resources max_attempts task output ∧
    step.outcome = .ok (.Submitted task output) s'

/-- What was put and submitted. Only such contents count as are told of. -/
def graph (contents : Set (List UInt8)) (past : List Step) : Dataflow.Graph ObjectId OperationKey (List UInt8) where
  source id bytes := bytes ∈ contents ∧ ∃ step ∈ past, step.Stores blake3 id bytes
  applies id operation args :=
    ∃ step ∈ past, ∃ taken task, step.Submits operation taken task id ∧ args = taken.map TaskArg.toArg

theorem graph_part (contents : Set (List UInt8)) {past later : List Step} (grows : past ⊆ later) :
    (graph blake3 contents past).Part (graph blake3 contents later) where
  source := by
    rintro id bytes ⟨counts,step,member,stores⟩
    exact ⟨counts,step,grows member,stores⟩
  applies := by
    rintro id operation args ⟨step,member,submits⟩
    exact ⟨step,grows member,submits⟩

/-- The operation puts or submits something. -/
def Op.Asks : Op → Prop
  | .put _ _ | .put_meta _ _ _ _ | .submit _ _ _ _ _ _ => True
  | _ => False

theorem Step.Stores.asks {step : Step} {id : ObjectId} {bytes : List UInt8} (stores : step.Stores blake3 id bytes) :
    step.op.Asks := by
  cases stores with
  | put asked => rw [asked]; trivial
  | put_meta asked => rw [asked]; trivial

/-- Nothing else adds to the graph. -/
theorem graph_unasked (contents : Set (List UInt8)) {step : Step} {past : List Step} (unasked : ¬ step.op.Asks) :
    graph blake3 contents (step :: past) = graph blake3 contents past := by
  have stores : ∀ id bytes, ¬ step.Stores blake3 id bytes := fun id bytes stores => unasked stores.asks
  have submits : ∀ operation args task output, ¬ step.Submits operation args task output := by
    rintro operation args task output ⟨_,_,_,asked,_⟩
    exact unasked (by rw [asked]; trivial)
  simp [graph,stores,submits]

/-- What passes for the result of an operation that some worker of the fleet executes. -/
def Executes (contents : Set (List UInt8)) (fleet : OperationRegistry → Prop) (operation : OperationKey)
    (inputs : List (List UInt8)) (bytes : List UInt8) : Prop :=
  bytes ∈ contents ∧ ∃ registry assignment buffer, fleet registry ∧ assignment.operation = operation ∧
    registry.execute assignment inputs = .ok buffer ∧ Passes blake3 (blake3 buffer.bytes) bytes

/-! ### Reports that come of executions -/

/-- A state of the run, or the one that it has led to. -/
def Seen (past : List Step) (s t : CoordinatorState) : Prop := t = s ∨ ∃ step ∈ past, step.before = t

/-- The coordinator has sent the assignment, or could send it again. -/
def Issued (past : List Step) (s : CoordinatorState) (assignment : TaskAssignment) : Prop :=
  (∃ step ∈ past, ∃ s', step.outcome = .ok (.Assignment (some assignment)) s') ∨
    ∃ t order identity, Seen past s t ∧ assigned_unstarted order identity t = .ok (some assignment) t

/-- A reader of the run's objects, with the same digests, whom the mapping shows what the records tell of. -/
structure Reader (past : List Step) (s : CoordinatorState) (site : Site) : Prop where
  blake3 : site.blake3 = blake3
  truthful : site.Truthful
  seen : Seen past s site.server.state

/-- The report comes of the execution of an assignment that was sent, by a worker of the fleet,
    for inputs that were fetched along the run and count. -/
structure Faithful (contents : Set (List UInt8)) (fleet : OperationRegistry → Prop) (past : List Step) (s : CoordinatorState)
    (report : TaskCompletion) : Prop where
  executed : ∃ config registry objects sites assignment next, fleet registry ∧ Issued past s assignment ∧
    sites.length = assignment.args.length ∧ (∀ site ∈ sites, Reader blake3 past s site) ∧
    (∀ inputs, fetch_inputs (sites.zip assignment.args) = .ok inputs → ∀ bytes ∈ inputs, bytes ∈ contents) ∧
    execute_assignment blake3 config registry objects sites assignment = .ok (report,next)

/-- Every report of an output is faithful. -/
def Genuine (contents : Set (List UInt8)) (fleet : OperationRegistry → Prop) : List Step → Prop
  | [] => True
  | step :: past => Genuine contents fleet past ∧
      ∀ identity report, step.op = .complete identity report → Faithful blake3 contents fleet past step.before report

end

section
variable {blake3 : List UInt8 → Checksum} {epoch : CoordinatorEpoch} {past : List Step} {s s' : CoordinatorState} {op : Op}
variable {bytes : List UInt8} {id : ObjectId} {contents : Set (List UInt8)}

/-! ### Tasks and where they come from -/

/-- The states of a run are those of shorter runs. -/
theorem Run.seen (run : Run blake3 epoch past s) {t : CoordinatorState} (seen : Seen past s t) :
    ∃ earlier, Run blake3 epoch earlier t ∧ earlier ⊆ past := by
  rcases seen with rfl | ⟨step,member,rfl⟩
  · exact ⟨past,run,List.Subset.refl _⟩
  · obtain ⟨later,earlier,rfl⟩ := List.append_of_mem member
    exact ⟨earlier,run.before.1,fun step member => List.mem_append_right _ (List.mem_cons_of_mem _ member)⟩

/-- Only one step draws an id. -/
theorem Run.drawn_by_one (run : Run blake3 epoch past s) {first second : Step} (member : first ∈ past) (member' : second ∈ past)
    {m : Minted} (drawn : m ∈ first.op.minted) (drawn' : m ∈ second.op.minted) : first = second := by
  obtain ⟨later,earlier,rfl⟩ := List.append_of_mem member
  have apart := run.drawn_once ⟨first,List.mem_cons_self,drawn⟩
  obtain ⟨run',ran⟩ := run.before
  have here := run.at
  cases here with
  | step _ order op fresh =>
    rcases List.mem_append.mp member' with after | now
    · exact absurd drawn' (apart second after)
    · rcases List.mem_cons.mp now with rfl | before
      · rfl
      · exact absurd drawn' ((fresh m drawn).1 second before)

/-- A task keeps its operation, its arguments and its output. -/
theorem Moves.same_task (moves : Moves op s s') (inv : Consistent s) {id : TaskId} {task' : TaskRecord}
    (found : s'.tasks.get id = some task') : (∃ task, s.tasks.get id = some task ∧
      task'.operation = task.operation ∧ task'.args = task.args ∧ task'.output = task.output) ∨ .task id ∈ op.minted := by
  induction moves generalizing task' with
  | refl => exact .inl ⟨task',found,rfl,rfl,rfl⟩
  | tail before move ih =>
    have step := move.task (Moves.consistent before inv) id
    rw [found] at step
    generalize there : Table.get _ id = record at step
    cases step with
    | kept => exact ih there
    | submitted submitted => exact .inr submitted.minted
    | advanced live state attempt assigned not_before_ms =>
      have earlier := ih there
      exact earlier
    | stamped ended terminal_since_ms =>
      have earlier := ih there
      exact earlier

/-- Every task was submitted. -/
theorem Run.submits (run : Run blake3 epoch past s) {id : TaskId} {task : TaskRecord} (found : s.tasks.get id = some task) :
    ∃ step ∈ past, step.Submits task.operation task.args id task.output := by
  induction run generalizing id task with
  | start => cases found
  | @step past s run order op fresh ih =>
    have older : (∃ task', s.tasks.get id = some task' ∧ task.operation = task'.operation ∧ task.args = task'.args ∧
        task.output = task'.output) → ∃ step ∈ (⟨order,op,s,apply blake3 order op s⟩ :: past : List Step),
          step.Submits task.operation task.args id task.output := by
      rintro ⟨task',found,operation,args,output⟩
      obtain ⟨step,member,submits⟩ := ih found
      exact ⟨step,List.mem_cons_of_mem _ member,by rwa [operation,args,output]⟩
    rcases (apply_effect blake3 order run.inv.consistent run.inv.alive op).returned_or_failed with
      ⟨reply,t,ran,effect⟩ | ⟨error,ran⟩
    · rw [ran,Outcome.state_ok] at found
      rcases (effect.moves (run.newTo fresh)).same_task run.inv.consistent found with old | drawn
      · exact older old
      · refine ⟨_,List.mem_cons_self,?_⟩
        cases effect with
        | submitted attempts offered valid capable admitted =>
          obtain rfl : id = _ := by simpa [Op.minted] using drawn
          simp only [Table.get_insert,if_pos] at found
          cases found
          exact ⟨_,_,_,rfl,ran⟩
        | _ => simp [Op.minted] at drawn
    · rw [ran,Outcome.state_error] at found
      exact older ⟨task,found,rfl,rfl,rfl⟩

theorem Step.Submits.minted {step : Step} {operation : OperationKey} {args : List TaskArg} {task : TaskId} {output : ObjectId}
    (submits : step.Submits operation args task output) :
    .task task ∈ step.op.minted ∧ .object output ∈ step.op.minted := by
  obtain ⟨_,_,_,asked,_⟩ := submits
  rw [asked]
  simp [Op.minted]

/-- A task, or an output, is submitted once. -/
theorem Run.submits_once (run : Run blake3 epoch past s) {step step' : Step} (member : step ∈ past) (member' : step' ∈ past)
    {operation operation' : OperationKey} {args args' : List TaskArg} {task task' : TaskId} {output output' : ObjectId}
    (submits : step.Submits operation args task output) (submits' : step'.Submits operation' args' task' output')
    (same : task = task' ∨ output = output') : operation = operation' ∧ args = args' ∧ output = output' := by
  obtain rfl : step = step' := by
    rcases same with rfl | rfl
    · exact run.drawn_by_one member member' submits.minted.1 submits'.minted.1
    · exact run.drawn_by_one member member' submits.minted.2 submits'.minted.2
  obtain ⟨_,_,_,asked,_⟩ := submits
  obtain ⟨_,_,_,asked',_⟩ := submits'
  rw [asked] at asked'
  cases asked'
  exact ⟨rfl,rfl,rfl⟩

/-- What is sent to a worker describes a task. -/
theorem Effect.sends {assignment : TaskAssignment} (effect : Effect blake3 op s (.Assignment (some assignment)) s') :
    ∃ task, s.tasks.get assignment.fence.task_id = some task ∧ Describes assignment task := by
  cases effect with
  | assigned requeued found at_worker alive free servable budget taken assigns owned hits => exact ⟨_,found,rfl,rfl,rfl⟩

/-- What is sent to a worker describes a task as it was submitted. -/
theorem Run.issued (run : Run blake3 epoch past s) {assignment : TaskAssignment} (issued : Issued past s assignment) :
    ∃ step ∈ past, ∃ output, step.Submits assignment.operation assignment.args assignment.fence.task_id output := by
  have described : ∀ {t task}, Seen past s t → t.tasks.get assignment.fence.task_id = some task → Describes assignment task →
      ∃ step ∈ past, ∃ output, step.Submits assignment.operation assignment.args assignment.fence.task_id output := by
    rintro t task seen found ⟨operation,args,_⟩
    obtain ⟨earlier,run',part⟩ := run.seen seen
    obtain ⟨step,member,submits⟩ := run'.submits found
    exact ⟨step,part member,task.output,by rwa [operation,args]⟩
  rcases issued with ⟨step,member,s',sent⟩ | ⟨t,order,identity,seen,sent⟩
  · obtain ⟨later,earlier,rfl⟩ := List.append_of_mem member
    obtain ⟨run',ran⟩ := run.before
    have effect := apply_effect blake3 step.order run'.inv.consistent run'.inv.alive step.op
    rw [← ran,sent] at effect
    obtain ⟨task,found,describes⟩ := Effect.sends effect
    exact described (.inr ⟨step,member,rfl⟩) found describes
  · obtain ⟨earlier,run',_⟩ := run.seen seen
    rcases check_identity_cases t identity with stale | ⟨_,current⟩
    · simp [assigned_unstarted,stale] at sent
    · rcases assigned_unstarted_cases order current with ⟨id,task,a,unstarted,told⟩ | ⟨_,told⟩
      · rw [told] at sent
        cases sent
        obtain rfl := run'.inv.consistent.task_ids id task unstarted.found
        exact described seen unstarted.found ⟨rfl,rfl,rfl⟩
      · rw [told] at sent
        cases sent

/-! ### Objects and where they come from -/

/-- A record tells of contents that the bytes pass for. -/
def Tells (blake3 : List UInt8 → Checksum) (s : CoordinatorState) (id : ObjectId) (bytes : List UInt8) : Prop :=
  ∃ object checksum, s.objects.get id = some object ∧ object.state = .Available ∧ object.checksum = some checksum ∧
    Passes blake3 checksum bytes

/-- Only puts and reports bring contents in. -/
theorem Moves.tells (moves : Moves op s s') (inv : Consistent s)
    (unstored : ∀ codec size_bytes checksum bytes, op ≠ .storing id codec size_bytes checksum bytes)
    (unreported : ∀ identity report, op ≠ .complete identity report) (tells : Tells blake3 s' id bytes) :
    Tells blake3 s id bytes := by
  induction moves with
  | refl => exact tells
  | tail before move ih =>
    obtain ⟨object',checksum,found,available,digest,passes⟩ := tells
    have step := move.object (Moves.consistent before inv) id
    rw [found] at step
    generalize there : Table.get _ id = record at step
    cases step with
    | kept => exact ih ⟨object',checksum,there,available,digest,passes⟩
    | stored source => exact absurd source (unstored _ _ _ _)
    | reserved codec drawn => cases available
    | delivered reserved asked at_worker location small => exact absurd asked (unreported _ _)
    | @ended object state reserved final =>
      obtain rfl : state = .Available := available
      rcases final with wrong | wrong <;> cases wrong
    | @orphaned object node =>
      rcases orphan_cases node object with ⟨same,_⟩ | ⟨_,owned,⟨_,same⟩ | ⟨_,same⟩⟩
      · rw [same] at available digest
        exact ih ⟨object,checksum,there,available,digest,passes⟩
      · rw [same] at digest
        exact ih ⟨object,checksum,there,owned,digest,passes⟩
      · rw [same] at available
        cases available

theorem Ripples.tells (ripples : Ripples s s') (tells : Tells blake3 s' id bytes) : Tells blake3 s id bytes := by
  induction ripples with
  | refl => exact tells
  | tail _ ripple ih =>
    cases ripple with
    | wake => exact ih tells
    | starve found state failed =>
      obtain ⟨object',checksum,there,available,digest,passes⟩ := tells
      rw [Table.get_modify] at there
      split at there
      · obtain ⟨object,_,rfl⟩ := Option.map_eq_some_iff.mp there
        cases available
      · exact ih ⟨object',checksum,there,available,digest,passes⟩

theorem Admitted.tells {id id' : ObjectId} {codec : Codec} {size_bytes : UInt64} {checksum : Checksum}
    {inline : Option (List UInt8)} (admitted : Admitted s id' codec size_bytes checksum inline s')
    (tells : Tells blake3 s' id bytes) : Tells blake3 s id bytes ∨ id = id' ∧ Passes blake3 checksum bytes := by
  cases admitted with
  | known => exact .inl tells
  | stored absent =>
    obtain ⟨object',checksum',there,available,digest,passes⟩ := tells
    rw [Table.get_insert] at there
    split at there
    · rename_i same
      cases there
      cases digest
      exact .inr ⟨same,passes⟩
    · exact .inl ⟨object',checksum',there,available,digest,passes⟩

/-- What an operation makes a record tell of: what was told of before, what is put, or what is reported. -/
theorem Effect.tells {reply : Reply} (effect : Effect blake3 op s reply s') (inv : Consistent s) (newTo : op.NewTo s)
    (tells : Tells blake3 s' id bytes) : Tells blake3 s id bytes ∨
      (∀ step : Step, step.op = op → step.outcome = .ok reply s' → step.Stores blake3 id bytes) ∨
      ∃ identity report task, op = .complete identity report ∧ s.tasks.get report.fence.task_id = some task ∧
        task.output = id ∧ Passes blake3 report.checksum bytes := by
  cases op with
  | put codec given =>
    cases effect with
    | put admitted =>
      rcases admitted.tells tells with before | ⟨same,passes⟩
      · exact .inl before
      · exact .inr (.inl fun step asked done => .put asked done same passes)
  | put_meta id' codec size_bytes checksum =>
    cases effect with
    | put_meta admitted =>
      rcases admitted.tells tells with before | ⟨rfl,passes⟩
      · exact .inl before
      · exact .inr (.inl fun step asked done => .put_meta asked done passes)
  | complete identity report =>
    cases effect with
    | completed_before => exact .inl tells
    | @completed _ t _ _ task _ _ _ _ current matching found state at_worker living offered verified output accepted freed ripples
        reconciled =>
      have before : Tells blake3 t id bytes := tells
      obtain ⟨object',checksum,there,available,digest,passes⟩ := ripples.tells before
      rw [Table.get_modify] at there
      split at there
      · rename_i same
        obtain ⟨object,_,rfl⟩ := Option.map_eq_some_iff.mp there
        cases digest
        exact .inr (.inr ⟨identity,report,task,rfl,found,same.symm,passes⟩)
      · exact .inl ⟨object',checksum,there,available,digest,passes⟩
  | _ =>
    refine .inl ((effect.moves newTo).tells inv ?_ ?_ tells)
    · rintro codec size_bytes checksum (_ | bytes) ⟨⟩
    · rintro identity report ⟨⟩

/-! ### Values -/

/-- What a reader gets, a record tells of. -/
theorem Reader.tells {site : Site} {codec : Codec} (run : Run blake3 epoch past s)
    (reader : Reader blake3 past s site) (got : site.get_bytes id = .ok (codec,bytes)) :
    Tells blake3 site.server.state id bytes := by
  obtain ⟨earlier,run',_⟩ := run.seen reader.seen
  obtain ⟨payload,rfl,⟨object,found,available,_,_,digest,_⟩,_,passes⟩ := Site.get_bytes_verified run'.inv reader.truthful got
  exact ⟨object,payload.checksum,found,available,digest,reader.blake3 ▸ passes⟩

/-- What is fetched for the arguments of a task are values that they can have together. -/
theorem fetch_inputs_values {G : Dataflow.Graph ObjectId OperationKey (List UInt8)}
    {executes : OperationKey → List (List UInt8) → List UInt8 → Prop} {sites : List Site} {args : List TaskArg}
    {inputs : List (List UInt8)} (lengths : sites.length = args.length)
    (reads : ∀ site ∈ sites, ∀ id codec bytes, site.get_bytes id = .ok (codec,bytes) → bytes ∈ inputs →
      Dataflow.Value executes G id bytes) (fetched : fetch_inputs (sites.zip args) = .ok inputs) :
    Dataflow.Values executes G (args.map TaskArg.toArg) inputs := by
  induction args generalizing sites inputs with
  | nil =>
    rw [List.zip_nil_right] at fetched
    cases fetched
    exact .nil
  | cons arg args ih =>
    cases sites with
    | nil => cases lengths
    | cons site sites =>
      have lengths' : sites.length = args.length := Nat.succ.inj lengths
      obtain ⟨here,others⟩ := List.forall_mem_cons.mp reads
      cases arg with
      | Inline codec bytes =>
        obtain ⟨rest,fetched',same⟩ := except_bind_ok fetched
        cases same
        exact .const (ih lengths' (fun site member id codec bytes got listed =>
          others site member id codec bytes got (List.mem_cons_of_mem _ listed)) fetched')
      | Object id =>
        obtain ⟨⟨codec,bytes⟩,got,followed⟩ := except_bind_ok fetched
        obtain ⟨rest,fetched',same⟩ := except_bind_ok followed
        cases same
        exact .node (here id codec bytes got List.mem_cons_self) (ih lengths' (fun site member id codec bytes got listed =>
          others site member id codec bytes got (List.mem_cons_of_mem _ listed)) fetched')

/-- In every state of a run, what a record tells of is a value of the object. -/
theorem Run.values {fleet : OperationRegistry → Prop} (run : Run blake3 epoch past s)
    (genuine : Genuine blake3 contents fleet past) {t : CoordinatorState} (seen : Seen past s t)
    (counts : bytes ∈ contents) (tells : Tells blake3 t id bytes) :
    Dataflow.Value (Executes blake3 contents fleet) (graph blake3 contents past) id bytes := by
  induction run generalizing t id bytes with
  | start =>
    obtain ⟨_,_,found,_⟩ := tells
    rcases seen with rfl | ⟨step,member,_⟩
    · cases found
    · cases member
  | @step past s run order op fresh ih =>
    have part := graph_part blake3 contents (List.subset_cons_self ⟨order,op,s,apply blake3 order op s⟩ past)
    have before : ∀ {t id bytes}, Seen past s t → bytes ∈ contents → Tells blake3 t id bytes →
        Dataflow.Value (Executes blake3 contents fleet) (graph blake3 contents past) id bytes :=
      fun seen => ih genuine.1 seen
    rcases seen with rfl | ⟨step,member,rfl⟩
    · rcases (apply_effect blake3 order run.inv.consistent run.inv.alive op).returned_or_failed with
        ⟨reply,t,ran,effect⟩ | ⟨error,ran⟩
      · rw [ran,Outcome.state_ok] at tells
        rcases effect.tells run.inv.consistent (run.newTo fresh) tells with
          old | stores | ⟨identity,report,task,asked,found,rfl,passes⟩
        · exact (before (.inl rfl) counts old).part part
        · exact .source ⟨counts,_,List.mem_cons_self,stores _ rfl ran⟩ .nil
        · obtain ⟨config,registry,objects,sites,assignment,next,member,issued,lengths,readers,count,executed⟩ :=
            (genuine.2 identity report asked).executed
          obtain ⟨inputs,buffer,fetched,returned,fence,digest⟩ := execute_assignment_reports executed
          have arguments : Dataflow.Values (Executes blake3 contents fleet) (graph blake3 contents past)
              (assignment.args.map TaskArg.toArg) inputs :=
            fetch_inputs_values lengths (fun site member id codec bytes got listed =>
              before (readers site member).seen (count inputs fetched bytes listed) ((readers site member).tells run got)) fetched
          -- The assignment is that of the task, since no task id is drawn twice.
          obtain ⟨first,there,submits⟩ := run.submits found
          obtain ⟨second,there',output,submits'⟩ := run.issued issued
          obtain ⟨operation,args,_⟩ := run.submits_once there there' submits submits' (.inl (by rw [fence]))
          have applies : (graph blake3 contents past).applies task.output assignment.operation
              (assignment.args.map TaskArg.toArg) := ⟨first,there,_,_,operation ▸ args ▸ submits,rfl⟩
          have result : Executes blake3 contents fleet assignment.operation inputs bytes :=
            ⟨counts,registry,assignment,buffer,member,rfl,returned,digest ▸ passes⟩
          exact Dataflow.Value.part part (.applied applies arguments result .nil)
      · rw [ran,Outcome.state_error] at tells
        exact (before (.inl rfl) counts tells).part part
    · rcases List.mem_cons.mp member with rfl | old
      · exact (before (.inl rfl) counts tells).part part
      · exact (before (.inr ⟨step,old,rfl⟩) counts tells).part part

/-- If every report along a run comes of an execution, then whatever a reader gets, whom the mapping shows what the records
    tell of, is a value of the object in the graph of what was put and submitted; this says nothing of an object that was put
    without a digest, of which any bytes are a value. -/
theorem run_serves_values {contents : Set (List UInt8)} {fleet : OperationRegistry → Prop} (run : Run blake3 epoch past s)
    (genuine : Genuine blake3 contents fleet past) {site : Site} (reader : Reader blake3 past s site) {id : ObjectId}
    {codec : Codec} {bytes : List UInt8} (got : site.get_bytes id = .ok (codec,bytes)) (counts : bytes ∈ contents) :
    Dataflow.Value (Executes blake3 contents fleet) (graph blake3 contents past) id bytes :=
  run.values genuine reader.seen counts (reader.tells run got)

/-! ### Functions -/

/-- Workers of the fleet return the same for the same operation and the same inputs. -/
def Functional (fleet : OperationRegistry → Prop) : Prop :=
  ∀ registry registry' assignment assignment' inputs buffer buffer', fleet registry → fleet registry' →
    assignment.operation = assignment'.operation → registry.execute assignment inputs = .ok buffer →
    registry'.execute assignment' inputs = .ok buffer' → buffer.bytes = buffer'.bytes

/-- Digests tell the contents apart, and are never all zeros. -/
structure Distinguishes (blake3 : List UInt8 → Checksum) (contents : Set (List UInt8)) : Prop where
  injective : Set.InjOn blake3 contents
  nonzero : ∀ bytes, blake3 bytes ≠ .replicate 32 0

/-- Objects are put under their digests, and outputs have other ids. -/
structure ByDigest (blake3 : List UInt8 → Checksum) (past : List Step) : Prop where
  hashed : ∀ step ∈ past, ∀ id codec size_bytes checksum, step.op = .put_meta id codec size_bytes checksum →
    checksum ≠ .replicate 32 0 ∧ id = .from_checksum checksum
  apart : ∀ step ∈ past, ∀ step' ∈ past, ∀ id bytes, step.Stores blake3 id bytes → .object id ∉ step'.op.minted

theorem Step.Stores.digest {step : Step}
    (stores : step.Stores blake3 id bytes) (distinguishes : Distinguishes blake3 contents) (by_digest : ByDigest blake3 past)
    (member : step ∈ past) : id = .from_checksum (blake3 bytes) := by
  cases stores with
  | put asked done same passes => rw [same,passes.resolve_left (distinguishes.nonzero _)]
  | put_meta asked done passes =>
    obtain ⟨nonzero,same⟩ := by_digest.hashed step member _ _ _ _ asked
    rw [same,passes.resolve_left nonzero]

theorem Run.plain (run : Run blake3 epoch past s) (distinguishes : Distinguishes blake3 contents)
    (by_digest : ByDigest blake3 past) : (graph blake3 contents past).Plain where
  source := by
    rintro id bytes bytes' ⟨counts,step,member,stores⟩ ⟨counts',step',member',stores'⟩
    have same := (stores.digest distinguishes by_digest member).symm.trans (stores'.digest distinguishes by_digest member')
    exact distinguishes.injective counts counts' (ObjectId.mk.inj same)
  applies := by
    rintro id operation operation' args args' ⟨step,member,taken,task,submits,rfl⟩ ⟨step',member',taken',task',submits',rfl⟩
    obtain ⟨rfl,rfl,_⟩ := run.submits_once member member' submits submits' (.inr rfl)
    exact ⟨rfl,rfl⟩
  apart := by
    rintro id bytes operation args ⟨_,step,member,stores⟩ ⟨step',member',taken,task,submits,_⟩
    exact by_digest.apart step member step' member' id bytes stores submits.minted.2

theorem Functional.executes {fleet : OperationRegistry → Prop} (functional : Functional fleet)
    (distinguishes : Distinguishes blake3 contents) {operation : OperationKey} {inputs : List (List UInt8)}
    {bytes bytes' : List UInt8} (executes : Executes blake3 contents fleet operation inputs bytes)
    (executes' : Executes blake3 contents fleet operation inputs bytes') : bytes = bytes' := by
  obtain ⟨counts,registry,assignment,buffer,member,rfl,returned,passes⟩ := executes
  obtain ⟨counts',registry',assignment',buffer',member',same,returned',passes'⟩ := executes'
  apply distinguishes.injective counts counts'
  rw [passes.resolve_left (distinguishes.nonzero _),passes'.resolve_left (distinguishes.nonzero _),
    functional registry registry' assignment assignment' inputs buffer buffer' member member' same.symm returned returned']

/-- If operations are functions, every report comes of an execution and every object is put under a digest that tells its
    content apart, then runs that were asked the same agree on the content of every object, whatever was scheduled where and
    whatever failed, for all readers whom the mapping shows what the records tell of. -/
theorem run_reads_agree {contents : Set (List UInt8)} {fleet : OperationRegistry → Prop} (functional : Functional fleet)
    (distinguishes : Distinguishes blake3 contents) {epoch' : CoordinatorEpoch} {past' : List Step}
    (run : Run blake3 epoch past s) (run' : Run blake3 epoch' past' s')
    (same : graph blake3 contents past = graph blake3 contents past') (by_digest : ByDigest blake3 past)
    (genuine : Genuine blake3 contents fleet past) (genuine' : Genuine blake3 contents fleet past') {site site' : Site}
    (reader : Reader blake3 past s site) (reader' : Reader blake3 past' s' site') {id : ObjectId} {codec codec' : Codec}
    {bytes bytes' : List UInt8} (got : site.get_bytes id = .ok (codec,bytes)) (got' : site'.get_bytes id = .ok (codec',bytes'))
    (counts : bytes ∈ contents) (counts' : bytes' ∈ contents) : bytes = bytes' := by
  have value := run.values genuine reader.seen counts (reader.tells run got)
  have value' := run'.values genuine' reader'.seen counts' (reader'.tells run' got')
  rw [← same] at value'
  have functions : ∀ operation inputs bytes bytes', Executes blake3 contents fleet operation inputs bytes →
      Executes blake3 contents fleet operation inputs bytes' → bytes = bytes' :=
    fun _ _ _ _ => functional.executes distinguishes
  exact Dataflow.Value.unique (run.plain distinguishes by_digest) functions value value'

end

/-! ### An example -/

/-- A hash that tells a single byte from more bytes. -/
def shortHash (bytes : List UInt8) : Checksum := .replicate 32 (if bytes.length ≤ 1 then 1 else 2)

theorem pair_bounded (byte : UInt8) : [byte,byte].length < 2^63 := by simp

def double (inputs : List (List UInt8)) : Except Error Buffer :=
  match inputs with
  | [[byte]] => .ok ⟨[byte,byte],pair_bounded byte⟩
  | _ => .error (.Protocol "one byte expected")

/-- A worker that doubles a byte. -/
def doubling : OperationRegistry where
  entries := Table.empty.insert smallKey (⟨smallKey,.JsonV1,.JsonV1,64⟩,double)

/-- The task doubles a byte that was put, and is given to the worker. -/
def doublingOps : List Op :=
  [.assign_next smallWorker.node_id 10 smallLease,
    .submit smallKey [.Object (.from_checksum (.replicate 32 1))] ⟨⟨[("cpu",⟨600⟩)],demand_sorted⟩⟩ 2 smallTask smallOutput,
    .put .JsonV1 [7]] ++ smallOps.drop 2

def doublingState : CoordinatorState := (replay shortHash smallEpoch doublingOps).2

def doublingSite (state : CoordinatorState) : Site where
  blake3 := shortHash
  bincode := .fixint
  env := System.smallEnv 4
  server := ⟨state,.new "",smallEpoch,5000,false⟩
  net := Site.quietNetwork
  client := ⟨"127.0.0.1:7000",Site.local_port,false⟩

def doublingAssignment (attempt : Attempt) (lease : LeaseId) : TaskAssignment where
  fence := ⟨smallTask,attempt,lease⟩
  operation := smallKey
  args := [.Object (.from_checksum (.replicate 32 1))]
  output_id := smallOutput
  resources := ⟨⟨[("cpu",⟨600⟩)],demand_sorted⟩⟩

def doublingReport (attempt : Attempt) (lease : LeaseId) : TaskCompletion where
  fence := ⟨smallTask,attempt,lease⟩
  output_id := smallOutput
  codec := .JsonV1
  size_bytes := 2
  checksum := .replicate 32 2
  location := "host:1"
  bytes := some [7,7]

/-- The worker reports the output; or its first attempt fails, and it reports that of the second one. -/
def doubledOps : List Op := .complete smallWorker (doublingReport 1 smallLease) :: doublingOps

def againLease : LeaseId := ⟨.replicate 16 8⟩

def againOps : List Op :=
  .assign_next smallWorker.node_id 60000 againLease :: .fail smallWorker ⟨smallTask,1,smallLease⟩ "timed out" .Transient 20 ::
    doublingOps

def againState : CoordinatorState := (replay shortHash smallEpoch againOps).2

def doubledAgainOps : List Op := .complete smallWorker (doublingReport 2 againLease) :: againOps

def doubledPast (ops : List Op) : List Step := (replay shortHash smallEpoch ops).1
def doubledState (ops : List Op) : CoordinatorState := (replay shortHash smallEpoch ops).2

/-- The bytes of the example. -/
def sevens : Set (List UInt8) := {[7],[7,7]}

theorem sevens_distinguished : Distinguishes shortHash sevens where
  injective := by
    rintro bytes (rfl | rfl) bytes' (rfl | rfl) same
    · rfl
    · cases same
    · cases same
    · rfl
  nonzero bytes zero := by
    have first := congrArg (fun checksum : Checksum => checksum[0]) zero
    simp only [shortHash,Vector.getElem_replicate] at first
    split at first <;> cases first

theorem doubling_reader (past : List Step) (s : CoordinatorState) : Reader shortHash past s (doublingSite s) :=
  ⟨rfl,Site.truthful_remote rfl,.inl rfl⟩

/-- Reports of the worker are faithful, if it was given the task and the object is there. -/
theorem doubling_faithful {past : List Step} {s : CoordinatorState} {attempt : Attempt} {lease : LeaseId}
    (issued : Issued past s (doublingAssignment attempt lease))
    (got : (doublingSite s).get_bytes (.from_checksum (.replicate 32 1)) = .ok (.JsonV1,[7])) :
    Faithful shortHash sevens (· = doubling) past s (doublingReport attempt lease) := by
  have fetched : fetch_inputs ([doublingSite s].zip (doublingAssignment attempt lease).args) = .ok [[7]] := by
    change (do let got ← (doublingSite s).get_bytes _; _) = _
    rw [got]
    rfl
  have executed : execute_assignment shortHash smallConfig doubling ⟨.empty⟩ [doublingSite s] (doublingAssignment attempt lease) =
      .ok (doublingReport attempt lease,⟨Table.empty.insert smallOutput ⟨.JsonV1,⟨[7,7],pair_bounded 7⟩,.replicate 32 2⟩⟩) := by
    rw [execute_assignment,fetched]
    rfl
  refine ⟨_,_,_,_,_,_,rfl,issued,rfl,?_,fun inputs fetched' => ?_,executed⟩
  · rintro site (_ | ⟨_,⟨⟩⟩)
    exact doubling_reader past s
  · obtain rfl := Except.ok.inj (fetched.symm.trans fetched')
    simp [sevens]

theorem doubled_run : Run shortHash smallEpoch (doubledPast doubledOps) (doubledState doubledOps) :=
  replay_run shortHash smallEpoch doubledOps (by decide +kernel)

theorem doubled_genuine : Genuine shortHash sevens (· = doubling) (doubledPast doubledOps) := by
  refine ⟨⟨⟨⟨⟨trivial,?_⟩,?_⟩,?_⟩,?_⟩,?_⟩ <;> rintro identity report ⟨⟩
  exact doubling_faithful (.inl ⟨_,List.mem_cons_self,doublingState,rfl⟩) rfl

theorem doubled_again_run : Run shortHash smallEpoch (doubledPast doubledAgainOps) (doubledState doubledAgainOps) :=
  replay_run shortHash smallEpoch doubledAgainOps (by decide +kernel)

theorem doubled_again_genuine : Genuine shortHash sevens (· = doubling) (doubledPast doubledAgainOps) := by
  refine ⟨⟨⟨⟨⟨⟨⟨trivial,?_⟩,?_⟩,?_⟩,?_⟩,?_⟩,?_⟩,?_⟩ <;> rintro identity report ⟨⟩
  exact doubling_faithful (.inl ⟨_,List.mem_cons_self,againState,rfl⟩) rfl

theorem doubled_got : (doublingSite (doubledState doubledOps)).get_bytes smallOutput = .ok (.JsonV1,[7,7]) := rfl

theorem doubled_value : (doublingSite (doubledState doubledOps)).get_bytes smallOutput = .ok (.JsonV1,[7,7]) ∧
    Dataflow.Value (Executes shortHash sevens (· = doubling)) (graph shortHash sevens (doubledPast doubledOps)) smallOutput
      [7,7] :=
  ⟨doubled_got,run_serves_values doubled_run doubled_genuine (doubling_reader _ _) doubled_got (by simp [sevens])⟩

theorem doubling_functional : Functional (· = doubling) := by
  rintro registry registry' assignment assignment' inputs buffer buffer' rfl rfl same returned returned'
  rw [OperationRegistry.execute,same] at returned
  rw [OperationRegistry.execute,returned] at returned'
  rw [Except.ok.inj returned']

theorem doubled_by_digest : ByDigest shortHash (doubledPast doubledOps) := by
  have asked : ∀ step ∈ doubledPast doubledOps, step.op ∈ doubledOps := by decide +kernel
  have hashed : ∀ step ∈ doubledPast doubledOps, ∀ id codec size_bytes checksum,
      step.op ≠ .put_meta id codec size_bytes checksum := by
    intro step member id codec size_bytes checksum same
    simpa [same,doubledOps,doublingOps,smallOps] using asked step member
  refine ⟨fun step member id codec size_bytes checksum same => absurd same (hashed step member _ _ _ _),?_⟩
  intro step member step' member' id bytes stores
  cases stores with
  | @put codec given outcome s' same done digest passes =>
    obtain ⟨rfl,rfl⟩ : codec = .JsonV1 ∧ given = [7] := by
      simpa [same,doubledOps,doublingOps,smallOps] using asked step member
    have undrawn : ∀ op ∈ doubledOps, Minted.object (.from_checksum (shortHash [7])) ∉ op.minted := by decide +kernel
    exact digest ▸ undrawn _ (asked step' member')
  | put_meta same => exact absurd same (hashed step member _ _ _ _)

/-- The two runs were asked the same. -/
theorem doubled_graphs : graph shortHash sevens (doubledPast doubledOps) = graph shortHash sevens (doubledPast doubledAgainOps) := by
  have unasked : ∀ op ops, ¬ op.Asks → graph shortHash sevens (doubledPast (op :: ops)) = graph shortHash sevens (doubledPast ops) :=
    fun _ _ unasked => graph_unasked _ _ unasked
  rw [doubledOps,unasked _ _ id,doubledAgainOps,unasked _ _ id,againOps,unasked _ _ id,unasked _ _ id]

theorem doubled_again_got : (doublingSite (doubledState doubledAgainOps)).get_bytes smallOutput = .ok (.JsonV1,[7,7]) := by
  decide +kernel

theorem doubled_agree : ∃ bytes bytes', (doublingSite (doubledState doubledOps)).get_bytes smallOutput = .ok (.JsonV1,bytes) ∧
    (doublingSite (doubledState doubledAgainOps)).get_bytes smallOutput = .ok (.JsonV1,bytes') ∧ bytes = bytes' := by
  have counts : [7,7] ∈ sevens := by simp [sevens]
  exact ⟨[7,7],[7,7],doubled_got,doubled_again_got,run_reads_agree doubling_functional sevens_distinguished doubled_run
    doubled_again_run doubled_graphs doubled_by_digest doubled_genuine doubled_again_genuine (doubling_reader _ _)
    (doubling_reader _ _) doubled_got doubled_again_got counts counts⟩

end CoordinatorState
end Crayon
