import Crayon.Accounting

/-!
What the quantities of a resource set may be. A set that is built from units is
not negative, but one that is read off the wire can hold any signed number. A
negative need fits everywhere and adds to what its worker seems to have left:
later tasks are dispatched beyond the worker's total, and the report of one of
them is refused. Where no registration and no submission names a negative
quantity, none of this happens.
-/
namespace Crayon.CoordinatorState
open Command

/-- A command is refused because of the resources it takes or gives back. -/
def Misfits {α : Type} (outcome : Outcome Error CoordinatorState α) : Prop :=
  ∃ message s', outcome = .error (.Err (.InvalidResource message)) s'

/-- The text of such a refusal. -/
def misfit {α : Type} : Outcome Error CoordinatorState α → Option String
  | .error (.Err (.InvalidResource message)) _ => some message
  | _ => none

theorem misfits_of_misfit {α : Type} {outcome : Outcome Error CoordinatorState α} {message : String}
    (refused : misfit outcome = some message) : Misfits outcome := by
  unfold misfit at refused
  split at refused
  · exact ⟨_,_,rfl⟩
  · cases refused

/-- What is done with the value of a command does not refuse it. -/
theorem misfits_map {α β : Type} {m : Coord α} {s : CoordinatorState} (f : α → β)
    (misfits : Misfits ((m >>= fun a => pure (f a)) s)) : Misfits (m s) := by
  obtain ⟨message,s',refused⟩ := misfits
  rw [bind_apply] at refused
  cases ran : m s with
  | ok a t => rw [ran] at refused; cases refused
  | error fault t =>
    rw [ran] at refused
    cases refused
    exact ⟨message,_,rfl⟩

section
variable {blake3 : List UInt8 → Checksum} {s : CoordinatorState}

/-- A report is not refused for its resources where they can be given back. -/
theorem fits_of_ends {α : Type} {Q : α → CoordinatorState → Prop} {identity : WorkerIdentity} {fence : TaskFence}
    {outcome : Outcome Error CoordinatorState α} (accounted : Accounted s) (inv : Inv s)
    (ends : Outcome.Ends s Q (Unreturned s identity fence) outcome) : ¬ Misfits outcome := by
  rintro ⟨message,s',rfl⟩
  obtain ⟨task,found,matching,refused⟩ := ends.2 message rfl
  obtain ⟨t,returned⟩ := accounted.release_ok inv found matching
  rw [refused] at returned
  cases returned

/-- No report that ends a dispatch is refused for its resources. -/
theorem settles_fits (accounted : Accounted s) (inv : Inv s) (order : HashOrder) {op : Op} {fence : TaskFence}
    (settles : op.settles = some fence) : ¬ Misfits (apply blake3 order op s) := by
  intro misfits
  cases op with
  | complete identity report =>
    exact fits_of_ends accounted inv (complete_effect blake3 inv.consistent order identity report)
      (misfits_map (fun _ => Reply.Done) misfits)
  | fail identity fence message «class» now =>
    exact fits_of_ends accounted inv (fail_effect blake3 inv.consistent order identity fence message «class» now)
      (misfits_map Reply.Failed misfits)
  | acknowledge_cancel identity fence =>
    exact fits_of_ends accounted inv (acknowledge_cancel_effect blake3 inv.consistent order identity fence)
      (misfits_map (fun _ => Reply.Done) misfits)
  | _ => cases settles

/-- How much of a resource some of the tasks take. -/
def taken (s : CoordinatorState) (ids : Finset TaskId) (name : String) : Int :=
  ∑ id ∈ ids, (s.tasks.get id).elim 0 fun task => task.resources.amount name

/-- Some of the tasks of a node take no more than all of them. -/
theorem taken_le_load (needs : ∀ id task, s.tasks.get id = some task → task.resources.NonNegative) {node : NodeId}
    {ids : Finset TaskId} (onNode : ∀ id ∈ ids, ∃ task, s.tasks.get id = some task ∧ task.on node = true) (name : String) :
    s.taken ids name ≤ s.load node name := by
  have shares : s.taken ids name = ∑ id ∈ ids, (s.tasks.get id).elim 0 (resource_share node name) := by
    refine Finset.sum_congr rfl fun id member => ?_
    obtain ⟨task,found,there⟩ := onNode id member
    simp [found,resource_share,there]
  rw [shares]
  refine Finset.sum_le_sum_of_subset_of_nonneg (fun id member => ?_) fun id _ _ => ?_
  · obtain ⟨task,found,_⟩ := onNode id member
    exact Table.mem_keys_iff.mpr ⟨task,found⟩
  · cases found : s.tasks.get id with
    | none => exact le_rfl
    | some task => exact load_nonneg needs node name id task found

/-- The difference of a quantity that is there and one that fits and is not negative is in range. -/
theorem difference_in_range {self needed : ResourceSet} (needs : needed.NonNegative) (nonneg : self.NonNegative)
    (name : String) :
    -2^63 ≤ self.amount name - needed.amount name ∧ self.amount name - needed.amount name < 2^63 := by
  have low := needs name
  have least := nonneg name
  have range := self.amount_range name
  have range' := needed.amount_range name
  omega

end

section
variable {blake3 : List UInt8 → Checksum} {epoch : CoordinatorEpoch} {past : List Step} {s : CoordinatorState}

/-- In a run that names no negative quantity, a worker never has more left than it has in total,
    no tasks dispatched to it take more than that, no subtraction leaves the range of its numbers,
    and no report that ends a dispatch is refused for its resources. -/
theorem run_within_totals (run : Run blake3 epoch past s) (supplied : Supplied past) :
    (∀ node worker, s.workers.get node = some worker → ∀ name,
      worker.available.amount name ≤ worker.total.amount name) ∧
    (∀ node worker, s.workers.get node = some worker → ∀ ids : Finset TaskId,
      (∀ id ∈ ids, ∃ task, s.tasks.get id = some task ∧ task.on node = true) → ∀ name,
        s.taken ids name ≤ worker.total.amount name) ∧
    (∀ node worker id task, s.workers.get node = some worker → s.tasks.get id = some task → ∀ name,
      -2^63 ≤ worker.available.amount name - task.resources.amount name ∧
        worker.available.amount name - task.resources.amount name < 2^63) ∧
    ∀ order op fence, op.settles = some fence → ¬ Misfits (apply blake3 order op s) := by
  have accounted := run.accounted supplied
  have balanced := accounted.balanced run.inv.alive
  refine ⟨?_,?_,?_,?_⟩
  · intro node worker there name
    exact (balanced.resources node worker there name).2.2
  · intro node worker there ids onNode name
    obtain ⟨total,nonneg,_⟩ := balanced.resources node worker there name
    have load := taken_le_load accounted.needs onNode name
    omega
  · intro node worker id task there found name
    exact difference_in_range (accounted.needs id task found) (fun name => (balanced.resources node worker there name).2.1) name
  · intro order op fence settles
    exact settles_fits accounted run.inv order settles

end

theorem small_within_totals :
    smallState.taken {smallTask} "cpu" = 600 ∧
      (∀ id ∈ ({smallTask} : Finset TaskId), ∃ task, smallState.tasks.get id = some task ∧ task.on smallWorker.node_id = true) ∧
      ∀ order op fence, op.settles = some fence → ¬ Misfits (apply smallHash order op smallState) := by
  refine ⟨by decide,fun id member => ?_,(run_within_totals small_run small_supplied).2.2.2⟩
  obtain rfl := Finset.mem_singleton.mp member
  exact ⟨_,rfl,rfl⟩

/-! ### A negative need -/

def creditTask (n : UInt8) : TaskId := ⟨.replicate 16 n⟩
def creditOutput (n : UInt8) : ObjectId := ⟨.replicate 32 n⟩
def creditLease (n : UInt8) : LeaseId := ⟨.replicate 16 n⟩

def creditSubmit (milli : Int64) (n : UInt8) : Op :=
  .submit smallKey [] ⟨⟨[("cpu",⟨milli⟩)],List.pairwise_singleton _ _⟩⟩ 2 (creditTask n) (creditOutput n)

def creditReport (n : UInt8) : TaskCompletion :=
  ⟨⟨creditTask n,1,creditLease n⟩,creditOutput n,.JsonV1,0,smallHash [],"host:1",some []⟩

/-- A worker of three slots and 1000 registers. -/
def creditRegister : Op :=
  .register_worker ⟨smallWorker.node_id,smallWorker.worker_epoch,"host:1",⟨⟨[("cpu",⟨1000⟩)],offer_sorted⟩⟩,3,
    [⟨smallKey,.JsonV1,.JsonV1,64⟩]⟩ 0 5000 smallWorker.session_id

/-- The worker is given a task that needs -500. -/
def creditOps : List Op :=
  [.assign_next smallWorker.node_id 10 (creditLease 7),creditSubmit (-500) 7,creditRegister]

/-- It is then given tasks that need 800 and 700. -/
def oversoldOps : List Op :=
  .assign_next smallWorker.node_id 10 (creditLease 9) :: .assign_next smallWorker.node_id 10 (creditLease 8) ::
    creditSubmit 700 9 :: creditSubmit 800 8 :: creditOps

/-- It completes the first of the two. -/
def returnedOps : List Op := .complete smallWorker (creditReport 8) :: oversoldOps

def after (ops : List Op) : CoordinatorState := (replay smallHash smallEpoch ops).2

theorem after_run {ops : List Op} (draws : Draws smallHash smallEpoch ops) :
    ∃ past, Run smallHash smallEpoch past (after ops) := ⟨_,replay_run smallHash smallEpoch ops draws⟩

/-- What the worker has in total and what it has left. -/
def credit (s : CoordinatorState) : Option (Int × Int) :=
  (s.workers.get smallWorker.node_id).map fun worker => (worker.total.amount "cpu",worker.available.amount "cpu")

theorem returned_current : Current (after returnedOps) smallWorker := by
  have worker : ((after returnedOps).workers.get smallWorker.node_id).map (fun worker =>
      (worker.state,worker.identity.worker_epoch,worker.identity.session_id)) =
        some (.Alive,smallWorker.worker_epoch,smallWorker.session_id) := by decide +kernel
  obtain ⟨record,found,same⟩ := Option.map_eq_some_iff.mp worker
  simp only [Prod.mk.injEq] at same
  exact ⟨by decide +kernel,record,found,by simp [same.1],same.2⟩

theorem returned_matches : Matches (after returnedOps) smallWorker (creditReport 9).fence := by
  have task : ((after returnedOps).tasks.get (creditReport 9).fence.task_id).map (fun task =>
      (task.assigned,task.attempt)) =
        some (some (dispatch smallWorker (creditReport 9).fence),(creditReport 9).fence.attempt) := by decide +kernel
  obtain ⟨record,found,same⟩ := Option.map_eq_some_iff.mp task
  exact ⟨record,found,Prod.mk.inj same⟩

/-- A negative need leaves its worker with more than its total, then two tasks dispatched to it
    take more than that, and when the first of them has completed, the report of the second is
    refused although it speaks of the current dispatch. The least need of all fits too, and
    taking it off is out of range. -/
theorem negative_need_oversells :
    ((∃ past, Run smallHash smallEpoch past (after creditOps)) ∧ credit (after creditOps) = some (1000,1500)) ∧
    ((∃ past, Run smallHash smallEpoch past (after oversoldOps)) ∧ credit (after oversoldOps) = some (1000,0) ∧
      (∀ id ∈ [creditTask 8,creditTask 9],
        ((after oversoldOps).tasks.get id).map (·.on smallWorker.node_id) = some true) ∧
      (after oversoldOps).taken {creditTask 8,creditTask 9} "cpu" = 1500) ∧
    ((∃ past, Run smallHash smallEpoch past (after returnedOps)) ∧
      Current (after returnedOps) smallWorker ∧ Matches (after returnedOps) smallWorker (creditReport 9).fence ∧
      Misfits (apply smallHash .by_id (.complete smallWorker (creditReport 9)) (after returnedOps))) ∧
    ((∃ past, Run smallHash smallEpoch past (after [creditSubmit (-2^63) 7,creditRegister])) ∧
      credit (after [creditSubmit (-2^63) 7,creditRegister]) = some (1000,1000) ∧
      ((after [creditSubmit (-2^63) 7,creditRegister]).tasks.get (creditTask 7)).map (·.resources.amount "cpu") =
        some (-2^63) ∧
      credit (after [.assign_next smallWorker.node_id 10 (creditLease 7),creditSubmit (-2^63) 7,creditRegister]) =
        some (1000,-2^63 + 1000)) := by
  have refused : misfit (apply smallHash .by_id (.complete smallWorker (creditReport 9)) (after returnedOps)) =
      some "resource release exceeds worker total" := by decide +kernel
  exact ⟨⟨@after_run creditOps (by decide +kernel),by decide +kernel⟩,
    ⟨@after_run oversoldOps (by decide +kernel),by decide +kernel,by decide +kernel,by decide +kernel⟩,
    ⟨@after_run returnedOps (by decide +kernel),returned_current,returned_matches,misfits_of_misfit refused⟩,
    @after_run [_,_] (by decide +kernel),by decide +kernel,by decide +kernel,by decide +kernel⟩

end Crayon.CoordinatorState
