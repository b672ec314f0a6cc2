import Crayon.Accounting
import Crayon.Capacity

/-!
The counts of the health line, which one pass over the tables finds in whatever order
they come. In every state of a run, the tasks that it counts as running, and those that
are being cancelled, are as many as the slots that the workers lack; and the objects
that it counts as reserved are as many as the tasks that have not ended (`run_health`).
-/
namespace Crayon

structure HealthCounts where
  tasks : Nat
  runnable : Nat
  running : Nat
  succeeded : Nat
  failed : Nat
  objects : Nat
  available : Nat
  reserved : Nat
  lost : Nat
  workers : Nat
  retries_total : Nat
  failures_total : Nat
deriving DecidableEq

namespace HealthCounts

def count_task (h : HealthCounts) (task : TaskRecord) : HealthCounts :=
  match task.state with
  | .Runnable => { h with runnable := h.runnable + 1 }
  | .Running | .Assigned => { h with running := h.running + 1 }
  | .Succeeded => { h with succeeded := h.succeeded + 1 }
  | .Failed _ => { h with failed := h.failed + 1 }
  | _ => h

def count_object (h : HealthCounts) (object : ObjectRecord) : HealthCounts :=
  match object.state with
  | .Available => { h with available := h.available + 1 }
  | .Reserved => { h with reserved := h.reserved + 1 }
  | .Lost => { h with lost := h.lost + 1 }
  | _ => h

end HealthCounts

namespace CoordinatorState
open HealthCounts

def health_counts (self : CoordinatorState) (tasks : Traversal TaskId) (objects : Traversal ObjectId) : HealthCounts :=
  let h : HealthCounts :=
    { tasks := self.tasks.len
      runnable := 0
      running := 0
      succeeded := 0
      failed := 0
      objects := self.objects.len
      available := 0
      reserved := 0
      lost := 0
      workers := self.workers.len
      retries_total := self.retries_total
      failures_total := self.failures_total }
  (self.objects.values objects).foldl count_object ((self.tasks.values tasks).foldl count_task h)

/-! ### One pass over the tables -/

def runs : TaskState → Bool
  | .Running | .Assigned => true
  | _ => false

def fails : TaskState → Bool
  | .Failed _ => true
  | _ => false

/-- How many of the tasks are in one of some states. -/
def number (p : TaskState → Bool) (tasks : List TaskRecord) : Nat := (tasks.map fun task => (p task.state).toNat).sum

theorem foldl_count_task (tasks : List TaskRecord) (h : HealthCounts) :
    tasks.foldl count_task h =
      { h with
        runnable := h.runnable + number (· = .Runnable) tasks
        running := h.running + number runs tasks
        succeeded := h.succeeded + number (· = .Succeeded) tasks
        failed := h.failed + number fails tasks } := by
  induction tasks generalizing h with
  | nil => rfl
  | cons task tasks ih =>
    rw [List.foldl_cons,ih]
    cases state : task.state <;> simp [count_task,number,state,runs,fails,Nat.add_assoc]

def objects_number (state : ObjectState) (objects : List ObjectRecord) : Nat :=
  (objects.map fun object => (decide (object.state = state)).toNat).sum

theorem foldl_count_object (objects : List ObjectRecord) (h : HealthCounts) :
    objects.foldl count_object h =
      { h with
        available := h.available + objects_number .Available objects
        reserved := h.reserved + objects_number .Reserved objects
        lost := h.lost + objects_number .Lost objects } := by
  induction objects generalizing h with
  | nil => rfl
  | cons object objects ih =>
    rw [List.foldl_cons,ih]
    cases state : object.state <;> simp [count_object,objects_number,state,Nat.add_assoc]

section
variable {s : CoordinatorState}

/-- How many tasks are in one of some states. -/
def tasks_in (s : CoordinatorState) (p : TaskState → Bool) : Nat := s.tasks.sum fun task => (p task.state).toNat

/-- How many objects are in a state. -/
def objects_in (s : CoordinatorState) (state : ObjectState) : Nat :=
  s.objects.sum fun object => (decide (object.state = state)).toNat

theorem health_counts_eq (s : CoordinatorState) (tasks : Traversal TaskId) (objects : Traversal ObjectId) :
    s.health_counts tasks objects =
      { tasks := s.tasks.len
        runnable := s.tasks_in (· = .Runnable)
        running := s.tasks_in runs
        succeeded := s.tasks_in (· = .Succeeded)
        failed := s.tasks_in fails
        objects := s.objects.len
        available := s.objects_in .Available
        reserved := s.objects_in .Reserved
        lost := s.objects_in .Lost
        workers := s.workers.len
        retries_total := s.retries_total
        failures_total := s.failures_total } := by
  rw [health_counts,foldl_count_task,foldl_count_object]
  simp only [number,objects_number,Table.sum_values,Nat.zero_add]
  rfl

/-! ### What the counts agree with -/

/-- The tasks that are dispatched, each at one of the workers. -/
theorem busy_sum (inv : Consistent s) :
    (s.workers.sum fun worker => s.busy worker.identity.node_id) = s.tasks.sum fun task => task.assigned.isSome.toNat := by
  have nodes : (s.workers.sum fun worker => s.busy worker.identity.node_id) = ∑ node ∈ s.workers.keys, s.busy node := by
    refine Finset.sum_congr rfl fun node member => ?_
    obtain ⟨worker,found⟩ := Table.mem_keys_iff.mp member
    rw [found,Option.elim_some,inv.worker_ids node worker found]
  rw [nodes]
  simp only [busy,Table.sum]
  rw [Finset.sum_comm]
  refine Finset.sum_congr rfl fun id _ => ?_
  cases found : s.tasks.get id with
  | none => simp
  | some task =>
    cases assigned : task.assigned with
    | none => simp [slot_share,TaskRecord.on,assigned]
    | some a =>
      obtain ⟨worker,there,_⟩ := inv.served id task a found assigned
      have one : ∑ node ∈ s.workers.keys, slot_share node task = 1 := by
        simp only [slot_share,TaskRecord.on,assigned,Option.any_some,decide_eq_true_eq]
        rw [Finset.sum_ite_eq,if_pos (Table.mem_keys_iff.mpr ⟨worker,there⟩)]
      simpa [assigned] using one

/-- A task that has not ended has a reserved output of its own, and there are no other reserved objects. -/
theorem reserved_number (inv : Consistent s) : s.objects_in .Reserved = s.tasks_in fun state => !state.is_terminal := by
  have output : ∀ id task, s.tasks.get id = some task →
      ((s.tasks.get id).elim ⟨.replicate 32 0⟩ (·.output) : ObjectId) = task.output := by
    intro id task found
    rw [found,Option.elim_some]
  rw [objects_in,tasks_in,Table.sum_toNat,Table.sum_toNat]
  symm
  refine Finset.card_bij (fun id _ => (s.tasks.get id).elim ⟨.replicate 32 0⟩ (·.output)) ?_ ?_ ?_
  · intro id member
    obtain ⟨_,live⟩ := Finset.mem_filter.mp member
    obtain ⟨task,found,live⟩ := (Option.any_eq_true _ _).mp live
    obtain ⟨object,there⟩ := inv.output found
    rw [output id task found,Finset.mem_filter]
    refine ⟨Table.mem_keys_iff.mpr ⟨object,there⟩,?_⟩
    rw [there,Option.any_some,decide_eq_true_eq,inv.reserved_iff found there]
    simpa using live
  · intro id member id' member' same
    obtain ⟨task,found,_⟩ := (Option.any_eq_true _ _).mp (Finset.mem_filter.mp member).2
    obtain ⟨task',found',_⟩ := (Option.any_eq_true _ _).mp (Finset.mem_filter.mp member').2
    rw [output id task found,output id' task' found'] at same
    exact inv.outputs id id' task task' found found' same
  · intro oid member
    obtain ⟨object,there,reserved⟩ := (Option.any_eq_true _ _).mp (Finset.mem_filter.mp member).2
    have isReserved : object.state = .Reserved := of_decide_eq_true reserved
    obtain ⟨id,task,found,rfl⟩ := inv.reserved oid object there isReserved
    refine ⟨id,Finset.mem_filter.mpr ⟨Table.mem_keys_iff.mpr ⟨task,found⟩,?_⟩,output id task found⟩
    rw [found,Option.any_some,(inv.reserved_iff found there).mp isReserved]
    rfl

/-- The slots that workers lack are those of running tasks and of tasks that are being cancelled. -/
theorem slots_number (inv : Inv s) (balanced : Balanced s) :
    (s.workers.sum fun worker => worker.slots.toNat - worker.free_slots.toNat) =
      s.tasks_in runs + s.tasks_in (· = .CancelRequested) := by
  have used : (s.workers.sum fun worker => worker.slots.toNat - worker.free_slots.toNat) =
      s.workers.sum fun worker => s.busy worker.identity.node_id := by
    refine Finset.sum_congr rfl fun node member => ?_
    obtain ⟨worker,found⟩ := Table.mem_keys_iff.mp member
    rw [found,Option.elim_some,Option.elim_some,inv.consistent.worker_ids node worker found]
    exact (balanced.slots node worker found).2
  rw [used,busy_sum inv.consistent,tasks_in,tasks_in,Table.sum,Table.sum,Table.sum,← Finset.sum_add_distrib]
  refine Finset.sum_congr rfl fun id member => ?_
  obtain ⟨task,found⟩ := Table.mem_keys_iff.mp member
  rw [found]
  have dispatched := inv.consistent.dispatched_iff found
  cases assigned : task.assigned with
  | none => cases state : task.state <;> simp_all [runs]
  | some a => cases state : task.state <;> simp_all [runs]

/-- What the counts of a state agree with. -/
structure Healthy (s : CoordinatorState) (h : HealthCounts) : Prop where
  slots : h.running + s.tasks_in (· = .CancelRequested) =
    s.workers.sum fun worker => worker.slots.toNat - worker.free_slots.toNat
  reserved : h.reserved = s.tasks_in fun state => !state.is_terminal
  tasks : h.runnable + h.running + h.succeeded + h.failed ≤ h.tasks
  objects : h.available + h.reserved + h.lost ≤ h.objects
  bounded : h.tasks ≤ MAX_TASKS ∧ h.objects ≤ MAX_OBJECTS

theorem run_health {blake3 : List UInt8 → Checksum} {epoch : CoordinatorEpoch} {past : List Step}
    (run : Run blake3 epoch past s) (supplied : Supplied past) (tasks : Traversal TaskId) (objects : Traversal ObjectId) :
    Healthy s (s.health_counts tasks objects) := by
  have balanced := (run.accounted supplied).balanced run.inv.alive
  rw [health_counts_eq]
  refine ⟨(slots_number run.inv balanced).symm,reserved_number run.inv.consistent,?_,?_,run.roomy.tasks,run.roomy.objects⟩
  · simp only [tasks_in,Table.sum_add]
    refine Table.sum_le_len _ fun task => ?_
    cases task.state <;> simp [runs,fails]
  · simp only [objects_in,Table.sum_add]
    refine Table.sum_le_len _ fun object => ?_
    cases object.state <;> simp

end

theorem small_healthy : smallState.health_counts .increasing .increasing = ⟨1,0,1,0,0,1,0,1,0,1,0,0⟩ ∧
    Healthy smallState (smallState.health_counts .increasing .increasing) :=
  ⟨by decide,run_health small_run small_supplied .increasing .increasing⟩

end CoordinatorState
end Crayon
