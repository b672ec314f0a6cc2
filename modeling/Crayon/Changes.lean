import Crayon.Consistency

/-!
What one move does to a single object and to a single task. An object is stored
or reserved, a reserved one is delivered or ends with its task, an available one
is orphaned, and one that is settled is removed. A task is submitted, changes
while it is live, is stamped once it is over, and is removed with its output.
-/
namespace Crayon.CoordinatorState

/-- An output that is reserved for a task. -/
def reserved_record (id : ObjectId) (codec : Codec) : ObjectRecord where
  id
  state := .Reserved
  codec := some codec
  bytes := none
  size_bytes := none
  checksum := none
  location := none
  owner := none

/-- What becomes of the record of an object in one move. -/
inductive ObjectStep (op : Op) (s : CoordinatorState) (id : ObjectId) : Option ObjectRecord → Option ObjectRecord → Prop where
  | kept {record : Option ObjectRecord} : ObjectStep op s id record record
  | stored {codec : Codec} {size_bytes : UInt64} {checksum : Checksum} {bytes : Option (List UInt8)}
      (source : op = .storing id codec size_bytes checksum bytes) :
      ObjectStep op s id none (some (put_record id codec size_bytes checksum bytes))
  | reserved (codec : Codec) (drawn : .object id ∈ op.minted) : ObjectStep op s id none (some (reserved_record id codec))
  | delivered {object : ObjectRecord} {identity : WorkerIdentity} {report : TaskCompletion} {worker : WorkerRecord}
      (reserved : object.state = .Reserved) (asked : op = .complete identity report)
      (at_worker : s.workers.get identity.node_id = some worker) (location : report.location = worker.advertise_addr)
      (small : report.size_bytes ≤ UInt64.ofNat MAX_OBJECT_BYTES) :
      ObjectStep op s id (some object) (some (reported_output identity report object))
  | ended {object : ObjectRecord} {state : ObjectState} (reserved : object.state = .Reserved)
      (final : state = .Failed ∨ state = .Cancelled) : ObjectStep op s id (some object) (some { object with state })
  | orphaned {object : ObjectRecord} (node : NodeId) : ObjectStep op s id (some object) (some (orphan node object))
  | removed {object : ObjectRecord} (settled : object.state ≠ .Reserved) (unused : s.object_in_use id = false) :
      ObjectStep op s id (some object) none

/-- What becomes of the record of a task in one move. -/
inductive TaskStep (op : Op) (id : TaskId) : Option TaskRecord → Option TaskRecord → Prop where
  | kept {record : Option TaskRecord} : TaskStep op id record record
  | submitted {output : ObjectId} {blocked : Bool} {task : TaskRecord} (submitted : Submitted op id output blocked task) :
      TaskStep op id none (some task)
  | advanced {task : TaskRecord} (live : task.state.is_terminal = false) (state : TaskState) (attempt : Attempt)
      (assigned : Option Assigned) (not_before_ms : Nat) :
      TaskStep op id (some task) (some { task with state, attempt, assigned, not_before_ms })
  | stamped {task : TaskRecord} (ended : task.state.is_terminal = true) (terminal_since_ms : Nat) :
      TaskStep op id (some task) (some { task with terminal_since_ms })
  | removed {task : TaskRecord} (ended : task.state.is_terminal = true) : TaskStep op id (some task) none

/-- What becomes of an object when a node is gone: nothing, if the node does not serve it; or it is
    served by the coordinator, which has its bytes; or it is lost. -/
theorem orphan_cases (node : NodeId) (object : ObjectRecord) :
    orphan node object = object ∧ ¬ (object.owner = some node ∧ object.state = .Available) ∨
    object.owner = some node ∧ object.state = .Available ∧
      ((∃ bytes, object.bytes = some bytes) ∧
          orphan node object = { object with owner := none, location := some "coordinator" } ∨
        object.bytes = none ∧ orphan node object = { object with owner := none, location := none, state := .Lost }) := by
  by_cases owned : object.owner = some node ∧ object.state = .Available
  · refine .inr ⟨owned.1,owned.2,?_⟩
    have owns : owned_by node object = true := by simp [owned_by,owned]
    rw [orphan,if_pos owns]
    cases bytes : object.bytes with
    | none => exact .inr ⟨rfl,by simp⟩
    | some inline => exact .inl ⟨⟨inline,rfl⟩,by simp⟩
  · have owns : ¬ owned_by node object = true := by simpa [owned_by] using owned
    exact .inl ⟨by rw [orphan,if_neg owns],owned⟩

section
variable {op : Op} {s s' : CoordinatorState}

theorem live_of_dispatched {state : TaskState} (dispatched : state = .Assigned ∨ state = .Running) :
    state.is_terminal = false := by
  rcases dispatched with rfl | rfl <;> rfl

theorem live_of_blocked {state : TaskState} (blocked : state = .Waiting ∨ state = .Runnable) :
    state.is_terminal = false := by
  rcases blocked with rfl | rfl <;> rfl

theorem Move.object (move : Move op s s') (inv : Consistent s) (id : ObjectId) :
    ObjectStep op s id (s.objects.get id) (s'.objects.get id) := by
  -- Only the output of a live task is written to, and that is reserved.
  have written : ∀ {k : TaskId} {task : TaskRecord} {f : ObjectRecord → ObjectRecord}, s.tasks.get k = some task →
      task.state.is_terminal = false →
      (∀ object, object.state = .Reserved → ObjectStep op s id (some object) (some (f object))) →
      ObjectStep op s id (s.objects.get id) ((s.objects.modify task.output f).get id) := by
    intro k task f found live step
    rw [Table.get_modify]
    split
    · rename_i same
      subst same
      obtain ⟨object,there⟩ := inv.output found
      rw [there]
      exact step object ((inv.reserved_iff found there).mpr live)
    · exact .kept
  cases move with
  | @store id' codec size_bytes checksum bytes absent source =>
    rw [Table.get_insert]
    split
    · rename_i same
      subst same
      rw [absent]
      exact .stored source
    · exact .kept
  | @submit _ output _ _ codec newTask unqueued newOutput submitted =>
    rw [Table.get_insert]
    split
    · rename_i same
      subst same
      rw [newOutput]
      exact .reserved codec submitted.drawn
    · exact .kept
  | complete asked found state assigned at_worker living location small freed =>
    exact written found (live_of_dispatched state) fun _ reserved => .delivered reserved asked at_worker location small
  | fail message found state assigned freed =>
    exact written found (live_of_dispatched state) fun _ reserved => .ended reserved (.inl rfl)
  | acknowledge found state assigned freed =>
    exact written found (by rw [state]; rfl) fun _ reserved => .ended reserved (.inr rfl)
  | cancel found state => exact written found (live_of_blocked state) fun _ reserved => .ended reserved (.inr rfl)
  | starve found state failed => exact written found (by rw [state]; rfl) fun _ reserved => .ended reserved (.inl rfl)
  | @evict node idle =>
    rw [Table.get_mapValues]
    cases s.objects.get id with
    | none => exact .kept
    | some object => exact .orphaned node
  | release pending_deletes found settled unused =>
    rw [Table.get_remove]
    split
    · rename_i same
      subst same
      rw [found]
      exact .removed settled unused
    · exact .kept
  | _ => exact .kept

theorem Move.task (move : Move op s s') (inv : Consistent s) (id : TaskId) :
    TaskStep op id (s.tasks.get id) (s'.tasks.get id) := by
  have written : ∀ {k : TaskId} {task : TaskRecord} {f : TaskRecord → TaskRecord}, s.tasks.get k = some task →
      TaskStep op k (some task) (some (f task)) → TaskStep op id (s.tasks.get id) ((s.tasks.modify k f).get id) := by
    intro k task f found step
    rw [Table.get_modify]
    split
    · rename_i same
      subst same
      rw [found]
      exact step
    · exact .kept
  cases move with
  | @submit k output blocked task codec newTask unqueued newOutput submitted =>
    rw [Table.get_insert]
    split
    · rename_i same
      subst same
      rw [newTask]
      exact .submitted submitted
    · exact .kept
  | assign head found runnable at_worker alive free fits taken minted =>
    exact written found (.advanced (by rw [runnable]; rfl) _ _ _ _)
  | start found assigned => exact written found (.advanced (by rw [assigned]; rfl) _ _ _ _)
  | complete asked found state assigned at_worker living location small freed =>
    exact written found (.advanced (live_of_dispatched state) _ _ _ _)
  | retry not_before_ms found state assigned budget freed => exact written found (.advanced (live_of_dispatched state) _ _ _ _)
  | fail message found state assigned freed => exact written found (.advanced (live_of_dispatched state) _ _ _ _)
  | acknowledge found state assigned freed => exact written found (.advanced (by rw [state]; rfl) _ _ _ _)
  | request_cancel found state => exact written found (.advanced (live_of_dispatched state) _ _ _ _)
  | cancel found state => exact written found (.advanced (live_of_blocked state) _ _ _ _)
  | starve found state failed => exact written found (.advanced (by rw [state]; rfl) _ _ _ _)
  | wake found state available => exact written found (.advanced (by rw [state]; rfl) _ _ _ _)
  | @release oid object pending_deletes there settled unused =>
    rw [Table.get_retain]
    cases found : s.tasks.get id with
    | none => exact .kept
    | some task =>
      by_cases same : task.output = oid
      · have ended : task.state.is_terminal = true := by
          rw [← Bool.not_eq_false]
          exact fun live => settled ((inv.reserved_iff found (same ▸ there)).mpr live)
        simpa [Option.filter,same] using TaskStep.removed ended
      · simpa [Option.filter,same] using TaskStep.kept
  | stamp now =>
    rw [Table.get_mapValues]
    cases s.tasks.get id with
    | none => exact .kept
    | some task =>
      rw [Option.map_some,CoordinatorState.stamp]
      split
      · rename_i unstamped
        exact .stamped unstamped.1 now
      · exact .kept
  | _ => exact .kept

end
end Crayon.CoordinatorState
