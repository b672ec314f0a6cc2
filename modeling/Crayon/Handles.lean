import Crayon.Gathering

/-!
Handles of submitted tasks. A handle waits for the output of its task by asking again and
again, each time parked by the server, until its own deadline; when the output turns out to
be unavailable it asks for the state of the task once. So what it returns is how its own task
ended: the value, or the reason why there is none (`Tells`), and it returns that at the first
instant at which it is known (`result_tells`). The same holds of each slot when many handles
are waited for together (`results_tell`, `wait_tells`).
-/
namespace Crayon

/-- The name of the codec as it is printed. -/
def Codec.debug : Codec → String
  | .BincodeV1 => "BincodeV1"
  | .PythonPickleV1 => "PythonPickleV1"
  | .JsonV1 => "JsonV1"
  | .RawBytes => "RawBytes"

def decode {T : Type} (deserialize : List UInt8 → Except String T) : Codec × List UInt8 → Except Error T
  | (.BincodeV1,bytes) => (deserialize bytes).mapError .Serialization
  | (codec,_) => .error (.Protocol ("unsupported codec for get: " ++ codec.debug))

structure TaskHandle where
  task_id : TaskId
  output : ObjectId

/-- A slot of a wait: the result of a handle, or that it is still to come; with the position of the handle. -/
inductive Ready (T : Type) where
  | Done (index : Nat) (result : Except Error T)
  | Pending (index : Nat)

namespace Course
variable {T : Type} (deserialize : List UInt8 → Except String T) (course : Course)

def status (task_id : TaskId) (t : Instant) : Except Error TaskView :=
  match course.dispatch_once (.Status task_id) t with
  | .error error => .error error
  | .ok (.Status view) => .ok view
  | .ok (.Error error) => .error error
  | .ok _ => .error (.Protocol "unexpected status reply")

def terminal_error (handle : TaskHandle) (t : Instant) : Error :=
  match course.status handle.task_id t with
  | .ok view =>
    match view.state with
    | .Failed message => .TaskFailed handle.task_id message
    | .Cancelled => .TaskCancelled handle.task_id
    | _ => .ObjectConflict handle.output
  | .error error => error

/-- Asks for the output until it is not pending any more, at most `fuel` times. -/
def result_rounds (handle : TaskHandle) (deadline : Instant) : Nat → Instant → Instant × Except (Fault Error) T
  | 0,now => (now,.error .Diverge)
  | fuel + 1,now =>
    match remaining_wait_ms deadline now with
    | .error error => (now,.error (.Err error))
    | .ok wait_ms =>
      match course.fetch_object handle.output wait_ms now with
      | (t,.ok read) => (t,(decode deserialize read).mapError .Err)
      | (t,.error (.ObjectPending _)) => result_rounds handle deadline fuel t
      | (t,.error (.Protocol _)) => (t,.error (.Err (course.terminal_error handle t)))
      | (t,.error error) => (t,.error (.Err error))

/-- A round in which the output stays pending takes time, so that `timeout + 1` rounds are enough. -/
def result (handle : TaskHandle) (timeout : Nat) (now : Instant) : Instant × Except (Fault Error) T :=
  if INSTANT_END ≤ now + timeout then (now,.error .Panic)
  else course.result_rounds deserialize handle (now + timeout) (timeout + 1) now

/-- What a handle makes of its slot in a batch. -/
def slot_result (t : Instant) (handle : TaskHandle) : Except Error ObjectPayload → Except Error T
  | .ok payload => ((course.site t).payload_bytes payload).bind (decode deserialize)
  | .error (.Protocol _) => .error (course.terminal_error handle t)
  | .error error => .error error

def results (handles : List TaskHandle) (timeout : Nat) (now : Instant) :
    Instant × Except (Fault Error) (List (Except Error T)) :=
  match course.fetch_batch (handles.map (·.output)) handles.length timeout now with
  | (t,.error fault) => (t,.error fault)
  | (t,.ok payloads) => (t,.ok ((payloads.zip handles).map fun slot => course.slot_result deserialize t slot.2 slot.1))

def slot_ready_result (t : Instant) (index : Nat) (handle : TaskHandle) : Except Error ObjectPayload → Ready T
  | .error (.ObjectPending _) => .Pending index
  | payload => .Done index (course.slot_result deserialize t handle payload)

def wait (handles : List TaskHandle) (min_ready timeout : Nat) (now : Instant) :
    Instant × Except (Fault Error) (List (Ready T)) :=
  match course.fetch_batch (handles.map (·.output)) (min min_ready handles.length) timeout now with
  | (t,.error fault) => (t,.error fault)
  | (t,.ok payloads) =>
    (t,.ok ((payloads.zip handles).zipIdx.map fun slot => course.slot_ready_result deserialize t slot.2 slot.1.2 slot.1.1))

end Course

/-! ### How a task ended -/

namespace CoordinatorServer
open CoordinatorState Command
variable {s : CoordinatorState} {id : TaskId} {task : TaskRecord} {answer : Except Error ObjectPayload}

/-- Once the output of a task is not pending any more, the task is over, and what is read of the output depends on how
    it ended. -/
theorem Resolves.ended (inv : Consistent s) (found : s.tasks.get id = some task) (settled : s.pending task.output = false)
    (resolves : Resolves s task.output answer) :
    (task.state = .Succeeded ∧ ((∃ payload, answer = .ok payload) ∨ answer = .error (.ObjectLost task.output))) ∨
      ((∃ message, task.state = .Failed message) ∨ task.state = .Cancelled) ∧ ∃ message, answer = .error (.Protocol message) := by
  obtain ⟨object,there⟩ := inv.output found
  have live := inv.reserved_iff found there
  have legal := inv.legal id task found
  have unreserved : object.state ≠ .Reserved := by
    simpa [CoordinatorState.pending,there] using settled
  have failed : ∀ {e}, resolve_object task.output s = .error (.Err e) s → answer = .error e := by
    intro e refused
    rw [Resolves,attempt,refused] at resolves
    exact (EStateM.Result.ok.inj resolves).1.symm
  cases state : task.state with
  | Succeeded =>
    simp only [view,View.Legal,state,there,Option.map_some,Option.some.injEq] at legal
    refine .inl ⟨rfl,?_⟩
    rcases legal.2.1 with available | lost
    · obtain ⟨codec,size,digest,place⟩ := inv.whole _ object there available
      obtain ⟨codec,hasCodec⟩ := Option.isSome_iff_exists.mp codec
      obtain ⟨size,hasSize⟩ := Option.isSome_iff_exists.mp size
      obtain ⟨digest,hasDigest⟩ := Option.isSome_iff_exists.mp digest
      obtain ⟨place,hasPlace⟩ := Option.isSome_iff_exists.mp place
      rw [Resolves,attempt,resolve_object_available there available hasCodec hasSize hasDigest hasPlace] at resolves
      exact .inl ⟨_,(EStateM.Result.ok.inj resolves).1.symm⟩
    · exact .inr (failed (by simp only [resolve_object,bind_apply,get_apply,there,lost,err_apply]))
  | Failed message =>
    simp only [view,View.Legal,state,there,Option.map_some,Option.some.injEq] at legal
    exact .inr ⟨.inl ⟨message,rfl⟩,_,failed (by simp only [resolve_object,bind_apply,get_apply,there,legal.2.1,err_apply]; rfl)⟩
  | Cancelled =>
    simp only [view,View.Legal,state,there,Option.map_some,Option.some.injEq] at legal
    exact .inr ⟨.inr rfl,_,failed (by simp only [resolve_object,bind_apply,get_apply,there,legal.2.1,err_apply]; rfl)⟩
  | _ => exact absurd (live.mpr (by rw [state]; rfl)) unreserved

theorem Resolves.absent {oid : ObjectId} (absent : s.objects.get oid = none) (resolves : Resolves s oid answer) :
    answer = .error (.Protocol "object unavailable") := by
  have refused : resolve_object oid s = .error (.Err (.Protocol "object unavailable")) s := by
    simp only [resolve_object,bind_apply,get_apply,absent,err_apply]
  rw [Resolves,attempt,refused] at resolves
  exact (EStateM.Result.ok.inj resolves).1.symm

end CoordinatorServer

/-- The task and the output of the handle belong together, and are released together. -/
structure TaskHandle.Owns (handle : TaskHandle) (s : CoordinatorState) : Prop where
  task : ∀ task, s.tasks.get handle.task_id = some task → task.output = handle.output
  released : s.tasks.get handle.task_id = none → s.objects.get handle.output = none

namespace Course
open CoordinatorServer CoordinatorState Polling
variable {T : Type} {deserialize : List UInt8 → Except String T} {course : Course} {annotate : ObjectPayload → ObjectPayload}
  {handle : TaskHandle} {t : Instant} {answer : Except Error ObjectPayload}

/-- How a task ended, as its handle tells it at an instant. What is read of the output is the annotated payload. -/
inductive Tells (deserialize : List UInt8 → Except String T) (course : Course) (annotate : ObjectPayload → ObjectPayload)
    (handle : TaskHandle) (t : Instant) : Except Error T → Prop where
  | value {task : TaskRecord} {payload : ObjectPayload} {read : Codec × List UInt8}
      (found : (course.state t).tasks.get handle.task_id = some task) (state : task.state = .Succeeded)
      (resolves : Resolves (course.state t) handle.output (.ok payload))
      (fetched : (course.site t).payload_bytes (annotate payload) = .ok read) :
      Tells deserialize course annotate handle t (decode deserialize read)
  /-- The output is there but could not be read. -/
  | unread {task : TaskRecord} {payload : ObjectPayload} {error told : Error}
      (found : (course.state t).tasks.get handle.task_id = some task) (state : task.state = .Succeeded)
      (resolves : Resolves (course.state t) handle.output (.ok payload))
      (fetched : (course.site t).payload_bytes (annotate payload) = .error error)
      (same : told = error ∨ (∃ message, error = .Protocol message) ∧ told = .ObjectConflict handle.output) :
      Tells deserialize course annotate handle t (.error told)
  | lost {task : TaskRecord} (found : (course.state t).tasks.get handle.task_id = some task) (state : task.state = .Succeeded)
      (resolves : Resolves (course.state t) handle.output (.error (.ObjectLost handle.output))) :
      Tells deserialize course annotate handle t (.error (.ObjectLost handle.output))
  | failed {task : TaskRecord} {message : String} (found : (course.state t).tasks.get handle.task_id = some task)
      (state : task.state = .Failed message) :
      Tells deserialize course annotate handle t (.error (.TaskFailed handle.task_id message))
  | cancelled {task : TaskRecord} (found : (course.state t).tasks.get handle.task_id = some task)
      (state : task.state = .Cancelled) :
      Tells deserialize course annotate handle t (.error (.TaskCancelled handle.task_id))
  | released (gone : (course.state t).tasks.get handle.task_id = none) :
      Tells deserialize course annotate handle t (.error (.TaskNotFound handle.task_id))

theorem status_some {id : TaskId} {task : TaskRecord} (found : (course.state t).tasks.get id = some task) :
    course.status id t = .ok ⟨task.id,task.output,task.state,task.attempt,task.assigned.map (·.node)⟩ := by
  have asked : course.dispatch_once (.Status id) t =
      .ok (.Status ⟨task.id,task.output,task.state,task.attempt,task.assigned.map (·.node)⟩) := by
    refine Site.request_coordinator _ (s := (course.site t).server) ?_
    rw [state] at found
    simp only [dispatch_client,CoordinatorServer.status,Command.bind_apply,Command.get_apply,found,Command.pure_apply]
  rw [status,asked]

theorem status_none {id : TaskId} (gone : (course.state t).tasks.get id = none) :
    course.status id t = .error (.TaskNotFound id) := by
  have asked : course.dispatch_once (.Status id) t = .ok (.Error (.TaskNotFound id)) := by
    refine Site.request_coordinator _ (s := (course.site t).server) ?_
    rw [state] at gone
    simp only [dispatch_client,CoordinatorServer.status,Command.bind_apply,Command.get_apply,gone,Command.pure_apply]
  rw [status,asked]

/-- A handle of an output that is unavailable, but not lost, tells why. -/
theorem terminal_error_tells (owns : handle.Owns (course.state t)) (settled : course.resolved handle.output t = true)
    {message : String} (resolves : Resolves (course.state t) handle.output (.error (.Protocol message))) :
    Tells deserialize course annotate handle t (.error (course.terminal_error handle t)) := by
  have settled : (course.state t).pending handle.output = false := by simpa [resolved] using settled
  cases found : (course.state t).tasks.get handle.task_id with
  | none =>
    rw [terminal_error,status_none found]
    exact .released found
  | some task =>
    rw [← owns.task task found] at settled resolves
    rw [terminal_error,status_some found]
    rcases resolves.ended (course.inv t).consistent found settled with ⟨_,⟨_,same⟩ | same⟩ | ⟨⟨_,failed⟩ | cancelled,_⟩
    · cases same
    · cases same
    · dsimp only
      rw [failed]
      exact .failed found failed
    · dsimp only
      rw [cancelled]
      exact .cancelled found cancelled

/-- What is read of an output tells how the task ended, if a handle makes this of it. -/
theorem Tells.of_read {outcome : Except Error T} (owns : handle.Owns (course.state t))
    (settled : course.resolved handle.output t = true) (resolves : Resolves (course.state t) handle.output answer)
    (valued : ∀ payload read, answer = .ok payload → (course.site t).payload_bytes (annotate payload) = .ok read →
      outcome = decode deserialize read)
    (unread : ∀ task payload error, (course.state t).tasks.get handle.task_id = some task → task.state = .Succeeded →
      answer = .ok payload → (course.site t).payload_bytes (annotate payload) = .error error → ∃ told, outcome = .error told ∧
        (told = error ∨ (∃ message, error = .Protocol message) ∧ told = .ObjectConflict handle.output))
    (lost : answer = .error (.ObjectLost handle.output) → outcome = .error (.ObjectLost handle.output))
    (ended : ∀ message, answer = .error (.Protocol message) → outcome = .error (course.terminal_error handle t)) :
    Tells deserialize course annotate handle t outcome := by
  have pending : (course.state t).pending handle.output = false := by simpa [resolved] using settled
  have unavailable : ∀ message, answer = .error (.Protocol message) → Tells deserialize course annotate handle t outcome := by
    rintro message rfl
    rw [ended message rfl]
    exact terminal_error_tells owns settled resolves
  cases found : (course.state t).tasks.get handle.task_id with
  | none => exact unavailable _ (resolves.absent (owns.released found))
  | some task =>
    have output := owns.task task found
    rw [← output] at pending
    have resolves' := resolves
    rw [← output] at resolves'
    rcases resolves'.ended (course.inv t).consistent found pending with ⟨state,⟨payload,rfl⟩ | rfl⟩ | ⟨_,message,same⟩
    · cases fetched : (course.site t).payload_bytes (annotate payload) with
      | ok read =>
        rw [valued payload read rfl fetched]
        exact .value found state resolves fetched
      | error error =>
        obtain ⟨told,rfl,same⟩ := unread task payload error found state rfl fetched
        exact .unread found state resolves fetched same
    · rw [output] at resolves lost
      rw [lost rfl]
      exact .lost found state resolves
    · exact unavailable message same

theorem slot_result_tells (owns : handle.Owns (course.state t)) (settled : course.resolved handle.output t = true)
    (resolves : Resolves (course.state t) handle.output answer) :
    Tells deserialize course id handle t (course.slot_result deserialize t handle answer) := by
  refine .of_read owns settled resolves ?_ ?_ ?_ ?_
  · rintro payload read rfl fetched
    change (course.site t).payload_bytes payload = .ok read at fetched
    rw [slot_result,fetched]
    rfl
  · rintro _ payload error _ _ rfl fetched
    change (course.site t).payload_bytes payload = .error error at fetched
    refine ⟨error,?_,.inl rfl⟩
    rw [slot_result,fetched]
    rfl
  · rintro rfl
    rfl
  · rintro message rfl
    rfl

/-! ### One handle -/

/-- What a handle makes of the output that it has got. -/
def conclude (deserialize : List UInt8 → Except String T) (course : Course) (t : Instant) (handle : TaskHandle) :
    Except Error (Codec × List UInt8) → Except Error T
  | .ok read => decode deserialize read
  | .error (.Protocol _) => .error (course.terminal_error handle t)
  | .error error => .error error

theorem conclude_tells (owns : handle.Owns (course.state t)) (settled : course.resolved handle.output t = true)
    (resolves : Resolves (course.state t) handle.output answer) :
    Tells deserialize course annotate handle t
      (course.conclude deserialize t handle (answer.bind fun payload => (course.site t).payload_bytes (annotate payload))) := by
  refine .of_read owns settled resolves ?_ ?_ ?_ ?_
  · rintro payload read rfl fetched
    change course.conclude deserialize t handle ((course.site t).payload_bytes (annotate payload)) = _
    rw [fetched]
    rfl
  · rintro task payload error found state rfl fetched
    change ∃ told, course.conclude deserialize t handle ((course.site t).payload_bytes (annotate payload)) = _ ∧ _
    rw [fetched]
    cases error with
    | Protocol message =>
      -- The task has succeeded, so that its state gives no reason.
      have conflict : course.terminal_error handle t = .ObjectConflict handle.output := by
        rw [terminal_error,status_some found]
        dsimp only
        rw [state]
      exact ⟨_,rfl,.inr ⟨⟨message,rfl⟩,conflict⟩⟩
    | _ => exact ⟨_,rfl,.inl rfl⟩
  · rintro rfl
    rfl
  · rintro message rfl
    rfl

variable {timeout fuel deadline now r : Nat}

theorem result_rounds_turn (deserialize : List UInt8 → Except String T) (course : Course) (handle : TaskHandle) (deadline : Nat) :
    Rounds (course.resolved handle.output) (fun stop returned => handle.Owns (course.state stop) →
      ∃ outcome : Except Error T, returned = (stop,outcome.mapError .Err) ∧
        Tells deserialize course (course.site stop).server.arena_annotate handle stop outcome) deadline
      (course.result_rounds deserialize handle deadline) := by
  intro fuel t early
  obtain ⟨wait_ms,waits,_,parked⟩ := remaining_wait early
  have stops := course.get_stops handle.output wait_ms 0 t
  rw [← parked] at stops
  refine ⟨_,stops,?_⟩
  generalize answered : course.dispatch_blocking (.Get handle.output) wait_ms 0 t = stop
  obtain ⟨answer,resolves⟩ := exists_resolves (course.inv stop) handle.output
  have fetched : course.fetch_object handle.output wait_ms t =
      (stop,answer.bind fun payload => (course.site stop).payload_bytes ((course.site stop).server.arena_annotate payload)) := by
    rw [fetch_object,answered,fetched_get resolves]
  rw [result_rounds,waits]
  dsimp only
  rw [fetched]
  refine ⟨fun settled owns => ⟨_,?_,conclude_tells owns settled resolves⟩,fun unsettled => ?_⟩
  · have unpending : ∀ id, (answer.bind fun payload => (course.site stop).payload_bytes
        ((course.site stop).server.arena_annotate payload)) ≠ .error (.ObjectPending id) := by
      intro id same
      cases settled.symm.trans (course.get_pending handle.output stop ((fetched_get resolves).trans same))
    generalize (answer.bind fun payload => (course.site stop).payload_bytes
      ((course.site stop).server.arena_annotate payload)) = read at unpending
    cases read with
    | ok read => rfl
    | error error =>
      cases error with
      | ObjectPending id => exact absurd rfl (unpending id)
      | _ => rfl
  · have pending : (course.state stop).pending handle.output = true := by simpa [resolved] using unsettled
    obtain rfl : answer = .error (.ObjectPending handle.output) :=
      (EStateM.Result.ok.inj (resolves.symm.trans (resolves_pending pending))).1
    rfl

/-- Within a positive timeout that the clock can count to, a handle returns at the first instant at which its output is
    settled, and tells how its task ended. If there is none within a timeout of whole milliseconds, it fails at its end. -/
theorem result_tells (deserialize : List UInt8 → Except String T) (course : Course) (handle : TaskHandle)
    (timeout now : Nat) (positive : 0 < timeout) (clock : now + timeout < INSTANT_END) :
    (∀ r, First (course.resolved handle.output) now r → r ≤ now + timeout → handle.Owns (course.state r) →
      ∃ outcome : Except Error T, course.result deserialize handle timeout now = (r,outcome.mapError .Err) ∧
        Tells deserialize course (course.site r).server.arena_annotate handle r outcome) ∧
    ∀ ms, timeout = from_millis ms → (∀ u, now ≤ u → u ≤ now + timeout → (course.state u).pending handle.output = true) →
      course.result deserialize handle timeout now = (now + timeout,.error (.Err .DeadlineExceeded)) := by
  rw [result,if_neg (Nat.not_le.mpr clock)]
  have turns := result_rounds_turn deserialize course handle (now + timeout)
  refine ⟨fun r first in_time owns => turns.resolves first in_time (by omega) (by omega) owns,fun ms whole never => ?_⟩
  have short : ms ≤ from_millis ms := Nat.le_mul_of_pos_right ms (by decide)
  exact turns.expires (fun fuel => by simp [result_rounds,remaining_wait_ms]) ms (by rw [whole])
    (fun u after before => by simp [resolved,never u after before]) (by omega)

/-! ### Many handles -/

section
variable {handles : List TaskHandle} {min_ready : Nat} {answers : List (Except Error ObjectPayload)}

theorem batch_fetched {ids : List ObjectId} (clock : now + timeout < INSTANT_END) (positive : 0 < timeout)
    (roomy : Roomy (course.state r) ids) (first : First (course.enough ids min_ready) now r)
    (in_time : r ≤ now + timeout) (few : min_ready ≤ ids.length) :
    ∃ answers, List.Forall₂ (Resolves (course.state r)) ids answers ∧
      course.fetch_batch ids min_ready timeout now = (r,.ok answers) := by
  obtain ⟨starts,answers,read,fit⟩ := roomy
  have short := Nat.lt_of_le_of_lt few starts.short
  obtain ⟨results,filled,fetched⟩ := (fetch_rounds_turn course _ starts short).resolves first in_time (by omega)
    (show now + timeout - now < timeout + 1 by omega)
  obtain rfl := filled.roomy read fit
  exact ⟨results,read,by rw [fetch_batch,if_neg (Nat.not_le.mpr clock),fetched]⟩

/-- The slots of a batch belong to its handles. -/
theorem zipped (read : List.Forall₂ (Resolves (course.state r)) (handles.map (·.output)) answers) {i : Nat}
    (asked : handles[i]? = some handle) :
    ∃ answer, (answers.zip handles)[i]? = some (answer,handle) ∧ Resolves (course.state r) handle.output answer := by
  obtain ⟨inside,rfl⟩ := List.getElem?_eq_some_iff.mp asked
  have length := read.length_eq
  rw [List.length_map] at length
  have inside' : i < answers.length := length ▸ inside
  refine ⟨answers[i],?_,?_⟩
  · rw [List.getElem?_zip_eq_some]
    exact ⟨List.getElem?_eq_getElem inside',List.getElem?_eq_getElem inside⟩
  · have resolves := read.get (by rwa [List.length_map]) inside'
    simpa using resolves

/-- Within a positive timeout that the clock can count to, handles whose outputs fit a frame return together, at the first
    instant at which all outputs are settled, and each tells how its own task ended. -/
theorem results_tell (deserialize : List UInt8 → Except String T) (course : Course) (handles : List TaskHandle)
    (timeout now r : Nat) (positive : 0 < timeout) (clock : now + timeout < INSTANT_END)
    (roomy : Roomy (course.state r) (handles.map (·.output)))
    (first : First (course.enough (handles.map (·.output)) handles.length) now r) (in_time : r ≤ now + timeout)
    (owns : ∀ handle ∈ handles, handle.Owns (course.state r)) :
    ∃ slots : List (Except Error T), course.results deserialize handles timeout now = (r,.ok slots) ∧
      slots.length = handles.length ∧ ∀ (i : Nat) (handle : TaskHandle), handles[i]? = some handle →
        ∃ outcome, slots[i]? = some outcome ∧ Tells deserialize course id handle r outcome := by
  obtain ⟨answers,read,fetched⟩ := batch_fetched clock positive roomy first in_time (by simp)
  have length := read.length_eq
  rw [List.length_map] at length
  have settled : ∀ handle ∈ handles, course.resolved handle.output r = true := by
    have all : handles.length ≤ (handles.map (·.output)).countP fun id => course.resolved id r := of_decide_eq_true first.now
    have total : (handles.map (·.output)).length = handles.length := List.length_map _
    have every := List.countP_eq_length.mp (Nat.le_antisymm List.countP_le_length (total ▸ all))
    exact fun handle member => every _ (List.mem_map_of_mem member)
  refine ⟨_,by rw [results,fetched],by simp [length],fun i handle asked => ?_⟩
  obtain ⟨answer,paired,resolves⟩ := zipped read asked
  have member := List.mem_of_getElem? asked
  refine ⟨_,?_,slot_result_tells (owns handle member) (settled handle member) resolves⟩
  rw [List.getElem?_map,paired]
  rfl

/-- If enough outputs are settled at some instant within the timeout, a wait returns at the first such instant, with a slot
    for each handle in their order: that it is pending, if its output is so then, or else how its own task ended. -/
theorem wait_tells (deserialize : List UInt8 → Except String T) (course : Course) (handles : List TaskHandle)
    (min_ready timeout now r : Nat) (positive : 0 < timeout) (clock : now + timeout < INSTANT_END)
    (roomy : Roomy (course.state r) (handles.map (·.output)))
    (first : First (course.enough (handles.map (·.output)) (min min_ready handles.length)) now r)
    (in_time : r ≤ now + timeout) (owns : ∀ handle ∈ handles, handle.Owns (course.state r)) :
    ∃ slots : List (Ready T), course.wait deserialize handles min_ready timeout now = (r,.ok slots) ∧
      slots.length = handles.length ∧ ∀ (i : Nat) (handle : TaskHandle), handles[i]? = some handle →
        ((course.state r).pending handle.output = true ∧ slots[i]? = some (.Pending i)) ∨
        ((course.state r).pending handle.output = false ∧ ∃ outcome, slots[i]? = some (.Done i outcome) ∧
          Tells deserialize course id handle r outcome) := by
  obtain ⟨answers,read,fetched⟩ := batch_fetched clock positive roomy first in_time (by simp)
  have length := read.length_eq
  rw [List.length_map] at length
  refine ⟨_,by rw [wait,fetched],by simp [length],fun i handle asked => ?_⟩
  obtain ⟨answer,paired,resolves⟩ := zipped read asked
  have slot : ((answers.zip handles).zipIdx.map fun slot =>
      course.slot_ready_result deserialize r slot.2 slot.1.2 slot.1.1)[i]? =
      some (course.slot_ready_result deserialize r i handle answer) := by
    rw [List.getElem?_map,List.getElem?_zipIdx,paired]
    simp
  cases pending : (course.state r).pending handle.output with
  | true =>
    obtain rfl : answer = .error (.ObjectPending handle.output) :=
      (EStateM.Result.ok.inj (resolves.symm.trans (resolves_pending pending))).1
    exact .inl ⟨rfl,slot⟩
  | false =>
    have ready := resolves.ready
    rw [pending] at ready
    refine .inr ⟨rfl,_,slot.trans ?_,slot_result_tells (owns handle (List.mem_of_getElem? asked)) ?_ resolves⟩
    · cases answer with
      | ok payload => rfl
      | error error =>
        cases error with
        | ObjectPending => cases ready
        | _ => rfl
    · rw [resolved,pending]
      rfl

end

/-! ### The handles of two small tasks -/

def smallHandle : TaskHandle := ⟨smallTask,smallOutput⟩
def droppedHandle : TaskHandle := ⟨droppedTask,droppedOutput⟩

theorem owns_of {handle : TaskHandle} {s : CoordinatorState}
    (output : (s.tasks.get handle.task_id).map (·.output) = some handle.output) : handle.Owns s := by
  refine ⟨fun task found => ?_,fun gone => ?_⟩
  · rw [found] at output
    exact Option.some.inj output
  · rw [gone] at output
    cases output

theorem finishing_owned (finish t : Nat) : ∀ handle ∈ [smallHandle,droppedHandle], handle.Owns ((finishing finish).state t) := by
  have both : ∀ s ∈ [runningState,finishedState], ∀ handle ∈ [smallHandle,droppedHandle],
      (s.tasks.get handle.task_id).map (·.output) = some handle.output := by decide +kernel
  intro handle member
  rw [finishing_state]
  split
  · exact owns_of (both _ (by simp) handle member)
  · exact owns_of (both _ (by simp) handle member)

/-- The task ends after five seconds, and its handle, which waits for ten, returns then. -/
theorem finishing_told : 0 < from_millis 10000 ∧ 0 + from_millis 10000 < INSTANT_END ∧
    ∃ outcome : Except Error (List UInt8), (finishing (from_millis 5000)).result .ok smallHandle (from_millis 10000) 0 =
      (from_millis 5000,outcome.mapError .Err) := by
  have told := (result_tells (.ok : List UInt8 → Except String (List UInt8)) (finishing (from_millis 5000)) smallHandle
    (from_millis 10000) 0 (by decide) (by decide)).1 (from_millis 5000) (finishing_first _) (by decide)
      (finishing_owned _ _ _ List.mem_cons_self)
  obtain ⟨outcome,returned,_⟩ := told
  exact ⟨by decide,by decide,outcome,returned⟩

theorem handles_roomy (finish t : Nat) : Roomy ((finishing finish).state t) ([smallHandle,droppedHandle].map (·.output)) := by
  refine ⟨show _ ≤ _ by decide +kernel,?_⟩
  rw [finishing_state]
  split
  · exact ⟨_,.cons (List.forall₂_cons.mp (List.forall₂_cons.mp running_read).2).1 (.cons (Outcome.eq_ok (show _ =
      some (.error (.Protocol "object unavailable")) by decide +kernel)) .nil),by decide +kernel,by decide +kernel,trivial⟩
  · exact ⟨_,.cons (List.forall₂_cons.mp (List.forall₂_cons.mp finished_read).2).1 (.cons (Outcome.eq_ok (show _ =
      some (.error (.Protocol "object unavailable")) by decide +kernel)) .nil),by decide +kernel,by decide +kernel,trivial⟩

/-- The output of the cancelled task is settled all the time. -/
theorem handles_enough (finish t : Nat) :
    (finishing finish).enough ([smallHandle,droppedHandle].map (·.output)) 2 t = decide (finish ≤ t) ∧
      (finishing finish).enough ([smallHandle,droppedHandle].map (·.output)) 1 t = true := by
  have settled : ∀ s ∈ [runningState,finishedState], s.pending droppedOutput = false := by decide +kernel
  have dropped : (finishing finish).resolved droppedOutput t = true := by
    rw [resolved,finishing_state]
    split
    · rw [settled _ (by simp)]; rfl
    · rw [settled _ (by simp)]; rfl
  by_cases late : finish ≤ t
  · simp [enough,smallHandle,droppedHandle,finishing_resolved,dropped,late]
  · simp [enough,smallHandle,droppedHandle,finishing_resolved,dropped,late]

/-- One task succeeds after five seconds and the other was cancelled: both handles tell so then. -/
theorem small_results : ∃ slots : List (Except Error (List UInt8)),
    (finishing (from_millis 5000)).results .ok [smallHandle,droppedHandle] (from_millis 10000) 0 = (from_millis 5000,.ok slots) ∧
      slots.length = 2 ∧ ∀ (i : Nat) (handle : TaskHandle), [smallHandle,droppedHandle][i]? = some handle →
        ∃ outcome, slots[i]? = some outcome ∧ Tells .ok (finishing (from_millis 5000)) id handle (from_millis 5000) outcome :=
  results_tell .ok (finishing (from_millis 5000)) [smallHandle,droppedHandle] (from_millis 10000) 0 (from_millis 5000)
    (by decide) (by decide) (handles_roomy _ _)
    ⟨Nat.zero_le _,(handles_enough _ _).1.trans (decide_eq_true le_rfl),fun _ _ early =>
      (handles_enough _ _).1.trans (decide_eq_false (Nat.not_le.mpr early))⟩ (by decide) (finishing_owned _ _)

/-- When one slot is enough, the wait returns at once: the task is pending, and the cancelled one tells so. -/
theorem small_waited : ∃ slots : List (Ready (List UInt8)),
    (finishing (from_millis 5000)).wait .ok [smallHandle,droppedHandle] 1 (from_millis 10000) 0 = (0,.ok slots) ∧
      slots[0]? = some (.Pending 0) ∧ ∃ outcome, slots[1]? = some (.Done 1 outcome) ∧
        Tells .ok (finishing (from_millis 5000)) id droppedHandle 0 outcome := by
  obtain ⟨slots,returned,_,slot⟩ := wait_tells (.ok : List UInt8 → Except String (List UInt8)) (finishing (from_millis 5000))
    [smallHandle,droppedHandle] 1 (from_millis 10000) 0 0 (by decide) (by decide) (handles_roomy _ _)
    ⟨le_rfl,(handles_enough _ _).2,fun t _ early => by omega⟩ (by decide) (finishing_owned _ _)
  have running : (finishing (from_millis 5000)).state 0 = runningState := by rw [finishing_state,if_pos (by decide)]
  have pending : runningState.pending smallOutput = true ∧ runningState.pending droppedOutput = false := by decide +kernel
  refine ⟨slots,returned,?_,?_⟩
  · rcases slot 0 smallHandle rfl with ⟨_,first⟩ | ⟨settled,_⟩
    · exact first
    · cases pending.1.symm.trans (running ▸ settled)
  · rcases slot 1 droppedHandle rfl with ⟨unsettled,_⟩ | ⟨_,second⟩
    · cases pending.2.symm.trans (running ▸ unsettled)
    · exact second

end Course
end Crayon
