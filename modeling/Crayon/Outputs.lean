import Crayon.Reconnect
import Crayon.Redelivery

/-!
The outputs that a worker process keeps. The store of the process outlives its
sessions and knows outputs by their ids, which all attempts of a task share. What
the coordinator says of an output that the process owns is what the store serves,
and an attempt finds no output of another one in its place, as long as every report
of a completion is answered and no copy of one is handled besides. When such a report
is lost, the output of the attempt stays in the store, and the next attempt of the
task at this worker meets it.
-/
namespace Crayon.CoordinatorState
open Command
open Relation (ReflTransGen)
variable {blake3 : List UInt8 → Checksum} {s s' : CoordinatorState} {op : Op} {reply : Reply} {node : NodeId} {id : ObjectId}
  {record : ObjectRecord} {tid : TaskId}

/-! ### Outputs at the coordinator -/

/-- The worker owns the output. -/
structure Owns (s : CoordinatorState) (node : NodeId) (id : ObjectId) (record : ObjectRecord) : Prop where
  found : s.objects.get id = some record
  available : record.state = .Available
  owned : record.owner = some node

/-- Whatever task the output is of, it has succeeded. -/
def Done (s : CoordinatorState) (id : ObjectId) : Prop :=
  ∀ tid task, s.tasks.get tid = some task → task.output = id → task.state = .Succeeded

/-- No task makes the object, and the worker does not own it. -/
structure Gone (s : CoordinatorState) (node : NodeId) (id : ObjectId) : Prop where
  settled : ∀ record, s.objects.get id = some record → record.state ≠ .Reserved ∧ record.owner ≠ some node
  unmade : ∀ tid task, s.tasks.get tid = some task → task.output ≠ id

/-- The task, if it is still there, is the one that makes the output. -/
def Yields (s : CoordinatorState) (tid : TaskId) (id : ObjectId) : Prop :=
  ∀ task, s.tasks.get tid = some task → task.output = id

theorem Gone.unheld (gone : Gone s node id) : ¬ Owns s node id record :=
  fun owns => (gone.settled record owns.found).2 owns.owned

/-- A task was submitted just now, or was there before and makes the same output. -/
theorem TaskStep.came {before : Option TaskRecord} {task' : TaskRecord} (step : TaskStep op tid before (some task')) :
    (.task tid ∈ op.minted ∧ .object task'.output ∈ op.minted) ∨
      ∃ task, before = some task ∧ task'.output = task.output ∧
        (task.state.is_terminal = true → task'.state = task.state) := by
  cases step with
  | kept => exact .inr ⟨task',rfl,rfl,fun _ => rfl⟩
  | submitted submitted => exact .inl ⟨submitted.minted,submitted.output ▸ submitted.drawn⟩
  | @advanced task live =>
    refine .inr ⟨task,rfl,rfl,fun ended => ?_⟩
    rw [live] at ended
    cases ended
  | @stamped task ended => exact .inr ⟨task,rfl,rfl,fun _ => rfl⟩

theorem Move.owns (move : Move op s s') (inv : Consistent s)
    (other : ∀ identity report, op = .complete identity report → identity.node_id ≠ node) (owns : Owns s' node id record) :
    Owns s node id record := by
  have step := move.object inv id
  rw [owns.found] at step
  have owned := owns.owned
  have available := owns.available
  cases there : s.objects.get id with
  | none =>
    rw [there] at step
    cases step with
    | stored source => cases owned
    | reserved codec drawn => cases owned
  | some old =>
    rw [there] at step
    cases step with
    | kept => exact ⟨there,available,owned⟩
    | delivered reserved asked at_worker location small => exact absurd (Option.some.inj owned) (other _ _ asked)
    | ended reserved final =>
      rcases final with rfl | rfl
      · cases available
      · cases available
    | orphaned gone =>
      rcases orphan_cases gone old with ⟨same,_⟩ | ⟨_,_,⟨_,same⟩ | ⟨_,same⟩⟩
      · rw [same] at available owned ⊢
        exact ⟨there,available,owned⟩
      · rw [same] at owned
        cases owned
      · rw [same] at owned
        cases owned

theorem Move.done (move : Move op s s') (inv : Consistent s) (undrawn : .object id ∉ op.minted) (done : Done s id) :
    Done s' id := by
  intro tid task' found output
  have step := move.task inv tid
  rw [found] at step
  rcases step.came with ⟨_,drawn⟩ | ⟨task,there,same,state⟩
  · exact absurd (output ▸ drawn) undrawn
  · have succeeded := done tid task there (same ▸ output)
    rw [state (by rw [succeeded]; rfl),succeeded]

theorem Move.yields (move : Move op s s') (inv : Consistent s) (undrawn : .task tid ∉ op.minted) (yields : Yields s tid id) :
    Yields s' tid id := by
  intro task' found
  have step := move.task inv tid
  rw [found] at step
  rcases step.came with ⟨minted,_⟩ | ⟨task,there,same,_⟩
  · exact absurd minted undrawn
  · exact same.trans (yields task there)

theorem Move.gone (move : Move op s s') (inv : Consistent s) (undrawn : .object id ∉ op.minted) (gone : Gone s node id) :
    Gone s' node id where
  settled record found := by
    have step := move.object inv id
    rw [found] at step
    cases there : s.objects.get id with
    | none =>
      rw [there] at step
      cases step with
      | stored source => exact ⟨nofun,nofun⟩
      | reserved codec drawn => exact absurd drawn undrawn
    | some old =>
      have settled := gone.settled old there
      rw [there] at step
      cases step with
      | kept => exact settled
      | delivered reserved => exact absurd reserved settled.1
      | ended reserved => exact absurd reserved settled.1
      | orphaned lost =>
        rcases orphan_cases lost old with ⟨same,_⟩ | ⟨_,available,⟨_,same⟩ | ⟨_,same⟩⟩
        · rw [same]
          exact settled
        · rw [same]
          exact ⟨settled.1,nofun⟩
        · rw [same]
          exact ⟨nofun,nofun⟩
  unmade tid task' found := by
    have step := move.task inv tid
    rw [found] at step
    rcases step.came with ⟨_,drawn⟩ | ⟨task,there,same,_⟩
    · exact fun made => undrawn (made ▸ drawn)
    · rw [same]
      exact gone.unmade tid task there

theorem Moves.owns (moves : Moves op s s') (inv : Consistent s)
    (other : ∀ identity report, op = .complete identity report → identity.node_id ≠ node) (owns : Owns s' node id record) :
    Owns s node id record :=
  moves.with_consistent (P := fun t => Owns t node id record → Owns s node id record) inv
    (fun _ _ inv move before owns => before (move.owns inv other owns)) (fun owns => owns) owns

theorem Moves.done (moves : Moves op s s') (inv : Consistent s) (undrawn : .object id ∉ op.minted) (done : Done s id) :
    Done s' id :=
  moves.with_consistent inv (fun _ _ inv move => move.done inv undrawn) done

theorem Moves.yields (moves : Moves op s s') (inv : Consistent s) (undrawn : .task tid ∉ op.minted)
    (yields : Yields s tid id) : Yields s' tid id :=
  moves.with_consistent inv (fun _ _ inv move => move.yields inv undrawn) yields

theorem Moves.gone (moves : Moves op s s') (inv : Consistent s) (undrawn : .object id ∉ op.minted)
    (gone : Gone s node id) : Gone s' node id :=
  moves.with_consistent inv (fun _ _ inv move => move.gone inv undrawn) gone

/-! ### Deletes that are queued -/

theorem owes_removed {k : NodeId} (owes : Owes { s with pending_deletes := s.pending_deletes.remove k } node id) :
    Owes s node id := by
  unfold Owes at owes ⊢
  rw [Table.get_remove] at owes
  split at owes
  · cases owes
  · exact owes

theorem Swept.owed {now : Nat} (swept : Swept now s s') (owes : Owes s' node id) : Owes s node id := by
  induction swept with
  | refl => exact owes
  | tail _ sweep ih =>
    cases sweep with
    | evict found dead idle => exact ih (owes_removed owes)
    | _ => exact ih owes

theorem Released.gone_on {k : ObjectId} (released : Released s k s') (gone : Gone s node id) : Gone s' node id := by
  cases released with
  | before => exact gone
  | drop found settled unused =>
    refine ⟨fun record there => ?_,fun tid task there => ?_⟩
    · rw [dropped,Table.get_remove] at there
      split at there
      · cases there
      · exact gone.settled record there
    · rw [dropped,Table.get_retain] at there
      exact gone.unmade tid task (Option.filter_eq_some_iff.mp there).1

/-- What a release queues is gone. -/
theorem Released.owed {k : ObjectId} (released : Released s k s') (owes : Owes s' node id) :
    Owes s node id ∨ Gone s' node id := by
  have dropped_gone : s'.objects.get k = none := released.gone
  cases released with
  | before => exact .inl owes
  | @drop object found settled unused =>
    by_cases same : id = k
    · subst same
      refine .inr ⟨fun record there => ?_,fun tid task there => ?_⟩
      · rw [dropped_gone] at there
        cases there
      · rw [dropped,Table.get_retain] at there
        simpa using (Option.filter_eq_some_iff.mp there).2
    left
    unfold Owes at owes ⊢
    rw [dropped] at owes
    dsimp only at owes
    split at owes
    · split at owes
      · rw [Table.get_insert] at owes
        split at owes
        · rename_i owner _ _ here
          rw [here]
          rcases List.mem_append.mp owes with before | now
          · exact before
          · exact absurd (List.mem_singleton.mp now) same
        · exact owes
      · exact owes
    · exact owes

theorem Releases.owed_or_gone (releases : Releases s s') (owes : Owes s' node id) : Owes s node id ∨ Gone s' node id := by
  induction releases with
  | refl => exact .inl owes
  | tail _ step ih =>
    obtain ⟨k,released⟩ := step
    rcases released.owed owes with before | gone
    · exact (ih before).imp_right released.gone_on
    · exact .inr gone

/-- What an operation queues is gone. -/
theorem Effect.owed_or_gone (effect : Effect blake3 op s reply s') (owes : Owes s' node id) :
    Owes s node id ∨ Gone s' node id := by
  have rippled {t t' : CoordinatorState} (ripples : Ripples t t') (same : t.pending_deletes = s.pending_deletes)
      (owes : Owes t' node id) : Owes s node id := by
    unfold Owes at owes ⊢
    rwa [ripples.pending_deletes,same] at owes
  cases effect with
  | put admitted => cases admitted <;> exact .inl owes
  | put_meta admitted => cases admitted <;> exact .inl owes
  | completed _ _ _ _ _ _ _ _ _ _ freed ripples => exact .inl (rippled ripples rfl owes)
  | failed current matching found state final freed ripples => exact .inl (rippled ripples rfl owes)
  | acknowledged current matching found state freed ripples => exact .inl (rippled ripples rfl owes)
  | cancelled found state ripples => exact .inl (rippled ripples rfl owes)
  | expired report swept workers ripples =>
    refine .inl (swept.owed ?_)
    unfold Owes at owes ⊢
    rwa [← ripples.pending_deletes]
  | reaped count releases => exact releases.owed_or_gone owes
  | released released => exact released.owed owes
  | taken => exact .inl (owes_removed owes)
  | _ => exact .inl owes

/-! ### Completions -/

/-- A completion that is accepted makes the task of the output succeed, and no record changes but that of the output. -/
theorem Effect.completes {identity : WorkerIdentity} {report : TaskCompletion}
    (effect : Effect blake3 (.complete identity report) s reply s') (inv : Consistent s)
    (yields : Yields s report.fence.task_id report.output_id) :
    Done s' report.output_id ∧ ∀ node id record, Owns s' node id record → Owns s node id record ∨
      id = report.output_id ∧ record.checksum = some report.checksum ∧ record.size_bytes = some report.size_bytes := by
  cases effect with
  | completed_before found succeeded =>
    refine ⟨fun tid task there output => ?_,fun _ _ _ => .inl⟩
    obtain rfl := inv.outputs _ _ _ _ there found (output.trans (yields _ found).symm)
    rw [Option.some.inj (there.symm.trans found)]
    exact succeeded
  | @completed _ t _ _ task _ _ _ workers current matching found state at_worker living offered verified output accepted freed
      ripples reconciled =>
    have made := yields task found
    have move : Move (.complete identity report) s _ := .complete rfl found state (matching.assigned found) at_worker living
      accepted.2.2.1 accepted.2.2.2 freed
    have between := move.consistent inv
    have moves := ripples.moves (.take_pending_deletes identity.node_id)
    refine ⟨?_,fun node id record owns => ?_⟩
    · have done : Done t report.output_id := by
        refine moves.done between (by simp [Op.minted]) fun tid task' there output' => ?_
        rw [Table.get_modify] at there
        split at there
        · obtain ⟨_,_,rfl⟩ := Option.map_eq_some_iff.mp there
          rfl
        · rename_i other
          exact absurd (inv.outputs _ _ _ _ there found (output'.trans made.symm)) other
      exact done
    · have before := moves.owns between (by rintro _ _ ⟨⟩) (show Owns t node id record from ⟨owns.found,owns.available,owns.owned⟩)
      have there := before.found
      rw [Table.get_modify] at there
      split at there
      · rename_i same
        obtain ⟨_,_,rfl⟩ := Option.map_eq_some_iff.mp there
        exact .inr ⟨same.trans made,rfl,rfl⟩
      · exact .inl ⟨there,owns.available,owns.owned⟩

/-- Who registers is told an identity of its node. -/
theorem Effect.named {register : RegisterWorker} {now lease_ms : Nat} {session_id : WorkerSessionId} {identity : WorkerIdentity}
    (effect : Effect blake3 (.register_worker register now lease_ms session_id) s (.Identity identity) s') (inv : Consistent s) : identity.node_id = register.node_id := by
  cases effect with
  | renewed collected found same => exact inv.worker_ids _ _ found
  | enrolled => rfl

end Crayon.CoordinatorState

namespace Crayon

/-! ### Outputs of the process -/

namespace Worker
variable {w w' : Worker} {debug : WorkerReply → String} {display : Error → String} {blake3 : List UInt8 → Checksum}
  {identity : WorkerIdentity} {answer : Answer} {error : Error}

/-- The assignment that the process is at. -/
def held (w : Worker) : Option TaskAssignment :=
  match w.life with
  | .active _ duty =>
    match duty with
    | .polling | .cancelling _ => none
    | .starting assignment | .fetching assignment | .executing assignment | .watching assignment | .stopping assignment
    | .failing assignment _ _ | .completing assignment _ => some assignment
  | _ => none

/-- The output that the process has stored and reports. -/
def completing (w : Worker) : Option (TaskAssignment × LocalObject) :=
  match w.life with
  | .active _ (.completing assignment object) => some (assignment,object)
  | _ => none

/-- The process has no assignment. -/
def Free (w : Worker) : Prop := w.held = none ∧ w.completing = none

theorem reconnect_free (w : Worker) : w.reconnect.Free := by
  unfold reconnect Free held completing
  cases w.drain <;> simp

theorem loop_free (w : Worker) (identity : WorkerIdentity) : (w.loop identity).Free := by
  unfold loop Free held completing
  cases w.drain <;> simp

theorem session_end_free (w : Worker) (error : Error) : (w.session_end error).Free := by
  unfold session_end
  split
  · exact w.reconnect_free
  · exact w.reconnect_free
  · exact w.reconnect_free
  · exact w.reconnect_free
  · exact ⟨rfl,rfl⟩

theorem finish_free (w : Worker) (identity : WorkerIdentity) (result : Except Error Unit) : (w.finish identity result).Free := by
  cases result with
  | ok => exact w.loop_free identity
  | error error => exact w.session_end_free error

theorem session_end_objects (w : Worker) (error : Error) : (w.session_end error).objects = w.objects := by
  unfold session_end
  split <;> rfl

theorem finish_objects (w : Worker) (identity : WorkerIdentity) (result : Except Error Unit) :
    (w.finish identity result).objects = w.objects := by
  cases result with
  | ok => rfl
  | error error => exact session_end_objects w error

/-- What an answer does to the assignment and to the store. -/
structure Heard (w : Worker) (answer : Answer) (w' : Worker) : Prop where
  held : ∀ assignment, w'.held = some assignment → w.held = some assignment ∨
    (∃ identity, w.life = .active identity .polling) ∧ answer = .ok (.Assignment (some assignment))
  completing : w'.completing = none
  settled : ∀ assignment object, w.completing = some (assignment,object) → w'.held = none
  objects : w'.objects = w.objects ∨ w.completing = none ∧
    (∃ id, answer = .ok (.DeleteObject id) ∧ w'.objects = w.objects.delete id) ∨
    ∃ assignment object error, w.completing = some (assignment,object) ∧ answer = .ok (.Error error) ∧
      w'.objects = w.objects.delete assignment.output_id
  rejected : ∀ assignment object error, w.completing = some (assignment,object) → answer = .ok (.Error error) →
    w'.objects = w.objects.delete assignment.output_id

/-- The assignment is over, and nothing was to be stored. -/
theorem Heard.of_free (free : w'.Free) (idle : w.completing = none) (objects : w'.objects = w.objects) : Heard w answer w' where
  held assignment there := by
    rw [free.1] at there
    cases there
  completing := free.2
  settled _ _ _ := free.1
  objects := .inl objects
  rejected _ _ _ there := by
    rw [idle] at there
    cases there

/-- The process goes on with its assignment. -/
theorem Heard.of_same (same : w'.held = w.held) (after : w'.completing = none) (idle : w.completing = none)
    (objects : w'.objects = w.objects) : Heard w answer w' where
  held assignment there := .inl (same ▸ there)
  completing := after
  settled _ _ there := by
    rw [idle] at there
    cases there
  objects := .inl objects
  rejected _ _ _ there := by
    rw [idle] at there
    cases there

/-- An output is deleted that is not the one at hand. -/
theorem Heard.of_deleted {id : ObjectId} (same : ∀ assignment, w'.held = some assignment → w.held = some assignment)
    (after : w'.completing = none) (idle : w.completing = none) (objects : w'.objects = w.objects.delete id) :
    Heard w (.ok (.DeleteObject id)) w' where
  held assignment there := .inl (same assignment there)
  completing := after
  settled _ _ there := by
    rw [idle] at there
    cases there
  objects := .inr (.inl ⟨idle,id,rfl,objects⟩)
  rejected _ _ _ there := by
    rw [idle] at there
    cases there

theorem polled_heard (polling : w.life = .active identity .polling) : Heard w answer (w.polled identity answer) := by
  have idle : w.completing = none := by simp [Worker.completing,polling]
  unfold polled
  split
  · exact .of_free (w.loop_free identity) idle rfl
  · exact .of_free (w.loop_free identity) idle rfl
  · exact .of_free w.reconnect_free idle rfl
  · rename_i assignment
    refine ⟨fun other there => ?_,rfl,fun _ _ there => ?_,.inl rfl,fun _ _ _ there => ?_⟩
    · obtain rfl := Option.some.inj there
      exact .inr ⟨⟨identity,polling⟩,rfl⟩
    · rw [idle] at there
      cases there
    · rw [idle] at there
      cases there
  · exact .of_free ⟨rfl,rfl⟩ idle rfl
  · rename_i id
    have free := loop_free { w with objects := w.objects.delete id } identity
    refine .of_deleted (fun assignment there => ?_) free.2 idle rfl
    rw [free.1] at there
    cases there
  · exact .of_free w.reconnect_free idle rfl
  · exact .of_free w.reconnect_free idle rfl
  · exact .of_free (w.loop_free identity) idle rfl

theorem polled_busy_heard {assignment : TaskAssignment} (watching : w.life = .active identity (.watching assignment)) :
    Heard w answer (w.polled_busy identity assignment answer) := by
  have idle : w.completing = none := by simp [Worker.completing,watching]
  have at_hand : w.held = some assignment := by simp [Worker.held,watching]
  have ends (error : Error) : Heard w answer (w.session_end error) :=
    .of_free (w.session_end_free error) idle (session_end_objects w error)
  unfold polled_busy
  split
  · split
    · exact .of_same at_hand.symm rfl idle rfl
    · exact ends _
  · exact .of_same at_hand.symm rfl idle rfl
  · exact ends _
  · refine .of_deleted (fun _ there => ?_) rfl idle rfl
    rw [at_hand]
    exact there
  · exact ends _
  · exact .of_same at_hand.symm rfl idle rfl
  · exact .of_same at_hand.symm rfl idle rfl
  · exact ends _

theorem completed_heard {assignment : TaskAssignment} {object : LocalObject}
    (completing : w.life = .active identity (.completing assignment object)) :
    Heard w answer (w.completed identity assignment answer) := by
  have stored : w.completing = some (assignment,object) := by simp [Worker.completing,completing]
  -- Whatever is not a refusal leaves the store alone.
  have kept (w' : Worker) (free : w'.Free) (objects : w'.objects = w.objects)
      (told : ∀ error, answer ≠ .ok (.Error error)) : Heard w answer w' := by
    refine ⟨fun _ there => ?_,free.2,fun _ _ _ => free.1,.inl objects,fun _ _ error _ refused => absurd refused (told error)⟩
    rw [free.1] at there
    cases there
  cases answer with
  | error error => exact kept _ (w.session_end_free error) (session_end_objects w error) nofun
  | ok told =>
    cases told with
    | Accepted => exact kept _ (w.loop_free identity) rfl nofun
    | Error error =>
      have free := finish_free { w with objects := w.objects.delete assignment.output_id } identity
      have objects := finish_objects { w with objects := w.objects.delete assignment.output_id } identity
      refine ⟨fun _ there => ?_,(free _).2,fun _ _ _ => (free _).1,
        .inr (.inr ⟨assignment,object,error,stored,rfl,objects _⟩),?_⟩
      · have none : _ = some _ := (free _).1.symm.trans there
        cases none
      · intro other object' _ there _
        obtain ⟨rfl,rfl⟩ : assignment = other ∧ object = object' := by simpa [stored] using there
        exact objects _
    | _ =>
      exact kept (w.session_end (.Protocol "coordinator did not accept worker report")) (w.session_end_free _)
        (session_end_objects w _) nofun

theorem hears_heard (w : Worker) (answer : Answer) : Heard w answer (w.hears debug answer) := by
  cases life : w.life with
  | registering worker_epoch =>
    have idle : w.completing = none := by simp [Worker.completing,life]
    simp only [hears,life]
    unfold registered
    split
    · exact .of_free (w.loop_free _) idle rfl
    · exact .of_free ⟨rfl,rfl⟩ idle rfl
    · exact .of_free ⟨rfl,rfl⟩ idle rfl
  | active identity duty =>
    cases duty with
    | polling =>
      simp only [hears,life]
      exact polled_heard life
    | watching assignment =>
      simp only [hears,life]
      exact polled_busy_heard life
    | completing assignment object =>
      simp only [hears,life]
      exact completed_heard life
    | cancelling fence =>
      have idle : w.completing = none := by simp [Worker.completing,life]
      simp only [hears,life]
      split
      · exact .of_free (w.loop_free identity) idle rfl
      · exact .of_free ⟨rfl,rfl⟩ idle rfl
    | starting assignment =>
      have idle : w.completing = none := by simp [Worker.completing,life]
      simp only [hears,life]
      split
      · exact .of_same (by simp [Worker.held,goes,life]) rfl idle rfl
      · exact .of_free (w.session_end_free _) idle (session_end_objects w _)
    | fetching assignment | executing assignment =>
      have idle : w.completing = none := by simp [Worker.completing,life]
      simp only [hears,life]
      exact .of_same rfl idle idle rfl
    | stopping assignment | failing assignment message «class» =>
      have idle : w.completing = none := by simp [Worker.completing,life]
      simp only [hears,life]
      exact .of_free (w.finish_free identity _) idle (finish_objects w identity _)
  | reconnecting | drained | fatal error =>
    have idle : w.completing = none := by simp [Worker.completing,life]
    simp only [hears,life]
    exact .of_same rfl idle idle rfl

/-- What the process does on its own: it goes on with its assignment or ends the session, or it stores an output. -/
theorem Acts.cases (acts : Acts display blake3 w w') (idle : w.completing = none) :
    (w'.objects = w.objects ∧ w'.completing = none ∧ ∀ assignment, w'.held = some assignment → w.held = some assignment) ∨
    ∃ identity assignment codec bytes object objects, w.life = .active identity (.executing assignment) ∧
      w.objects.put blake3 assignment.output_id codec bytes = .ok (object,objects) ∧
      w' = { w with objects }.goes identity (.completing assignment object) := by
  have ends (error : Error) : (w.session_end error).objects = w.objects ∧ (w.session_end error).completing = none ∧
      ∀ assignment, (w.session_end error).held = some assignment → w.held = some assignment := by
    refine ⟨session_end_objects w error,(w.session_end_free error).2,fun _ there => ?_⟩
    rw [(w.session_end_free error).1] at there
    cases there
  cases acts with
  | fetch result =>
    left
    unfold fetched
    split
    · rename_i identity assignment life
      have at_hand : w.held = some assignment := by simp [held,life]
      cases result with
      | ok => exact ⟨rfl,rfl,fun _ there => at_hand.trans there⟩
      | error error => exact ⟨rfl,rfl,fun _ there => at_hand.trans there⟩
    · exact ⟨rfl,idle,fun _ there => there⟩
  | tick =>
    left
    unfold ticks
    split
    · rename_i identity assignment life
      have at_hand : w.held = some assignment := by simp [held,life]
      exact ⟨rfl,rfl,fun _ there => at_hand.trans there⟩
    · exact ⟨rfl,idle,fun _ there => there⟩
  | execute result =>
    unfold executed
    split
    · rename_i identity assignment life
      have at_hand : w.held = some assignment := by simp [held,life]
      split
      · split
        · exact .inl (ends _)
        · split
          · rename_i stored
            exact .inr ⟨identity,assignment,_,_,_,_,life,stored,rfl⟩
          · exact .inl (ends _)
      · exact .inl ⟨rfl,rfl,fun _ there => at_hand.trans there⟩
    · exact .inl ⟨rfl,idle,fun _ there => there⟩
  | wake worker_epoch =>
    left
    unfold wakes
    split
    · exact ⟨rfl,rfl,nofun⟩
    · exact ⟨rfl,idle,fun _ there => there⟩

/-! ### Who the process is -/

/-- The identity of the session. -/
def identity? (w : Worker) : Option WorkerIdentity :=
  match w.life with
  | .active identity _ => some identity
  | _ => none

/-- The process has no session but this. -/
def Names (w : Worker) (identity : WorkerIdentity) : Prop := ∀ other, w.identity? = some other → other = identity

theorem reconnect_names (w : Worker) (identity : WorkerIdentity) : w.reconnect.Names identity := by
  unfold Names reconnect identity?
  cases w.drain <;> simp

theorem loop_names (w : Worker) (identity : WorkerIdentity) : (w.loop identity).Names identity := by
  unfold Names loop identity?
  cases w.drain <;> simp

theorem goes_names (w : Worker) (identity : WorkerIdentity) (duty : Duty) : (w.goes identity duty).Names identity := by
  simp [Names,goes,identity?]

theorem session_end_names (w : Worker) (identity : WorkerIdentity) (error : Error) : (w.session_end error).Names identity := by
  unfold session_end
  split
  · exact w.reconnect_names identity
  · exact w.reconnect_names identity
  · exact w.reconnect_names identity
  · exact w.reconnect_names identity
  · simp [Names,identity?]

theorem finish_names (w : Worker) (identity : WorkerIdentity) (result : Except Error Unit) :
    (w.finish identity result).Names identity := by
  cases result with
  | ok => exact w.loop_names identity
  | error error => exact w.session_end_names identity error

theorem polled_names (w : Worker) (identity : WorkerIdentity) (answer : Answer) : (w.polled identity answer).Names identity := by
  unfold polled
  split
  · exact w.loop_names identity
  · exact w.loop_names identity
  · exact w.reconnect_names identity
  · exact w.goes_names identity _
  · exact w.goes_names identity _
  · exact loop_names _ identity
  · exact w.reconnect_names identity
  · exact w.reconnect_names identity
  · exact w.loop_names identity

theorem polled_busy_names (w : Worker) (identity : WorkerIdentity) (assignment : TaskAssignment) (answer : Answer) :
    (w.polled_busy identity assignment answer).Names identity := by
  unfold polled_busy
  split
  · split
    · exact w.goes_names identity _
    · exact w.session_end_names identity _
  · exact w.goes_names identity _
  · exact w.session_end_names identity _
  · exact goes_names _ identity _
  · exact w.session_end_names identity _
  · exact w.goes_names identity _
  · exact w.goes_names identity _
  · exact w.session_end_names identity _

theorem completed_names (w : Worker) (identity : WorkerIdentity) (assignment : TaskAssignment) (answer : Answer) :
    (w.completed identity assignment answer).Names identity := by
  unfold completed
  split
  · exact w.session_end_names identity _
  · exact w.loop_names identity
  · exact finish_names _ identity _

/-- A session has the identity that the registration was told. -/
theorem hears_identity (there : (w.hears debug answer).identity? = some identity) :
    w.identity? = some identity ∨ ∃ revision lease_ms, answer = .ok (.Registered identity revision lease_ms) := by
  have same {session : WorkerIdentity} {duty : Duty} (life : w.life = .active session duty)
      (names : (w.hears debug answer).Names session) : w.identity? = some identity := by
    rw [names identity there]
    simp [identity?,life]
  cases life : w.life with
  | registering worker_epoch =>
    right
    simp only [hears,life] at there
    cases answer with
    | error error => cases there
    | ok told =>
      cases told with
      | Registered session revision lease_ms =>
        obtain rfl := loop_names w session identity there
        exact ⟨revision,lease_ms,rfl⟩
      | _ => cases there
  | active session duty =>
    refine .inl (same life ?_)
    cases duty with
    | polling =>
      simp only [hears,life]
      exact w.polled_names session answer
    | cancelling fence =>
      simp only [hears,life]
      split
      · exact w.loop_names session
      · simp [Names,identity?]
    | starting assignment =>
      simp only [hears,life]
      split
      · exact w.goes_names session _
      · exact w.session_end_names session _
    | fetching assignment | executing assignment => simp [hears,life,Names,identity?,eq_comm]
    | watching assignment =>
      simp only [hears,life]
      exact w.polled_busy_names session assignment answer
    | stopping assignment | failing assignment message «class» =>
      simp only [hears,life]
      exact w.finish_names session _
    | completing assignment object =>
      simp only [hears,life]
      exact w.completed_names session assignment answer
  | reconnecting | drained | fatal error =>
    simp only [hears,life] at there
    exact .inl there

theorem Acts.same_session (acts : Acts display blake3 w w') (there : w'.identity? = some identity) : w.identity? = some identity := by
  have same {session : WorkerIdentity} {duty : Duty} (life : w.life = .active session duty) (names : w'.Names session) :
      w.identity? = some identity := by
    rw [names identity there]
    simp [identity?,life]
  cases acts with
  | fetch result =>
    unfold fetched at there same
    split at there
    · rename_i session assignment life
      refine same life ?_
      cases result <;> simp [life,Names,goes,identity?,eq_comm]
    · exact there
  | tick =>
    unfold ticks at there
    split at there
    · rename_i session assignment life
      exact same life (by simp [ticks,life,Names,goes,identity?,eq_comm])
    · exact there
  | execute result =>
    unfold executed at there
    split at there
    · rename_i session assignment life
      refine same life ?_
      simp only [executed,life]
      split
      · split
        · exact w.session_end_names session _
        · split
          · exact goes_names _ session _
          · exact w.session_end_names session _
      · exact w.goes_names session _
    · exact there
  | wake worker_epoch =>
    unfold wakes at there
    split at there
    · cases there
    · exact there

end Worker
/-! ### Outputs of both -/

namespace Party
open CoordinatorState CoordinatorServer Command
variable {blake3 : List UInt8 → Checksum} {debug : WorkerReply → String} {display : Error → String} {party first : Party}
  {op : Op} {value : Reply} {state : CoordinatorState} {told : WorkerReply} {request : WorkerRequest}
variable {assignment : TaskAssignment} {identity : WorkerIdentity} {objects : LocalObjectStore}

/-- The session, and the one that is being registered, are of the node of the process. -/
structure Named (party : Party) : Prop where
  session : ∀ identity, party.worker.identity? = some identity → identity.node_id = party.worker.config.node_id
  registered : ∀ identity revision lease_ms, party.answer = some (.ok (.Registered identity revision lease_ms)) →
    identity.node_id = party.worker.config.node_id

theorem Named.serves (named : Named party) (sound : Sound party) {env : Env}
    (waits : party.worker.request = some request) (handled : Handled blake3 env party.server request told state) :
    Named { party with
      server := { party.server with state }
      answer := some (.ok told)
      sent := request :: party.sent } where
  session := named.session
  registered identity revision lease_ms answered := by
    obtain rfl : told = .Registered identity revision lease_ms := by simpa using answered
    cases handled with
    | registered revision loopback effect =>
      obtain ⟨worker_epoch,rfl⟩ := sound.own (.inr waits) rfl
      exact effect.named sound.inv.consistent
    | polled polled => cases polled

theorem Named.hears (named : Named party) {answer : Answer} (sent : List WorkerRequest)
    (arrived : ∀ identity revision lease_ms, answer = .ok (.Registered identity revision lease_ms) → party.answer = some answer) :
    Named { party with worker := party.worker.hears debug answer, answer := none, sent } where
  session identity there := by
    rw [Worker.hears_config]
    rcases Worker.hears_identity there with before | ⟨revision,lease_ms,rfl⟩
    · exact named.session identity before
    · exact named.registered identity revision lease_ms (arrived _ _ _ rfl)
  registered _ _ _ there := by cases there

theorem Named.acts (named : Named party) {worker : Worker} (acts : Worker.Acts display blake3 party.worker worker) :
    Named { party with worker } where
  session identity there := by
    dsimp only
    rw [acts.config]
    exact named.session identity (acts.same_session there)
  registered identity revision lease_ms answered := by
    dsimp only
    rw [acts.config]
    exact named.registered identity revision lease_ms answered

theorem Acted.named {next : Party} (acted : Acted blake3 debug display party happening next) (named : Named party)
    (sound : Sound party) : Named next := by
  cases acted with
  | idle => exact named
  | event | handles | signal => exact ⟨named.session,named.registered⟩
  | serves waits _ _ handled => exact named.serves sound waits handled
  | hears answered => exact named.hears _ fun _ _ _ _ => answered
  | fault => exact named.hears _ fun _ _ _ registered => by cases registered
  | alone _ acts => exact named.acts acts

/-- How far the report of an output is: it was accepted, or the coordinator does not say that the worker owns the output. -/
def Reported (party : Party) (id : ObjectId) : Prop :=
  party.answer = some (.ok .Accepted) ∧ Done party.server.state id ∨
    (party.answer = none ∨ ∃ error, party.answer = some (.ok (.Error error))) ∧
      ∀ record, ¬ Owns party.server.state party.worker.config.node_id id record

/-- What the store and the coordinator say of each other. -/
structure Kept (blake3 : List UInt8 → Checksum) (party : Party) : Prop where
  whole : ∀ id object, party.worker.objects.objects.get id = some object → object.checksum = blake3 object.bytes.bytes
  served : ∀ id record, Owns party.server.state party.worker.config.node_id id record →
    ∃ object, party.worker.objects.objects.get id = some object ∧ record.checksum = some object.checksum ∧
      record.size_bytes = some object.bytes.len
  done : ∀ id object, party.worker.objects.objects.get id = some object → Done party.server.state id ∨
    ∃ assignment object, party.worker.completing = some (assignment,object) ∧ assignment.output_id = id
  yields : ∀ assignment, party.assignment = some assignment →
    Yields party.server.state assignment.fence.task_id assignment.output_id
  clear : ∀ assignment, party.assignment = some assignment → party.worker.completing = none →
    party.worker.objects.objects.get assignment.output_id = none
  reported : ∀ assignment object, party.worker.completing = some (assignment,object) →
    party.assignment = some assignment ∧ party.worker.objects.objects.get assignment.output_id = some object ∧
      party.Reported assignment.output_id
  deleted : ∀ id ∈ party.deletes, Gone party.server.state party.worker.config.node_id id

/-- The operation is none of the process, and the ids that it draws are new to it. -/
structure Apart (party : Party) (op : Op) : Prop where
  report : ∀ identity report, op = .complete identity report → identity.node_id ≠ party.worker.config.node_id
  output : ∀ id, .object id ∈ op.minted → party.worker.objects.objects.get id = none ∧ id ∉ party.deletes
  task : ∀ id, .task id ∈ op.minted → ∀ assignment, party.assignment = some assignment → assignment.fence.task_id ≠ id

/-- An operation that reports nothing for the worker, and draws no id of an output or of a task. -/
structure Quiet (node : NodeId) (op : Op) : Prop where
  report : ∀ identity report, op = .complete identity report → identity.node_id ≠ node
  output : ∀ id, .object id ∉ op.minted
  task : ∀ id, .task id ∉ op.minted

theorem Quiet.apart (quiet : Quiet party.worker.config.node_id op) : Apart party op where
  report := quiet.report
  output id drawn := absurd drawn (quiet.output id)
  task id drawn := absurd drawn (quiet.task id)

theorem Kept.effect (kept : Kept blake3 party) (inv : Inv party.server.state)
    (effect : Effect blake3 op party.server.state value state) (newTo : op.NewTo party.server.state) (apart : Apart party op) :
    Kept blake3 { party with server := { party.server with state } } := by
  have moves := effect.moves newTo
  have before {id : ObjectId} {record : ObjectRecord} (owns : Owns state party.worker.config.node_id id record) :
      Owns party.server.state party.worker.config.node_id id record := moves.owns inv.consistent apart.report owns
  have later {id : ObjectId} {object : LocalObject} (there : party.worker.objects.objects.get id = some object)
      (done : Done party.server.state id) : Done state id := by
    refine moves.done inv.consistent (fun drawn => ?_) done
    rw [(apart.output id drawn).1] at there
    cases there
  have gone {id : ObjectId} (member : id ∈ party.deletes) : Gone state party.worker.config.node_id id :=
    moves.gone inv.consistent (fun drawn => (apart.output id drawn).2 member) (kept.deleted id member)
  refine ⟨kept.whole,fun id record owns => kept.served id record (before owns),fun id object there => ?_,
    fun assignment there => ?_,kept.clear,fun assignment object there => ?_,fun id member => ?_⟩
  · exact (kept.done id object there).imp_left (later there)
  · exact moves.yields inv.consistent (fun drawn => apart.task _ drawn assignment there rfl) (kept.yields assignment there)
  · obtain ⟨held,stored,reported⟩ := kept.reported assignment object there
    refine ⟨held,stored,reported.imp ?_ ?_⟩
    · exact fun accepted => ⟨accepted.1,later stored accepted.2⟩
    · exact fun unowned => ⟨unowned.1,fun record owns => unowned.2 record (before owns)⟩
  · rcases List.mem_append.mp member with queued | coming
    · rcases effect.owed_or_gone queued with owes | done
      · exact gone (List.mem_append_left _ owes)
      · exact done
    · exact gone (List.mem_append_right _ coming)

theorem Kept.trim (kept : Kept blake3 party) {pending_deletes : Table NodeId (List ObjectId)}
    (fewer : ∀ node id, id ∈ (pending_deletes.get node).getD [] → Owes party.server.state node id) :
    Kept blake3 { party with server := { party.server with state := { party.server.state with pending_deletes } } } := by
  have same {id : ObjectId} {record : ObjectRecord}
      (owns : Owns { party.server.state with pending_deletes } party.worker.config.node_id id record) :
      Owns party.server.state party.worker.config.node_id id record := ⟨owns.found,owns.available,owns.owned⟩
  refine ⟨kept.whole,fun id record owns => kept.served id record (same owns),kept.done,kept.yields,kept.clear,?_,?_⟩
  · intro assignment object there
    obtain ⟨held,stored,reported⟩ := kept.reported assignment object there
    exact ⟨held,stored,reported.imp_right fun unowned => ⟨unowned.1,fun record owns => unowned.2 record (same owns)⟩⟩
  · intro id member
    have gone : Gone party.server.state party.worker.config.node_id id := by
      rcases List.mem_append.mp member with queued | coming
      · exact kept.deleted id (List.mem_append_left _ (fewer _ id queued))
      · exact kept.deleted id (List.mem_append_right _ coming)
    exact ⟨gone.settled,gone.unmade⟩

theorem Kept.stirs (kept : Kept blake3 party) (inv : Inv party.server.state)
    (stirs : Stirs blake3 (Quiet party.worker.config.node_id) party.server.state state) :
    Kept blake3 { party with server := { party.server with state } } := by
  refine stirs.keeps (P := fun t => Kept blake3 { party with server := { party.server with state := t } }) inv
    (fun t t' inv stir kept => ?_) kept
  cases stir with
  | effect quiet newTo effect =>
    have apart : Apart { party with server := { party.server with state := t } } _ := Quiet.apart quiet
    exact kept.effect inv effect newTo apart
  | trim fewer => exact kept.trim fewer

theorem assignment_of_held (held : party.worker.held = some assignment) : party.assignment = some assignment := by
  cases life : party.worker.life with
  | active identity duty =>
    cases duty with
    | polling | cancelling => simp [Worker.held,life] at held
    | _ => simpa [Party.assignment,Worker.held,life] using held
  | _ => simp [Worker.held,life] at held

theorem assignment_cases (there : party.assignment = some assignment) :
    party.worker.held = some assignment ∨ (∃ identity, party.worker.life = .active identity .polling) ∧
      party.answer = some (.ok (.Assignment (some assignment))) := by
  cases life : party.worker.life with
  | active identity duty =>
    cases duty with
    | polling =>
      right
      simp only [Party.assignment,life] at there
      split at there
      · rename_i answered
        exact ⟨⟨identity,rfl⟩,there ▸ answered⟩
      · cases there
    | cancelling fence => simp [Party.assignment,life] at there
    | _ =>
      left
      simpa [Party.assignment,Worker.held,life] using there
  | _ => simp [Party.assignment,life] at there

/-- Requests other than the report of an output draw no ids of outputs or tasks, and report nothing. -/
theorem handled_quiet {env : Env} {server : CoordinatorServer} {node : NodeId}
    (handled : Handled blake3 env server request told state)
    (other : ∀ identity report, request ≠ .Completed identity report) : Stirs blake3 (Quiet node) server.state state := by
  refine handled.stirs ?_ ?_ ?_
  · intro register _ _
    exact ⟨by rintro _ _ ⟨⟩,by simp [Op.minted],by simp [Op.minted]⟩
  · intro op asks
    cases request with
    | Completed identity report => exact absurd rfl (other identity report)
    | Register | Poll => cases asks
    | _ =>
      cases asks
      exact ⟨by rintro _ _ ⟨⟩,by simp [Op.minted],by simp [Op.minted]⟩
  · intro node now lease
    exact ⟨by rintro _ _ ⟨⟩,by simp [Op.minted],by simp [Op.minted]⟩

theorem uncompleted (waits : party.worker.request = some request) (idle : party.worker.completing = none)
    (identity : WorkerIdentity) (report : TaskCompletion) : request ≠ .Completed identity report := by
  rintro rfl
  cases life : party.worker.life with
  | active identity duty => cases duty <;> simp [Worker.request,Worker.completing,life] at waits idle
  | _ => simp [Worker.request,life] at waits

theorem identity_of_poll (waits : party.worker.request = some (.Poll identity)) :
    party.worker.identity? = some identity := by
  cases life : party.worker.life with
  | active session duty =>
    cases duty with
    | polling | watching =>
      obtain rfl : session = identity := by simpa [Worker.request,life] using waits
      simp [Worker.identity?,life]
    | _ => simp [Worker.request,life] at waits
  | _ => simp [Worker.request,life] at waits

/-- A request other than the report of an output is handled. -/
theorem Kept.serves (kept : Kept blake3 party) (inv : Inv party.server.state) (named : Named party) {env : Env}
    (waits : party.worker.request = some request) (idle : party.worker.completing = none)
    (handled : Handled blake3 env party.server request told state) :
    Kept blake3 { party with
      server := { party.server with state }
      answer := some (.ok told)
      sent := request :: party.sent } := by
  have after := kept.stirs inv (handled_quiet handled (uncompleted waits idle))
  -- A task that the process is told of is live, so its output is not in the store.
  have given (assignment : TaskAssignment) (identity : WorkerIdentity) (polling : party.worker.life = .active identity .polling)
      (assigned : told = .Assignment (some assignment)) :
      Yields state assignment.fence.task_id assignment.output_id ∧
        party.worker.objects.objects.get assignment.output_id = none := by
    obtain rfl : .Poll identity = request := by simpa [Worker.request,polling] using waits
    subst assigned
    cases handled with
    | polled polled =>
      obtain ⟨_,task,a,unstarted,rfl⟩ := polled.offered inv
      refine ⟨fun task' there => ?_,?_⟩
      · rw [Option.some.inj (there.symm.trans unstarted.found)]
        rfl
      · cases there : party.worker.objects.objects.get (offer task a).output_id with
        | none => rfl
        | some object =>
          rcases after.done _ object there with done | ⟨_,_,completing,_⟩
          · have succeeded := done _ task unstarted.found rfl
            rw [unstarted.state] at succeeded
            cases succeeded
          · rw [idle] at completing
            cases completing
  refine ⟨after.whole,after.served,after.done,fun assignment there => ?_,fun assignment there _ => ?_,
    fun assignment object there => ?_,fun id member => ?_⟩
  · rcases assignment_cases there with held | ⟨⟨identity,polling⟩,answered⟩
    · exact after.yields assignment (assignment_of_held held)
    · exact (given assignment identity polling (by simpa using answered)).1
  · rcases assignment_cases there with held | ⟨⟨identity,polling⟩,answered⟩
    · exact kept.clear assignment (assignment_of_held held) idle
    · exact (given assignment identity polling (by simpa using answered)).2
  · rw [idle] at there
    cases there
  · rcases List.mem_append.mp member with queued | coming
    · exact after.deleted id (List.mem_append_left _ queued)
    · cases told with
      | DeleteObject k =>
        obtain rfl := List.mem_singleton.mp coming
        cases handled with
        | polled polled =>
          cases polled with
          | @delete _ rest queued =>
            have ours := named.session _ (identity_of_poll waits)
            have gone := kept.deleted id (List.mem_append_left _ (by rw [← ours,queued]; exact List.mem_cons_self))
            exact ⟨gone.settled,gone.unmade⟩
      | _ => cases coming

/-- The report of the output is handled. -/
theorem Kept.completes (kept : Kept blake3 party) (inv : Inv party.server.state) {env : Env} {object : LocalObject}
    (unanswered : party.answer = none) (life : party.worker.life = .active identity (.completing assignment object))
    (waits : party.worker.request = some request) (handled : Handled blake3 env party.server request told state) :
    Kept blake3 { party with
      server := { party.server with state }
      answer := some (.ok told)
      sent := request :: party.sent } := by
  obtain rfl : .Completed identity (party.worker.config.completion assignment object) = request := by
    simpa [Worker.request,life] using waits
  have completing : party.worker.completing = some (assignment,object) := by simp [Worker.completing,life]
  obtain ⟨held,stored,reported⟩ := kept.reported assignment object completing
  have only {other : TaskAssignment} {object' : LocalObject} (there : party.worker.completing = some (other,object')) :
      assignment = other ∧ object = object' := by simpa [completing] using there
  have assigned {other : TaskAssignment} (there : Party.assignment { party with
      server := { party.server with state }
      answer := some (.ok told)
      sent := .Completed identity (party.worker.config.completion assignment object) :: party.sent } = some other) :
      party.assignment = some other := by
    rcases assignment_cases there with held | ⟨⟨_,polling⟩,_⟩
    · exact assignment_of_held held
    · cases life.symm.trans polling
  cases handled with
  | rejected asks error =>
    refine ⟨kept.whole,kept.served,kept.done,fun other there => kept.yields other (assigned there),
      fun other there => kept.clear other (assigned there),fun other object' there => ?_,fun id member => ?_⟩
    · obtain ⟨rfl,rfl⟩ := only there
      refine ⟨assignment_of_held (by simp [Worker.held,life]),stored,.inr ⟨.inr ⟨error,rfl⟩,?_⟩⟩
      rcases reported with ⟨accepted,_⟩ | unowned
      · rw [unanswered] at accepted
        cases accepted
      · exact unowned.2
    · rcases List.mem_append.mp member with queued | coming
      · exact kept.deleted id (List.mem_append_left _ queued)
      · cases coming
  | @accepted _ _ value _ asks effect =>
    cases asks
    have moves := effect.moves trivial
    obtain ⟨done,records⟩ := effect.completes inv.consistent (kept.yields assignment held)
    refine ⟨kept.whole,fun id record owns => ?_,fun id object' there => ?_,fun other there => ?_,
      fun other there => kept.clear other (assigned there),fun other object' there => ?_,fun id member => ?_⟩
    · rcases records _ id record owns with before | ⟨rfl,checksum,size⟩
      · exact kept.served id record before
      · exact ⟨object,stored,checksum,size⟩
    · exact (kept.done id object' there).imp_left (moves.done inv.consistent (by simp [Op.minted]))
    · exact moves.yields inv.consistent (by simp [Op.minted]) (kept.yields other (assigned there))
    · obtain ⟨rfl,rfl⟩ := only there
      exact ⟨assignment_of_held (by simp [Worker.held,life]),stored,.inl ⟨rfl,done⟩⟩
    · rcases List.mem_append.mp member with queued | coming
      · rcases effect.owed_or_gone queued with owes | gone
        · exact moves.gone inv.consistent (by simp [Op.minted]) (kept.deleted id (List.mem_append_left _ owes))
        · exact gone
      · cases coming

theorem get_of_deleted {id k : ObjectId} {object : LocalObject}
    (there : (objects.delete k).objects.get id = some object) : id ≠ k ∧ objects.objects.get id = some object := by
  rw [LocalObjectStore.delete,Table.get_remove] at there
  split at there
  · cases there
  · rename_i other
    exact ⟨other,there⟩

theorem get_deleted {id k : ObjectId} (other : id ≠ k) :
    (objects.delete k).objects.get id = objects.objects.get id := by
  rw [LocalObjectStore.delete,Table.get_remove,if_neg other]

/-- The process hears what its request came to. -/
theorem Kept.hears (kept : Kept blake3 party) {answer : Answer} (sent : List WorkerRequest)
    (arrived : party.answer = some answer ∨ party.worker.completing = none ∧ ∃ error, answer = .error error) :
    Kept blake3 { party with worker := party.worker.hears debug answer, answer := none, sent } := by
  have heard : Worker.Heard party.worker answer (party.worker.hears debug answer) := party.worker.hears_heard answer
  have same : (party.worker.hears debug answer).config = party.worker.config := Worker.hears_config _ _
  -- What is still in the store was there before.
  have before {id : ObjectId} {object : LocalObject}
      (there : (party.worker.hears debug answer).objects.objects.get id = some object) :
      party.worker.objects.objects.get id = some object := by
    rcases heard.objects with unchanged | ⟨_,_,_,removed⟩ | ⟨_,_,_,_,_,removed⟩
    · rwa [unchanged] at there
    · rw [removed] at there
      exact (get_of_deleted there).2
    · rw [removed] at there
      exact (get_of_deleted there).2
  have assigned {assignment : TaskAssignment}
      (there : Party.assignment { party with worker := party.worker.hears debug answer, answer := none, sent } = some assignment) :
      party.assignment = some assignment ∧ party.worker.completing = none := by
    rcases assignment_cases there with held | ⟨_,answered⟩
    · refine ⟨?_,?_⟩
      · rcases heard.held assignment held with now | ⟨⟨identity,polling⟩,rfl⟩
        · exact assignment_of_held now
        · rcases arrived with answered | ⟨_,error,failed⟩
          · simp only [Party.assignment,polling,answered]
          · cases failed
      · cases completing : party.worker.completing with
        | none => rfl
        | some stored => cases (heard.settled stored.1 stored.2 completing).symm.trans held
    · cases answered
  refine ⟨fun id object there => kept.whole id object (before there),fun id record owns => ?_,fun id object there => ?_,
    fun assignment there => kept.yields assignment (assigned there).1,fun assignment there _ => ?_,
    fun assignment object there => ?_,fun id member => ?_⟩
  · rw [same] at owns
    obtain ⟨object,there,content⟩ := kept.served id record owns
    refine ⟨object,?_,content⟩
    rcases heard.objects with unchanged | ⟨_,k,rfl,removed⟩ | ⟨assignment,_,error,completing,rfl,removed⟩
    · rw [unchanged]
      exact there
    · rcases arrived with answered | ⟨_,_,failed⟩
      · have gone := kept.deleted k (List.mem_append_right _ (by simp [answered]))
        rw [removed,get_deleted]
        · exact there
        · rintro rfl
          exact gone.unheld owns
      · cases failed
    · have unowned := (kept.reported assignment _ completing).2.2
      rcases arrived with answered | ⟨_,_,failed⟩
      · rcases unowned with ⟨accepted,_⟩ | ⟨_,unowned⟩
        · rw [answered] at accepted
          cases accepted
        · rw [removed,get_deleted]
          · exact there
          · rintro rfl
            exact unowned record owns
      · cases failed
  · rcases kept.done id object (before there) with done | ⟨assignment,stored,completing,rfl⟩
    · exact .inl done
    · left
      rcases (kept.reported assignment stored completing).2.2 with ⟨_,done⟩ | ⟨unaccepted,_⟩
      · exact done
      · rcases arrived with answered | ⟨idle,_⟩
        · rcases unaccepted with none | ⟨error,refused⟩
          · cases none.symm.trans answered
          · obtain rfl := Option.some.inj (answered.symm.trans refused)
            rw [heard.rejected assignment stored error completing rfl] at there
            exact absurd rfl (get_of_deleted there).1
        · cases idle.symm.trans completing
  · cases still : (party.worker.hears debug answer).objects.objects.get assignment.output_id with
    | none => rfl
    | some object => cases (kept.clear assignment (assigned there).1 (assigned there).2).symm.trans (before still)
  · cases heard.completing.symm.trans there
  · rw [deletes,same] at member
    rw [same]
    exact kept.deleted id (List.mem_append_left _ (by simpa using member))

/-- An output can be stored where there is none. -/
theorem put_absent {id : ObjectId} (absent : objects.objects.get id = none) (codec : Codec)
    (bytes : Buffer) : objects.put blake3 id codec bytes =
      .ok (⟨codec,bytes,blake3 bytes.bytes⟩,⟨objects.objects.insert id ⟨codec,bytes,blake3 bytes.bytes⟩⟩) := by
  simp only [LocalObjectStore.put,absent]

/-- The output of the assignment is stored. -/
theorem Kept.stores (kept : Kept blake3 party) (life : party.worker.life = .active identity (.executing assignment))
    (unanswered : party.answer = none) (codec : Codec) (bytes : Buffer) : Kept blake3 { party with
      worker := { party.worker with
        objects := ⟨party.worker.objects.objects.insert assignment.output_id ⟨codec,bytes,blake3 bytes.bytes⟩⟩
        life := .active identity (.completing assignment ⟨codec,bytes,blake3 bytes.bytes⟩) } } := by
  have idle : party.worker.completing = none := by simp [Worker.completing,life]
  have held : party.assignment = some assignment := assignment_of_held (by simp [Worker.held,life])
  have absent := kept.clear assignment held idle
  have unowned (record : ObjectRecord) :
      ¬ Owns party.server.state party.worker.config.node_id assignment.output_id record := by
    intro owns
    obtain ⟨object,there,_⟩ := kept.served _ record owns
    exact absurd (absent.symm.trans there) nofun
  refine ⟨fun id object there => ?_,fun id record owns => ?_,fun id object there => ?_,fun other there => ?_,
    fun _ _ idle => (by cases idle),fun other object there => ?_,kept.deleted⟩
  · dsimp only at there
    rw [Table.get_insert] at there
    split at there
    · obtain rfl := Option.some.inj there
      rfl
    · exact kept.whole id object there
  · obtain ⟨object,there,content⟩ := kept.served id record owns
    refine ⟨object,?_,content⟩
    dsimp only
    rw [Table.get_insert,if_neg]
    · exact there
    · rintro rfl
      exact unowned record owns
  · dsimp only at there
    rw [Table.get_insert] at there
    split at there
    · rename_i same
      exact .inr ⟨assignment,_,rfl,same.symm⟩
    · rcases kept.done id object there with done | ⟨_,_,completing,_⟩
      · exact .inl done
      · exact absurd (idle.symm.trans completing) nofun
  · obtain rfl := Option.some.inj there
    exact kept.yields assignment held
  · obtain ⟨rfl,rfl⟩ : assignment = other ∧ _ = object := by simpa [Worker.completing] using there
    refine ⟨rfl,?_,.inr ⟨.inl unanswered,unowned⟩⟩
    dsimp only
    rw [Table.get_insert,if_pos rfl]

theorem Kept.acts (kept : Kept blake3 party) (sound : Sound party) {worker : Worker}
    (acts : Worker.Acts display blake3 party.worker worker) : Kept blake3 { party with worker } := by
  cases waits : party.worker.request with
  | some request =>
    obtain rfl := acts.waits (by simp [waits])
    exact kept
  | none =>
    have unanswered := sound.idle waits
    have idle : party.worker.completing = none := by
      unfold Worker.completing
      split
      · rename_i life
        simp [Worker.request,life] at waits
      · rfl
    have same := acts.config
    rcases acts.cases idle with ⟨objects,after,held⟩ | ⟨identity,assignment,codec,bytes,object,objects,life,stored,rfl⟩
    · have assigned {assignment : TaskAssignment} (there : Party.assignment { party with worker } = some assignment) :
          party.assignment = some assignment := by
        rcases assignment_cases there with now | ⟨_,answered⟩
        · exact assignment_of_held (held assignment now)
        · cases unanswered.symm.trans answered
      refine ⟨?_,fun id record owns => ?_,fun id object there => ?_,fun assignment there => kept.yields _ (assigned there),
        fun assignment there _ => ?_,fun assignment object there => (by cases after.symm.trans there),fun id member => ?_⟩
      · dsimp only
        rw [objects]
        exact kept.whole
      · dsimp only at owns ⊢
        rw [same] at owns
        rw [objects]
        exact kept.served id record owns
      · dsimp only at there
        rw [objects] at there
        rcases kept.done id object there with done | ⟨_,_,completing,_⟩
        · exact .inl done
        · cases idle.symm.trans completing
      · dsimp only
        rw [objects]
        exact kept.clear assignment (assigned there) idle
      · rw [deletes] at member
        dsimp only at member ⊢
        rw [same] at member ⊢
        exact kept.deleted id member
    · have absent := kept.clear assignment (assignment_of_held (by simp [Worker.held,life])) idle
      rw [put_absent absent codec bytes] at stored
      cases stored
      exact kept.stores life unanswered codec bytes

/-! ### Runs -/

/-- No report of an output fails, and no copy of one is handled besides. -/
def Reliable (party : Party) : Happening → Prop
  | .fault _ => party.worker.completing = none
  | .handle _ request => ∀ identity report, request ≠ .Completed identity report
  | _ => True

theorem Kept.event (kept : Kept blake3 party) (inv : Inv party.server.state) {event : CoordinatorState.Event}
    (new : event.New party.server.state) (foreign : Happening.Foreign party event) :
    Kept blake3 { party with server := { party.server with state := event.act blake3 party.server.state } } := by
  cases event with
  | operation order op =>
    have apart : Apart party op := by
      cases op with
      | submit operation args resources max_attempts id output =>
        obtain ⟨unheld,unstored,undeleted⟩ := foreign
        refine ⟨by rintro _ _ ⟨⟩,fun k drawn => ?_,fun k drawn assignment there => ?_⟩
        · obtain rfl : k = output := by simpa [Op.minted] using drawn
          exact ⟨unstored,undeleted⟩
        · obtain rfl : k = id := by simpa [Op.minted] using drawn
          exact unheld assignment there
      | complete identity report =>
        refine ⟨?_,by simp [Op.minted],by simp [Op.minted]⟩
        rintro _ _ ⟨⟩
        exact foreign
      | _ => exact ⟨by rintro _ _ ⟨⟩,by simp [Op.minted],by simp [Op.minted]⟩
    exact apply_keeps blake3 order inv (P := fun t => Kept blake3 { party with server := { party.server with state := t } })
      kept fun _ _ effect => kept.effect inv effect new apart
  | poll env identity =>
    refine kept.stirs inv (Event.stirs _ new inv (by rintro _ _ ⟨⟩) fun _ _ _ => ?_)
    exact ⟨by rintro _ _ ⟨⟩,by simp [Op.minted],by simp [Op.minted]⟩

theorem Acted.kept {next : Party} (acted : Acted blake3 debug display party happening next) (kept : Kept blake3 party)
    (sound : Sound party) (named : Named party) (possible : happening.Possible party) (reliable : Reliable party happening) :
    Kept blake3 next := by
  cases acted with
  | idle => exact kept
  | event event => exact kept.event sound.inv possible.1 possible.2
  | serves waits unanswered _ handled =>
    cases completing : party.worker.completing with
    | none => exact kept.serves sound.inv named waits completing handled
    | some stored =>
      unfold Worker.completing at completing
      split at completing
      · rename_i life
        exact kept.completes sound.inv unanswered life waits handled
      · cases completing
  | hears answered => exact kept.hears _ (.inl answered)
  | fault error => exact kept.hears _ (.inr ⟨reliable,error,rfl⟩)
  | handles handled => exact kept.stirs sound.inv (handled_quiet handled reliable)
  | alone _ acts => exact kept.acts sound acts
  | signal => exact ⟨kept.whole,kept.served,kept.done,kept.yields,kept.clear,kept.reported,kept.deleted⟩

variable {epoch : CoordinatorEpoch} {token : String} {lease_ms : Nat} {require_loopback : Bool} {config : WorkerConfig}
  {worker_epoch : WorkerEpoch}

theorem start_kept : Kept blake3 (start epoch token lease_ms require_loopback config worker_epoch) where
  whole _ _ there := by cases there
  served _ _ owns := by cases owns.found
  done _ _ there := by cases there
  yields _ there := by cases there
  clear _ there := by cases there
  reported _ _ there := by cases there
  deleted _ member := by cases member

theorem Run.kept
    (run : Run blake3 debug display Reliable (Party.start epoch token lease_ms require_loopback config worker_epoch) party) :
    Kept blake3 party ∧ Named party := by
  induction run with
  | start =>
    refine ⟨start_kept,fun _ session => ?_,fun _ _ _ registered => ?_⟩
    · cases session
    · cases registered
  | step run happening possible reliable ih =>
    have sound := run.sound (start_sound _ _ _ _ _ _)
    exact ⟨(acted sound.inv happening).kept ih.1 sound ih.2 possible reliable,(acted sound.inv happening).named ih.2 sound⟩

/-- In every run in which each report of an output is handled once and answered: the output of the attempt at hand can be
    stored, whatever it is; and what the coordinator says of an available output that the process owns is what the store of
    the process serves. -/
theorem outputs_agree
    (run : Run blake3 debug display Reliable (start epoch token lease_ms require_loopback config worker_epoch) party) :
    (∀ identity assignment, party.worker.life = .active identity (.executing assignment) → ∀ codec bytes,
      ∃ object objects, party.worker.objects.put blake3 assignment.output_id codec bytes = .ok (object,objects)) ∧
    ∀ id record, party.server.state.objects.get id = some record → record.state = .Available →
      record.owner = some party.worker.config.node_id →
      ∃ object, party.worker.objects.get id = .ok object ∧ record.checksum = some (blake3 object.bytes.bytes) ∧
        record.size_bytes = some object.bytes.len := by
  have kept := run.kept.1
  refine ⟨fun identity assignment life codec bytes => ?_,fun id record found available owned => ?_⟩
  · have held : party.worker.held = some assignment := by simp [Worker.held,life]
    have absent := kept.clear assignment (assignment_of_held held) (by simp [Worker.completing,life])
    exact ⟨_,_,put_absent absent codec bytes⟩
  · obtain ⟨object,there,checksum,size⟩ := kept.served id record ⟨found,available,owned⟩
    exact ⟨object,by simp only [LocalObjectStore.get,there],by rw [checksum,kept.whole id object there],size⟩

/-! ### A task with two attempts -/

/-- A digest that tells bytes apart by the first of them. -/
def firstHash (bytes : List UInt8) : Checksum := .replicate 32 (bytes.headD 0)

abbrev firstActs (party : Party) (happenings : List Happening) : Party :=
  party.acts firstHash (fun _ => "") (fun _ => "") happenings

/-- The process is given the task, and has its inputs. -/
def attempt (env : Env) : List Happening := [.serve env,.hear,.serve env,.hear,.fetch (.ok ())]

/-- The operation returns a byte. -/
def returned (byte : UInt8) : Happening := .execute (.ok ⟨[byte],by simp⟩)

/-- The first attempt returns, and its report is lost. -/
def lost : List Happening := joined ++ attempt (System.smallEnv 6) ++ [returned 1,.fault (.Io "connection reset")]

/-- The lease of the process runs out, it registers again and is given the task again. -/
def retried : List Happening := expired ++ .hear :: attempt { System.smallEnv 10 with now_ms := 100000 }

theorem submit_possible_first : Happening.Possible (firstActs smallParty [.serve (System.smallEnv 3),.hear])
    (.event (.operation .by_id (.submit smallKey [] ⟨⟨[("cpu",⟨600⟩)],by decide⟩⟩ 2 smallTask smallOutput))) :=
  submit_possible

/-- The attempt that the process is at. -/
def smallAssignment : TaskAssignment :=
  ⟨⟨smallTask,1,smallLease⟩,smallKey,[],smallOutput,⟨⟨[("cpu",⟨600⟩)],demand_sorted⟩⟩⟩

/-- The output can be stored, and once its report was accepted the coordinator has the digest of what the store serves. -/
theorem output_served :
    ((firstActs smallParty (joined ++ attempt (System.smallEnv 6))).worker.life =
        .active smallWorker (.executing smallAssignment) ∧
      ∃ object objects, (firstActs smallParty (joined ++ attempt (System.smallEnv 6))).worker.objects.put firstHash
        smallAssignment.output_id .JsonV1 ⟨[1],by simp⟩ = .ok (object,objects)) ∧
    ∃ record object, (firstActs smallParty (joined ++ attempt (System.smallEnv 6) ++
        [returned 1,.serve (System.smallEnv 6),.hear])).server.state.objects.get smallOutput = some record ∧
      (firstActs smallParty (joined ++ attempt (System.smallEnv 6) ++
        [returned 1,.serve (System.smallEnv 6),.hear])).worker.objects.get smallOutput = .ok object ∧
      record.checksum = some (firstHash object.bytes.bytes) := by
  have run : Run firstHash (fun _ => "") (fun _ => "") Reliable smallParty
      (firstActs smallParty (joined ++ attempt (System.smallEnv 6))) :=
    Run.start.along ⟨trivial,trivial,trivial,trivial,submit_possible_first,trivial,trivial,trivial,trivial,trivial,trivial,
      trivial,trivial,trivial,trivial,trivial,trivial⟩
  have reported : Run firstHash (fun _ => "") (fun _ => "") Reliable smallParty
      (firstActs smallParty (joined ++ attempt (System.smallEnv 6) ++ [returned 1,.serve (System.smallEnv 6),.hear])) :=
    Run.start.along ⟨trivial,trivial,trivial,trivial,submit_possible_first,trivial,trivial,trivial,trivial,trivial,trivial,
      trivial,trivial,trivial,trivial,trivial,trivial,trivial,trivial,trivial,trivial,trivial,trivial⟩
  have life : (firstActs smallParty (joined ++ attempt (System.smallEnv 6))).worker.life =
      .active smallWorker (.executing smallAssignment) := by decide +kernel
  refine ⟨⟨life,(outputs_agree run).1 _ _ life _ _⟩,?_⟩
  have record : ((firstActs smallParty (joined ++ attempt (System.smallEnv 6) ++
      [returned 1,.serve (System.smallEnv 6),.hear])).server.state.objects.get smallOutput).map
        (fun record => (record.state,record.owner)) = some (.Available,some smallWorker.node_id) := by decide +kernel
  obtain ⟨record,found,same⟩ := Option.map_eq_some_iff.mp record
  obtain ⟨available,owned⟩ := Prod.mk.inj same
  obtain ⟨object,served,checksum,_⟩ := (outputs_agree reported).2 smallOutput record found available owned
  exact ⟨record,object,found,served,checksum⟩

/-- When the report of an attempt is lost, the next attempt at the worker cannot store another output, and the process exits. -/
theorem output_conflicts :
    Run firstHash (fun _ => "") (fun _ => "") (fun _ _ => True) smallParty (firstActs smallParty (lost ++ retried)) ∧
    (firstActs smallParty (lost ++ retried)).assignment.map (fun assignment => (assignment.output_id,assignment.fence.attempt)) =
      some (smallOutput,2) ∧
    (firstActs smallParty (lost ++ retried)).worker.objects.put firstHash smallOutput .JsonV1 ⟨[2],by simp⟩ =
      .error (.ObjectConflict smallOutput) ∧
    (firstActs smallParty (lost ++ retried ++ [returned 2])).worker.life = .fatal (.ObjectConflict smallOutput) := by
  have kept : (firstActs smallParty (lost ++ retried)).worker.objects.objects.get smallOutput =
      some ⟨.JsonV1,⟨[1],by simp⟩,firstHash [1]⟩ := by decide +kernel
  have other : firstHash [1] ≠ firstHash [2] := by decide +kernel
  refine ⟨Run.start.along ?_,by decide +kernel,?_,by decide +kernel⟩
  · exact ⟨trivial,trivial,trivial,trivial,submit_possible_first,trivial,trivial,trivial,trivial,trivial,trivial,trivial,
      trivial,trivial,trivial,trivial,trivial,trivial,trivial,trivial,⟨trivial,trivial⟩,trivial,trivial,trivial,trivial,trivial,
      trivial,trivial,trivial,trivial,trivial,trivial,trivial,trivial,trivial,trivial,trivial,trivial,trivial⟩
  · simp [LocalObjectStore.put,kept,other]

end Party
end Crayon
