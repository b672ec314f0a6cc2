import Crayon.Sessions

/-!
Deletes on their way to the workers. When an object is released that a registered
worker owns, its id is queued for that worker, and only polls take it from the
queue. A poll takes it before it looks at who polls, and the reply may be lost. As
long as neither happens, every id that was queued is still queued, or has arrived
at the session that it was queued for.
-/
namespace Crayon.CoordinatorState
open Command
open Relation (ReflTransGen)
variable {blake3 : List UInt8 → Checksum} {epoch : CoordinatorEpoch} {s s' : CoordinatorState} {op : Op} {reply : Reply}
  {node : NodeId} {id : ObjectId} {object : ObjectRecord} {worker : WorkerRecord}

/-! ### The queue of a worker -/

/-- The id is queued for the worker. -/
def Owes (s : CoordinatorState) (node : NodeId) (id : ObjectId) : Prop := id ∈ (s.pending_deletes.get node).getD []

instance (s : CoordinatorState) (node : NodeId) (id : ObjectId) : Decidable (s.Owes node id) :=
  inferInstanceAs (Decidable (id ∈ (s.pending_deletes.get node).getD []))

/-- The operation takes the deletes of a worker. -/
def Op.takes : Op → Bool
  | .take_pending_deletes _ => true
  | _ => false

theorem Ripples.pending_deletes (ripples : Ripples s s') : s'.pending_deletes = s.pending_deletes := by
  induction ripples with
  | refl => rfl
  | tail _ ripple ih => cases ripple <;> exact ih

theorem Ripples.present (ripples : Ripples s s') (there : (s.objects.get id).isSome = true) :
    (s'.objects.get id).isSome = true := by
  induction ripples with
  | refl => exact there
  | tail _ ripple ih =>
    cases ripple with
    | starve found state failed =>
      dsimp only
      rw [Table.get_modify]
      split
      · rwa [Option.isSome_map]
      · exact ih
    | wake found state available => exact ih

/-- The sweep forgets the deletes of the workers that it forgets, and of no other. -/
theorem Swept.owes {now : Nat} (swept : Swept now s s') (lasting : (s'.workers.get node).isSome = true)
    (owes : Owes s node id) : Owes s' node id := by
  induction swept with
  | refl => exact owes
  | tail _ sweep ih =>
    cases sweep with
    | mark found due =>
      refine ih ?_
      dsimp only at lasting
      rw [Table.get_modify] at lasting
      split at lasting
      · rwa [Option.isSome_map] at lasting
      · exact lasting
    | evict found dead idle =>
      dsimp only at lasting
      rw [Table.get_remove] at lasting
      split at lasting
      · cases lasting
      · rename_i other
        have queued := ih lasting
        simpa only [Owes,Table.get_remove,if_neg other] using queued
    | cancelled => exact ih lasting
    | retried => exact ih lasting
    | failed => exact ih lasting

theorem Swept.present {now : Nat} (swept : Swept now s s') (there : (s.objects.get id).isSome = true) :
    (s'.objects.get id).isSome = true := by
  induction swept with
  | refl => exact there
  | tail _ sweep ih =>
    cases sweep with
    | mark | retried => exact ih
    | evict => simpa using ih
    | cancelled | failed =>
      dsimp only
      rw [Table.get_modify]
      split
      · rwa [Option.isSome_map]
      · exact ih

theorem dropped_owes (object : ObjectRecord) (owes : Owes s node id) (k : ObjectId) : Owes (s.dropped k object) node id := by
  unfold dropped Owes
  cases object.owner with
  | none => exact owes
  | some owner =>
    dsimp only
    split
    · rw [Table.get_insert]
      split
      · rename_i same
        subst same
        exact List.mem_append_left _ owes
      · exact owes
    · exact owes

theorem dropped_owed (owned : object.owner = some node) (registered : (s.workers.get node).isSome = true) :
    Owes (s.dropped id object) node id := by
  simp [dropped,Owes,owned,registered]

theorem Released.owes {k : ObjectId} (released : Released s k s') (owes : Owes s node id) : Owes s' node id := by
  cases released with
  | before => exact owes
  | drop => exact dropped_owes _ owes k

theorem Releases.owes (releases : Releases s s') (owes : Owes s node id) : Owes s' node id := by
  induction releases with
  | refl => exact owes
  | tail _ released ih => exact released.choose_spec.owes ih

/-- Among the objects that are released one after the other, each is queued for its owner. -/
theorem Releases.owed (releases : Releases s s') (found : s.objects.get id = some object) (owned : object.owner = some node)
    (registered : (s.workers.get node).isSome = true) (gone : s'.objects.get id = none) : Owes s' node id := by
  induction releases using ReflTransGen.head_induction_on with
  | refl =>
    rw [found] at gone
    cases gone
  | @head t u step rest ih =>
    obtain ⟨k,released⟩ := step
    cases released with
    | before => exact ih found registered
    | @drop object' found' settled unused =>
      by_cases same : id = k
      · subst same
        obtain rfl := Option.some.inj (found.symm.trans found')
        exact Releases.owes rest (dropped_owed owned registered)
      · refine ih ?_ registered
        simpa only [dropped,Table.get_remove,if_neg same] using found

/-- Ids stay queued as long as the worker is registered and does not take them. -/
theorem Effect.owes (effect : Effect blake3 op s reply s') (untaken : op.takes = false)
    (lasting : (s'.workers.get node).isSome = true) (owes : Owes s node id) : Owes s' node id := by
  cases effect with
  | put admitted | put_meta admitted =>
    cases admitted with
    | known => exact owes
    | stored => exact owes
  | completed _ _ _ _ _ _ _ _ _ _ _ ripples | failed _ _ _ _ _ _ ripples | acknowledged _ _ _ _ _ ripples
  | cancelled _ _ ripples =>
    unfold Owes
    dsimp only
    rw [Ripples.pending_deletes ripples]
    exact owes
  | expired report swept workers ripples =>
    dsimp only at lasting
    rw [Ripples.workers ripples] at lasting
    unfold Owes
    dsimp only
    rw [Ripples.pending_deletes ripples]
    exact Swept.owes swept lasting owes
  | reaped count released => exact Releases.owes released owes
  | released released => exact released.owes owes
  | taken => cases untaken
  | _ => exact owes

/-- An object that goes is released, and its id is queued for its owner. -/
theorem Effect.owed (effect : Effect blake3 op s reply s') (found : s.objects.get id = some object)
    (owned : object.owner = some node) (registered : (s.workers.get node).isSome = true) (gone : s'.objects.get id = none) :
    Owes s' node id := by
  have there : (s.objects.get id).isSome = true := by rw [found]; rfl
  have modified {k : ObjectId} {f : ObjectRecord → ObjectRecord} : ((s.objects.modify k f).get id).isSome = true := by
    rw [Table.get_modify]
    split
    · rwa [Option.isSome_map]
    · exact there
  have absurd_of : (s'.objects.get id).isSome = true → Owes s' node id := by
    rw [gone]
    nofun
  cases effect with
  | put admitted | put_meta admitted =>
    cases admitted with
    | known => exact absurd_of there
    | stored => exact absurd_of (by rw [Table.get_insert]; split; rfl; exact there)
  | submitted => exact absurd_of (by rw [Table.get_insert]; split; rfl; exact there)
  | completed _ _ _ _ _ _ _ _ _ _ _ ripples | failed _ _ _ _ _ _ ripples | acknowledged _ _ _ _ _ ripples
  | cancelled _ _ ripples =>
    have present := Ripples.present ripples modified
    exact absurd_of present
  | expired report swept workers ripples =>
    have present := Ripples.present ripples (Swept.present swept there)
    exact absurd_of present
  | reaped count released => exact Releases.owed released found owned registered gone
  | released released => exact Releases.owed (.single ⟨_,released⟩) found owned registered gone
  | _ => exact absurd_of there

/-! ### Polls whose replies arrive or are lost -/

/-- The coordinator, and the deletes that have arrived: each with who polled for it, the last one first. -/
structure Post where
  state : CoordinatorState
  received : List (WorkerIdentity × ObjectId)

/-- What arrives with a reply. -/
def arrival (identity : WorkerIdentity) : WorkerReply → Bool → List (WorkerIdentity × ObjectId)
  | .DeleteObject id,true => [(identity,id)]
  | _,_ => []

/-- An operation is run, or a worker polls and its reply arrives or is lost. Deletes are taken by polls only; and when a poll
    is told of a delete, a rule holds of the state, of who polls and of whether the reply arrives. -/
inductive Post.Step (blake3 : List UInt8 → Checksum) (Rule : CoordinatorState → WorkerIdentity → Bool → Prop) (p : Post) :
    Post → Prop where
  | operation (order : HashOrder) (op : Op) (new : op.NewTo p.state) (untaken : op.takes = false) :
      Step blake3 Rule p { p with state := Outcome.state (apply blake3 order op p.state) }
  | poll (env : Env) (identity : WorkerIdentity) (arrives : Bool) {reply : WorkerReply} {state : CoordinatorState}
      (ran : CoordinatorServer.poll env identity p.state = .ok reply state)
      (rule : ∀ id, reply = .DeleteObject id → Rule p.state identity arrives) :
      Step blake3 Rule p ⟨state,arrival identity reply arrives ++ p.received⟩

/-- The session is the one that is registered for the node. -/
def Lasts (node : NodeId) (session : WorkerIdentity) (p : Post) : Prop :=
  (p.state.workers.get node).map (·.identity) = some session

instance (node : NodeId) (session : WorkerIdentity) (p : Post) : Decidable (Lasts node session p) :=
  inferInstanceAs (Decidable ((p.state.workers.get node).map (·.identity) = some session))

/-- Whoever is told of a delete for the node is the session registered for it, and the reply arrives. -/
def Prompt (node : NodeId) (s : CoordinatorState) (identity : WorkerIdentity) (arrives : Bool) : Prop :=
  identity.node_id = node → Current s identity ∧ arrives = true

/-- The id is queued for the node, or was received by the session. -/
def Settled (node : NodeId) (session : WorkerIdentity) (id : ObjectId) (p : Post)
    (since : List (WorkerIdentity × ObjectId)) : Prop :=
  Owes p.state node id ∨ ∃ identity, (identity,id) ∈ since ∧ identity.node_id = node ∧
    identity.worker_epoch = session.worker_epoch ∧ identity.session_id = session.session_id

section
variable {Rule : CoordinatorState → WorkerIdentity → Bool → Prop} {p p' p₁ p₂ : Post} {session identity : WorkerIdentity}
  {since : List (WorkerIdentity × ObjectId)}

/-- A poll takes no id from a queue but the one that it is told of. -/
theorem Polled.owes {env : Env} {told : WorkerReply} (polled : Polled blake3 env identity s told s') (owes : Owes s node id) :
    Owes s' node id ∨ told = .DeleteObject id ∧ identity.node_id = node := by
  -- Without deletes for the node that polls, its queue is not the one in question.
  have kept (idle : (s.pending_deletes.get identity.node_id).getD [] = []) :
      Owes { s with pending_deletes := s.pending_deletes.remove identity.node_id } node id := by
    by_cases same : node = identity.node_id
    · rw [Owes,same,idle] at owes
      cases owes
    · simpa only [Owes,Table.get_remove,if_neg same] using owes
  cases polled with
  | @delete k rest queued =>
    by_cases same : node = identity.node_id
    swap
    · left
      unfold Owes at owes ⊢
      split <;> simpa only [Table.get_remove,Table.get_insert,if_neg same] using owes
    rw [Owes,same,queued,Option.getD_some] at owes
    rcases List.mem_cons.mp owes with rfl | later
    · exact .inr ⟨rfl,same.symm⟩
    · left
      have more : rest ≠ [] := List.ne_nil_of_mem later
      simpa only [Owes,if_neg more,same,Table.get_insert,if_true,Option.getD_some] using later
  | stale idle | cancel idle | again idle => exact .inl (kept idle)
  | next idle current calm free ran effect =>
    left
    cases effect with
    | busy | searched | assigned => exact kept idle

theorem Post.Step.inv (step : Post.Step blake3 Rule p p') (inv : Inv p.state) : Inv p'.state := by
  cases step with
  | operation order op new untaken => exact apply_inv blake3 order inv new
  | poll env identity arrives ran rule =>
    have after := Event.inv blake3 (.poll env identity) trivial inv
    rwa [Event.act,ran] at after

theorem Post.reached_inv (reached : ReflTransGen (Post.Step blake3 Rule) ⟨new epoch,[]⟩ p) : Inv p.state := by
  induction reached with
  | refl => exact new_inv epoch
  | tail _ step ih => exact step.inv ih

theorem Post.Step.settled (step : Post.Step blake3 (Prompt node) p p') (inv : Inv p.state) (lasts : Lasts node session p)
    (lasts' : Lasts node session p') (settled : Settled node session id p since) :
    ∃ more, p'.received = more ++ p.received ∧ Settled node session id p' (more ++ since) := by
  cases step with
  | operation order op new untaken =>
    refine ⟨[],rfl,settled.imp_left fun owes => ?_⟩
    have lasting : ((Outcome.state (apply blake3 order op p.state)).workers.get node).isSome = true := by
      obtain ⟨worker,registered,_⟩ := Option.map_eq_some_iff.mp lasts'
      exact Option.isSome_iff_exists.mpr ⟨worker,registered⟩
    revert lasting
    exact apply_keeps blake3 order inv (fun _ => owes) fun _ _ effect lasting => effect.owes untaken lasting owes
  | @poll env identity arrives told state ran rule =>
    refine ⟨_,rfl,?_⟩
    rcases settled with owes | ⟨identity',member,rest⟩
    swap
    · exact .inr ⟨identity',List.mem_append_right _ member,rest⟩
    obtain ⟨reply,s',ran',polled⟩ := poll_polled blake3 env identity inv
    obtain ⟨rfl,rfl⟩ := EStateM.Result.ok.inj (ran'.symm.trans ran)
    rcases polled.owes owes with still | ⟨rfl,same⟩
    · exact .inl still
    -- the poll was told of the id, by the rule it is of the session, and the reply arrives
    obtain ⟨⟨_,worker,registered,_,sameEpoch,sameSession⟩,rfl⟩ := rule id rfl same
    obtain ⟨worker',registered',rfl⟩ := Option.map_eq_some_iff.mp lasts
    rw [same] at registered
    obtain rfl := Option.some.inj (registered.symm.trans registered')
    exact .inr ⟨identity,List.mem_append_left _ (List.mem_singleton.mpr rfl),same,sameEpoch.symm,sameSession.symm⟩

/-- The id of an object that is released while a registered worker owns it is queued for that worker. -/
theorem Post.Step.owed (step : Post.Step blake3 Rule p p') (inv : Inv p.state) (found : p.state.objects.get id = some object)
    (owned : object.owner = some node) (registered : (p.state.workers.get node).isSome = true)
    (released : p'.state.objects.get id = none) : Owes p'.state node id := by
  have kept {P : Prop} : p.state.objects.get id = none → P := by
    rw [found]
    nofun
  cases step with
  | operation order op new untaken =>
    revert released
    exact apply_keeps blake3 order inv kept fun _ _ effect gone => effect.owed found owned registered gone
  | @poll env identity arrives told state ran rule =>
    obtain ⟨reply,s',ran',polled⟩ := poll_polled blake3 env identity inv
    obtain ⟨rfl,rfl⟩ := EStateM.Result.ok.inj (ran'.symm.trans ran)
    cases polled with
    | delete | stale | cancel | again => exact kept released
    | next idle current calm free ran effect => exact effect.owed found owned registered released

/-- In every run an object that is released while a registered worker owns it is, for as long as the session of that worker
    lasts, queued for the worker, or was received since by a poll of that session: if from then on the polls that are told
    of deletes for the worker are those of its session, and their replies arrive. -/
theorem deletes_arrive (reached : ReflTransGen (Post.Step blake3 fun _ _ _ => True) ⟨new epoch,[]⟩ p)
    (found : p.state.objects.get id = some object) (owned : object.owner = some node)
    (registered : p.state.workers.get node = some worker) (step : Post.Step blake3 (fun _ _ _ => True) p p₁)
    (released : p₁.state.objects.get id = none) (lasts : Lasts node worker.identity p₁)
    (later : ReflTransGen (fun q q' => Post.Step blake3 (Prompt node) q q' ∧ Lasts node worker.identity q') p₁ p₂) :
    ∃ since, p₂.received = since ++ p₁.received ∧ Settled node worker.identity id p₂ since := by
  have inv := Post.reached_inv reached
  have inv₁ := step.inv inv
  have owes := step.owed inv found owned (Option.isSome_iff_exists.mpr ⟨worker,registered⟩) released
  have kept : Lasts node worker.identity p₂ ∧ Inv p₂.state ∧
      ∃ since, p₂.received = since ++ p₁.received ∧ Settled node worker.identity id p₂ since := by
    induction later with
    | refl => exact ⟨lasts,inv₁,[],rfl,.inl owes⟩
    | tail _ step ih =>
      obtain ⟨lasts,inv,since,received,settled⟩ := ih
      obtain ⟨more,received',settled'⟩ := step.1.settled inv lasts step.2 settled
      refine ⟨step.2,step.1.inv inv,more ++ since,?_,settled'⟩
      rw [received',received,List.append_assoc]
  exact kept.2.2

end

/-- Operations that do not take deletes are steps. -/
theorem Run.posted {past : List Step} (run : Run blake3 epoch past s) (untaken : ∀ step ∈ past, step.op.takes = false) :
    ReflTransGen (Post.Step blake3 fun _ _ _ => True) ⟨new epoch,[]⟩ ⟨s,[]⟩ := by
  induction run with
  | start => exact .refl
  | step run order op fresh ih =>
    obtain ⟨here,untaken⟩ := List.forall_mem_cons.mp untaken
    exact (ih untaken).tail (.operation order op (run.newTo fresh) here)

/-- The worker that completed the task, its output, and the output released. -/
def keptPost : Post := ⟨keptState,[]⟩
def releasedPost : Post := ⟨Outcome.state (apply smallHash .by_id (.release_object smallOutput) keptState),[]⟩

/-- The worker polls, and the reply is lost or arrives. -/
def polledPost (arrives : Bool) : Post :=
  ⟨Outcome.state (CoordinatorServer.poll (System.smallEnv 8) smallWorker releasedPost.state),
    arrival smallWorker (.DeleteObject smallOutput) arrives⟩

theorem kept_posted : ReflTransGen (Post.Step smallHash fun _ _ _ => True) ⟨new smallEpoch,[]⟩ keptPost :=
  kept_output_run.posted (by decide +kernel)

theorem released_step : Post.Step smallHash (fun _ _ _ => True) keptPost releasedPost :=
  .operation .by_id (.release_object smallOutput) trivial rfl

theorem polled_step {Rule : CoordinatorState → WorkerIdentity → Bool → Prop} {arrives : Bool}
    (rule : Rule releasedPost.state smallWorker arrives) : Post.Step smallHash Rule releasedPost (polledPost arrives) := by
  have told : CoordinatorServer.poll (System.smallEnv 8) smallWorker releasedPost.state =
      .ok (.DeleteObject smallOutput) _ := Outcome.eq_ok (by decide +kernel)
  have step : Post.Step smallHash Rule releasedPost ⟨_,arrival smallWorker _ arrives ++ releasedPost.received⟩ :=
    .poll (System.smallEnv 8) smallWorker arrives told fun _ _ => rule
  rwa [releasedPost,List.append_nil] at step

/-- When the reply arrives, the worker has received the id. -/
theorem delete_received : keptState.objects.get smallOutput ≠ none ∧
    releasedPost.state.objects.get smallOutput = none ∧
    ∃ since, (polledPost true).received = since ++ releasedPost.received ∧
      Settled smallWorker.node_id smallWorker smallOutput (polledPost true) since := by
  have owner : (keptState.objects.get smallOutput).map (·.owner) = some (some smallWorker.node_id) := by decide +kernel
  obtain ⟨object,found,owned⟩ := Option.map_eq_some_iff.mp owner
  have enrolled : Lasts smallWorker.node_id smallWorker keptPost := by decide +kernel
  obtain ⟨worker,registered,same⟩ := Option.map_eq_some_iff.mp enrolled
  have current : Current releasedPost.state smallWorker := by
    have seen : (releasedPost.state.workers.get smallWorker.node_id).map (fun worker => (worker.state,worker.identity)) =
      some (.Alive,smallWorker) := by decide +kernel
    obtain ⟨worker,registered,same⟩ := Option.map_eq_some_iff.mp seen
    obtain ⟨alive,same⟩ := Prod.mk.inj same
    exact ⟨by decide +kernel,worker,registered,by rw [alive]; decide,by rw [same],by rw [same]⟩
  have released : releasedPost.state.objects.get smallOutput = none := by decide +kernel
  have lasts : Lasts smallWorker.node_id worker.identity releasedPost ∧
      Lasts smallWorker.node_id worker.identity (polledPost true) := by
    rw [same]
    decide +kernel
  have arrives := deletes_arrive kept_posted found owned registered released_step released lasts.1
    (.single ⟨polled_step fun _ => ⟨current,rfl⟩,lasts.2⟩)
  rw [same] at arrives
  exact ⟨by rw [found]; nofun,released,arrives⟩

/-- When the reply is lost, the id is gone from the queue, and no poll has received it, while the session lasts. -/
theorem lost_reply_drops_delete :
    ReflTransGen (Post.Step smallHash fun _ _ _ => True) ⟨new smallEpoch,[]⟩ keptPost ∧
      (keptPost.state.objects.get smallOutput).map (·.owner) = some (some smallWorker.node_id) ∧
      Post.Step smallHash (fun _ _ _ => True) keptPost releasedPost ∧
      releasedPost.state.objects.get smallOutput = none ∧ Lasts smallWorker.node_id smallWorker releasedPost ∧
      Post.Step smallHash (fun _ _ _ => True) releasedPost (polledPost false) ∧
      Lasts smallWorker.node_id smallWorker (polledPost false) ∧
      (polledPost false).received = [] ∧ ¬ Owes (polledPost false).state smallWorker.node_id smallOutput :=
  ⟨kept_posted,by decide +kernel,released_step,by decide +kernel,by decide +kernel,polled_step trivial,by decide +kernel,rfl,
    by decide +kernel⟩

end Crayon.CoordinatorState
