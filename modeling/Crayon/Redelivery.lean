import Crayon.Sessions

/-!
Polls whose reply is lost. A worker that was given a task and has not started it
is given the same task by every further poll. That is so because a poll looks for
such a task before it takes another one from the queue: as long as tasks are
dispatched by polls only, no session has two tasks that it has not started
(`Served.single`), and the record of one that it has is not touched
(`Event.given`).
-/
namespace Crayon.CoordinatorState
open Command
variable {blake3 : List UInt8 → Checksum} {epoch : CoordinatorEpoch} {past later : List Event} {s s' : CoordinatorState}
  {op : Op} {identity : WorkerIdentity} {task : TaskRecord} {id : TaskId}

/-- Tasks are dispatched by polls, and not otherwise. -/
def Event.Polls : Event → Prop
  | .operation _ op => ∀ lease, .lease lease ∉ op.minted
  | .poll _ _ => True

/-- No session has two tasks that it has not started. -/
def Single (s : CoordinatorState) : Prop := ∀ identity id task a id' task' a',
  Unstarted s identity id task a → Unstarted s identity id' task' a' → id = id'

/-! ### Tasks that were given and not started -/

/-- A change of one task that does not end with the task being given away gives no task away. -/
theorem given_of_modify {tasks : Table TaskId TaskRecord} {k id : TaskId} {f : TaskRecord → TaskRecord}
    (found : (tasks.modify k f).get id = some task) (state : task.state = .Assigned)
    (other : ∀ task, (f task).state ≠ .Assigned) : tasks.get id = some task := by
  rw [Table.get_modify] at found
  split at found
  · obtain ⟨before,_,rfl⟩ := Option.map_eq_some_iff.mp found
    exact absurd state (other before)
  · exact found

/-- A task that was given to a worker by no dispatch of this operation was given to it before, and its record is as it was. -/
theorem Move.given (move : Move op s s') (polls : ∀ lease, .lease lease ∉ op.minted)
    (found : s'.tasks.get id = some task) (state : task.state = .Assigned) : s.tasks.get id = some task := by
  cases move with
  | assign head found' runnable at_worker alive free fits taken minted => exact absurd minted (polls _)
  | @submit k output blocked task' codec newTask unqueued newOutput submitted =>
    rw [Table.get_insert] at found
    split at found
    · obtain rfl := Option.some.inj found
      have fresh := submitted.state
      rw [state] at fresh
      cases blocked <;> cases fresh
    · exact found
  | release pending_deletes found' settled unused =>
    rw [Table.get_retain] at found
    exact (Option.filter_eq_some_iff.mp found).1
  | stamp now =>
    rw [Table.get_mapValues] at found
    obtain ⟨before,there,rfl⟩ := Option.map_eq_some_iff.mp found
    unfold CoordinatorState.stamp at state ⊢
    split at state
    · rename_i ended
      rw [state] at ended
      cases ended.1
    · rename_i live
      rw [if_neg live]
      exact there
  | start | complete | retry | fail | acknowledge | request_cancel | cancel | starve | wake =>
    exact given_of_modify found state fun _ => nofun
  | _ => exact found

theorem Moves.given (moves : Moves op s s') (polls : ∀ lease, .lease lease ∉ op.minted)
    (found : s'.tasks.get id = some task) (state : task.state = .Assigned) : s.tasks.get id = some task := by
  induction moves with
  | refl => exact found
  | tail _ move ih => exact ih (move.given polls found state)

/-- A task that is given to a worker by a poll is the one that the worker is told of; the worker had no other, and its
    task was waiting in the queue. -/
structure Handed (s : CoordinatorState) (identity : WorkerIdentity) (reply : WorkerReply) (id : TaskId) (task : TaskRecord) :
    Prop where
  told : ∃ a, reply = .Assignment (some (offer task a)) ∧ task.assigned = some a ∧ a.held_by identity = true
  named : task.id = id
  free : ∀ id task a, ¬ Unstarted s identity id task a
  queued : ∃ before, s.tasks.get id = some before ∧ before.state = .Runnable

theorem Polled.given {env : Env} {reply : WorkerReply} (polled : Polled blake3 env identity s reply s') (inv : Inv s)
    (found : s'.tasks.get id = some task) (state : task.state = .Assigned) :
    s.tasks.get id = some task ∨ Handed s identity reply id task := by
  cases polled with
  | delete | stale | cancel | again => exact .inl found
  | next idle current calm free ran effect =>
    cases effect with
    | busy => exact .inl found
    | searched => exact .inl found
    | @assigned _ _ _ _ k queue before worker available requeued there at_worker alive unused servable budget taken =>
      rw [Table.get_modify_of there] at found
      split at found
      · rename_i same
        subst same
        obtain rfl := Option.some.inj found
        obtain ⟨_,worker',registered,_,sameEpoch,sameSession⟩ := current
        obtain rfl := Option.some.inj (at_worker.symm.trans registered)
        have named := inv.consistent.task_ids _ _ there
        refine .inr ⟨⟨_,?_,rfl,?_⟩,named,free,before,there,servable.runnable⟩
        · rw [offer,← named]
        · simp [Assigned.held_by,sameEpoch,sameSession]
      · exact .inl found

/-- A task that was given to a worker was given to it before, and its record is as it was, unless a poll gave it. -/
theorem Event.given (event : Event) (new : event.New s) (polls : event.Polls) (inv : Inv s)
    (found : (event.act blake3 s).tasks.get id = some task) (state : task.state = .Assigned) :
    s.tasks.get id = some task ∨ ∃ env identity reply s', event = .poll env identity ∧
      CoordinatorServer.poll env identity s = .ok reply s' ∧ Handed s identity reply id task := by
  cases event with
  | operation order op => exact .inl ((apply_moves blake3 order inv new).given polls found state)
  | poll env identity =>
    obtain ⟨reply,s',ran,polled⟩ := poll_polled blake3 env identity inv
    rw [Event.act,ran] at found
    exact (polled.given inv found state).imp_right fun handed => ⟨env,identity,reply,s',rfl,ran,handed⟩

theorem held_by_same {a b : Assigned} {i j : WorkerIdentity} (ai : a.held_by i = true) (aj : a.held_by j = true)
    (bi : b.held_by i = true) : b.held_by j = true := by
  simp only [Assigned.held_by,Bool.and_eq_true,decide_eq_true_eq] at *
  obtain ⟨⟨node,epoch⟩,session⟩ := ai
  rw [node,epoch,session] at aj
  rw [bi.1.1,bi.1.2,bi.2]
  exact aj

theorem Event.single (event : Event) (new : event.New s) (polls : event.Polls) (inv : Inv s) (single : Single s) :
    Single (event.act blake3 s) := by
  -- A worker that is given a task had none.
  have alone : ∀ {env i reply s' id task id' task' identity a a'}, event = .poll env i →
      CoordinatorServer.poll env i s = .ok reply s' → Handed s i reply id task →
      Unstarted (event.act blake3 s) identity id task a → Unstarted (event.act blake3 s) identity id' task' a' → id = id' := by
    intro env i reply s' id task id' task' identity a a' isPoll ran handed one two
    obtain ⟨b,told,assigned,held⟩ := handed.told
    obtain rfl := Option.some.inj (one.assigned.symm.trans assigned)
    rcases event.given new polls inv two.found two.state with before | ⟨_,_,_,_,isPoll',ran',handed'⟩
    · exact absurd ⟨before,two.state,two.assigned,held_by_same one.held held two.held⟩ (handed.free id' task' a')
    · cases isPoll.symm.trans isPoll'
      cases (EStateM.Result.ok.inj (ran.symm.trans ran')).1
      obtain ⟨b',told',_⟩ := handed'.told
      rw [told] at told'
      have same : task.id = task'.id := congrArg (fun offered => offered.fence.task_id)
        (Option.some.inj (WorkerReply.Assignment.inj told'))
      rw [← handed.named,same,handed'.named]
  intro identity id task a id' task' a' one two
  rcases event.given new polls inv one.found one.state with first | ⟨_,_,_,_,isPoll,ran,handed⟩
  · rcases event.given new polls inv two.found two.state with second | ⟨_,_,_,_,isPoll,ran,handed⟩
    · exact single identity id task a id' task' a' ⟨first,one.state,one.assigned,one.held⟩
        ⟨second,two.state,two.assigned,two.held⟩
    · exact (alone isPoll ran handed two one).symm
  · exact alone isPoll ran handed one two

theorem Served.single (served : Served blake3 epoch past s) (polls : ∀ event ∈ past, event.Polls) : Single s := by
  induction served with
  | start => exact fun _ _ _ _ _ _ _ one => by cases one.found
  | event served event new ih =>
    obtain ⟨poll,polls⟩ := List.forall_mem_cons.mp polls
    exact event.single new poll served.inv (ih polls)

/-! ### Polls that are repeated -/

/-- The task was given to a worker that has not started it. -/
def Given (s : CoordinatorState) (id : TaskId) : Prop := ∃ task, s.tasks.get id = some task ∧ task.state = .Assigned

/-- As long as a task is given away and not started, its record stays as it is. -/
theorem Event.still (event : Event) (new : event.New s) (polls : event.Polls) (inv : Inv s)
    (found : s.tasks.get id = some task) (state : task.state = .Assigned) (given : Given (event.act blake3 s) id) :
    (event.act blake3 s).tasks.get id = some task := by
  obtain ⟨task',found',state'⟩ := given
  rcases event.given new polls inv found' state' with before | ⟨_,_,_,_,_,_,handed⟩
  · obtain rfl := Option.some.inj (found.symm.trans before)
    exact found'
  · obtain ⟨before,there,runnable⟩ := handed.queued
    obtain rfl := Option.some.inj (found.symm.trans there)
    cases state.symm.trans runnable

theorem Served.still (served : Served blake3 epoch (later ++ past) s') (before : Served blake3 epoch past s)
    (polls : ∀ event ∈ later, event.Polls) (found : s.tasks.get id = some task) (state : task.state = .Assigned)
    (given : ∀ recent earlier t, later = recent ++ earlier → Served blake3 epoch (earlier ++ past) t → Given t id) :
    s'.tasks.get id = some task := by
  induction later generalizing s' with
  | nil =>
    obtain rfl := before.unique served
    exact found
  | cons last later ih =>
    obtain ⟨poll,polls⟩ := List.forall_mem_cons.mp polls
    have now := given [] _ s' rfl served
    cases served with
    | event served _ new =>
      refine last.still new poll served.inv (ih served polls fun recent earlier t split => ?_) state now
      exact given (last :: recent) earlier t (congrArg (last :: ·) split)

theorem Move.same_epoch (move : Move op s s') : s'.epoch = s.epoch := by
  cases move <;> rfl

theorem Event.same_epoch (event : Event) (new : event.New s) (inv : Inv s) : (event.act blake3 s).epoch = s.epoch := by
  cases event with
  | operation order op =>
    exact (apply_moves blake3 order inv new).keeps (P := fun t => t.epoch = s.epoch)
      (fun _ _ move same => move.same_epoch.trans same) rfl
  | poll env identity =>
    obtain ⟨reply,s',ran,polled⟩ := poll_polled blake3 env identity inv
    rw [Event.act,ran]
    cases polled with
    | next idle current calm free ran effect => cases effect <;> rfl
    | _ => rfl

theorem Served.same_epoch (served : Served blake3 epoch past s) : s.epoch = epoch := by
  induction served with
  | start => rfl
  | event served event new ih => exact (event.same_epoch new served.inv).trans ih

/-- A worker that is told of a task is registered, and the task is one that it was given and has not started. -/
theorem Polled.offered {env : Env} {assignment : TaskAssignment}
    (polled : Polled blake3 env identity s (.Assignment (some assignment)) s') (inv : Inv s) :
    Current s identity ∧ ∃ task a, Unstarted s' identity assignment.fence.task_id task a ∧ offer task a = assignment := by
  cases polled with
  | @again id task a idle current calm unstarted =>
    have named := inv.consistent.task_ids _ _ unstarted.found
    refine ⟨current,task,a,⟨?_,unstarted.state,unstarted.assigned,unstarted.held⟩,rfl⟩
    rw [offer,named]
    exact unstarted.found
  | next idle current calm free ran effect =>
    cases effect with
    | @assigned _ _ _ _ k queue before worker available requeued there at_worker alive unused servable budget taken =>
      refine ⟨current,?_⟩
      obtain ⟨_,worker',registered,_,sameEpoch,sameSession⟩ := current
      obtain rfl := Option.some.inj (at_worker.symm.trans registered)
      have named : before.id = k := inv.consistent.task_ids _ _ there
      refine ⟨_,_,⟨(Table.get_modify_of there _ k).trans (if_pos rfl),rfl,rfl,?_⟩,?_⟩
      · simp [Assigned.held_by,sameEpoch,sameSession]
      · rw [offer,named]

/-- The worker that a task was given to is registered. -/
theorem Unstarted.current {a : Assigned} (unstarted : Unstarted s identity id task a)
    (inv : Inv s) (epoch : identity.coordinator_epoch = s.epoch) : Current s identity := by
  have held := unstarted.held
  simp only [Assigned.held_by,Bool.and_eq_true,decide_eq_true_eq] at held
  obtain ⟨worker,registered,sameEpoch,sameSession⟩ := inv.consistent.served _ _ _ unstarted.found unstarted.assigned
  rw [held.1.1] at registered
  exact ⟨epoch,worker,registered,inv.alive _ _ registered,sameEpoch.trans held.1.2,sameSession.trans held.2⟩

/-- If tasks are dispatched by polls only, no session ever has two tasks that it has not started. And when a poll was told
    of a task, then as long as the task is not started, cancelled or taken back, every poll of that session for which there
    is nothing to delete or to cancel is told the same, and changes nothing. -/
theorem polls_repeat (served : Served blake3 epoch past s) (polls : ∀ event ∈ past, event.Polls) :
    Single s ∧ ∀ env identity assignment s₁,
      CoordinatorServer.poll env identity s = .ok (.Assignment (some assignment)) s₁ →
      ∀ later s', Served blake3 epoch (later ++ .poll env identity :: past) s' → (∀ event ∈ later, event.Polls) →
      (∀ recent earlier t, later = recent ++ earlier → Served blake3 epoch (earlier ++ .poll env identity :: past) t →
        Given t assignment.fence.task_id) →
      s'.pending_deletes.get identity.node_id = none → (∀ id task a, ¬ Stops s' identity id task a) →
      ∀ env', CoordinatorServer.poll env' identity s' = .ok (.Assignment (some assignment)) s' := by
  refine ⟨served.single polls,?_⟩
  intro env identity assignment s₁ ran later s' served' polls' given idle calm env'
  obtain ⟨reply,t,ran',polled⟩ := poll_polled blake3 env identity served.inv
  obtain ⟨rfl,rfl⟩ := EStateM.Result.ok.inj (ran'.symm.trans ran)
  have first : Served blake3 epoch (.poll env identity :: past) t := by
    have event := Served.event served (.poll env identity) trivial
    rwa [Event.act,ran'] at event
  obtain ⟨current,task,a,unstarted,offered⟩ := polled.offered served.inv
  have unstarted' : Unstarted s' identity assignment.fence.task_id task a :=
    ⟨served'.still first polls' unstarted.found unstarted.state given,unstarted.state,unstarted.assigned,unstarted.held⟩
  have current' : Current s' identity :=
    unstarted'.current served'.inv (current.1.trans (served.same_epoch.trans served'.same_epoch.symm))
  obtain ⟨reply',t',ran'',polled'⟩ := poll_polled blake3 env' identity served'.inv
  cases polled' with
  | delete queued => rw [idle] at queued; cases queued
  | stale idle' stale => exact absurd current' stale
  | cancel idle' current'' stops => exact absurd stops (calm _ _ _)
  | next idle' current'' calm' free ran effect => exact absurd unstarted' (free _ _ _)
  | @again id task' a' idle' current'' calm' again =>
    -- the task that the search finds is the one that was given before: there is no other
    have single : Single s' := served'.single (List.forall_mem_append.mpr ⟨polls',List.forall_mem_cons.mpr ⟨trivial,polls⟩⟩)
    obtain rfl := single _ _ _ _ _ _ _ again unstarted'
    obtain rfl := Option.some.inj (again.found.symm.trans unstarted'.found)
    obtain rfl := Option.some.inj (again.assigned.symm.trans unstarted'.assigned)
    rwa [Table.remove_of_absent idle,offered] at ran''

/-- A worker registers, and a task is submitted. -/
def offeredPast : List Event :=
  [.operation .by_id (.submit smallKey [] ⟨⟨[("cpu",⟨600⟩)],demand_sorted⟩⟩ 2 smallTask smallOutput),
    .operation .by_id (.register_worker ⟨smallWorker.node_id,smallWorker.worker_epoch,"host:1",
      ⟨⟨[("cpu",⟨1000⟩)],offer_sorted⟩⟩,1,[⟨smallKey,.JsonV1,.JsonV1,64⟩]⟩ 0 5000 smallWorker.session_id)]

def offeredState : CoordinatorState := offeredPast.foldr (fun event s => event.act smallHash s) (new smallEpoch)

theorem offered_served : Served smallHash smallEpoch offeredPast offeredState := by
  refine .event (.event .start _ ?_) _ ?_
  · exact trivial
  · exact ⟨by decide,by decide,by decide⟩

/-- The worker polls twice, and is told the same. -/
theorem offered_again : ∃ assignment s₁,
    CoordinatorServer.poll (System.smallEnv 6) smallWorker offeredState = .ok (.Assignment (some assignment)) s₁ ∧
      CoordinatorServer.poll (System.smallEnv 7) smallWorker s₁ = .ok (.Assignment (some assignment)) s₁ := by
  have polls : ∀ event ∈ offeredPast, event.Polls := by
    intro event member
    rcases List.mem_pair.mp member with rfl | rfl <;> intro lease <;> simp [Op.minted]
  have ran := Outcome.eq_ok (show Outcome.value? (CoordinatorServer.poll (System.smallEnv 6) smallWorker offeredState) =
    some (.Assignment (some ⟨⟨smallTask,1,⟨.replicate 16 6⟩⟩,smallKey,[],smallOutput,⟨⟨[("cpu",⟨600⟩)],by decide⟩⟩⟩)) by
      decide +kernel)
  generalize polled : Outcome.state _ = s₁ at ran
  have served : Served smallHash smallEpoch (.poll (System.smallEnv 6) smallWorker :: offeredPast) s₁ := by
    rw [← polled]
    exact .event offered_served (.poll (System.smallEnv 6) smallWorker) trivial
  have state : (s₁.tasks.get smallTask).map (·.state) = some .Assigned ∧
      s₁.pending_deletes.get smallWorker.node_id = none ∧ s₁.cancel_requested = ∅ := by
    subst polled
    decide +kernel
  obtain ⟨given,idle,calm⟩ := state
  obtain ⟨task,found,assigned⟩ := Option.map_eq_some_iff.mp given
  refine ⟨_,s₁,ran,(polls_repeat offered_served polls).2 _ _ _ _ ran [] s₁ served (by simp) ?_ idle ?_ _⟩
  · intro recent earlier t split served'
    obtain ⟨_,rfl⟩ := List.append_eq_nil_iff.mp split.symm
    obtain rfl := served.unique served'
    exact ⟨task,found,assigned⟩
  · intro id task a stops
    exact absurd stops.requested (by rw [calm]; simp)

end Crayon.CoordinatorState
