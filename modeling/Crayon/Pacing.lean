import Crayon.Attempts
import Crayon.Runs

/-!
Attempts of tasks. To whoever watches the steps of a run, a task is a job that is
tried a bounded number of times: it is sent out when a worker is given it, an
attempt ends when a worker reports failure or its lease runs out, and the task is
then due again after a pause that doubles from attempt to attempt. Both ways for
an attempt to end, and every other step, are steps of such a job
(`Effect.job`), whatever becomes of the queue meanwhile.
-/
namespace Crayon
open Attempts (Job Mark)

/-- The task as a job. -/
def TaskRecord.job (task : TaskRecord) : Job :=
  match task.state with
  | .Waiting | .Runnable => .idle task.attempt.toNat task.max_attempts.toNat task.not_before_ms
  | .Assigned | .Running | .CancelRequested => .out task.attempt.toNat task.max_attempts.toNat
  | .Succeeded | .Failed _ | .Cancelled => .closed

theorem TaskRecord.job_idle {task : TaskRecord} (state : task.state = .Waiting ∨ task.state = .Runnable) :
    task.job = .idle task.attempt.toNat task.max_attempts.toNat task.not_before_ms := by
  rcases state with state | state <;> rw [job,state]

theorem TaskRecord.job_out {task : TaskRecord} (state : task.state = .Assigned ∨ task.state = .Running) :
    task.job = .out task.attempt.toNat task.max_attempts.toNat := by
  rcases state with state | state <;> rw [job,state]

namespace CoordinatorState

/-- When a task whose attempt ended may be dispatched again. -/
def pause (now attempt : Nat) : Nat := saturating_add now (min (100 * 2^(attempt - 1)) 30000)

theorem backoff_pause (now : Nat) (attempt : Attempt) :
    saturating_add now (retry_backoff_ms attempt) = pause now attempt.toNat := by
  unfold pause retry_backoff_ms RETRY_BACKOFF_BASE_MS RETRY_BACKOFF_CAP_MS
  congr 1
  by_cases few : attempt.toNat - 1 ≤ 20
  · have bounded : 2^(attempt.toNat - 1) ≤ 2^20 := Nat.pow_le_pow_right (by decide) few
    rw [min_eq_left few]
    omega
  · have large : 2^20 ≤ 2^(attempt.toNat - 1) := Nat.pow_le_pow_right (by decide) (by omega)
    have capped : min (attempt.toNat - 1) 20 = 20 := by omega
    rw [capped]
    omega

/-- Where a task stands, given whether its id was ever drawn. -/
def standing (drawn : Bool) : Option TaskRecord → Job
  | some task => task.job
  | none => if drawn then .gone else .unknown

/-- What is seen of a task when an attempt ends that was under way. -/
def ended (now : Nat) (final : Bool) : Job → Job → Mark
  | .out _ _, .out _ _ => .quiet
  | .out attempt _, _ => .ended attempt now final
  | _, _ => .quiet

/-- What an operation that returned shows of a task. -/
def seen (id : TaskId) (op : Op) (s : CoordinatorState) (reply : Reply) (s' : CoordinatorState) : Mark :=
  match op,reply with
  | .submit _ _ _ max_attempts task _,.Submitted _ _ => if task = id then .accepted max_attempts.toNat else .quiet
  | .assign_next _ now _,.Assignment (some assignment) =>
    if assignment.fence.task_id = id then .sent assignment.fence.attempt.toNat now else .quiet
  | .fail _ _ _ «class» now,_ =>
    ended now («class» = .Permanent) (standing true (s.tasks.get id)) (standing true (s'.tasks.get id))
  | .expire_workers now,_ => ended now false (standing true (s.tasks.get id)) (standing true (s'.tasks.get id))
  | _,_ => .quiet

/-- What a step of a run shows of a task. -/
def Step.mark (id : TaskId) (step : Step) : Mark :=
  match step.outcome with
  | .ok reply s' => seen id step.op step.before reply s'
  | .error _ _ => .quiet

/-- The operation draws the id for a task. -/
def Op.draws (id : TaskId) (op : Op) : Bool := decide (.task id ∈ op.minted)

section
variable {s s' : CoordinatorState} {op : Op} {id : TaskId} {drawn : Bool}

@[simp] theorem ended_self (now : Nat) (final : Bool) (job : Job) : ended now final job job = .quiet := by
  cases job <;> rfl

/-- For the end of an attempt it does not matter why there is no task. -/
theorem ended_drawn (now : Nat) (final drawn drawn' : Bool) (before after : Option TaskRecord) :
    ended now final (standing true before) (standing true after) = ended now final (standing drawn before) (standing drawn' after) := by
  cases before with
  | none => cases drawn <;> cases after <;> rfl
  | some task =>
    cases after with
    | none => cases drawn' <;> cases job : task.job <;> simp [standing,ended,job]
    | some task' => rfl

/-! ### Steps that end or start no attempt -/

/-- The job is as before, or it waited and is over. -/
def Rests (before after : Job) : Prop :=
  after = before ∨ (∃ made limit due, before = .idle made limit due) ∧ after = .closed

theorem Rests.trans {a b c : Job} (first : Rests a b) (second : Rests b c) : Rests a c := by
  rcases first with rfl | ⟨waited,rfl⟩
  · exact second
  · rcases second with rfl | ⟨⟨_,_,_,idle⟩,_⟩
    · exact .inr ⟨waited,rfl⟩
    · cases idle

theorem Rests.step {a b : Job} (rests : Rests a b) : Attempts.Step pause a .quiet b := by
  rcases rests with rfl | ⟨⟨made,limit,due,rfl⟩,rfl⟩
  · exact .stay _
  · exact .drop

theorem Rests.unended {a b : Job} (rests : Rests a b) (now : Nat) (final : Bool) : ended now final a b = .quiet := by
  rcases rests with rfl | ⟨⟨made,limit,due,rfl⟩,rfl⟩
  · exact ended_self now final _
  · rfl

theorem standing_modify (drawn : Bool) (tasks : Table TaskId TaskRecord) {k : TaskId} {task : TaskRecord}
    (found : tasks.get k = some task) (f : TaskRecord → TaskRecord) (id : TaskId) :
    standing drawn ((tasks.modify k f).get id) = if id = k then (f task).job else standing drawn (tasks.get id) := by
  rw [Table.get_modify]
  split
  · rename_i same
    rw [same,found]
    rfl
  · rfl

theorem Ripples.rests (ripples : Ripples s s') (drawn : Bool) (id : TaskId) :
    Rests (standing drawn (s.tasks.get id)) (standing drawn (s'.tasks.get id)) := by
  induction ripples with
  | refl => exact .inl rfl
  | tail _ ripple ih =>
    refine ih.trans ?_
    cases ripple with
    | @starve k task found state failed =>
      dsimp only
      rw [standing_modify drawn _ found]
      split
      · rename_i same
        rw [same,found]
        exact .inr ⟨⟨_,_,_,TaskRecord.job_idle (.inl state)⟩,rfl⟩
      · exact .inl rfl
    | @wake k task found state available =>
      dsimp only
      rw [standing_modify drawn _ found]
      split
      · rename_i same
        rw [same,found]
        exact .inl (TaskRecord.job_idle (.inl state)).symm
      · exact .inl rfl

/-! ### A sweep -/

/-- What a sweep may do to a job: nothing, or an attempt under way is over or to be made again. -/
def Recalled (now : Nat) (before after : Job) : Prop :=
  after = before ∨ ∃ made limit, before = .out made limit ∧
    (after = .closed ∨ made < limit ∧ after = .idle made limit (pause now made))

/-- The sweep takes an attempt back. -/
theorem Recalled.modify {now made limit : Nat} {before : Job} {tasks : Table TaskId TaskRecord}
    (recalled : Recalled now before (standing drawn (tasks.get id))) {k : TaskId} {task : TaskRecord}
    (found : tasks.get k = some task) (out : task.job = .out made limit) {f : TaskRecord → TaskRecord}
    (back : (f task).job = .closed ∨ made < limit ∧ (f task).job = .idle made limit (pause now made)) :
    Recalled now before (standing drawn ((tasks.modify k f).get id)) := by
  rw [standing_modify drawn tasks found]
  split
  · rename_i same
    have here : standing drawn (tasks.get id) = .out made limit := by rw [same,found,standing,out]
    rw [here] at recalled
    rcases recalled with same | ⟨_,_,_,ended | ⟨_,waits⟩⟩
    · exact .inr ⟨made,limit,same.symm,back⟩
    · cases ended
    · cases waits
  · exact recalled

theorem Swept.recalled {now : Nat} (swept : Swept now s s') (drawn : Bool) (id : TaskId) :
    Recalled now (standing drawn (s.tasks.get id)) (standing drawn (s'.tasks.get id)) := by
  induction swept with
  | refl => exact .inl rfl
  | tail _ sweep ih =>
    cases sweep with
    | mark found due => exact ih
    | evict found dead idle => exact ih
    | @cancelled k task a worker found state assigned at_worker dead =>
      have out : task.job = .out task.attempt.toNat task.max_attempts.toNat := by rw [TaskRecord.job,state]
      exact ih.modify found out (.inl rfl)
    | @retried k task a worker found state assigned at_worker dead budget =>
      refine ih.modify found (TaskRecord.job_out state) (.inr ⟨UInt32.lt_iff_toNat_lt.mp budget,?_⟩)
      rw [TaskRecord.job_idle (.inr rfl),backoff_pause]
    | @failed k task a worker found state assigned at_worker dead exhausted =>
      exact ih.modify found (TaskRecord.job_out state) (.inl rfl)

/-- A sweep and the dependency pass after it are one step of a job. -/
theorem Recalled.step {now : Nat} {a b c : Job} (recalled : Recalled now a b) (rests : Rests b c) :
    Attempts.Step pause a (ended now false a c) c := by
  rcases recalled with rfl | ⟨made,limit,rfl,rfl | ⟨room,rfl⟩⟩
  · rw [rests.unended]
    exact rests.step
  · rcases rests with rfl | ⟨⟨_,_,_,idle⟩,_⟩
    · exact .give_up now false
    · cases idle
  · rcases rests with rfl | ⟨_,rfl⟩
    · exact .retry now room
    · exact .give_up now false

/-! ### Every effect is a step of the job -/

/-- A job that is over stays so. -/
theorem Rests.ended {c : Job} (rests : Rests .closed c) : c = .closed := by
  rcases rests with rfl | ⟨⟨_,_,_,idle⟩,_⟩
  · rfl
  · cases idle

/-- What the dependency pass makes of a change to one task. -/
theorem Ripples.modified (ripples : Ripples s s') {tasks : Table TaskId TaskRecord} {k : TaskId} {f : TaskRecord → TaskRecord}
    (changed : s.tasks = tasks.modify k f) {task : TaskRecord} (found : tasks.get k = some task) (drawn : Bool) (id : TaskId) :
    Rests (if id = k then (f task).job else standing drawn (tasks.get id)) (standing drawn (s'.tasks.get id)) := by
  have rests := ripples.rests drawn id
  rwa [changed,standing_modify drawn tasks found] at rests

/-- A task that is there is as it was after a release, or gone. -/
theorem Releases.standing (releases : Releases s s') (id : TaskId) :
    s'.tasks.get id = s.tasks.get id ∨ s'.tasks.get id = none := by
  induction releases with
  | refl => exact .inl rfl
  | tail _ released ih =>
    obtain ⟨oid,released⟩ := released
    cases released with
    | before absent => exact ih
    | drop found settled unused =>
      simp only [dropped,Table.get_retain]
      rcases ih with same | none
      · rw [same]
        cases s.tasks.get id with
        | none => exact .inl rfl
        | some task => by_cases kept : task.output = oid <;> simp [Option.filter,kept]
      · rw [none]
        exact .inr rfl

theorem standing_released {before after : Option TaskRecord} (kept : after = before ∨ after = none)
    (known : before ≠ none → drawn = true) : Attempts.Step pause (standing drawn before) .quiet (standing drawn after) := by
  rcases kept with rfl | rfl
  · exact .stay _
  · cases before with
    | none => exact .stay _
    | some task =>
      rw [standing,standing,if_pos (known nofun)]
      exact .forget _

theorem standing_stamped (drawn : Bool) (now : Nat) (task : Option TaskRecord) :
    standing drawn (task.map (stamp now)) = standing drawn task := by
  cases task with
  | none => rfl
  | some task =>
    simp only [Option.map_some,standing,stamp]
    split <;> rfl

variable {blake3 : List UInt8 → Checksum} {reply : Reply}

/-- An operation that draws the id of a task submits it. -/
theorem Effect.job_drawn (effect : Effect blake3 op s reply s') (newTo : op.NewTo s) (drew : op.draws id = true) :
    Attempts.Step pause (standing false (s.tasks.get id)) (seen id op s reply s') (standing true (s'.tasks.get id)) := by
  cases effect with
  | @submitted s operation args resources max_attempts k output descriptor blocked attempts offered valid capable admitted =>
    obtain rfl : id = k := by simpa [Op.draws,Op.minted] using drew
    simp only [newTo.1,Table.get_insert,if_true,seen]
    have waits : ∀ b : Bool, (if b then TaskState.Waiting else .Runnable) = .Waiting ∨
        (if b then TaskState.Waiting else .Runnable) = .Runnable := by decide
    rw [standing,standing,TaskRecord.job_idle (waits blocked)]
    exact .accept _ _
  | _ => simp [Op.draws,Op.minted] at drew

theorem Effect.job (effect : Effect blake3 op s reply s') (id : TaskId) (known : s.tasks.get id ≠ none → drawn = true)
    (undrawn : op.draws id = false) :
    Attempts.Step pause (standing drawn (s.tasks.get id)) (seen id op s reply s') (standing drawn (s'.tasks.get id)) := by
  cases effect with
  | @submitted s operation args resources max_attempts k output descriptor blocked attempts offered valid capable admitted =>
    have other : id ≠ k := by simpa [Op.draws,Op.minted] using undrawn
    simp only [seen,Table.get_insert,if_neg other,if_neg (Ne.symm other)]
    exact .stay _
  | @assigned s node_id now lease k queue task worker available requeued found at_worker alive free servable budget taken
      assigns owned hits =>
    simp only [seen]
    rw [standing_modify drawn _ found]
    by_cases same : id = k
    · rw [if_pos same,if_pos same.symm,same,found,standing,TaskRecord.job_idle (.inr servable.runnable)]
      have below := UInt32.lt_iff_toNat_lt.mp budget
      have next : (task.attempt + 1).toNat = task.attempt.toNat + 1 := by
        have := task.max_attempts.toNat_lt
        rw [UInt32.toNat_add,UInt32.toNat_one,Nat.mod_eq_of_lt (by omega)]
      rw [TaskRecord.job_out (.inl rfl),next]
      exact .send below servable.due
    · rw [if_neg same,if_neg (Ne.symm same)]
      exact .stay _
  | @started s identity fence task current matching found state =>
    simp only [seen]
    rw [standing_modify drawn _ found]
    split
    · rename_i same
      rw [same,found,standing,TaskRecord.job_out (.inl state)]
      exact .stay _
    · exact .stay _
  | @requested s k task found state =>
    simp only [seen]
    rw [standing_modify drawn _ found]
    split
    · rename_i same
      rw [same,found,standing,TaskRecord.job_out state]
      exact .stay _
    · exact .stay _
  | @completed s t identity report task worker descriptor object workers current matching found state at_worker living offered
      verified output accepted freed ripples reconciled =>
    have rests := ripples.modified rfl found drawn id
    split at rests
    · rename_i same
      rw [rests.ended,same,found,standing,TaskRecord.job_out state]
      exact .finish
    · exact rests.step
  | @acknowledged s t identity fence task workers current matching found state freed ripples reconciled =>
    have rests := ripples.modified rfl found drawn id
    split at rests
    · rename_i same
      have out : task.job = .out task.attempt.toNat task.max_attempts.toNat := by rw [TaskRecord.job,state]
      rw [rests.ended,same,found,standing,out]
      exact .finish
    · exact rests.step
  | @cancelled s t k task found state ripples reconciled =>
    have rests := ripples.modified rfl found drawn id
    split at rests
    · rename_i same
      rw [rests.ended,same,found,standing,TaskRecord.job_idle state]
      exact .drop
    · exact rests.step
  | @failed_before s identity fence message «class» now task found terminal =>
    simp only [seen,ended_self]
    exact .stay _
  | @unexpired s now calm =>
    simp only [seen,ended_self]
    exact .stay _
  | @retried s identity fence message «class» now task workers current matching found state retry freed =>
    simp only [seen]
    rw [ended_drawn now _ drawn drawn,standing_modify drawn _ found]
    split
    · rename_i same
      have transient : decide («class» = .Permanent) = false := by rw [retry.1]; rfl
      rw [same,found,standing,TaskRecord.job_out state,TaskRecord.job_idle (.inr rfl),backoff_pause,transient]
      exact .retry now (UInt32.lt_iff_toNat_lt.mp retry.2)
    · rw [ended_self]
      exact .stay _
  | @failed s t identity fence message «class» now task workers current matching found state final freed ripples reconciled =>
    simp only [seen]
    rw [ended_drawn now _ drawn drawn]
    have rests := ripples.modified rfl found drawn id
    split at rests
    · rename_i same
      rw [rests.ended,same,found,standing,TaskRecord.job_out state]
      exact .give_up now _
    · rw [rests.unended]
      exact rests.step
  | @expired s t u now report swept workers ripples reconciled =>
    simp only [seen]
    rw [ended_drawn now _ drawn drawn]
    exact (swept.recalled drawn id).step (ripples.rests drawn id)
  | @reaped s t now count released =>
    have kept := released.standing id
    simp only [Table.get_mapValues] at kept
    rw [← standing_stamped drawn now]
    exact standing_released kept fun there => known fun absent => there (by rw [absent,Option.map_none])
  | released released => exact standing_released (Releases.standing (.single ⟨_,released⟩) id) known
  | put admitted =>
    rw [admitted.tasks]
    exact .stay _
  | put_meta admitted =>
    rw [admitted.tasks]
    exact .stay _
  | _ => exact .stay _

/-! ### Runs -/

theorem apply_job (order : HashOrder) (inv : Inv s) (newTo : op.NewTo s) (id : TaskId)
    (known : s.tasks.get id ≠ none → drawn = true) (fresh : op.draws id = true → drawn = false) :
    Attempts.Step pause (standing drawn (s.tasks.get id)) (Step.mark id ⟨order,op,s,apply blake3 order op s⟩)
      (standing (op.draws id || drawn) ((Outcome.state (apply blake3 order op s)).tasks.get id)) := by
  have atomic := apply_effect blake3 order inv.consistent inv.alive op
  rw [Step.mark]
  match apply blake3 order op s,atomic with
  | .ok reply s',effect =>
    cases drew : op.draws id with
    | true =>
      rw [fresh drew]
      exact Effect.job_drawn effect newTo drew
    | false => exact Effect.job effect id known drew
  | .error (.Err _) s',same =>
    obtain rfl : s' = s := same
    cases drew : op.draws id with
    | false => exact .stay _
    | true =>
      have absent : s'.tasks.get id = none := Option.not_isSome_iff_eq_none.mp fun there => by
        exact Bool.true_eq_false.mp ((known (Option.isSome_iff_ne_none.mp there)).symm.trans (fresh drew))
      simp only [Outcome.state,absent]
      exact .forget _

variable {epoch : CoordinatorEpoch} {past : List Step}

/-- Along a run a task is a job, and the steps show what becomes of it. -/
theorem Run.job (run : Run blake3 epoch past s) (id : TaskId) :
    Attempts.Steps pause (past.map (Step.mark id)) (standing (past.any (·.op.draws id)) (s.tasks.get id)) := by
  induction run with
  | start => exact .start
  | @step past s run order op fresh ih =>
    refine .step ih (apply_job order run.inv (run.newTo fresh) id (fun there => ?_) fun drew => ?_)
    · obtain ⟨task,found⟩ := Option.ne_none_iff_exists'.mp there
      obtain ⟨step,member,drawn⟩ := run.known.2 id (.inl (Table.mem_keys_iff.mpr ⟨task,found⟩))
      exact List.any_eq_true.mpr ⟨step,member,decide_eq_true drawn⟩
    · refine List.any_eq_false.mpr fun step member drawn => ?_
      exact (fresh _ (of_decide_eq_true drew)).1 step member (of_decide_eq_true drawn)

/-- The run up to a step. -/
theorem Run.at {later : List Step} {step : Step} (run : Run blake3 epoch (later ++ step :: past) s) :
    Run blake3 epoch (step :: past) (Outcome.state step.outcome) := by
  induction later generalizing s with
  | nil =>
    cases run with
    | step run order op fresh => exact .step run order op fresh
  | cons last later ih =>
    cases run with
    | step run order op fresh => exact ih run

theorem mem_marks {mark : Mark} : mark ∈ past.map (Step.mark id) ↔ ∃ step ∈ past, step.mark id = mark := List.mem_map

/-- How the attempts of a task follow each other. -/
structure Paced (past : List Step) (id : TaskId) : Prop where
  numbered : ∃ n, Attempts.attempts (past.map (Step.mark id)) = List.range' 1 n
  /-- No attempt exceeds the number that the task was submitted with. -/
  bounded : ∀ later step earlier attempt now, past = later ++ step :: earlier → step.mark id = .sent attempt now →
    ∃ limit, (∃ first ∈ earlier, first.mark id = .accepted limit) ∧ attempt ≤ limit
  /-- Before an attempt is dispatched the one before it has ended. -/
  ended : ∀ later step earlier k now, past = later ++ step :: earlier → step.mark id = .sent (k + 1) now → k ≠ 0 →
    ∃ last ∈ earlier, ∃ t final, last.mark id = .ended k t final
  paused : ∀ later step earlier k now, past = later ++ step :: earlier → step.mark id = .sent (k + 1) now →
    ∀ last ∈ earlier, ∀ t final, last.mark id = .ended k t final →
      saturating_add t (min (100 * 2^(k - 1)) 30000) ≤ now
  permanent : ∀ later step earlier attempt now, past = later ++ step :: earlier → step.mark id = .sent attempt now →
    ∀ last ∈ earlier, ∀ k t, last.mark id ≠ .ended k t true
  /-- The task is over at once when its last attempt ends. -/
  exhausted : ∀ later step earlier k t final, past = later ++ step :: earlier → step.mark id = .ended k t final →
    (∃ first ∈ earlier, first.mark id = .accepted k) →
      ∃ task, (Outcome.state step.outcome).tasks.get id = some task ∧ task.state.is_terminal = true

theorem standing_closed {record : Option TaskRecord} (closed : standing drawn record = .closed) :
    ∃ task, record = some task ∧ task.state.is_terminal = true := by
  cases record with
  | none => cases drawn <;> cases closed
  | some task =>
    refine ⟨task,rfl,?_⟩
    rw [standing,TaskRecord.job] at closed
    cases state : task.state <;> simp_all [TaskState.is_terminal]

/-- What the run up to a step shows of a task. -/
theorem Run.job_at {later earlier : List Step} {step : Step} (run : Run blake3 epoch (later ++ step :: earlier) s)
    {mark : Mark} (marked : step.mark id = mark) : ∃ drawn, Attempts.Steps pause (mark :: earlier.map (Step.mark id))
      (standing drawn ((Outcome.state step.outcome).tasks.get id)) := by
  have steps := run.at.job id
  rw [List.map_cons,marked] at steps
  exact ⟨_,steps⟩

/-- In every run the attempts of every task are dispatched in order, within the budget, after the
    pause that follows the end of the one before, and none after a permanent failure. -/
theorem run_paced (run : Run blake3 epoch past s) (id : TaskId) : Paced past id where
  numbered := (run.job id).numbered
  bounded later step earlier attempt now split sent := by
    subst split
    obtain ⟨drawn,steps⟩ := run.job_at sent
    obtain ⟨limit,accepted,bounded⟩ := steps.bounded
    exact ⟨limit,mem_marks.mp accepted,bounded⟩
  ended later step earlier k now split sent some := by
    subst split
    obtain ⟨drawn,steps⟩ := run.job_at sent
    obtain ⟨t,final,ended⟩ := steps.paused.1 some
    obtain ⟨last,member,mark⟩ := mem_marks.mp ended
    exact ⟨last,member,t,final,mark⟩
  paused later step earlier k now split sent last member t final mark := by
    subst split
    obtain ⟨drawn,steps⟩ := run.job_at sent
    exact steps.paused.2 t final (mem_marks.mpr ⟨last,member,mark⟩)
  permanent later step earlier attempt now split sent last member k t mark := by
    subst split
    obtain ⟨drawn,steps⟩ := run.job_at sent
    exact steps.final k t (mem_marks.mpr ⟨last,member,mark⟩)
  exhausted later step earlier k t final split ended accepted := by
    subst split
    obtain ⟨drawn,steps⟩ := run.job_at ended
    exact standing_closed (steps.exhausted (mem_marks.mpr accepted))

/-- The first attempt fails and may be made again; the second one is dispatched when the pause
    has passed, and is the last. -/
def retriedOps : List Op :=
  [.fail smallWorker ⟨smallTask,2,⟨.replicate 16 8⟩⟩ "overflow" .Transient 130,
    .assign_next smallWorker.node_id 120 ⟨.replicate 16 8⟩,
    .assign_next smallWorker.node_id 119 ⟨.replicate 16 7⟩,
    .fail smallWorker ⟨smallTask,1,smallLease⟩ "overflow" .Transient 20] ++ smallOps

def retriedPast : List Step := (replay smallHash smallEpoch retriedOps).1

theorem retried_run : Run smallHash smallEpoch retriedPast (replay smallHash smallEpoch retriedOps).2 :=
  replay_run smallHash smallEpoch retriedOps (by decide +kernel)

theorem retried_paced : retriedPast.map (Step.mark smallTask) = [.ended 2 130 false,.sent 2 120,.quiet,
    .ended 1 20 false,.sent 1 10,.accepted 2,.quiet] ∧ Paced retriedPast smallTask :=
  ⟨by decide +kernel,run_paced retried_run smallTask⟩

end
end CoordinatorState
end Crayon
