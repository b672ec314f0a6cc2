import Crayon.Records

/-!
What is settled stays settled. An object that is available keeps its content for
as long as it has a record, and at most gets lost; an object that is lost, failed
or cancelled does not change at all, and neither do the state, the attempt and
the output of a task that is over. The law relates any two states of a run
between which the record was always there: an object may be released and its
content put again, under the same id and with another codec.
-/
namespace Crayon

/-- What a record of an object may have become later. -/
structure ObjectRecord.Becomes (object object' : ObjectRecord) : Prop where
  available : object.state = .Available → object'.codec = object.codec ∧ object'.size_bytes = object.size_bytes ∧
    object'.checksum = object.checksum ∧ object'.bytes = object.bytes ∧
      (object'.state = .Available ∨ object'.state = .Lost)
  final : object.state = .Lost ∨ object.state = .Failed ∨ object.state = .Cancelled → object' = object

/-- What a record of a task may have become later. -/
def TaskRecord.Becomes (task task' : TaskRecord) : Prop :=
  task.state.is_terminal = true → task'.state = task.state ∧ task'.attempt = task.attempt ∧ task'.output = task.output

theorem ObjectRecord.Becomes.refl (object : ObjectRecord) : object.Becomes object where
  available available := ⟨rfl,rfl,rfl,rfl,.inl available⟩
  final _ := rfl

theorem ObjectRecord.Becomes.trans {a b c : ObjectRecord} (first : a.Becomes b) (second : b.Becomes c) : a.Becomes c where
  available available := by
    obtain ⟨codec,size,digest,bytes,state⟩ := first.available available
    rcases state with still | lost
    · obtain ⟨codec',size',digest',bytes',state'⟩ := second.available still
      exact ⟨codec'.trans codec,size'.trans size,digest'.trans digest,bytes'.trans bytes,state'⟩
    · obtain rfl := second.final (.inl lost)
      exact ⟨codec,size,digest,bytes,.inr lost⟩
  final final := by
    obtain rfl := first.final final
    exact second.final final

theorem TaskRecord.Becomes.refl (task : TaskRecord) : task.Becomes task := fun _ => ⟨rfl,rfl,rfl⟩

theorem TaskRecord.Becomes.trans {a b c : TaskRecord} (first : a.Becomes b) (second : b.Becomes c) : a.Becomes c := by
  intro ended
  obtain ⟨state,attempt,output⟩ := first ended
  obtain ⟨state',attempt',output'⟩ := second (state ▸ ended)
  exact ⟨state'.trans state,attempt'.trans attempt,output'.trans output⟩

namespace CoordinatorState

/-! ### One move -/

section
variable {op : Op} {s s' : CoordinatorState} {id : ObjectId}

theorem ObjectStep.becomes {object object' : ObjectRecord}
    (step : ObjectStep op s id (some object) (some object')) : object.Becomes object' := by
  cases step with
  | kept => exact .refl object
  | delivered reserved asked at_worker location small => constructor <;> simp [reserved]
  | ended reserved final => constructor <;> simp [reserved]
  | orphaned node =>
    rcases orphan_cases node object with ⟨same,_⟩ | ⟨_,available,⟨_,same⟩ | ⟨_,same⟩⟩
    · rw [same]
      exact .refl object
    · rw [same]
      exact ⟨fun _ => ⟨rfl,rfl,rfl,rfl,.inl available⟩,by simp [available]⟩
    · rw [same]
      exact ⟨fun _ => ⟨rfl,rfl,rfl,rfl,.inr rfl⟩,by simp [available]⟩

/-- A record that is gone comes back only when it is put, or when its id is drawn. -/
theorem ObjectStep.gone {after : Option ObjectRecord} (step : ObjectStep op s id none after)
    (unstored : ∀ codec size_bytes checksum bytes, op ≠ .storing id codec size_bytes checksum bytes)
    (undrawn : .object id ∉ op.minted) : after = none := by
  cases step with
  | kept => rfl
  | stored source => exact absurd source (unstored _ _ _ _)
  | reserved codec drawn => exact absurd drawn undrawn

theorem TaskStep.becomes {id : TaskId} {task task' : TaskRecord} (step : TaskStep op id (some task) (some task')) :
    task.Becomes task' := by
  cases step with
  | kept => exact .refl task
  | advanced live => exact fun ended => absurd ended (by rw [live]; exact Bool.false_ne_true)
  | stamped ended now => exact fun _ => ⟨rfl,rfl,rfl⟩

theorem TaskStep.gone {id : TaskId} {after : Option TaskRecord} (step : TaskStep op id none after)
    (undrawn : .task id ∉ op.minted) : after = none := by
  cases step with
  | kept => rfl
  | submitted submitted => exact absurd submitted.minted undrawn

/-! ### One operation -/

/-- What relates a record before and after every move relates it before and after an operation
    that does not bring the record back once it is gone. -/
theorem Moves.persist {α : Type} (look : CoordinatorState → Option α) {R : α → α → Prop} (refl : ∀ a, R a a)
    (trans : ∀ {a b c}, R a b → R b c → R a c)
    (step : ∀ {t t'}, Consistent t → Move op t t' → ∀ {a a'}, look t = some a → look t' = some a' → R a a')
    (gone : ∀ {t t'}, Consistent t → Move op t t' → look t = none → look t' = none)
    (inv : Consistent s) (moves : Moves op s s') {a a' : α} (found : look s = some a) (found' : look s' = some a') :
    R a a' := by
  refine (moves.keeps (P := fun t => Consistent t ∧ ∀ b, look t = some b → R a b) (fun t t' move now => ?_)
    ⟨inv,fun b there => ?_⟩).2 a' found'
  · refine ⟨move.consistent now.1,fun b there => ?_⟩
    cases before : look t with
    | none =>
      rw [gone now.1 move before] at there
      cases there
    | some c => exact trans (now.2 c before) (step now.1 move before there)
  · rw [found] at there
    cases there
    exact refl a

theorem Admitted.becomes {id id' : ObjectId} {codec : Codec} {size_bytes : UInt64} {checksum : Checksum}
    {bytes : Option (List UInt8)} {object object' : ObjectRecord} (admitted : Admitted s id' codec size_bytes checksum bytes s')
    (found : s.objects.get id = some object) (found' : s'.objects.get id = some object') : object.Becomes object' := by
  have kept : s'.objects.get id = some object := by
    cases admitted with
    | known => exact found
    | stored absent =>
      rw [Table.get_insert,if_neg,found]
      rintro rfl
      rw [absent] at found
      cases found
  rw [kept] at found'
  cases found'
  exact .refl object

theorem Op.NewTo.object_undrawn (newTo : op.NewTo s) {object : ObjectRecord}
    (found : s.objects.get id = some object) : .object id ∉ op.minted := by
  intro drawn
  cases op with
  | submit =>
    obtain rfl : id = _ := by simpa [Op.minted] using drawn
    rw [newTo.2.2] at found
    cases found
  | _ => simp [Op.minted] at drawn

theorem Op.NewTo.task_undrawn (newTo : op.NewTo s) {id : TaskId} {task : TaskRecord} (found : s.tasks.get id = some task) :
    .task id ∉ op.minted := by
  intro drawn
  cases op with
  | submit =>
    obtain rfl : id = _ := by simpa [Op.minted] using drawn
    rw [newTo.1] at found
    cases found
  | _ => simp [Op.minted] at drawn

variable (blake3 : List UInt8 → Checksum) (order : HashOrder)

theorem apply_object (inv : Inv s) (newTo : op.NewTo s) {object : ObjectRecord}
    (found : s.objects.get id = some object) : ∀ object',
      (Outcome.state (apply blake3 order op s)).objects.get id = some object' → object.Becomes object' := by
  refine apply_keeps blake3 order inv (P := fun t => ∀ object', t.objects.get id = some object' → object.Becomes object')
    (fun object' there => ?_) fun reply s' effect object' found' => ?_
  · rw [found] at there
    cases there
    exact .refl object
  have moved : (∀ codec size_bytes checksum bytes, op ≠ .storing id codec size_bytes checksum bytes) →
      object.Becomes object' := by
    intro unstored
    refine Moves.persist (fun t => t.objects.get id) ObjectRecord.Becomes.refl (fun first second => first.trans second)
      (fun inv move a a' there there' => ?_) (fun inv move absent => ?_) inv.consistent (effect.moves newTo) found found'
    · have step := move.object inv id
      rw [there,there'] at step
      exact step.becomes
    · have step := move.object inv id
      rw [absent] at step
      exact step.gone unstored (newTo.object_undrawn found)
  cases effect with
  | put admitted => exact admitted.becomes found found'
  | put_meta admitted => exact admitted.becomes found found'
  | _ => exact moved fun codec size_bytes checksum bytes => by cases bytes <;> nofun

theorem apply_task (inv : Inv s) (newTo : op.NewTo s) {id : TaskId} {task task' : TaskRecord}
    (found : s.tasks.get id = some task) (found' : (Outcome.state (apply blake3 order op s)).tasks.get id = some task') :
    task.Becomes task' := by
  refine Moves.persist (fun t => t.tasks.get id) TaskRecord.Becomes.refl (fun first second => first.trans second)
    (fun inv move a a' there there' => ?_) (fun inv move absent => ?_) inv.consistent
    (apply_moves blake3 order inv newTo) found found'
  · have step := move.task inv id
    rw [there,there'] at step
    exact step.becomes
  · have step := move.task inv id
    rw [absent] at step
    exact step.gone (newTo.task_undrawn found)

end

/-! ### Runs -/

section
variable {blake3 : List UInt8 → Checksum} {epoch : CoordinatorEpoch} {past later : List Step} {s s' : CoordinatorState}

/-- What relates a record before and after every operation relates any two states of a run
    between which the record is always there. -/
theorem Run.persist {α : Type} (look : CoordinatorState → Option α) {R : α → α → Prop} (refl : ∀ a, R a a)
    (trans : ∀ {a b c}, R a b → R b c → R a c)
    (step : ∀ {t op} order, Inv t → op.NewTo t → ∀ {a a'}, look t = some a →
      look (Outcome.state (apply blake3 order op t)) = some a' → R a a')
    (earlier : Run blake3 epoch past s) (run : Run blake3 epoch (later ++ past) s')
    (there : ∀ step ∈ later, (look step.before).isSome = true) {a a' : α} (found : look s = some a)
    (found' : look s' = some a') : R a a' := by
  induction later generalizing s' a' with
  | nil =>
    obtain rfl := earlier.unique run
    rw [found] at found'
    cases found'
    exact refl a
  | cons last later ih =>
    obtain ⟨now,before⟩ := List.forall_mem_cons.mp there
    cases run with
    | step run order op fresh =>
      obtain ⟨b,between⟩ := Option.isSome_iff_exists.mp now
      exact trans (ih run before between) (step order run.inv (run.newTo fresh) between found')

theorem Run.addressed (run : Run blake3 epoch past s) : Addressed s := by
  induction run with
  | start => exact fun node worker found => by cases found
  | step run order op fresh ih => exact apply_addressed blake3 order run.inv (run.newTo fresh) ih

/-- Only what is available has bytes at the coordinator. -/
theorem Run.inline_available (run : Run blake3 epoch past s) :
    ∀ id object bytes, s.objects.get id = some object → object.bytes = some bytes → object.state = .Available := by
  induction run with
  | start => exact fun id object bytes found => by cases found
  | step run order op fresh ih =>
    refine ((apply_moves blake3 order run.inv (run.newTo fresh)).keeps (P := fun t => Consistent t ∧ ∀ id object bytes,
      t.objects.get id = some object → object.bytes = some bytes → object.state = .Available)
      (fun t t' move now => ⟨move.consistent now.1,fun id object bytes found inline => ?_⟩) ⟨run.inv.consistent,ih⟩).2
    have step := move.object now.1 id
    rw [found] at step
    cases there : t.objects.get id with
    | none =>
      rw [there] at step
      cases step with
      | stored source => rfl
      | reserved codec drawn => cases inline
    | some old =>
      have held := now.2 id old bytes there
      rw [there] at step
      cases step with
      | kept => exact held inline
      | delivered => rfl
      | ended reserved final => exact absurd (held inline) (by rw [reserved]; exact ObjectState.noConfusion)
      | orphaned node =>
        rcases orphan_cases node old with ⟨same,_⟩ | ⟨_,available,⟨_,same⟩ | ⟨none,same⟩⟩
        · rw [same] at inline ⊢
          exact held inline
        · rw [same]
          exact available
        · rw [same] at inline
          have inline : old.bytes = some bytes := inline
          rw [none] at inline
          cases inline

/-- The bytes at the coordinator have the size and the digest that their record tells. -/
theorem Run.inline_sealed (run : Run blake3 epoch past s) :
    ∀ id object bytes, s.objects.get id = some object → object.bytes = some bytes →
      object.size_bytes = some (.ofNat bytes.length) ∧ object.checksum = some (blake3 bytes) := by
  suffices available : ∀ id object, s.objects.get id = some object → object.state = .Available → ∀ bytes,
      object.bytes = some bytes →
        object.size_bytes = some (.ofNat bytes.length) ∧ object.checksum = some (blake3 bytes) from
    fun id object bytes found inline => available id object found (run.inline_available id object bytes found inline) bytes inline
  induction run with
  | start => exact fun id object found => by cases found
  | step run order op fresh ih =>
    refine apply_available blake3 order run.inv (run.newTo fresh) run.addressed ih ?_ ?_ ?_ ?_
    · intro codec bytes _ bytes' inline
      cases inline
      exact ⟨rfl,rfl⟩
    · exact fun id codec size_bytes checksum _ bytes inline => by cases inline
    · intro id object identity report _ verified _ _ bytes inline
      have inline : report.bytes = some bytes := inline
      rw [Verified,inline] at verified
      obtain ⟨size,digest⟩ : UInt64.ofNat bytes.length = report.size_bytes ∧ blake3 bytes = report.checksum := by
        simpa using verified
      exact ⟨congrArg some size.symm,congrArg some digest.symm⟩
    · exact fun id object bytes _ kept => kept

/-- Of any two states of a run between which a record is always there: the content of an
    available object is the same, and it is available or lost; an object that is lost, failed
    or cancelled is the same; and the state, the attempt and the output of a task that is over
    are the same. The bytes at the coordinator have the size and the digest of their record. -/
theorem run_write_once (earlier : Run blake3 epoch past s) (run : Run blake3 epoch (later ++ past) s') :
    (∀ id object object', s.objects.get id = some object → s'.objects.get id = some object' →
      (∀ step ∈ later, (step.before.objects.get id).isSome = true) →
        (object.state = .Available → object'.codec = object.codec ∧ object'.size_bytes = object.size_bytes ∧
          object'.checksum = object.checksum ∧ object'.bytes = object.bytes ∧
            (object'.state = .Available ∨ object'.state = .Lost)) ∧
        (object.state = .Lost ∨ object.state = .Failed ∨ object.state = .Cancelled → object' = object)) ∧
    (∀ id object bytes, s.objects.get id = some object → object.bytes = some bytes →
      object.size_bytes = some (.ofNat bytes.length) ∧ object.checksum = some (blake3 bytes)) ∧
    ∀ id task task', s.tasks.get id = some task → s'.tasks.get id = some task' →
      (∀ step ∈ later, (step.before.tasks.get id).isSome = true) → task.state.is_terminal = true →
        task'.state = task.state ∧ task'.attempt = task.attempt ∧ task'.output = task.output := by
  refine ⟨?_,earlier.inline_sealed,?_⟩
  · intro id object object' found found' there
    have becomes : object.Becomes object' :=
      Run.persist (fun t => t.objects.get id) ObjectRecord.Becomes.refl (fun first second => first.trans second)
        (fun order inv newTo _ _ before after => apply_object blake3 order inv newTo before _ after) earlier run there found found'
    exact ⟨becomes.available,becomes.final⟩
  · intro id task task' found found' there
    exact Run.persist (fun t => t.tasks.get id) TaskRecord.Becomes.refl (fun first second => first.trans second)
      (fun order inv newTo _ _ before after => apply_task blake3 order inv newTo before after) earlier run there found found'

end

/-! ### An output that is lost -/

/-- The worker keeps its output of three bytes to itself. -/
def keptReport : TaskCompletion :=
  ⟨⟨smallTask,1,smallLease⟩,smallOutput,.JsonV1,3,.replicate 32 9,"host:1",none⟩

def keptOps : List Op := .complete smallWorker keptReport :: smallOps

def keptState : CoordinatorState := (replay smallHash smallEpoch keptOps).2

theorem kept_output_run : Run smallHash smallEpoch (replay smallHash smallEpoch keptOps).1 keptState :=
  replay_run smallHash smallEpoch keptOps (by decide +kernel)

/-- The lease of the worker runs out. -/
def lostState : CoordinatorState := Outcome.state (apply smallHash .by_id (.expire_workers 6000) keptState)

theorem lost_run : Run smallHash smallEpoch ([⟨.by_id,.expire_workers 6000,keptState,
    apply smallHash .by_id (.expire_workers 6000) keptState⟩] ++ (replay smallHash smallEpoch keptOps).1) lostState :=
  .step kept_output_run .by_id (.expire_workers 6000) (by decide +kernel)

/-- The output is lost with its worker, and the record still tells what it was. -/
theorem lost_keeps_content : (keptState.objects.get smallOutput).map (·.state) = some .Available ∧
    (lostState.objects.get smallOutput).map (·.state) = some .Lost ∧
    (lostState.objects.get smallOutput).map (fun object => (object.codec,object.size_bytes,object.checksum)) =
      (keptState.objects.get smallOutput).map fun object => (object.codec,object.size_bytes,object.checksum) := by
  have before : (keptState.objects.get smallOutput).map (·.state) = some .Available := by decide +kernel
  have after : (lostState.objects.get smallOutput).map (·.state) = some .Lost := by decide +kernel
  obtain ⟨object,found,available⟩ := Option.map_eq_some_iff.mp before
  obtain ⟨object',found',_⟩ := Option.map_eq_some_iff.mp after
  obtain ⟨codec,size,digest,_⟩ := ((run_write_once kept_output_run lost_run).1 smallOutput object object' found found'
    (by simp [found])).1 available
  refine ⟨before,after,?_⟩
  rw [found,found',Option.map_some,Option.map_some,codec,size,digest]

end CoordinatorState
end Crayon
