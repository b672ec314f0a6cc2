import Crayon.Sharing

/-!
What a client put stays as it was put. No operation changes the record of an
object that is neither the output of a task nor served by a worker, except to
release it (`Deed.deposited`), and no operation of the arena writes to what is
committed there. So an object keeps its codec and its bytes along every run of
the server in which no request is about it, no reserved size wraps around, and
clients that write into the mapping stay inside the slots of other objects
(`Run.kept`).
-/
namespace Crayon

namespace CoordinatorState
open Command
variable {s s' : CoordinatorState} {id : ObjectId} {object : ObjectRecord} {op : Op}

/-! ### Records -/

/-- There is a record of the object, no worker serves it, and no task is to deliver it. -/
structure Deposited (s : CoordinatorState) (id : ObjectId) (object : ObjectRecord) : Prop where
  found : s.objects.get id = some object
  unowned : object.owner = none
  outputs : ∀ k task, s.tasks.get k = some task → task.output ≠ id

theorem Deposited.same (deposited : Deposited s id object) (objects : s'.objects = s.objects) (tasks : s'.tasks = s.tasks) :
    Deposited s' id object := ⟨objects ▸ deposited.found,deposited.unowned,tasks ▸ deposited.outputs⟩

/-- Nothing that happens to another task matters. -/
theorem Deposited.task (deposited : Deposited s id object) {k : TaskId} {task : TaskRecord} {f : TaskRecord → TaskRecord}
    (found : s.tasks.get k = some task) (objects : s'.objects = s.objects) (tasks : s'.tasks = s.tasks.modify k f)
    (output : ∀ task, (f task).output = task.output) : Deposited s' id object := by
  refine ⟨objects ▸ deposited.found,deposited.unowned,fun k' task' there => ?_⟩
  rw [tasks,Table.get_modify_of found] at there
  split at there
  · obtain rfl := Option.some.inj there
    rw [output]
    exact deposited.outputs k task found
  · exact deposited.outputs k' task' there

/-- Nothing that happens to another task and to its output matters. -/
theorem Deposited.ended (deposited : Deposited s id object) {k : TaskId} {task : TaskRecord} {f : TaskRecord → TaskRecord}
    {g : ObjectRecord → ObjectRecord} (found : s.tasks.get k = some task) (objects : s'.objects = s.objects.modify task.output g)
    (tasks : s'.tasks = s.tasks.modify k f) (output : ∀ task, (f task).output = task.output) : Deposited s' id object := by
  have same : Deposited { s' with objects := s.objects } id object := deposited.task found rfl tasks output
  refine ⟨?_,same.unowned,same.outputs⟩
  rw [objects,Table.get_modify,if_neg (Ne.symm (deposited.outputs k task found))]
  exact deposited.found

theorem Ripples.deposited (ripples : Ripples s s') (deposited : Deposited s id object) : Deposited s' id object := by
  induction ripples with
  | refl => exact deposited
  | tail _ ripple ih =>
    cases ripple with
    | starve found state failed => exact ih.ended found rfl rfl fun _ => rfl
    | wake found state available => exact ih.task found rfl rfl fun _ => rfl

theorem Swept.deposited {now : Nat} (swept : Swept now s s') (deposited : Deposited s id object) : Deposited s' id object := by
  induction swept with
  | refl => exact deposited
  | tail _ sweep ih =>
    cases sweep with
    | mark found due => exact ih.same rfl rfl
    | cancelled found state assigned at_worker dead => exact ih.ended found rfl rfl fun _ => rfl
    | retried found state assigned at_worker dead budget => exact ih.task found rfl rfl fun _ => rfl
    | failed found state assigned at_worker dead exhausted => exact ih.ended found rfl rfl fun _ => rfl
    | @evict node worker found dead idle =>
      refine ⟨?_,ih.unowned,ih.outputs⟩
      have unowned : owned_by node object = false := by simp [owned_by,ih.unowned]
      rw [Table.get_mapValues,ih.found,Option.map_some,orphan,unowned]
      rfl

theorem Released.deposited {other : ObjectId} (released : Released s other s') (different : other ≠ id)
    (deposited : Deposited s id object) : Deposited s' id object := by
  cases released with
  | before absent => exact deposited
  | drop found settled unused =>
    refine ⟨?_,deposited.unowned,fun k task there => ?_⟩
    · rw [dropped,Table.get_remove,if_neg (Ne.symm different)]
      exact deposited.found
    · rw [dropped,Table.get_retain] at there
      exact deposited.outputs k task (Option.filter_eq_some_iff.mp there).1

theorem Admitted.deposited {other : ObjectId} {codec : Codec} {size_bytes : UInt64} {checksum : Checksum}
    {bytes : Option (List UInt8)} (admitted : Admitted s other codec size_bytes checksum bytes s')
    (deposited : Deposited s id object) : Deposited s' id object := by
  cases admitted with
  | known => exact deposited
  | stored absent =>
    have different : id ≠ other := by
      rintro rfl
      cases absent.symm.trans deposited.found
    refine ⟨?_,deposited.unowned,deposited.outputs⟩
    rw [Table.get_insert,if_neg different]
    exact deposited.found

/-- The sweep over terminal tasks releases outputs only. -/
theorem reap_deposited (order : HashOrder) (now : Nat) (deposited : Deposited s id object) :
    Deposited (Outcome.state (reap_terminal_tasks order now s)) id object := by
  have stamped : Deposited { s with tasks := s.tasks.mapValues (stamp now) } id object := by
    refine ⟨deposited.found,deposited.unowned,fun k task there => ?_⟩
    obtain ⟨task,found,rfl⟩ := Option.map_eq_some_iff.mp there
    have output : (stamp now task).output = task.output := by
      unfold stamp
      split <;> rfl
    rw [output]
    exact deposited.outputs k task found
  have release : ∀ (output : ObjectId) (rest : List ObjectId) (reclaimed : Nat) (t : CoordinatorState),
      (∀ other ∈ output :: rest, other ≠ id) ∧ Deposited t id object → ∃ reclaimed' t',
        (do let released ← is_ok (release_object output)
            pure (if released then reclaimed + 1 else reclaimed) : Coord Nat) t = .ok reclaimed' t' ∧
          (∀ other ∈ rest, other ≠ id) ∧ Deposited t' id object := by
    rintro output rest reclaimed t ⟨others,kept⟩
    obtain ⟨different,others⟩ := List.forall_mem_cons.mp others
    rcases release_object_cases (s := t) output with ⟨_,t',ran,released⟩ | ⟨_,e,refused⟩
    · exact ⟨reclaimed + 1,t',by simp only [bind_apply,is_ok,ran,pure_apply,if_true],others,released.deposited different kept⟩
    · exact ⟨reclaimed,t,by simp only [bind_apply,is_ok,refused,pure_apply,Bool.false_eq_true,if_false],others,kept⟩
  simp only [reap_terminal_tasks,bind_apply,get_apply,set_apply]
  generalize listed : List.map _ _ = outputs
  have others : ∀ output ∈ outputs, output ≠ id := by
    rw [← listed]
    intro output member
    obtain ⟨task,due,rfl⟩ := List.mem_map.mp member
    obtain ⟨k,found⟩ := Table.mem_values.mp (List.mem_filter.mp due).1
    exact stamped.outputs k task found
  obtain ⟨count,s',ran,_,kept⟩ := foldlM_ends _ (fun outputs _ t => (∀ output ∈ outputs, output ≠ id) ∧ Deposited t id object)
    release outputs 0 _ ⟨others,stamped⟩
  rw [ran]
  exact kept

variable {blake3 : List UInt8 → Checksum} {reply : Reply}

theorem Effect.deposited (effect : Effect blake3 op s reply s') (newTo : op.NewTo s) (calm : op.Calm)
    (untimed : ∀ now, op ≠ .reap_terminal_tasks now) (deposited : Deposited s id object) : Deposited s' id object := by
  cases effect with
  | put admitted => exact admitted.deposited deposited
  | put_meta admitted => exact admitted.deposited deposited
  | @submitted s operation args resources max_attempts k output descriptor blocked attempts offered valid capable admitted =>
    have different : id ≠ output := by
      rintro rfl
      cases newTo.2.2.symm.trans deposited.found
    refine ⟨?_,deposited.unowned,fun k' task there => ?_⟩
    · rw [Table.get_insert,if_neg different]
      exact deposited.found
    · rw [Table.get_insert] at there
      split at there
      · obtain rfl := Option.some.inj there
        exact Ne.symm different
      · exact deposited.outputs k' task there
  | assigned requeued found => exact deposited.task found rfl rfl fun _ => rfl
  | started current matching found => exact deposited.task found rfl rfl fun _ => rfl
  | requested found => exact deposited.task found rfl rfl fun _ => rfl
  | retried current matching found => exact deposited.task found rfl rfl fun _ => rfl
  | completed current matching found state at_worker living offered verified output accepted freed ripples =>
    exact (ripples.deposited (deposited.ended found rfl rfl fun _ => rfl)).same rfl rfl
  | failed current matching found state final freed ripples =>
    exact (ripples.deposited (deposited.ended found rfl rfl fun _ => rfl)).same rfl rfl
  | acknowledged current matching found state freed ripples =>
    exact (ripples.deposited (deposited.ended found rfl rfl fun _ => rfl)).same rfl rfl
  | cancelled found state ripples =>
    exact (ripples.deposited (deposited.ended found rfl rfl fun _ => rfl)).same rfl rfl
  | expired report swept workers ripples => exact (ripples.deposited (swept.deposited deposited)).same rfl rfl
  | @reaped s t now => exact absurd rfl (untimed now)
  | released => exact calm.elim
  | _ => exact deposited.same rfl rfl

theorem Deed.deposited (deed : Deed blake3 s s') (inv : Inv s) (deposited : Deposited s id object) :
    Deposited s' id object := by
  cases deed with
  | deletes pending_deletes => exact deposited.same rfl rfl
  | op order op newTo modest calm =>
    by_cases timed : ∃ now, op = .reap_terminal_tasks now
    · obtain ⟨now,rfl⟩ := timed
      rw [apply,state_bind fun _ _ => rfl]
      exact reap_deposited order now deposited
    · push Not at timed
      exact apply_keeps blake3 order inv deposited fun _ _ effect => effect.deposited newTo calm timed deposited

end CoordinatorState

/-! ### Entries -/

namespace ArenaStore
open Arena Command
variable {s : ArenaStore} {id : ObjectId} {e : Entry} {bytes : Buffer}

/-- What is committed of an object was so before, unless the operation commits it. -/
theorem apply_committed (order : Traversal ObjectId) (op : Op) (s : ArenaStore) (aside : op.commits ≠ some id)
    (found : (Outcome.state (apply order op s)).alloc.live.get id = some e) (committed : e.committed = true) :
    s.alloc.live.get id = some e := by
  cases (apply_ends order op s).moves.origin found with
  | kept before => exact before
  | grown _ _ _ commits | reserved _ _ commits => exact absurd (commits committed) aside

/-- What the arena has committed of the object, if anything, is these bytes. -/
def Filled (s : ArenaStore) (id : ObjectId) (bytes : Buffer) : Prop :=
  ∀ e, s.alloc.live.get id = some e → e.committed = true → e.size = bytes.len ∧ s.map.slice e.content = bytes.bytes

theorem apply_filled (order : Traversal ObjectId) (op : Op) (sound : s.alloc.Sound) (settled : s.alloc.Settled)
    (fits : op.Fits) (kept : op.drops ≠ some id) (aside : op.commits ≠ some id) (filled : s.Filled id bytes) :
    (Outcome.state (apply order op s)).Filled id bytes := by
  intro e found committed
  have before := apply_committed order op s aside found committed
  obtain ⟨size,content⟩ := filled e before committed
  have stays := (Reaches.tail .refl order op).committed_stays sound settled (by simpa using fits) before committed
    (by simpa using kept)
  exact ⟨size,stays.2.trans content⟩

end ArenaStore

/-! ### Requests -/

/-- The object that a request stores, fills or drops. -/
def ClientRequest.subject (blake3 : List UInt8 → Checksum) : ClientRequest → Option ObjectId
  | .Put _ bytes => some (.from_checksum (blake3 bytes.bytes))
  | .ArenaReserve id _ _ _ _ | .ArenaCommit id _ | .PutChunk id _ _ _ | .Release id => some id
  | _ => none

/-- A size that the request reserves can be rounded up without wrapping around. -/
def ClientRequest.Sized : ClientRequest → Prop
  | .ArenaReserve _ _ size_bytes _ _ => size_bytes.toNat ≤ 2^64 - 8
  | _ => True

section
variable {blake3 : List UInt8 → Checksum} {request : ClientRequest} {op : ArenaStore.Op}

theorem ClientRequest.Stores.fits (stores : request.Stores blake3 op) (sized : request.Sized) : op.Fits := by
  cases request with
  | Put codec bytes =>
    obtain ⟨_,_,_,rfl⟩ := stores
    rintro size ⟨⟩
    have short := bytes.len_lt
    rw [ArenaStore.Buffer.len_toNat]
    omega
  | ArenaReserve =>
    obtain ⟨_,_,_,rfl⟩ := stores
    rintro size ⟨⟩
    exact sized
  | PutChunk => obtain ⟨_,rfl⟩ := stores; rintro size ⟨⟩
  | GetLocal | GetChunk => obtain rfl := stores; rintro size ⟨⟩
  | _ => cases stores

theorem ClientRequest.Stores.commits (stores : request.Stores blake3 op) {id : ObjectId} (commits : op.commits = some id) :
    request.subject blake3 = some id := by
  cases request with
  | Put codec bytes =>
    obtain ⟨_,_,_,rfl⟩ := stores
    exact commits
  | ArenaReserve => obtain ⟨_,_,_,rfl⟩ := stores; cases commits
  | PutChunk => obtain ⟨_,rfl⟩ := stores; cases commits
  | GetLocal | GetChunk => obtain rfl := stores; cases commits
  | _ => cases stores

end

namespace CoordinatorServer
open CoordinatorState Command
variable {blake3 : List UInt8 → Checksum} {s s' : CoordinatorServer} {id : ObjectId} {codec : Codec} {bytes : Buffer}
  {Q : ArenaStore.Op → Prop}

/-- What holds of the server between requests whose sizes do not wrap around. -/
structure Well (blake3 : List UInt8 → Checksum) (s : CoordinatorServer) : Prop where
  steady : Steady blake3 s
  sound : s.arena.alloc.Sound

/-- Whoever asks the server for the object is led to these bytes, in this codec: there is a record that a client made,
    which has the bytes itself or else is of a committed entry, and what is committed in the arena is these bytes. -/
structure Kept (blake3 : List UInt8 → Checksum) (s : CoordinatorServer) (id : ObjectId) (codec : Codec) (bytes : Buffer) :
    Prop where
  record : ∃ checksum inline, Deposited s.state id (put_record id codec bytes.len checksum inline) ∧
    (checksum = .replicate 32 0 ∨ checksum = blake3 bytes.bytes) ∧
    (inline = some bytes.bytes ∨ inline = none ∧ ∃ e, s.arena.alloc.live.get id = some e ∧ e.committed = true)
  filled : s.arena.Filled id bytes

/-- What a change of the state leaves of an object. -/
theorem Kept.state (kept : Kept blake3 s id codec bytes) {state : CoordinatorState}
    (stays : ∀ object, Deposited s.state id object → Deposited state id object) :
    Kept blake3 { s with state } id codec bytes := by
  obtain ⟨checksum,inline,deposited,rest⟩ := kept.record
  exact ⟨⟨checksum,inline,stays _ deposited,rest⟩,kept.filled⟩

/-- What an operation of the arena leaves of an object. -/
theorem Kept.arena (kept : Kept blake3 s id codec bytes) (well : Well blake3 s) (order : Traversal ObjectId)
    (op : ArenaStore.Op) (fits : op.Fits) (keeps : op.drops ≠ some id) (aside : op.commits ≠ some id) :
    Kept blake3 { s with arena := Outcome.state (ArenaStore.apply order op s.arena) } id codec bytes := by
  obtain ⟨checksum,inline,deposited,digest,place⟩ := kept.record
  refine ⟨⟨checksum,inline,deposited,digest,?_⟩,
    ArenaStore.apply_filled order op well.sound well.steady.settled fits keeps aside kept.filled⟩
  refine place.imp_right fun ⟨bare,e,found,committed⟩ => ⟨bare,e,?_,committed⟩
  exact (ArenaStore.apply_ends order op s.arena).moves.entry_stays well.steady.settled found committed keeps

theorem Well.arena (well : Well blake3 s) (order : Traversal ObjectId) (op : ArenaStore.Op) (fits : op.Fits) :
    Well blake3 { s with arena := Outcome.state (ArenaStore.apply order op s.arena) } := by
  have moves := (ArenaStore.apply_ends order op s.arena).moves
  exact ⟨⟨well.steady.state,moves.settled well.steady.settled⟩,moves.keeps (fun move sound => move.sound fits sound) well.sound⟩

theorem Works.well (works : Works blake3 Q s s') (fits : ∀ op, Q op → op.Fits) (well : Well blake3 s) : Well blake3 s' := by
  induction works with
  | refl => exact well
  | tail _ work ih =>
    cases work with
    | state deed => exact ⟨⟨deed.act.steady ih.steady.state,ih.steady.settled⟩,ih.sound⟩
    | arena order op asked => exact ih.arena order op (fits op asked)

theorem Works.kept (works : Works blake3 Q s s') (fits : ∀ op, Q op → op.Fits) (keeps : ∀ op, Q op → op.drops = none)
    (aside : ∀ op, Q op → op.commits ≠ some id) (well : Well blake3 s) (kept : Kept blake3 s id codec bytes) :
    Kept blake3 s' id codec bytes := by
  induction works with
  | refl => exact kept
  | tail before work ih =>
    have well := Works.well before fits well
    cases work with
    | state deed => exact ih.state fun _ deposited => deed.deposited well.steady.state.inv deposited
    | arena order op asked => exact ih.arena well order op (fits op asked) (by rw [keeps op asked]; nofun) (aside op asked)

theorem new_well (epoch : CoordinatorEpoch) (token : String) (lease_ms : Nat) (require_loopback : Bool) :
    Well blake3 (new epoch token lease_ms require_loopback) :=
  ⟨System.start_steady epoch token lease_ms require_loopback,ArenaStore.new_sound token⟩

end CoordinatorServer

/-! ### Runs -/

/-- No request that is under way concerns the object, as far as it could change it. -/
def Action.Aside (blake3 : List UInt8 → Checksum) (id : ObjectId) : Action → Prop
  | .client _ request => request.subject blake3 ≠ some id
  | .commit other _ => other ≠ id
  | .publish c => c.id ≠ id
  | _ => True

/-- No size that the action reserves wraps around when it is rounded up. -/
def Action.Sized : Action → Prop
  | .client _ request => request.Sized
  | _ => True

/-- A client that writes into the mapping writes inside the slot of another object. -/
def Action.Contained (id : ObjectId) (sys : System) : Action → Prop
  | .write offset bytes => ∃ other e, other ≠ id ∧ sys.server.arena.alloc.live.get other = some e ∧
      Span.Within ⟨offset,bytes.length⟩ e.span
  | _ => True

namespace System
open CoordinatorServer Command
variable {blake3 : List UInt8 → Checksum} {bincode : Bincode} {sys : System} {id : ObjectId} {codec : Codec} {bytes : Buffer}

theorem act_well (well : Well blake3 sys.server) {action : Action} (possible : action.Possible sys) (sized : action.Sized) :
    Well blake3 (sys.act blake3 bincode action).server := by
  refine ⟨act_steady well.steady possible,?_⟩
  have apply : ∀ op : ArenaStore.Op, op.Fits →
      (Outcome.state (ArenaStore.apply .increasing op sys.server.arena)).alloc.Sound := fun op fits =>
    (ArenaStore.apply_ends .increasing op sys.server.arena).moves.keeps (fun move sound => move.sound fits sound) well.sound
  cases action with
  | client env request =>
    by_cases keeping : ∀ id, request ≠ .Release id
    · exact ((dispatch_client_chores bincode possible.1 well.steady.state.inv possible.2 keeping).works.well
        (fun _ stores => stores.fits sized) well).sound
    · push Not at keeping
      obtain ⟨id,rfl⟩ := keeping
      rw [act,dispatch_client]
      rcases release_ends id sys.server with ⟨_,state,_,_,left⟩ | ⟨_,error,left⟩
      · rw [left]
        have sound := apply (.release id) (by rintro _ ⟨⟩)
        rwa [ArenaStore.apply,state_bind fun _ _ => rfl] at sound
      · rw [left]
        exact well.sound
  | worker env request =>
    exact ((dispatch_worker_works (Q := fun _ => False) env request).well (fun _ => False.elim) well).sound
  | tick env report =>
    exact ((on_state_works (Q := fun _ => False) (tick_operates env report sys.server.state).deeds).well (fun _ => False.elim) well).sound
  | commit id reservation =>
    rcases arena_commit_ends id reservation sys.server with ⟨e,arena,done,moves,_⟩ | ⟨error,failed⟩
    · rw [act,done]
      exact moves.keeps (fun move sound => move.sound (by rintro _ ⟨⟩) sound) well.sound
    · rw [act,failed]
      exact well.sound
  | publish c =>
    rw [act]
    rcases publish_ends c.id c.reservation c.info well.steady.state.filed with ⟨_,state,_,_,_,_,left⟩ | ⟨_,error,left⟩
    · rw [left]
      exact well.sound
    · rw [left]
      have sound := apply (.rollback c.id c.reservation) (by rintro _ ⟨⟩)
      rwa [ArenaStore.apply,state_bind fun _ _ => rfl] at sound
  | write offset bytes => exact well.sound

theorem Run.well {Rule : System → Action → Prop} {first : System} (run : Run blake3 bincode Rule first sys)
    (sized : ∀ sys action, Rule sys action → action.Sized) (well : Well blake3 first.server) : Well blake3 sys.server := by
  induction run with
  | start => exact well
  | step run action possible rule ih => exact act_well ih possible (sized _ _ rule)

/-- A release of another object. -/
theorem release_kept (well : Well blake3 sys.server) {other : ObjectId} (different : other ≠ id)
    (kept : Kept blake3 sys.server id codec bytes) :
    Kept blake3 (Outcome.state (release other sys.server)) id codec bytes := by
  rcases release_ends other sys.server with ⟨_,state,_,released,left⟩ | ⟨_,error,left⟩
  · have arena := kept.arena well .increasing (.release other) (by rintro _ ⟨⟩) (fun same => different (Option.some.inj same)) nofun
    rw [ArenaStore.apply,state_bind fun _ _ => rfl] at arena
    rw [left]
    exact arena.state fun _ deposited => released.deposited different deposited
  · rw [left]
    exact kept

/-- The first half of a commit of another object. -/
theorem commit_kept (well : Well blake3 sys.server) {other : ObjectId} {reservation : RequestId} (different : other ≠ id)
    (kept : Kept blake3 sys.server id codec bytes) :
    Kept blake3 (sys.act blake3 bincode (.commit other reservation)).server id codec bytes := by
  have arena := kept.arena well .increasing (.commit other reservation) (by rintro _ ⟨⟩) nofun
    fun same => different (Option.some.inj same)
  rw [ArenaStore.apply,state_map] at arena
  rcases ArenaStore.commit_ends other reservation sys.server.arena with ⟨e,_,ran,_⟩ | ⟨error,ran⟩
  · rw [ran] at arena
    simp only [act,arena_commit,attempt,on_arena,within,ran]
    exact arena
  · rw [ran] at arena
    simp only [act,arena_commit,attempt,on_arena,within,ran]
    exact arena

/-- The second half of a commit of another object. -/
theorem publish_kept (well : Well blake3 sys.server) {c : Commit} (different : c.id ≠ id)
    (kept : Kept blake3 sys.server id codec bytes) :
    Kept blake3 (Outcome.state (publish c.id c.reservation c.info sys.server)) id codec bytes := by
  rcases publish_ends c.id c.reservation c.info well.steady.state.filed with ⟨_,state,_,admitted,_,_,left⟩ | ⟨_,error,left⟩
  · rw [left]
    exact kept.state fun _ deposited => admitted.deposited deposited
  · have arena := kept.arena well .increasing (.rollback c.id c.reservation) (by rintro _ ⟨⟩)
      (fun same => different (Option.some.inj same)) nofun
    rw [ArenaStore.apply,state_bind fun _ _ => rfl] at arena
    rw [left]
    exact arena

/-- A write into the slot of another object. -/
theorem write_kept (well : Well blake3 sys.server) {offset : Nat} {written : List UInt8}
    (contained : (Action.write offset written).Contained id sys) (kept : Kept blake3 sys.server id codec bytes) :
    Kept blake3 (sys.act blake3 bincode (.write offset written)).server id codec bytes := by
  obtain ⟨other,e',different,found',inside⟩ := contained
  refine ⟨kept.record,fun e found committed => ?_⟩
  have found : sys.server.arena.alloc.live.get id = some e := found
  obtain ⟨size,content⟩ := kept.filled e found committed
  refine ⟨size,Eq.trans (Memory.slice_congr fun i member => ?_) content⟩
  have mine : e.content.Within e.span := ⟨le_rfl,Nat.add_le_add_left (well.sound.fits id e found) _⟩
  refine Memory.byte_write_outside _ fun touched => ?_
  exact well.sound.apart found found' different i (mine.contains member) (inside.contains touched)

/-- Every action keeps the object that does not concern it, reserves no size that wraps around, and writes into
    no slot but those of other objects. -/
theorem act_kept (well : Well blake3 sys.server) {action : Action} (possible : action.Possible sys) (sized : action.Sized)
    (aside : action.Aside blake3 id) (contained : action.Contained id sys) (kept : Kept blake3 sys.server id codec bytes) :
    Kept blake3 (sys.act blake3 bincode action).server id codec bytes := by
  cases action with
  | client env request =>
    by_cases keeping : ∀ id, request ≠ .Release id
    · exact (dispatch_client_chores bincode possible.1 well.steady.state.inv possible.2 keeping).works.kept
        (fun _ stores => stores.fits sized) (fun _ stores => stores.keeps) (fun _ stores same => aside (stores.commits same))
        well kept
    · push Not at keeping
      obtain ⟨other,rfl⟩ := keeping
      exact release_kept well (fun same => aside (congrArg some same)) kept
  | worker env request =>
    exact (dispatch_worker_works (Q := fun _ => False) env request).kept (fun _ => False.elim) (fun _ => False.elim)
      (fun _ => False.elim) well kept
  | tick env report =>
    exact (on_state_works (Q := fun _ => False) (tick_operates env report sys.server.state).deeds).kept (fun _ => False.elim)
      (fun _ => False.elim) (fun _ => False.elim) well kept
  | commit other reservation => exact commit_kept well aside kept
  | publish c => exact publish_kept well aside kept
  | write offset bytes => exact write_kept well contained kept

theorem Run.kept {Rule : System → Action → Prop} {first : System} (run : Run blake3 bincode Rule first sys)
    (sized : ∀ sys action, Rule sys action → action.Sized) (aside : ∀ sys action, Rule sys action → action.Aside blake3 id)
    (contained : ∀ sys action, Rule sys action → action.Contained id sys) (well : Well blake3 first.server)
    (kept : Kept blake3 first.server id codec bytes) : Kept blake3 sys.server id codec bytes := by
  induction run with
  | start => exact kept
  | step run action possible rule ih =>
    exact act_kept (run.well sized well) possible (sized _ _ rule) (aside _ _ rule) (contained _ _ rule) ih

end System
end Crayon
