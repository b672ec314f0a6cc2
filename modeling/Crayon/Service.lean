import Crayon.Allocation
import Crayon.Records
import Crayon.Server

/-!
Runs of the server. Requests of clients and workers and the periodic sweep come
in any order, each taking effect at once, except a commit: between its two
halves anything else may happen (`System.inflight`). Clients on the same host
may write into the mapping at any time. What holds of the coordinator's state
and of the arena alone holds along every run (`Run.steady`). To say more of a
request, see which operations of the state and of the arena it runs (`Work`).
-/
namespace Crayon

namespace CoordinatorState
open Command
open Relation (ReflTransGen)
variable {blake3 : List UInt8 → Checksum} {s s' : CoordinatorState} {object : ObjectRecord} {id : ObjectId}

/-- What a request may do to the state at a time: run an operation, other than putting an object
    without bytes, or queue deletes again. -/
inductive Act (blake3 : List UInt8 → Checksum) (s : CoordinatorState) : CoordinatorState → Prop where
  | op (order : HashOrder) (op : Op) (newTo : op.NewTo s) (modest : op.Modest)
      (plain : ∀ id codec size_bytes checksum, op ≠ .put_meta id codec size_bytes checksum) :
      Act blake3 s (Outcome.state (apply blake3 order op s))
  | deletes (pending_deletes : Table NodeId (List ObjectId)) : Act blake3 s { s with pending_deletes }

/-- An operation that neither puts an object without bytes nor releases one. -/
def Op.Calm : Op → Prop
  | .put_meta _ _ _ _ | .release_object _ => False
  | _ => True

/-- Such an operation is run. -/
inductive Operated (blake3 : List UInt8 → Checksum) (s : CoordinatorState) : CoordinatorState → Prop where
  | op (order : HashOrder) (op : Op) (newTo : op.NewTo s) (modest : op.Modest) (calm : op.Calm) :
      Operated blake3 s (Outcome.state (apply blake3 order op s))

abbrev Operates (blake3 : List UInt8 → Checksum) : CoordinatorState → CoordinatorState → Prop :=
  ReflTransGen (Operated blake3)

/-- What requests other than commits and releases do to the state. -/
inductive Deed (blake3 : List UInt8 → Checksum) (s : CoordinatorState) : CoordinatorState → Prop where
  | op (order : HashOrder) (op : Op) (newTo : op.NewTo s) (modest : op.Modest) (calm : op.Calm) :
      Deed blake3 s (Outcome.state (apply blake3 order op s))
  | deletes (pending_deletes : Table NodeId (List ObjectId)) : Deed blake3 s { s with pending_deletes }

abbrev Deeds (blake3 : List UInt8 → Checksum) : CoordinatorState → CoordinatorState → Prop := ReflTransGen (Deed blake3)

theorem Operates.deeds (operates : Operates blake3 s s') : Deeds blake3 s s' := by
  have step : ∀ t t', Operated blake3 t t' → Deed blake3 t t' := by
    rintro t _ ⟨order,op,newTo,modest,calm⟩
    exact .op order op newTo modest calm
  exact ReflTransGen.mono step _ _ operates

theorem Operates.inv (operates : Operates blake3 s s') (inv : Inv s) : Inv s' := by
  induction operates with
  | refl => exact inv
  | tail _ operated ih =>
    obtain ⟨order,op,newTo,_,_⟩ := operated
    exact apply_inv blake3 order ih newTo

theorem Deed.act (deed : Deed blake3 s s') : Act blake3 s s' := by
  cases deed with
  | op order op newTo modest calm =>
    refine .op order op newTo modest ?_
    rintro id codec size_bytes checksum rfl
    exact calm
  | deletes pending_deletes => exact .deletes pending_deletes

/-- What holds of the state between requests. -/
structure Steady (blake3 : List UInt8 → Checksum) (s : CoordinatorState) : Prop where
  inv : Inv s
  addressed : Addressed s
  filed : Filed blake3 s

theorem new_steady (epoch : CoordinatorEpoch) : Steady blake3 (new epoch) where
  inv := new_inv epoch
  addressed node worker found := by cases found
  filed id object found := by cases found

theorem Steady.apply (steady : Steady blake3 s) (order : HashOrder) (op : Op) (newTo : op.NewTo s) (modest : op.Modest) :
    Steady blake3 (Outcome.state (CoordinatorState.apply blake3 order op s)) where
  inv := apply_inv blake3 order steady.inv newTo
  addressed := apply_addressed blake3 order steady.inv newTo steady.addressed
  filed := apply_filed blake3 order steady.inv newTo steady.addressed steady.filed modest

theorem Act.steady (act : Act blake3 s s') (steady : Steady blake3 s) : Steady blake3 s' := by
  cases act with
  | op order op newTo modest plain => exact steady.apply order op newTo modest
  | deletes pending_deletes =>
    exact ⟨steady.inv.requeued pending_deletes,steady.addressed,steady.filed⟩

/-- The object is at the coordinator, but its bytes are not. -/
structure ArenaOnly (object : ObjectRecord) : Prop where
  state : object.state = .Available
  location : object.location = some "coordinator"
  bytes : object.bytes = none

/-- No request makes such a record, except by putting an object without bytes. -/
theorem Act.arena_only (act : Act blake3 s s') (steady : Steady blake3 s)
    (found : s'.objects.get id = some object) (only : ArenaOnly object) : s.objects.get id = some object := by
  cases act with
  | deletes pending_deletes => exact found
  | op order op newTo modest plain =>
    refine apply_available blake3 order steady.inv newTo steady.addressed
      (P := fun id object => ArenaOnly object → s.objects.get id = some object) ?_ ?_ ?_ ?_ ?_ id object found only.state only
    · exact fun _ _ there _ _ => there
    · exact fun _ _ _ only => absurd only.bytes nofun
    · exact fun id codec size_bytes checksum source _ => absurd source (plain id codec size_bytes checksum)
    · intro id object identity report asked verified address small only
      have place : report.location = "coordinator" := Option.some.inj only.location
      have colon := validate_advertise_addr_colon address
      rw [place] at colon
      exact absurd colon (by decide)
    · intro id object bytes inline kept only
      have none : object.bytes = none := only.bytes
      rw [inline] at none
      cases none

/-! ### Operations that requests run -/

theorem operates_of {α : Type} {m : Coord α} (order : HashOrder) (op : Op) {f : α → Reply}
    (runs : apply blake3 order op = m >>= fun a => pure (f a)) (newTo : op.NewTo s) (modest : op.Modest) (calm : op.Calm) :
    Operates blake3 s (Outcome.state (m s)) := by
  have operated : Operated blake3 s (Outcome.state (apply blake3 order op s)) := .op order op newTo modest calm
  rw [runs,state_bind fun _ _ => rfl] at operated
  exact .single operated

theorem resolve_object_quiet (id : ObjectId) (s : CoordinatorState) : Outcome.state (resolve_object id s) = s := by
  cases found : s.objects.get id with
  | none => simp [resolve_object,found]
  | some object =>
    cases state : object.state with
    | Available =>
      cases codec : object.codec <;> cases size : object.size_bytes <;> cases digest : object.checksum <;>
        cases place : object.location <;> simp [resolve_object,found,state,codec,size,digest,place]
    | _ => simp [resolve_object,found,state]

theorem resolve_object_same {payload : ObjectPayload} (resolved : resolve_object id s = .ok payload s') :
    s' = s := by
  have quiet := resolve_object_quiet id s
  rwa [resolved] at quiet

theorem resolve_object_available {codec : Codec} {size_bytes : UInt64}
    {checksum : Checksum} {location : String} (found : s.objects.get id = some object) (available : object.state = .Available)
    (hasCodec : object.codec = some codec) (hasSize : object.size_bytes = some size_bytes)
    (hasDigest : object.checksum = some checksum) (hasPlace : object.location = some location) :
    resolve_object id s =
      .ok { id, codec, size_bytes, checksum, location, bytes := object.bytes, arena := none } s := by
  simp only [resolve_object,bind_apply,get_apply,found,available,hasCodec,hasSize,hasDigest,hasPlace,unwrap_some,pure_apply]

theorem check_identity_quiet (identity : WorkerIdentity) (s : CoordinatorState) :
    Outcome.state (check_identity identity s) = s := by
  rcases check_identity_cases s identity with stale | ⟨passed,_⟩
  · rw [stale]
    rfl
  · rw [passed]
    rfl

theorem cancellation_for_quiet (order : HashOrder) (identity : WorkerIdentity) (s : CoordinatorState) :
    Outcome.state (cancellation_for order identity s) = s := by
  rw [cancellation_for,state_bind fun _ _ => rfl,check_identity_quiet]

theorem assigned_unstarted_quiet (order : HashOrder) (identity : WorkerIdentity) (s : CoordinatorState) :
    Outcome.state (assigned_unstarted order identity s) = s := by
  rw [assigned_unstarted,state_bind fun _ _ => rfl,check_identity_quiet]

end CoordinatorState

/-- The ids that a request draws for its tasks, from the `i`-th up to the `n`-th, are new. -/
structure Env.New (env : Env) (i n : Nat) (s : CoordinatorState) : Prop where
  tasks : ∀ j, i ≤ j → j < n → ¬ s.Mentions (env.task j).1
  outputs : ∀ j, i ≤ j → j < n → (env.task j).2 ∉ s.objects.keys
  distinct : ∀ j k, j < k → k < n → (env.task j).1 ≠ (env.task k).1 ∧ (env.task j).2 ≠ (env.task k).2

/-- How many tasks a request submits. -/
def ClientRequest.submits : ClientRequest → Nat
  | .Submit _ => 1
  | .SubmitBatch specs => specs.length
  | _ => 0

/-- The operation of the arena that a request asks for. -/
def ClientRequest.Stores (blake3 : List UInt8 → Checksum) : ClientRequest → ArenaStore.Op → Prop
  | .Put codec bytes,op => ∃ now later reservation,
      op = .put (.from_checksum (blake3 bytes.bytes)) bytes codec (blake3 bytes.bytes) now later reservation
  | .GetLocal id,op => op = .read id
  | .ArenaReserve id codec size_bytes checksum mode,op => ∃ now later reservation,
      op = .reserve id size_bytes codec checksum mode now later reservation
  | .PutChunk id reservation offset bytes,op => ∃ now, op = .write_chunk id reservation offset bytes now
  | .GetChunk id offset len,op => op = .read_chunk id offset len
  | _,_ => False

theorem ClientRequest.Stores.keeps {blake3 : List UInt8 → Checksum} {request : ClientRequest} {op : ArenaStore.Op}
    (stores : request.Stores blake3 op) : op.drops = none := by
  cases request with
  | Put => obtain ⟨_,_,_,rfl⟩ := stores; rfl
  | ArenaReserve => obtain ⟨_,_,_,rfl⟩ := stores; rfl
  | PutChunk => obtain ⟨_,rfl⟩ := stores; rfl
  | GetLocal | GetChunk => obtain rfl := stores; rfl
  | _ => cases stores

namespace Env.New
open CoordinatorState Command
variable {blake3 : List UInt8 → Checksum} {s : CoordinatorState} {env : Env} {i n : Nat}

theorem newTo (new : env.New i n s) (below : i < n) (spec : SubmitSpec) :
    Op.NewTo s (.submit spec.operation spec.args spec.resources spec.max_attempts (env.task i).1 (env.task i).2) := by
  have unmentioned := new.tasks i le_rfl below
  exact ⟨Table.get_eq_none_iff.mpr fun there => unmentioned (.inl there),fun queued => unmentioned (.inr queued),
    Table.get_eq_none_iff.mpr (new.outputs i le_rfl below)⟩

theorem submit_operates (new : env.New i n s) (below : i < n) (spec : SubmitSpec) :
    Operates blake3 s (Outcome.state (submit spec.operation spec.args spec.resources spec.max_attempts (env.task i).1
      (env.task i).2 s)) :=
  operates_of env.order (.submit spec.operation spec.args spec.resources spec.max_attempts (env.task i).1 (env.task i).2)
    (f := fun ids => .Submitted ids.1 ids.2) rfl (new.newTo below spec) trivial trivial

/-- A submission uses up one pair of ids. -/
theorem after (blake3 : List UInt8 → Checksum) (new : env.New i n s) (below : i < n) (inv : Inv s) (spec : SubmitSpec) :
    env.New (i + 1) n (Outcome.state (submit spec.operation spec.args spec.resources spec.max_attempts (env.task i).1
      (env.task i).2 s)) := by
  have moves := apply_moves blake3 env.order inv (new.newTo below spec)
  rw [apply,state_bind fun _ _ => rfl] at moves
  refine ⟨fun j later last mentions => ?_,fun j later last there => ?_,new.distinct⟩
  · rcases moves.origin (fun _ _ move => move.mentions) mentions with old | drawn
    · exact new.tasks j (by omega) last old
    · have same : (env.task j).1 = (env.task i).1 := by simpa [Op.minted] using drawn
      exact (new.distinct i j later last).1 same.symm
  · rcases moves.origin (fun _ _ move => move.objects) there with old | drawn | ⟨codec,size_bytes,checksum,bytes,stores⟩
    · exact new.outputs j (by omega) last old
    · have same : (env.task j).2 = (env.task i).2 := by simpa [Op.minted] using drawn
      exact (new.distinct i j later last).2 same.symm
    · cases bytes <;> cases stores

/-- A request that draws no ids needs none to be new. -/
theorem none : env.New 0 0 s := ⟨fun _ _ below => absurd below (Nat.not_lt_zero _),
  fun _ _ below => absurd below (Nat.not_lt_zero _),fun _ _ _ below => absurd below (Nat.not_lt_zero _)⟩

theorem one (unmentioned : ¬ s.Mentions (env.task 0).1) (absent : (env.task 0).2 ∉ s.objects.keys) : env.New 0 1 s where
  tasks j _ below := by
    obtain rfl := Nat.lt_one_iff.mp below
    exact unmentioned
  outputs j _ below := by
    obtain rfl := Nat.lt_one_iff.mp below
    exact absent
  distinct j k less below := by omega

end Env.New

namespace CoordinatorServer
open CoordinatorState Command
open Relation (ReflTransGen)
variable {blake3 : List UInt8 → Checksum} {s s' : CoordinatorServer}

/-- What a request may do to the server at a time: act on the state, or on the arena without
    dropping anything that is committed there. -/
inductive Touch (blake3 : List UInt8 → Checksum) (s : CoordinatorServer) : CoordinatorServer → Prop where
  | state {state : CoordinatorState} (act : Act blake3 s.state state) : Touch blake3 s { s with state }
  | arena {arena : ArenaStore} {op : ArenaStore.Op} (keeps : op.drops = none) (move : ArenaStore.Move op s.arena arena) :
      Touch blake3 s { s with arena }

abbrev Touches (blake3 : List UInt8 → Checksum) : CoordinatorServer → CoordinatorServer → Prop := ReflTransGen (Touch blake3)

/-- What holds of the server between requests. -/
structure Steady (blake3 : List UInt8 → Checksum) (s : CoordinatorServer) : Prop where
  state : CoordinatorState.Steady blake3 s.state
  settled : s.arena.alloc.Settled

theorem Touch.steady (touch : Touch blake3 s s') (steady : Steady blake3 s) : Steady blake3 s' := by
  cases touch with
  | state act => exact ⟨act.steady steady.state,steady.settled⟩
  | arena keeps move => exact ⟨steady.state,move.settled steady.settled⟩

theorem Touches.steady (touches : Touches blake3 s s') (steady : Steady blake3 s) : Steady blake3 s' := by
  induction touches with
  | refl => exact steady
  | tail _ touch ih => exact touch.steady ih

theorem Touches.epoch (touches : Touches blake3 s s') : s'.epoch = s.epoch := by
  induction touches with
  | refl => rfl
  | tail _ touch ih => cases touch <;> exact ih

/-- What requests other than commits and releases do to the server, one operation at a time; to the arena only
    operations of a certain kind. -/
inductive Work (blake3 : List UInt8 → Checksum) (Q : ArenaStore.Op → Prop) (s : CoordinatorServer) :
    CoordinatorServer → Prop where
  | state {state : CoordinatorState} (deed : Deed blake3 s.state state) : Work blake3 Q s { s with state }
  | arena (order : Traversal ObjectId) (op : ArenaStore.Op) (asked : Q op) :
      Work blake3 Q s { s with arena := Outcome.state (ArenaStore.apply order op s.arena) }

abbrev Works (blake3 : List UInt8 → Checksum) (Q : ArenaStore.Op → Prop) : CoordinatorServer → CoordinatorServer → Prop :=
  ReflTransGen (Work blake3 Q)

/-- What requests other than polls, commits and releases do to the server. -/
inductive Chore (blake3 : List UInt8 → Checksum) (Q : ArenaStore.Op → Prop) (s : CoordinatorServer) :
    CoordinatorServer → Prop where
  | state {state : CoordinatorState} (operated : Operated blake3 s.state state) : Chore blake3 Q s { s with state }
  | arena (order : Traversal ObjectId) (op : ArenaStore.Op) (asked : Q op) :
      Chore blake3 Q s { s with arena := Outcome.state (ArenaStore.apply order op s.arena) }

abbrev Chores (blake3 : List UInt8 → Checksum) (Q : ArenaStore.Op → Prop) : CoordinatorServer → CoordinatorServer → Prop :=
  ReflTransGen (Chore blake3 Q)

theorem Chores.works {Q : ArenaStore.Op → Prop} (chores : Chores blake3 Q s s') : Works blake3 Q s s' := by
  have step : ∀ t t', Chore blake3 Q t t' → Work blake3 Q t t' := by
    intro t t' chore
    cases chore with
    | state operated =>
      obtain ⟨order,op,newTo,modest,calm⟩ := operated
      exact .state (.op order op newTo modest calm)
    | arena order op asked => exact .arena order op asked
  exact ReflTransGen.mono step _ _ chores

theorem Moves.touches {op : ArenaStore.Op} {arena : ArenaStore} (moves : ArenaStore.Moves op s.arena arena)
    (keeps : op.drops = none) : Touches blake3 s { s with arena } := by
  have step : ∀ t t', ArenaStore.Move op t t' → Touch blake3 { s with arena := t } { s with arena := t' } :=
    fun _ _ move => .arena keeps move
  exact moves.lift (fun arena => { s with arena }) step

theorem Works.touches {Q : ArenaStore.Op → Prop} (works : Works blake3 Q s s') (keeps : ∀ op, Q op → op.drops = none) :
    Touches blake3 s s' := by
  induction works with
  | refl => exact .refl
  | tail _ work ih =>
    cases work with
    | state deed => exact ih.tail (.state deed.act)
    | arena order op asked => exact ih.trans (Moves.touches (ArenaStore.apply_ends order op _).moves (keeps op asked))

section
variable {Q : ArenaStore.Op → Prop} {α : Type} {m : Coord α}

theorem on_state_works (deeds : Deeds blake3 s.state (Outcome.state (m s.state))) :
    Works blake3 Q s (Outcome.state (on_state m s)) := by
  rw [on_state,state_within]
  have step : ∀ t t', Deed blake3 t t' → Work blake3 Q { s with state := t } { s with state := t' } := fun _ _ deed => .state deed
  exact deeds.lift (fun state => { s with state }) step

theorem on_state_chores (operates : Operates blake3 s.state (Outcome.state (m s.state))) :
    Chores blake3 Q s (Outcome.state (on_state m s)) := by
  rw [on_state,state_within]
  have step : ∀ t t', Operated blake3 t t' → Chore blake3 Q { s with state := t } { s with state := t' } :=
    fun _ _ operated => .state operated
  exact operates.lift (fun state => { s with state }) step

theorem on_state_quiet (quiet : ∀ t, Outcome.state (m t) = t) (s : CoordinatorServer) :
    Outcome.state (on_state m s) = s := by
  rw [on_state,state_within,quiet]

theorem on_arena_chores {m : Store α} (order : Traversal ObjectId) (op : ArenaStore.Op) (asked : Q op)
    (runs : Outcome.state (m s.arena) = Outcome.state (ArenaStore.apply order op s.arena)) :
    Chores blake3 Q s (Outcome.state (on_arena m s)) := by
  rw [on_arena,state_within,runs]
  exact .single (.arena order op asked)

theorem attempt_quiet {m : Serve α} (quiet : ∀ t, Outcome.state (m t) = t) (s : CoordinatorServer) :
    Outcome.state (attempt m s) = s := by
  rw [state_attempt,quiet]

/-! ### Workers -/

theorem accepted_chores (operates : Operates blake3 s.state (Outcome.state (m s.state))) :
    Chores blake3 Q s (Outcome.state (accepted m s)) := by
  rw [accepted,state_bind fun reply _ => by cases reply <;> rfl]
  exact steps_attempt (on_state_chores operates)

theorem register_chores (env : Env) (request : RegisterWorker) :
    Chores blake3 Q s (Outcome.state (register env request s)) := by
  refine steps_after (fun _ => rfl) fun self _ => ?_
  generalize (if self.require_loopback then require_loopback_addr request.advertise_addr else .ok ()) = checked
  cases checked with
  | error error => exact .refl
  | ok _ =>
    refine steps_bind (steps_attempt (on_state_chores ?_)) fun result t _ => by cases result <;> exact .refl
    exact operates_of env.order (.register_worker request env.now_ms self.lease_ms env.session) (f := .Identity) rfl trivial
      trivial trivial

theorem poll_deeds (env : Env) (identity : WorkerIdentity) (state : CoordinatorState) :
    Deeds blake3 state (Outcome.state (poll env identity state)) := by
  refine steps_bind ?_ fun deletes t _ => ?_
  · exact (operates_of env.order (.take_pending_deletes identity.node_id) (f := .Deletes) rfl trivial trivial trivial).deeds
  cases deletes with
  | cons id rest =>
    refine steps_bind ?_ fun _ _ _ => .refl
    rw [requeue_deletes]
    split
    · exact .single (.deletes _)
    · exact .refl
  | nil =>
    refine steps_after (fun u => by rw [state_attempt,cancellation_for_quiet]) fun cancellation _ => ?_
    match cancellation with
    | .error _ | .ok (some _) => exact .refl
    | .ok none =>
      refine steps_after (fun u => by rw [state_attempt,assigned_unstarted_quiet]) fun unstarted _ => ?_
      match unstarted with
      | .error _ | .ok (some _) => exact .refl
      | .ok none =>
        refine steps_bind ?_ fun assignment _ _ => by cases assignment <;> exact .refl
        rw [state_attempt]
        exact (operates_of env.order (.assign_next identity.node_id env.now_ms env.lease) (f := .Assignment) rfl trivial
          trivial trivial).deeds

theorem dispatch_worker_chores (env : Env) {request : WorkerRequest} (unpolled : ∀ identity, request ≠ .Poll identity) :
    Chores blake3 Q s (Outcome.state (dispatch_worker blake3 env request s)) := by
  cases request with
  | Register request => exact register_chores env request
  | Heartbeat identity =>
    refine steps_after (fun _ => rfl) fun self _ => accepted_chores ?_
    exact operates_of env.order (.heartbeat identity env.now_ms self.lease_ms) (f := fun _ => .Done) rfl trivial trivial trivial
  | Poll identity => exact absurd rfl (unpolled identity)
  | Cancelled identity fence =>
    exact accepted_chores (operates_of env.order (.acknowledge_cancel identity fence) (f := fun _ => .Done) rfl trivial trivial
      trivial)
  | Started identity fence =>
    exact accepted_chores (operates_of env.order (.started identity fence) (f := fun _ => .Done) rfl trivial trivial trivial)
  | Completed identity report =>
    exact accepted_chores (operates_of env.order (.complete identity report) (f := fun _ => .Done) rfl trivial trivial trivial)
  | Failed identity fence message «class» =>
    exact accepted_chores (operates_of env.order (.fail identity fence message «class» env.now_ms) (f := .Failed) rfl trivial
      trivial trivial)
  | Drain identity =>
    exact accepted_chores (operates_of env.order (.drain identity) (f := fun _ => .Done) rfl trivial trivial trivial)

theorem dispatch_worker_works (env : Env) (request : WorkerRequest) :
    Works blake3 Q s (Outcome.state (dispatch_worker blake3 env request s)) := by
  cases request with
  | Poll identity => exact on_state_works (poll_deeds env identity s.state)
  | _ => exact (dispatch_worker_chores env (by simp)).works

theorem tick_operates (env : Env) (report : Bool) (state : CoordinatorState) :
    Operates blake3 state (Outcome.state (tick env report state)) := by
  refine steps_bind ?_ fun _ t _ => ?_
  · rw [state_attempt]
    exact operates_of env.order (.expire_workers env.now_ms) (f := .Expired) rfl trivial trivial trivial
  · split
    · rw [state_bind fun _ _ => rfl]
      exact operates_of env.order (.reap_terminal_tasks env.now_ms) (f := .Reclaimed) rfl trivial trivial trivial
    · exact .refl

/-! ### Clients -/

theorem answer_chores {reply : α → ClientReply}
    (operates : Operates blake3 s.state (Outcome.state (m s.state))) : Chores blake3 Q s (Outcome.state (answer m reply s)) := by
  rw [answer,state_bind fun result _ => by cases result <;> rfl]
  exact steps_attempt (on_state_chores operates)

/-- A put names an object by its digest. -/
theorem put_named {codec : Codec} {bytes : List UInt8} {state state' : CoordinatorState} {outcome : PutOutcome}
    (ran : CoordinatorState.put blake3 codec bytes state = .ok outcome state') :
    outcome = ⟨.from_checksum (blake3 bytes),blake3 bytes,bytes⟩ := by
  obtain ⟨_,_,_,done⟩ := bind_ok ran
  exact (EStateM.Result.ok.inj done).1.symm

theorem put_chores (env : Env) (codec : Codec) (bytes : Buffer)
    (asked : Q (.put (.from_checksum (blake3 bytes.bytes)) bytes codec (blake3 bytes.bytes) env.now env.later env.reservation)) :
    Chores blake3 Q s (Outcome.state (put blake3 env codec bytes s)) := by
  rw [put]
  by_cases long : bytes.bytes.length > MAX_OBJECT_BYTES
  · rw [if_pos long]
    exact .refl
  rw [if_neg long]
  refine steps_bind (steps_attempt (on_state_chores ?_)) fun result t ran => ?_
  · exact operates_of env.order (.put codec bytes.bytes) (f := .Put) rfl trivial (not_lt.mp long) trivial
  cases result with
  | error error => exact .refl
  | ok outcome =>
    have named : outcome = ⟨.from_checksum (blake3 bytes.bytes),blake3 bytes.bytes,bytes.bytes⟩ := by
      have ran := attempt_ok ran
      rw [on_state,within] at ran
      split at ran
      · rename_i put
        obtain ⟨rfl,_⟩ := EStateM.Result.ok.inj ran
        exact put_named put
      · cases ran
    subst named
    refine steps_bind (on_arena_chores env.objects _ asked ?_) fun _ _ _ => .refl
    rw [ArenaStore.apply,state_map]

theorem submit_batch_operates (env : Env) {specs : List SubmitSpec} {i n : Nat} {state : CoordinatorState}
    (new : env.New i n state) (room : i + specs.length ≤ n) (inv : Inv state) :
    Operates blake3 state (Outcome.state (submit_batch env specs i state)) := by
  induction specs generalizing i state with
  | nil => exact .refl
  | cons spec rest ih =>
    have below : i < n := by rw [List.length_cons] at room; omega
    refine steps_bind (by rw [state_attempt]; exact new.submit_operates below spec) fun result t ran => ?_
    have left : t = Outcome.state (submit spec.operation spec.args spec.resources spec.max_attempts (env.task i).1
        (env.task i).2 state) := by
      rw [← state_attempt,ran]
      rfl
    rw [state_bind fun _ _ => rfl,left]
    refine ih (new.after blake3 below inv spec) (by rw [List.length_cons] at room; omega) ?_
    have after := apply_inv blake3 env.order inv (new.newTo below spec)
    rwa [apply,state_bind fun _ _ => rfl] at after

theorem batch_slots_quiet (bincode : Bincode) (objects : List ObjectId) (used : Nat) (state : CoordinatorState) :
    Outcome.state (batch_slots bincode objects used state) = state := by
  induction objects generalizing used state with
  | nil => rfl
  | cons id rest ih =>
    rw [batch_slots,state_bind,state_attempt,resolve_object_quiet]
    intro resolved t
    split
    · rw [state_bind fun _ _ => rfl,ih]
    · rw [state_bind fun _ _ => rfl,ih]

theorem get_object_quiet (id : ObjectId) (s : CoordinatorServer) : Outcome.state (get_object id s) = s := by
  rw [get_object,state_bind fun result _ => by cases result <;> rfl]
  exact attempt_quiet (on_state_quiet (resolve_object_quiet id)) s

theorem get_batch_quiet (bincode : Bincode) (objects : List ObjectId) (s : CoordinatorServer) :
    Outcome.state (get_batch bincode objects s) = s := by
  rw [get_batch]
  split
  · rfl
  · rw [state_bind fun _ _ => rfl]
    exact on_state_quiet (batch_slots_quiet bincode objects bincode.batch) s

theorem get_local_chores (id : ObjectId) (asked : Q (.read id)) : Chores blake3 Q s (Outcome.state (get_local id s)) := by
  refine steps_after (attempt_quiet (on_state_quiet (resolve_object_quiet id))) fun result _ => ?_
  cases result with
  | error error => exact .refl
  | ok payload =>
    refine steps_bind (on_arena_chores .increasing _ asked ?_) fun content t _ => ?_
    · rw [ArenaStore.apply,state_map]
    cases content with
    | none => exact .refl
    | some bytes =>
      dsimp only
      split
      · split <;> exact .refl
      · exact .refl

theorem arena_reserve_chores (env : Env) (id : ObjectId) (codec : Codec) (size_bytes : UInt64) (checksum : Checksum)
    (mode : ArenaWriteMode) (asked : Q (.reserve id size_bytes codec checksum mode env.now env.later env.reservation)) :
    Chores blake3 Q s (Outcome.state (arena_reserve env id codec size_bytes checksum mode s)) := by
  refine steps_after (attempt_quiet (on_state_quiet (resolve_object_quiet id))) fun result _ => ?_
  cases result with
  | ok payload => exact .refl
  | error error =>
    refine steps_bind (steps_attempt (on_arena_chores env.objects _ asked ?_)) fun result _ _ => by cases result <;> exact .refl
    rw [ArenaStore.apply,state_map]

theorem put_chunk_chores (env : Env) (id : ObjectId) (reservation : RequestId) (offset : UInt64) (bytes : Buffer)
    (asked : Q (.write_chunk id reservation offset bytes env.now)) :
    Chores blake3 Q s (Outcome.state (put_chunk env id reservation offset bytes s)) := by
  rw [put_chunk,state_bind fun result _ => by cases result <;> rfl]
  refine steps_attempt (on_arena_chores .increasing _ asked ?_)
  rw [ArenaStore.apply,state_bind fun _ _ => rfl]

theorem get_chunk_chores (id : ObjectId) (offset len : UInt64) (asked : Q (.read_chunk id offset len)) :
    Chores blake3 Q s (Outcome.state (get_chunk id offset len s)) := by
  rw [get_chunk]
  split
  · exact .refl
  · rw [state_bind fun result _ => by cases result <;> rfl]
    refine on_arena_chores .increasing _ asked ?_
    rw [ArenaStore.apply,state_map]

end

/-- What a request does is to run operations of the state and, on the arena, the operation that it asks for. -/
theorem dispatch_client_chores (bincode : Bincode) {env : Env} {request : ClientRequest}
    (new : env.New 0 request.submits s.state) (inv : Inv s.state)
    (uncommitting : ∀ id reservation, request ≠ .ArenaCommit id reservation) (keeping : ∀ id, request ≠ .Release id) :
    Chores blake3 (request.Stores blake3) s (Outcome.state (dispatch_client blake3 bincode env request s)) := by
  cases request with
  | Connect => exact .refl
  | Put codec bytes => exact put_chores env codec bytes ⟨_,_,_,rfl⟩
  | Submit spec => exact answer_chores (new.submit_operates Nat.one_pos spec)
  | SubmitBatch specs => exact answer_chores (submit_batch_operates env new (by rw [Nat.zero_add]; rfl) inv)
  | Status id =>
    refine steps_after (fun _ => rfl) fun self _ => ?_
    cases self.state.tasks.get id <;> exact .refl
  | Get id => rw [dispatch_client,get_object_quiet]
  | GetBatch objects => rw [dispatch_client,get_batch_quiet]
  | GetLocal id => exact get_local_chores id rfl
  | ArenaReserve id codec size_bytes checksum mode =>
    exact arena_reserve_chores env id codec size_bytes checksum mode ⟨_,_,_,rfl⟩
  | ArenaCommit id reservation => exact absurd rfl (uncommitting id reservation)
  | PutChunk id reservation offset bytes => exact put_chunk_chores env id reservation offset bytes ⟨_,rfl⟩
  | GetChunk id offset len => exact get_chunk_chores id offset len rfl
  | Workers => exact .refl
  | Cancel id =>
    exact answer_chores (operates_of env.order (.cancel id) (f := fun _ => .Done) rfl trivial trivial trivial)
  | Release id => exact absurd rfl (keeping id)

/-- The requests that drop no committed object. -/
theorem dispatch_client_touches (bincode : Bincode) {env : Env} {request : ClientRequest}
    (new : env.New 0 request.submits s.state) (inv : Inv s.state)
    (uncommitting : ∀ id reservation, request ≠ .ArenaCommit id reservation) (keeping : ∀ id, request ≠ .Release id) :
    Touches blake3 s (Outcome.state (dispatch_client blake3 bincode env request s)) :=
  (dispatch_client_chores bincode new inv uncommitting keeping).works.touches fun _ => ClientRequest.Stores.keeps

theorem dispatch_worker_touches (env : Env) (request : WorkerRequest) :
    Touches blake3 s (Outcome.state (dispatch_worker blake3 env request s)) :=
  (dispatch_worker_works env request).touches (Q := fun _ => False) fun _ => False.elim

theorem tick_touches (env : Env) (report : Bool) : Touches blake3 s (Outcome.state (on_state (tick env report) s)) :=
  (on_state_works (tick_operates env report s.state).deeds).touches (Q := fun _ => False) fun _ => False.elim

/-- A release drops the record and the slot, or is refused. -/
theorem release_ends (id : ObjectId) (s : CoordinatorServer) :
    (s.state.Releasable id ∧ ∃ state, release_object id s.state = .ok ⟨⟩ state ∧ Released s.state id state ∧
        release id s = .ok .Released { s with state, arena := Outcome.state (ArenaStore.release id s.arena) }) ∨
      (¬ s.state.Releasable id ∧ ∃ error, release id s = .ok (.Error error) s) := by
  rcases release_object_cases id with ⟨can,state,ran,released⟩ | ⟨cannot,e,refused⟩
  · refine .inl ⟨can,state,ran,released,?_⟩
    have freed : ∃ arena, ArenaStore.release id s.arena = .ok () arena := by
      cases there : s.arena.alloc.live.get id <;> simp [ArenaStore.release,there]
    obtain ⟨arena,freed⟩ := freed
    simp only [release,bind_apply,attempt,on_state,on_arena,within,ran,freed,pure_apply,Outcome.state_ok]
  · refine .inr ⟨cannot,e,?_⟩
    simp only [release,bind_apply,attempt,on_state,within,refused,pure_apply]

/-- An object that was admitted is on record with its codec and size. -/
theorem admitted_resolves {state state' : CoordinatorState} {id : ObjectId} {codec : Codec} {size_bytes : UInt64}
    {checksum : Checksum} {bytes : Option (List UInt8)} (filed : Filed blake3 state)
    (admitted : Admitted state id codec size_bytes checksum bytes state') :
    ∃ payload, resolve_object id state' = .ok payload state' ∧ payload.codec = codec ∧ payload.size_bytes = size_bytes := by
  cases admitted with
  | @known existing found available codec size digest =>
    rcases (filed id existing found available).place with place | ⟨_,_,place,_⟩
    · exact ⟨_,resolve_object_available found available codec size digest place,rfl,rfl⟩
    · exact ⟨_,resolve_object_available found available codec size digest place,rfl,rfl⟩
  | stored absent =>
    have found : (state.objects.insert id (put_record id codec size_bytes checksum bytes)).get id =
      some (put_record id codec size_bytes checksum bytes) := by rw [Table.get_insert,if_pos rfl]
    exact ⟨_,resolve_object_available found rfl rfl rfl rfl rfl,rfl,rfl⟩

/-- The second half of a commit leaves a record of the object, or takes its entry back. -/
theorem publish_ends (id : ObjectId) (reservation : RequestId) (info : Arena.Meta) (filed : Filed blake3 s.state) :
    (s.state.Takes id info.codec info.size info.checksum ∧ ∃ state,
        put_meta id info.codec info.size info.checksum s.state = .ok id state ∧
        Admitted s.state id info.codec info.size info.checksum none state ∧
        ∃ payload, resolve_object id state = .ok payload state ∧
          publish id reservation info s = .ok (.Object (arena_annotate { s with state } payload)) { s with state }) ∨
      (¬ s.state.Takes id info.codec info.size info.checksum ∧ ∃ error, publish id reservation info s =
        .ok (.Error error) { s with arena := Outcome.state (ArenaStore.rollback id reservation s.arena) }) := by
  rcases admit_object_ends id info.codec info.size info.checksum none with ⟨takes,state,ran,admitted⟩ | ⟨cannot,e,refused⟩
  · refine .inl ⟨takes,state,ran,admitted,?_⟩
    obtain ⟨payload,resolved,_⟩ := admitted_resolves filed admitted
    refine ⟨payload,resolved,?_⟩
    simp only [publish,bind_apply,attempt,on_state,within,put_meta,ran,resolved,get_apply,pure_apply]
  · refine .inr ⟨cannot,e,?_⟩
    have failed : attempt (on_state do
        let id ← CoordinatorState.put_meta id info.codec info.size info.checksum
        CoordinatorState.resolve_object id) s = .ok (.error e) s := by
      simp only [attempt,on_state,within,bind_apply,put_meta,refused]
    rw [publish,bind_apply,failed]
    dsimp only
    rcases ArenaStore.rollback_ends id reservation s.arena with ⟨e',ran,_⟩ | ⟨error,ran⟩ <;>
      simp only [bind_apply,attempt,on_arena,within,ran,pure_apply,Outcome.state_ok,Outcome.state_error]

/-- The first half of a commit leaves a committed entry of what it returns, or changes nothing. -/
theorem arena_commit_ends (id : ObjectId) (reservation : RequestId) (s : CoordinatorServer) :
    (∃ e arena, arena_commit id reservation s = .ok (.ok e.toMeta) { s with arena } ∧
        ArenaStore.Moves (.commit id reservation) s.arena arena ∧ arena.alloc.live.get id = some e ∧ e.committed = true) ∨
      ∃ error, arena_commit id reservation s = .ok (.error error) s := by
  rcases ArenaStore.commit_ends id reservation s.arena with ⟨e,arena,done,found,-,complete,rfl⟩ | ⟨error,failed⟩
  · refine .inl ⟨{ e with committed := true, reserved_at := none },_,?_,.single (.commit found complete rfl),?_,rfl⟩
    · simp only [arena_commit,attempt,on_arena,within,done]
      rfl
    · rw [Table.get_modify_of found,if_pos rfl]
  · refine .inr ⟨error,?_⟩
    simp only [arena_commit,attempt,on_arena,within,failed]

end CoordinatorServer

/-! ### Runs -/

/-- A commit between its two halves. -/
structure Commit where
  id : ObjectId
  reservation : RequestId
  info : Arena.Meta
deriving DecidableEq

/-- The server, and the commits whose second half is still to come. -/
structure System where
  server : CoordinatorServer
  inflight : List Commit

/-- What can happen next. -/
inductive Action where
  /-- A client's request other than a commit. -/
  | client (env : Env) (request : ClientRequest)
  | worker (env : Env) (request : WorkerRequest)
  | tick (env : Env) (report : Bool)
  /-- The first half of a commit. -/
  | commit (id : ObjectId) (reservation : RequestId)
  /-- The second half of a commit. -/
  | publish (c : Commit)
  /-- A client writes into the mapping. -/
  | write (offset : Nat) (bytes : List UInt8)

/-- When an action can happen: ids drawn at random are new, and only a commit that is under way goes on. -/
def Action.Possible (sys : System) : Action → Prop
  | .client env request => env.New 0 request.submits sys.server.state ∧
      ∀ id reservation, request ≠ .ArenaCommit id reservation
  | .publish c => c ∈ sys.inflight
  | _ => True

namespace System
open CoordinatorServer Command

def start (epoch : CoordinatorEpoch) (token : String) (lease_ms : Nat) (require_loopback : Bool) : System :=
  ⟨.new epoch token lease_ms require_loopback,[]⟩

def act (blake3 : List UInt8 → Checksum) (bincode : Bincode) (sys : System) : Action → System
  | .client env request => { sys with server := Outcome.state (dispatch_client blake3 bincode env request sys.server) }
  | .worker env request => { sys with server := Outcome.state (dispatch_worker blake3 env request sys.server) }
  | .tick env report => { sys with server := Outcome.state (on_state (tick env report) sys.server) }
  | .commit id reservation =>
    match arena_commit id reservation sys.server with
    | .ok (.ok info) server => ⟨server,⟨id,reservation,info⟩ :: sys.inflight⟩
    | outcome => { sys with server := Outcome.state outcome }
  | .publish c =>
    { server := Outcome.state (CoordinatorServer.publish c.id c.reservation c.info sys.server)
      inflight := sys.inflight.erase c }
  | .write offset bytes =>
    let arena := sys.server.arena
    { sys with server := { sys.server with arena := { arena with
        map := { arena.map with byte := (arena.map.write offset bytes).byte } } } }

/-- The systems that runs lead to in which every action obeys a rule. -/
inductive Run (blake3 : List UInt8 → Checksum) (bincode : Bincode) (Rule : System → Action → Prop) (first : System) :
    System → Prop where
  | start : Run blake3 bincode Rule first first
  | step {sys : System} (run : Run blake3 bincode Rule first sys) (action : Action) (possible : action.Possible sys)
      (rule : Rule sys action) : Run blake3 bincode Rule first (sys.act blake3 bincode action)

/-- Actions that can happen one after the other, and obey the rule. -/
def Allowed (blake3 : List UInt8 → Checksum) (bincode : Bincode) (Rule : System → Action → Prop) :
    System → List Action → Prop
  | _,[] => True
  | sys,action :: rest => action.Possible sys ∧ Rule sys action ∧
      Allowed blake3 bincode Rule (sys.act blake3 bincode action) rest

def replay (blake3 : List UInt8 → Checksum) (bincode : Bincode) (sys : System) (actions : List Action) : System :=
  actions.foldl (act blake3 bincode) sys

variable {blake3 : List UInt8 → Checksum} {bincode : Bincode} {sys : System}

theorem start_steady (epoch : CoordinatorEpoch) (token : String) (lease_ms : Nat) (require_loopback : Bool) :
    Steady blake3 (start epoch token lease_ms require_loopback).server :=
  ⟨CoordinatorState.new_steady epoch,ArenaStore.new_settled token⟩

theorem release_steady (steady : Steady blake3 sys.server) (id : ObjectId) :
    Steady blake3 (Outcome.state (release id sys.server)) := by
  rcases release_ends id sys.server with ⟨_,state,ran,_,left⟩ | ⟨_,error,left⟩
  · have after := steady.state.apply .by_id (.release_object id) trivial trivial
    rw [CoordinatorState.apply,state_bind fun _ _ => rfl,ran] at after
    have moves := (ArenaStore.apply_ends .increasing (.release id) sys.server.arena).moves
    rw [ArenaStore.apply,state_bind fun _ _ => rfl] at moves
    rw [left]
    exact ⟨after,moves.settled steady.settled⟩
  · rw [left]
    exact steady

theorem publish_steady (steady : Steady blake3 sys.server) (c : Commit) :
    Steady blake3 (Outcome.state (CoordinatorServer.publish c.id c.reservation c.info sys.server)) := by
  rcases publish_ends c.id c.reservation c.info steady.state.filed with ⟨_,state,ran,_,_,_,left⟩ | ⟨_,error,left⟩
  · have after := steady.state.apply .by_id (.put_meta c.id c.info.codec c.info.size c.info.checksum) trivial trivial
    rw [CoordinatorState.apply,state_bind fun _ _ => rfl,ran] at after
    rw [left]
    exact ⟨after,steady.settled⟩
  · have moves := (ArenaStore.apply_ends .increasing (.rollback c.id c.reservation) sys.server.arena).moves
    rw [ArenaStore.apply,state_bind fun _ _ => rfl] at moves
    rw [left]
    exact ⟨steady.state,moves.settled steady.settled⟩

theorem commit_steady (steady : Steady blake3 sys.server) (id : ObjectId) (reservation : RequestId) :
    Steady blake3 (sys.act blake3 bincode (.commit id reservation)).server := by
  rcases arena_commit_ends id reservation sys.server with ⟨e,arena,done,moves,_⟩ | ⟨error,failed⟩
  · rw [act,done]
    exact ⟨steady.state,moves.settled steady.settled⟩
  · rw [act,failed]
    exact steady

/-- Every action keeps what holds of the server. -/
theorem act_steady (steady : Steady blake3 sys.server) {action : Action} (possible : action.Possible sys) :
    Steady blake3 (sys.act blake3 bincode action).server := by
  cases action with
  | client env request =>
    by_cases keeping : ∀ id, request ≠ .Release id
    · exact (dispatch_client_touches bincode possible.1 steady.state.inv possible.2 keeping).steady steady
    · push Not at keeping
      obtain ⟨id,rfl⟩ := keeping
      exact release_steady steady id
  | worker env request => exact (dispatch_worker_touches env request).steady steady
  | tick env report => exact (tick_touches env report).steady steady
  | commit id reservation => exact commit_steady steady id reservation
  | publish c => exact publish_steady steady c
  | write offset bytes => exact ⟨steady.state,steady.settled⟩

/-- No action changes the epoch. -/
theorem act_epoch (steady : Steady blake3 sys.server) {action : Action} (possible : action.Possible sys) :
    (sys.act blake3 bincode action).server.epoch = sys.server.epoch := by
  cases action with
  | client env request =>
    by_cases keeping : ∀ id, request ≠ .Release id
    · exact (dispatch_client_touches bincode possible.1 steady.state.inv possible.2 keeping).epoch
    · push Not at keeping
      obtain ⟨id,rfl⟩ := keeping
      rw [act,dispatch_client]
      rcases release_ends id sys.server with ⟨_,state,_,_,left⟩ | ⟨_,error,left⟩ <;> rw [left] <;> rfl
  | worker env request => exact (dispatch_worker_touches env request).epoch
  | tick env report =>
    have touches : Touches blake3 sys.server _ := tick_touches env report
    exact touches.epoch
  | commit id reservation =>
    rcases arena_commit_ends id reservation sys.server with ⟨e,arena,done,_⟩ | ⟨error,failed⟩
    · rw [act,done]
    · rw [act,failed]
      rfl
  | publish c =>
    rw [act]
    rcases publish_ends c.id c.reservation c.info steady.state.filed with ⟨_,state,_,_,_,_,left⟩ | ⟨_,error,left⟩ <;> rw [left] <;>
      rfl
  | write offset bytes => rfl

/-- What holds of the server alone holds along every run. -/
theorem Run.steady {Rule : System → Action → Prop} {first : System} (run : Run blake3 bincode Rule first sys)
    (steady : Steady blake3 first.server) : Steady blake3 sys.server := by
  induction run with
  | start => exact steady
  | step run action possible rule ih => exact act_steady ih possible

theorem Run.replay {Rule : System → Action → Prop} {first : System} (run : Run blake3 bincode Rule first sys)
    {actions : List Action} (allowed : Allowed blake3 bincode Rule sys actions) :
    Run blake3 bincode Rule first (replay blake3 bincode sys actions) := by
  induction actions generalizing sys with
  | nil => exact run
  | cons action rest ih => exact ih (run.step action allowed.1 allowed.2.1) allowed.2.2

end System
end Crayon
