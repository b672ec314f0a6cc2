import Crayon.AtMostOnce
import Crayon.Replay
import Crayon.Service

/-!
What becomes of one delivery of a request that must not be repeated. The cache
keeps count of its bytes and drops only what has expired, and the handlers of
such requests always return, so that a delivery ends in one of five ways
(`Handled`): it does not name the epoch, it is answered from the cache, it asks
for something else under a known id, it is refused for want of room, or it is
handled and its reply stored. These are the steps of a log of calls that are
carried out at most once.
-/
namespace Crayon

namespace ReplayCache
open Command AtMostOnce
variable {cache cache' : ReplayCache} {id : RequestId} {now : UInt64}

/-! ### The cache keeps count -/

/-- What an entry counts for. -/
def weight (entry : ReplayEntry) : Nat := entry.bytes + REPLAY_ENTRY_OVERHEAD

/-- The bytes in use are those of the entries. -/
def Balanced (cache : ReplayCache) : Prop := cache.used_bytes = cache.entries.sum weight

theorem subtract_of {n m : Nat} (enough : m ≤ n) (cache : ReplayCache) : subtract n m cache = .ok (n - m) cache := by
  simp only [subtract,if_pos enough,pure_apply]

theorem remove_ends (balanced : Balanced cache) (id : RequestId) :
    ∃ cache', remove id cache = .ok () cache' ∧ Balanced cache' ∧ cache'.entries = cache.entries.remove id := by
  cases found : cache.entries.get id with
  | none =>
    refine ⟨cache,by simp only [remove,bind_apply,get_apply,found,pure_apply],balanced,Table.ext_get fun k => ?_⟩
    by_cases same : k = id
    · simp [same,found]
    · simp [same]
  | some entry =>
    have total := Table.sum_eq_add_remove found weight
    have enough : weight entry ≤ cache.used_bytes := by
      rw [balanced,total]
      exact Nat.le_add_right _ _
    refine ⟨{ entries := cache.entries.remove id, used_bytes := cache.used_bytes - weight entry },?_,?_,rfl⟩
    · simp only [remove,bind_apply,get_apply,found,set_apply]
      rw [show entry.bytes + REPLAY_ENTRY_OVERHEAD = weight entry from rfl,subtract_of enough]
      rfl
    · change cache.used_bytes - weight entry = (cache.entries.remove id).sum weight
      rw [balanced,total]
      exact Nat.add_sub_cancel_left _ _

theorem sweep_ends (balanced : Balanced cache) (now : UInt64) :
    ∃ cache', sweep now cache = .ok () cache' ∧ Balanced cache' ∧
      cache'.entries = cache.entries.retain fun entry => entry.expires_at_ms > now := by
  have total := Table.sum_retain cache.entries (fun entry => entry.expires_at_ms > now) weight
  generalize freed : (cache.entries.sum fun entry => if decide (entry.expires_at_ms > now) = true then 0 else weight entry) =
    bytes at total
  have enough : bytes ≤ cache.used_bytes := by
    rw [balanced,total]
    exact Nat.le_add_left _ _
  refine ⟨{ entries := cache.entries.retain fun entry => entry.expires_at_ms > now, used_bytes := cache.used_bytes - bytes },
    ?_,?_,rfl⟩
  · have same : (cache.entries.sum fun entry =>
        if entry.expires_at_ms > now then 0 else entry.bytes + REPLAY_ENTRY_OVERHEAD) = bytes := by
      rw [← freed]
      simp [weight]
    simp only [sweep,bind_apply,get_apply,set_apply,same,subtract_of enough,modify_apply]
  · change cache.used_bytes - bytes = (cache.entries.retain fun entry => entry.expires_at_ms > now).sum weight
    rw [balanced,total]
    exact Nat.add_sub_cancel _ _

theorem insert_balanced (balanced : Balanced cache) (absent : cache.entries.get id = none) (entry : ReplayEntry) :
    Balanced { used_bytes := cache.used_bytes + (entry.bytes + REPLAY_ENTRY_OVERHEAD)
               entries := cache.entries.insert id entry } := by
  change cache.used_bytes + weight entry = (cache.entries.insert id entry).sum weight
  rw [Table.sum_insert_new absent,balanced]
  exact Nat.add_comm _ _

/-! ### The cache as a log -/

/-- What the cache remembers. -/
def log (cache : ReplayCache) : Log RequestId Checksum RpcReply := fun id =>
  (cache.entries.get id).map fun entry => ⟨entry.body_hash,entry.reply,entry.expires_at_ms.toNat⟩

/-- The entry that still counts under an id. -/
def live (cache : ReplayCache) (id : RequestId) (now : UInt64) : Option ReplayEntry :=
  (cache.entries.get id).filter fun entry => entry.expires_at_ms > now

/-- The cache once the expired entry of a request and, under pressure, all that have expired are dropped. -/
def cleared (cache : ReplayCache) (id : RequestId) (now : UInt64) : ReplayCache :=
  let cache := Outcome.state (remove id cache)
  if cache.at_capacity then Outcome.state (sweep now cache) else cache

theorem live_none_iff : cache.live id now = none ↔ ∀ r, cache.log id = some r → r.expires ≤ now.toNat := by
  rw [live,log]
  cases cache.entries.get id with
  | none => simp
  | some entry => simp [UInt64.le_iff_toNat_le]

theorem remove_forgets (balanced : Balanced cache) (lapsed : cache.live id now = none) :
    Forgets now.toNat cache.log (Outcome.state (remove id cache)).log := by
  obtain ⟨cache',ran,_,entries⟩ := remove_ends balanced id
  rw [ran]
  intro key
  by_cases same : key = id
  · subst same
    exact .inr ⟨by simp [log,entries],live_none_iff.mp lapsed⟩
  · exact .inl (by simp [log,entries,same])

theorem sweep_forgets (balanced : Balanced cache) (now : UInt64) :
    Forgets now.toNat cache.log (Outcome.state (sweep now cache)).log := by
  obtain ⟨cache',ran,_,entries⟩ := sweep_ends balanced now
  rw [ran]
  intro key
  simp only [Outcome.state_ok,log,entries,Table.get_retain]
  cases cache.entries.get key with
  | none => exact .inl rfl
  | some entry =>
    by_cases live : entry.expires_at_ms > now
    · exact .inl (by simp [Option.filter_some,live])
    · refine .inr ⟨by simp [Option.filter_some,live],?_⟩
      rintro r ⟨⟩
      exact UInt64.le_iff_toNat_le.mp (UInt64.not_lt.mp live)

/-- Clearing drops only what has expired, and leaves nothing under the id of the request. -/
theorem cleared_forgets (balanced : Balanced cache) (lapsed : cache.live id now = none) :
    Balanced (cache.cleared id now) ∧ Forgets now.toNat cache.log (cache.cleared id now).log ∧
      (cache.cleared id now).entries.get id = none := by
  obtain ⟨first,ran,balanced',entries⟩ := remove_ends balanced id
  have forgets := remove_forgets balanced lapsed
  have absent : first.entries.get id = none := by simp [entries]
  rw [ran,Outcome.state_ok] at forgets
  rw [cleared,ran,Outcome.state_ok]
  split
  · obtain ⟨second,ran',balanced'',entries'⟩ := sweep_ends balanced' now
    have forgets' := sweep_forgets balanced' now
    rw [ran',Outcome.state_ok] at forgets'
    rw [ran',Outcome.state_ok]
    exact ⟨balanced'',forgets.trans forgets',by simp [entries',absent]⟩
  · exact ⟨balanced',forgets,absent⟩

/-- Clearing drops no entry that still counts. -/
theorem cleared_live (balanced : Balanced cache) (lapsed : cache.live id now = none) (key : RequestId) :
    (cache.cleared id now).live key now = cache.live key now := by
  obtain ⟨first,ran,balanced',entries⟩ := remove_ends balanced id
  have removed : first.live key now = cache.live key now := by
    by_cases same : key = id
    · subst same
      rw [lapsed]
      simp [live,entries]
    · simp [live,entries,same]
  rw [cleared,ran,Outcome.state_ok]
  split
  · obtain ⟨second,ran',_,entries'⟩ := sweep_ends balanced' now
    rw [ran',Outcome.state_ok,← removed]
    simp [live,entries',Option.filter_filter]
  · exact removed

end ReplayCache

namespace Endpoint
open Command AtMostOnce ReplayCache
variable {blake3 : List UInt8 → Checksum} {bincode : Bincode} {wire : Wire} {env : Env} {now : UInt64} {envelope : Envelope}
  {e : Endpoint}

/-! ### What the front does with a request -/

/-- The envelope names the coordinator's epoch. -/
def InEpoch (e : Endpoint) (envelope : Envelope) : Prop := envelope.coordinator_epoch = some e.server.epoch

instance (e : Endpoint) (envelope : Envelope) : Decidable (e.InEpoch envelope) :=
  inferInstanceAs (Decidable (envelope.coordinator_epoch = some e.server.epoch))

theorem validate_epoch_of (inEpoch : e.InEpoch envelope) : validate_epoch envelope e = .ok () e := by
  rw [InEpoch] at inEpoch
  simp only [validate_epoch,bind_apply,get_apply,inEpoch,ensure_of,pure_apply]

/-- The error for a mutation that does not name the epoch. -/
def epoch_error (envelope : Envelope) : Error :=
  match envelope.coordinator_epoch with
  | some _ => .StaleEpoch
  | none => .Protocol "mutation requires coordinator epoch"

theorem validate_epoch_not (stale : ¬ e.InEpoch envelope) :
    validate_epoch envelope e = .error (.Err (epoch_error envelope)) e := by
  cases named : envelope.coordinator_epoch with
  | none => simp only [validate_epoch,epoch_error,bind_apply,get_apply,named,err_apply]
  | some epoch =>
    have other : ¬ epoch = e.server.epoch := fun same => stale (by rw [InEpoch,named,same])
    simp only [validate_epoch,epoch_error,bind_apply,get_apply,named,ensure_not other,err_apply]

theorem dispatch_once_stale (mutation : is_mutation envelope.body = true) (stale : ¬ e.InEpoch envelope) :
    dispatch_once blake3 bincode wire env now envelope e = .error (.Err (epoch_error envelope)) e := by
  simp only [dispatch_once,mutation,if_true,bind_apply,validate_epoch_not stale]

theorem dispatch_once_held (cached : should_cache envelope.body = true) (inEpoch : e.InEpoch envelope) {entry : ReplayEntry}
    (live : e.replay.live envelope.request_id now = some entry) :
    dispatch_once blake3 bincode wire env now envelope e =
      .ok (if entry.body_hash = blake3 (wire.body envelope.body) then entry.reply
        else request_error envelope.body (.Protocol "request id reused with different body")) e := by
  obtain ⟨found,later⟩ := Option.filter_eq_some_iff.mp live
  have fresh : ¬ entry.expires_at_ms ≤ now := UInt64.not_le.mpr (of_decide_eq_true later)
  simp only [dispatch_once,cached_is_mutation cached,if_true,bind_apply,validate_epoch_of inEpoch,cached,Bool.true_eq_false,
    if_false,get_apply,found,fresh]
  by_cases same : entry.body_hash = blake3 (wire.body envelope.body)
  · simp [same]
  · simp [same]

/-- What is left to do once the expired entry is gone. -/
theorem dispatch_once_over (cached : should_cache envelope.body = true) (inEpoch : e.InEpoch envelope)
    (balanced : Balanced e.replay) (lapsed : e.replay.live envelope.request_id now = none) :
    dispatch_once blake3 bincode wire env now envelope e =
      dispatch_cached blake3 bincode wire env now envelope (blake3 (wire.body envelope.body))
        { e with replay := Outcome.state (remove envelope.request_id e.replay) } := by
  cases found : e.replay.entries.get envelope.request_id with
  | none =>
    have same : remove envelope.request_id e.replay = .ok () e.replay := by
      simp only [remove,bind_apply,get_apply,found,pure_apply]
    simp only [dispatch_once,cached_is_mutation cached,if_true,bind_apply,validate_epoch_of inEpoch,cached,
      Bool.true_eq_false,if_false,get_apply,found,same,Outcome.state_ok]
  | some entry =>
    obtain ⟨cache,ran,_⟩ := remove_ends balanced envelope.request_id
    have stale : entry.expires_at_ms ≤ now := by
      by_contra fresh
      rw [live,found,Option.filter_some,if_pos (decide_eq_true (UInt64.not_le.mp fresh))] at lapsed
      cases lapsed
    simp only [dispatch_once,cached_is_mutation cached,if_true,bind_apply,validate_epoch_of inEpoch,cached,
      Bool.true_eq_false,if_false,get_apply,found,stale,on_replay,within,ran,Outcome.state_ok]

theorem dispatch_cached_swept (balanced : Balanced e.replay) (hash : Checksum) :
    dispatch_cached blake3 bincode wire env now envelope hash e =
      let cache := if e.replay.at_capacity then Outcome.state (sweep now e.replay) else e.replay
      if cache.at_capacity then
        .ok (request_error envelope.body (.CapacityExceeded "replay cache limit reached")) { e with replay := cache }
      else
        match dispatch blake3 bincode env envelope.body e.server with
        | .ok reply server => .ok reply { e with
            server
            replay := Outcome.state (insert envelope.request_id
              { body_hash := hash, reply, expires_at_ms := expires_at_ms now envelope.deadline_unix_ms,
                bytes := wire.reply_len reply } cache) }
        | .error fault server => .error fault { e with server, replay := cache } := by
  by_cases full : e.replay.at_capacity = true
  · obtain ⟨cache,ran,_⟩ := sweep_ends balanced now
    simp only [dispatch_cached,bind_apply,get_apply,full,if_true,on_replay,within,ran,Outcome.state_ok]
    by_cases still : cache.at_capacity = true
    · simp [still]
    · simp only [still,if_false,Bool.false_eq_true,on_server,within,bind_apply]
      cases dispatch blake3 bincode env envelope.body e.server <;> rfl
  · simp only [dispatch_cached,bind_apply,get_apply,full,if_false,Bool.false_eq_true,pure_apply,on_server,on_replay,within]
    cases dispatch blake3 bincode env envelope.body e.server <;> rfl

/-- A request that nothing counts for is refused when the cache is full, and else handled and stored. -/
theorem dispatch_once_free (cached : should_cache envelope.body = true) (inEpoch : e.InEpoch envelope)
    (balanced : Balanced e.replay) (lapsed : e.replay.live envelope.request_id now = none) :
    dispatch_once blake3 bincode wire env now envelope e =
      let cache := e.replay.cleared envelope.request_id now
      if cache.at_capacity then
        .ok (request_error envelope.body (.CapacityExceeded "replay cache limit reached")) { e with replay := cache }
      else
        match dispatch blake3 bincode env envelope.body e.server with
        | .ok reply server => .ok reply { e with
            server
            replay := Outcome.state (insert envelope.request_id
              { body_hash := blake3 (wire.body envelope.body), reply
                expires_at_ms := expires_at_ms now envelope.deadline_unix_ms, bytes := wire.reply_len reply } cache) }
        | .error fault server => .error fault { e with server, replay := cache } := by
  obtain ⟨cache,ran,balanced',_⟩ := remove_ends balanced envelope.request_id
  rw [dispatch_once_over cached inEpoch balanced lapsed,ran,Outcome.state_ok,dispatch_cached_swept balanced',cleared,ran,
    Outcome.state_ok]

/-! ### Handlers of cached requests return -/

theorem attempt_returns {σ α : Type} {m : Command Error σ α} {s : σ} (clean : Outcome.Clean (m s)) :
    ∃ result s', attempt m s = .ok result s' := by
  unfold attempt
  cases ran : m s with
  | ok a s' => exact ⟨.ok a,s',rfl⟩
  | error fault s' =>
    rw [ran] at clean
    cases fault with
    | Err error => exact ⟨.error error,s',rfl⟩
    | Panic => exact clean.elim
    | Diverge => exact clean.elim

theorem clean_of_atomic {σ α : Type} {s : σ} {Q : α → σ → Prop} {outcome : Outcome Error σ α}
    (atomic : Outcome.Atomic s Q outcome) : Outcome.Clean outcome := by
  match outcome,atomic with
  | .ok _ _,_ => trivial
  | .error (.Err _) _,_ => trivial

theorem answer_returns {α : Type} {m : Coord α} (f : α → ClientReply) {s : CoordinatorServer}
    (clean : Outcome.Clean (m s.state)) : ∃ reply s', CoordinatorServer.answer m f s = .ok reply s' := by
  have within_clean : Outcome.Clean (CoordinatorServer.on_state m s) := by
    rw [CoordinatorServer.on_state,within]
    cases ran : m s.state with
    | ok a t => trivial
    | error fault t =>
      rw [ran] at clean
      cases fault with
      | Err error => trivial
      | Panic => exact clean.elim
      | Diverge => exact clean.elim
  obtain ⟨result,s',ran⟩ := attempt_returns within_clean
  rw [CoordinatorServer.answer,bind_apply,ran]
  cases result with
  | ok a => exact ⟨f a,s',rfl⟩
  | error error => exact ⟨.Error error,s',rfl⟩

theorem submit_batch_returns (env : Env) (specs : List SubmitSpec) (i : Nat) (s : CoordinatorState) :
    ∃ results s', CoordinatorServer.submit_batch env specs i s = .ok results s' := by
  induction specs generalizing i s with
  | nil => exact ⟨[],s,rfl⟩
  | cons spec rest ih =>
    obtain ⟨result,s',ran⟩ := attempt_returns (clean_of_atomic (CoordinatorState.submit_effect (fun _ => .replicate 32 0)
      spec.operation spec.args spec.resources spec.max_attempts (env.task i).1 (env.task i).2 (s := s)))
    obtain ⟨results,s'',ran'⟩ := ih (i + 1) s'
    rw [CoordinatorServer.submit_batch,bind_apply,ran]
    dsimp only
    rw [bind_apply,ran']
    exact ⟨_,s'',rfl⟩

/-- A cached request is always answered. -/
theorem dispatch_returns (blake3 : List UInt8 → Checksum) (bincode : Bincode) (env : Env) {body : RpcRequest}
    (cached : should_cache body = true) {s : CoordinatorServer} (inv : CoordinatorState.Consistent s.state) :
    ∃ reply s', dispatch blake3 bincode env body s = .ok reply s' := by
  have client : ∀ request, (∃ reply s', CoordinatorServer.dispatch_client blake3 bincode env request s = .ok reply s') →
      ∃ reply s', dispatch blake3 bincode env (.Client request) s = .ok reply s' := by
    rintro request ⟨reply,s',ran⟩
    rw [dispatch,bind_apply,ran]
    exact ⟨.Client reply,s',rfl⟩
  revert cached
  fun_cases should_cache body with
  | case1 spec =>
    intro _
    exact client _ (answer_returns _ (clean_of_atomic (CoordinatorState.submit_effect blake3 spec.operation spec.args
      spec.resources spec.max_attempts (env.task 0).1 (env.task 0).2)))
  | case2 specs =>
    intro _
    refine client _ (answer_returns _ ?_)
    obtain ⟨results,s',ran⟩ := submit_batch_returns env specs 0 s.state
    rw [ran]
    trivial
  | case3 id =>
    intro _
    exact client _ (answer_returns _ (clean_of_atomic (CoordinatorState.cancel_effect blake3 inv env.order id)))
  | case4 id =>
    intro _
    refine client _ ?_
    rcases CoordinatorServer.release_ends id s with ⟨_,state,_,_,ran⟩ | ⟨_,error,ran⟩
    · exact ⟨_,_,ran⟩
    · exact ⟨_,_,ran⟩
  | case5 =>
    intro none
    cases none

/-! ### Deliveries -/

/-- A request that reaches the cache: when its envelope was checked, when the cache is asked, and what its
    handler finds. -/
structure Delivery where
  env : Env
  validated : UInt64
  now : UInt64
  envelope : Envelope

/-- A delivery of a run: what it found, and how it ended. -/
structure Turn where
  delivery : Delivery
  before : Endpoint
  outcome : Outcome Error Endpoint RpcReply

namespace Turn

/-- The request was handed to its handler: its epoch is right, nothing counts under its id, and there is room. -/
def performed (turn : Turn) : Bool :=
  decide (turn.before.InEpoch turn.delivery.envelope) &&
    (turn.before.replay.live turn.delivery.envelope.request_id turn.delivery.now).isNone &&
    !(turn.before.replay.cleared turn.delivery.envelope.request_id turn.delivery.now).at_capacity

/-- Until when the reply is retained if the request is handled now. -/
def retained (turn : Turn) : Nat :=
  turn.delivery.now.toNat + min (turn.delivery.envelope.deadline_unix_ms.toNat - turn.delivery.now.toNat) MAX_REPLAY_TTL_MS

/-- What the client is told, if anything. -/
def reply (turn : Turn) : Except (Fault Error) RpcReply :=
  match turn.outcome with
  | .ok reply _ => .ok reply
  | .error fault _ => .error fault

/-- The delivery as a call of the log. -/
def call (blake3 : List UInt8 → Checksum) (wire : Wire) (turn : Turn) : Call RequestId Checksum where
  now := turn.delivery.now.toNat
  key := turn.delivery.envelope.request_id
  body := blake3 (wire.body turn.delivery.envelope.body)
  expires := turn.retained

/-- How the log answers the delivery, if it gets there. -/
def answer (blake3 : List UInt8 → Checksum) (wire : Wire) (turn : Turn) : Option (Answer RpcReply) :=
  if turn.before.InEpoch turn.delivery.envelope then
    match turn.before.replay.live turn.delivery.envelope.request_id turn.delivery.now with
    | some entry =>
      some (if entry.body_hash = blake3 (wire.body turn.delivery.envelope.body) then .replayed entry.reply else .conflict)
    | none =>
      match turn.outcome with
      | .ok reply _ => some (if turn.performed then .performed reply else .refused)
      | .error _ _ => some .refused
  else none

/-- The delivery as part of the log's history. -/
def entry (blake3 : List UInt8 → Checksum) (wire : Wire) (turn : Turn) :
    Option (Call RequestId Checksum × Answer RpcReply) :=
  (turn.answer blake3 wire).map fun answer => (turn.call blake3 wire,answer)

end Turn

section
variable (blake3 : List UInt8 → Checksum) (bincode : Bincode) (wire : Wire)

/-- The ways in which a delivery ends. -/
inductive Handled (turn : Turn) : Option (Answer RpcReply) → Outcome Error Endpoint RpcReply → Prop where
  | stale (stale : ¬ turn.before.InEpoch turn.delivery.envelope) :
      Handled turn none (.error (.Err (epoch_error turn.delivery.envelope)) turn.before)
  | replayed {entry : ReplayEntry} (inEpoch : turn.before.InEpoch turn.delivery.envelope)
      (live : turn.before.replay.live turn.delivery.envelope.request_id turn.delivery.now = some entry)
      (same : entry.body_hash = blake3 (wire.body turn.delivery.envelope.body)) :
      Handled turn (some (.replayed entry.reply)) (.ok entry.reply turn.before)
  | conflict {entry : ReplayEntry} (inEpoch : turn.before.InEpoch turn.delivery.envelope)
      (live : turn.before.replay.live turn.delivery.envelope.request_id turn.delivery.now = some entry)
      (other : entry.body_hash ≠ blake3 (wire.body turn.delivery.envelope.body)) :
      Handled turn (some .conflict) (.ok (request_error turn.delivery.envelope.body
        (.Protocol "request id reused with different body")) turn.before)
  | refused (inEpoch : turn.before.InEpoch turn.delivery.envelope)
      (lapsed : turn.before.replay.live turn.delivery.envelope.request_id turn.delivery.now = none)
      (full : (turn.before.replay.cleared turn.delivery.envelope.request_id turn.delivery.now).at_capacity = true) :
      Handled turn (some .refused) (.ok (request_error turn.delivery.envelope.body
        (.CapacityExceeded "replay cache limit reached"))
        { turn.before with replay := turn.before.replay.cleared turn.delivery.envelope.request_id turn.delivery.now })
  | performed {reply : RpcReply} {server : CoordinatorServer} (inEpoch : turn.before.InEpoch turn.delivery.envelope)
      (lapsed : turn.before.replay.live turn.delivery.envelope.request_id turn.delivery.now = none)
      (room : (turn.before.replay.cleared turn.delivery.envelope.request_id turn.delivery.now).at_capacity = false)
      (ran : dispatch blake3 bincode turn.delivery.env turn.delivery.envelope.body turn.before.server = .ok reply server) :
      Handled turn (some (.performed reply)) (.ok reply { turn.before with
        server
        replay := Outcome.state (insert turn.delivery.envelope.request_id
          { body_hash := blake3 (wire.body turn.delivery.envelope.body), reply
            expires_at_ms := expires_at_ms turn.delivery.now turn.delivery.envelope.deadline_unix_ms
            bytes := wire.reply_len reply }
          (turn.before.replay.cleared turn.delivery.envelope.request_id turn.delivery.now)) })

end

/-- The turn of a delivery. -/
def take (blake3 : List UInt8 → Checksum) (bincode : Bincode) (wire : Wire) (e : Endpoint) (d : Delivery) : Turn :=
  ⟨d,e,dispatch_once blake3 bincode wire d.env d.now d.envelope e⟩

/-- A cached request ends in one of these ways. -/
theorem take_handled (blake3 : List UInt8 → Checksum) (bincode : Bincode) (wire : Wire) {d : Delivery}
    (cached : should_cache d.envelope.body = true) (balanced : Balanced e.replay)
    (inv : CoordinatorState.Consistent e.server.state) :
    Handled blake3 bincode wire (take blake3 bincode wire e d) ((take blake3 bincode wire e d).answer blake3 wire)
      (take blake3 bincode wire e d).outcome := by
  by_cases inEpoch : e.InEpoch d.envelope
  swap
  · have answer : (take blake3 bincode wire e d).answer blake3 wire = none := if_neg inEpoch
    rw [answer,show (take blake3 bincode wire e d).outcome = _ from dispatch_once_stale (cached_is_mutation cached) inEpoch]
    exact .stale inEpoch
  cases live : e.replay.live d.envelope.request_id d.now with
  | some entry =>
    have ran : (take blake3 bincode wire e d).outcome = _ := dispatch_once_held cached inEpoch live
    by_cases same : entry.body_hash = blake3 (wire.body d.envelope.body)
    · have answer : (take blake3 bincode wire e d).answer blake3 wire = some (.replayed entry.reply) := by
        simp [Turn.answer,take,inEpoch,live,same]
      rw [answer,ran,if_pos same]
      exact .replayed inEpoch live same
    · have answer : (take blake3 bincode wire e d).answer blake3 wire = some .conflict := by
        simp [Turn.answer,take,inEpoch,live,same]
      rw [answer,ran,if_neg same]
      exact .conflict inEpoch live same
  | none =>
    have ran : (take blake3 bincode wire e d).outcome = _ := dispatch_once_free cached inEpoch balanced live
    by_cases full : (e.replay.cleared d.envelope.request_id d.now).at_capacity = true
    · have unperformed : (take blake3 bincode wire e d).performed = false := by
        simp [Turn.performed,take,full]
      dsimp only at ran
      rw [if_pos full] at ran
      have answer : (take blake3 bincode wire e d).answer blake3 wire = some .refused := by
        simp only [Turn.answer,ran,unperformed]
        simp [take,inEpoch,live]
      rw [answer,ran]
      exact .refused inEpoch live full
    · obtain ⟨reply,server,returned⟩ := dispatch_returns blake3 bincode d.env cached inv
      have performed : (take blake3 bincode wire e d).performed = true := by
        simp [Turn.performed,take,inEpoch,live,full]
      dsimp only at ran
      rw [if_neg full,returned] at ran
      have answer : (take blake3 bincode wire e d).answer blake3 wire = some (.performed reply) := by
        simp only [Turn.answer,ran,performed]
        simp [take,inEpoch,live]
      rw [answer,ran]
      exact .performed inEpoch live (Bool.eq_false_iff.mpr full) returned

section
variable {turn : Turn} {answer : Answer RpcReply} {outcome : Outcome Error Endpoint RpcReply}

/-- What a delivery does to the cache is a step of the log. -/
theorem Handled.step (handled : Handled blake3 bincode wire turn (some answer) outcome)
    (balanced : Balanced turn.before.replay) :
    Step turn.before.replay.log (turn.call blake3 wire) answer (Outcome.state outcome).replay.log := by
  have logged : ∀ {entry : ReplayEntry},
      turn.before.replay.live turn.delivery.envelope.request_id turn.delivery.now = some entry →
      turn.before.replay.log turn.delivery.envelope.request_id =
        some ⟨entry.body_hash,entry.reply,entry.expires_at_ms.toNat⟩ ∧
        turn.delivery.now.toNat < entry.expires_at_ms.toNat := by
    intro entry live
    obtain ⟨found,later⟩ := Option.filter_eq_some_iff.mp live
    exact ⟨by simp [log,found],UInt64.lt_iff_toNat_lt.mp (of_decide_eq_true later)⟩
  cases handled with
  | @replayed entry inEpoch live same =>
    exact .replayed (r := ⟨entry.body_hash,entry.reply,entry.expires_at_ms.toNat⟩) (logged live).1 (logged live).2 same
  | conflict inEpoch live other => exact .conflict (logged live).1 (logged live).2 other
  | refused inEpoch lapsed full => exact .refused (live_none_iff.mp lapsed) (cleared_forgets balanced lapsed).2.1
  | @performed reply server inEpoch lapsed room ran =>
    have stored : (Outcome.state (insert turn.delivery.envelope.request_id
        { body_hash := blake3 (wire.body turn.delivery.envelope.body), reply
          expires_at_ms := expires_at_ms turn.delivery.now turn.delivery.envelope.deadline_unix_ms
          bytes := wire.reply_len reply }
        (turn.before.replay.cleared turn.delivery.envelope.request_id turn.delivery.now))).log =
        Function.update (turn.before.replay.cleared turn.delivery.envelope.request_id turn.delivery.now).log
          (turn.call blake3 wire).key (some ⟨(turn.call blake3 wire).body,reply,(turn.call blake3 wire).expires⟩) := by
      funext key
      by_cases same : key = turn.delivery.envelope.request_id
      · subst same
        simp [log,ReplayCache.insert,Turn.call,Turn.retained,expires_at_ms_toNat]
      · simp [log,ReplayCache.insert,Turn.call,same]
    rw [Outcome.state_ok,stored]
    exact .performed reply (live_none_iff.mp lapsed) (cleared_forgets balanced lapsed).2.1

theorem Handled.balanced {answer : Option (Answer RpcReply)} (handled : Handled blake3 bincode wire turn answer outcome)
    (balanced : Balanced turn.before.replay) : Balanced (Outcome.state outcome).replay := by
  cases handled with
  | stale | replayed | conflict => exact balanced
  | refused inEpoch lapsed full => exact (cleared_forgets balanced lapsed).1
  | performed inEpoch lapsed room ran =>
    obtain ⟨kept,_,absent⟩ := cleared_forgets balanced lapsed
    exact insert_balanced kept absent _

/-- A delivery that is not handed to its handler leaves the server alone. -/
theorem Handled.unperformed {answer : Option (Answer RpcReply)} (handled : Handled blake3 bincode wire turn answer outcome)
    (unperformed : turn.performed = false) : (Outcome.state outcome).server = turn.before.server := by
  cases handled with
  | stale | replayed | conflict | refused => rfl
  | performed inEpoch lapsed room ran => simp [Turn.performed,inEpoch,lapsed,room] at unperformed

theorem Handled.performed_iff {answer : Option (Answer RpcReply)}
    (handled : Handled blake3 bincode wire turn answer outcome) :
    turn.performed = true ↔ ∃ reply, answer = some (.performed reply) := by
  cases handled with
  | stale stale => simp [Turn.performed,stale]
  | replayed inEpoch live same => simp [Turn.performed,live]
  | conflict inEpoch live other => simp [Turn.performed,live]
  | refused inEpoch lapsed full => simp [Turn.performed,full]
  | performed inEpoch lapsed room ran => simp [Turn.performed,inEpoch,lapsed,room]

theorem Handled.answer_none_iff {answer : Option (Answer RpcReply)}
    (handled : Handled blake3 bincode wire turn answer outcome) :
    answer = none ↔ ¬ turn.before.InEpoch turn.delivery.envelope := by
  cases handled with
  | stale stale => simp [stale]
  | replayed inEpoch | conflict inEpoch | refused inEpoch | performed inEpoch => simp [inEpoch]

end

end Endpoint

end Crayon
