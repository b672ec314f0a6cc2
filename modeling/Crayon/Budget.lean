import Crayon.Retries

/-!
What the replay cache may grow to. The bytes in use are always those of the
entries: an entry is only stored under an id that has none, since a call drops
the expired one first and is answered from any other. There is room for one more
entry whenever one is stored, so there are never too many, and the bytes pass
their limit by at most the last reply that was stored (`Budgeted`).
-/
namespace Crayon

namespace ReplayCache
open Command
variable {wire : Wire} {cache cache' : ReplayCache} {id : RequestId} {now : UInt64}

/-- The cache keeps count and stays within its limits. -/
structure Budgeted (wire : Wire) (cache : ReplayCache) : Prop where
  balanced : Balanced cache
  few : cache.entries.len ≤ MAX_REPLAY_ENTRIES
  sized : ∀ id entry, cache.entries.get id = some entry → entry.bytes = wire.reply_len entry.reply
  /-- Without one of the entries the bytes are below their limit. -/
  small : cache.used_bytes < MAX_REPLAY_BYTES ∨
    ∃ id entry, cache.entries.get id = some entry ∧ cache.used_bytes < MAX_REPLAY_BYTES + weight entry

theorem new_budgeted (wire : Wire) : Budgeted wire new where
  balanced := rfl
  few := Nat.zero_le _
  sized := by simp [new]
  small := .inl (by decide)

/-- Dropping entries does no harm. -/
theorem Budgeted.part (budgeted : Budgeted wire cache) (balanced : Balanced cache')
    (part : ∀ id entry, cache'.entries.get id = some entry → cache.entries.get id = some entry) : Budgeted wire cache' where
  balanced := balanced
  few := (Finset.card_le_card (Table.keys_subset_of_part part)).trans budgeted.few
  sized id entry found := budgeted.sized id entry (part id entry found)
  small := by
    have fewer : cache'.used_bytes ≤ cache.used_bytes := by
      rw [balanced,budgeted.balanced]
      exact Table.sum_le_of_part part weight
    rcases budgeted.small with low | ⟨id,entry,found,low⟩
    · exact .inl (fewer.trans_lt low)
    cases kept : cache'.entries.get id with
    | some entry' =>
      obtain rfl : entry' = entry := Option.some.inj ((part id entry' kept).symm.trans found)
      exact .inr ⟨id,entry',kept,fewer.trans_lt low⟩
    | none =>
      have freed := Table.sum_add_le_of_part part found kept weight
      rw [← balanced,← budgeted.balanced] at freed
      exact .inl (by omega)

theorem cleared_part (balanced : Balanced cache) (key : RequestId) (entry : ReplayEntry)
    (found : (cache.cleared id now).entries.get key = some entry) : cache.entries.get key = some entry := by
  obtain ⟨first,ran,balanced',entries⟩ := remove_ends balanced id
  have removed : ∀ key entry, first.entries.get key = some entry → cache.entries.get key = some entry := by
    intro key entry found
    rw [entries,Table.get_remove] at found
    split at found
    · cases found
    · exact found
  rw [cleared,ran,Outcome.state_ok] at found
  split at found
  · obtain ⟨second,ran',_,entries'⟩ := sweep_ends balanced' now
    rw [ran',Outcome.state_ok,entries',Table.get_retain] at found
    exact removed key entry (Option.filter_eq_some_iff.mp found).1
  · exact removed key entry found

theorem Budgeted.cleared (budgeted : Budgeted wire cache) (lapsed : cache.live id now = none) :
    Budgeted wire (cache.cleared id now) :=
  budgeted.part (cleared_forgets budgeted.balanced lapsed).1 (cleared_part budgeted.balanced)

/-- An entry may be stored when the cache is not at its capacity. -/
theorem Budgeted.insert (budgeted : Budgeted wire cache) (absent : cache.entries.get id = none)
    (room : cache.at_capacity = false) {entry : ReplayEntry} (sized : entry.bytes = wire.reply_len entry.reply) :
    Budgeted wire (Outcome.state (ReplayCache.insert id entry cache)) := by
  simp only [at_capacity,Bool.or_eq_false_iff,decide_eq_false_iff_not,not_le] at room
  refine ⟨insert_balanced budgeted.balanced absent entry,?_,fun key stored found => ?_,.inr ⟨id,entry,?_,?_⟩⟩
  · exact (Finset.card_insert_le id cache.entries.keys).trans room.1
  · rw [ReplayCache.insert,modify_apply,Outcome.state_ok,Table.get_insert] at found
    split at found
    · cases found
      exact sized
    · exact budgeted.sized key stored found
  · simp [ReplayCache.insert]
  · change cache.used_bytes + weight entry < MAX_REPLAY_BYTES + weight entry
    exact Nat.add_lt_add_right room.2 _

end ReplayCache

namespace Endpoint
open Command ReplayCache
variable {blake3 : List UInt8 → Checksum} {bincode : Bincode} {wire : Wire} {e : Endpoint}

/-- What a call does to the cache. -/
inductive Caches (wire : Wire) (cache : ReplayCache) : ReplayCache → Prop where
  | same : Caches wire cache cache
  | cleared {id : RequestId} {now : UInt64} (lapsed : cache.live id now = none) : Caches wire cache (cache.cleared id now)
  | stored {id : RequestId} {now : UInt64} {entry : ReplayEntry} (lapsed : cache.live id now = none)
      (room : (cache.cleared id now).at_capacity = false) (sized : entry.bytes = wire.reply_len entry.reply) :
      Caches wire cache (Outcome.state (ReplayCache.insert id entry (cache.cleared id now)))

theorem Caches.budgeted {cache cache' : ReplayCache} (caches : Caches wire cache cache') (budgeted : Budgeted wire cache) :
    Budgeted wire cache' := by
  cases caches with
  | same => exact budgeted
  | cleared lapsed => exact budgeted.cleared lapsed
  | stored lapsed room sized =>
    exact (budgeted.cleared lapsed).insert (cleared_forgets budgeted.balanced lapsed).2.2 room sized

/-- A call that stops does so in the handler of its request, or because the epoch is not the coordinator's. -/
def Stops (blake3 : List UInt8 → Checksum) (bincode : Bincode) (e : Endpoint) (d : Delivery) (fault : Fault Error) : Prop :=
  (∃ server, dispatch blake3 bincode d.env d.envelope.body e.server = .error fault server) ∨
    ¬ e.InEpoch d.envelope ∧ fault = .Err (epoch_error d.envelope)

theorem stops_ok {d : Delivery} (reply : RpcReply) (after : Endpoint) (fault : Fault Error) (e' : Endpoint)
    (stopped : (.ok reply after : Outcome Error Endpoint RpcReply) = .error fault e') : Stops blake3 bincode e d fault := by
  cases stopped

theorem dispatch_once_uncached {d : Delivery} (inEpoch : is_mutation d.envelope.body = true → e.InEpoch d.envelope)
    (uncached : should_cache d.envelope.body = false) :
    dispatch_once blake3 bincode wire d.env d.now d.envelope e =
      on_server (dispatch blake3 bincode d.env d.envelope.body) e := by
  by_cases mutation : is_mutation d.envelope.body = true
  · simp only [dispatch_once,mutation,if_true,bind_apply,validate_epoch_of (inEpoch mutation),uncached]
  · simp only [dispatch_once,mutation,if_false,Bool.false_eq_true,uncached,if_true]

/-- One call: what it does to the cache, and where it may stop. In particular it does not stop at a subtraction. -/
theorem dispatch_once_caches (blake3 : List UInt8 → Checksum) (bincode : Bincode) (balanced : Balanced e.replay) (d : Delivery) :
    Caches wire e.replay (Outcome.state (dispatch_once blake3 bincode wire d.env d.now d.envelope e)).replay ∧
      ∀ fault e', dispatch_once blake3 bincode wire d.env d.now d.envelope e = .error fault e' →
        Stops blake3 bincode e d fault := by
  by_cases inEpoch : is_mutation d.envelope.body = true → e.InEpoch d.envelope
  swap
  · obtain ⟨mutation,stale⟩ := Classical.not_imp.mp inEpoch
    rw [dispatch_once_stale mutation stale]
    refine ⟨.same,?_⟩
    rintro fault e' ⟨⟩
    exact .inr ⟨stale,rfl⟩
  by_cases cached : should_cache d.envelope.body = true
  swap
  · rw [dispatch_once_uncached inEpoch (Bool.eq_false_iff.mpr cached),on_server,within]
    cases ran : dispatch blake3 bincode d.env d.envelope.body e.server with
    | ok reply server => exact ⟨.same,stops_ok _ _⟩
    | error fault server =>
      refine ⟨.same,?_⟩
      rintro fault e' ⟨⟩
      exact .inl ⟨server,ran⟩
  have named := inEpoch (cached_is_mutation cached)
  cases live : e.replay.live d.envelope.request_id d.now with
  | some entry =>
    rw [dispatch_once_held cached named live]
    exact ⟨.same,stops_ok _ _⟩
  | none =>
    rw [dispatch_once_free cached named balanced live]
    dsimp only
    by_cases full : (e.replay.cleared d.envelope.request_id d.now).at_capacity = true
    · rw [if_pos full]
      exact ⟨.cleared live,stops_ok _ _⟩
    rw [if_neg full]
    cases ran : dispatch blake3 bincode d.env d.envelope.body e.server with
    | ok reply server => exact ⟨.stored live (Bool.eq_false_iff.mpr full) rfl,stops_ok _ _⟩
    | error fault server =>
      refine ⟨.cleared live,?_⟩
      rintro fault e' ⟨⟩
      exact .inl ⟨server,ran⟩

/-- What calls lead to from an empty cache, with any requests at any clock readings. Between them the server may
    change in any way. -/
inductive Called (blake3 : List UInt8 → Checksum) (bincode : Bincode) (wire : Wire) : Endpoint → Prop where
  | start (cluster_id : ClusterId) (server : CoordinatorServer) : Called blake3 bincode wire ⟨cluster_id,server,.new⟩
  | call {e : Endpoint} (called : Called blake3 bincode wire e) (d : Delivery) :
      Called blake3 bincode wire (Outcome.state (dispatch_once blake3 bincode wire d.env d.now d.envelope e))
  | other {e : Endpoint} (called : Called blake3 bincode wire e) (server : CoordinatorServer) :
      Called blake3 bincode wire { e with server }

theorem Called.budgeted (called : Called blake3 bincode wire e) : Budgeted wire e.replay := by
  induction called with
  | start => exact new_budgeted wire
  | call called d ih => exact (dispatch_once_caches blake3 bincode ih.balanced d).1.budgeted ih
  | other called server ih => exact ih

/-- The cache counts its bytes exactly and no subtraction underflows; it has at most so many entries, and at most
    so many bytes beside one reply. -/
theorem replay_within_budget (called : Called blake3 bincode wire e) :
    e.replay.used_bytes = e.replay.entries.sum (fun entry => entry.bytes + REPLAY_ENTRY_OVERHEAD) ∧
    (∀ id now, Outcome.Clean (remove id e.replay) ∧ Outcome.Clean (sweep now e.replay)) ∧
    (∀ d fault e', dispatch_once blake3 bincode wire d.env d.now d.envelope e = .error fault e' →
      Stops blake3 bincode e d fault) ∧
    e.replay.entries.len ≤ MAX_REPLAY_ENTRIES ∧
    (e.replay.used_bytes ≤ MAX_REPLAY_BYTES - 1 ∨ ∃ id entry, e.replay.entries.get id = some entry ∧
      e.replay.used_bytes ≤ MAX_REPLAY_BYTES - 1 + (wire.reply_len entry.reply + REPLAY_ENTRY_OVERHEAD)) := by
  have budgeted := called.budgeted
  refine ⟨budgeted.balanced,fun id now => ⟨?_,?_⟩,fun d => (dispatch_once_caches blake3 bincode budgeted.balanced d).2,
    budgeted.few,?_⟩
  · obtain ⟨cache,ran,_⟩ := remove_ends budgeted.balanced id
    rw [ran]
    trivial
  · obtain ⟨cache,ran,_⟩ := sweep_ends budgeted.balanced now
    rw [ran]
    trivial
  · rcases budgeted.small with low | ⟨id,entry,found,low⟩
    · exact .inl (Nat.le_sub_one_of_lt low)
    · have some : 0 < MAX_REPLAY_BYTES := by decide
      rw [weight,budgeted.sized id entry found] at low
      exact .inr ⟨id,entry,found,by omega⟩

/-- The cache once a first submission is handled. -/
def submittedOnce : Endpoint := Outcome.state (Host.firstTurn 60000).outcome

theorem first_reply_counted : submittedOnce.replay.entries.len = 1 ∧
    submittedOnce.replay.used_bytes = submittedOnce.replay.entries.sum (fun entry => entry.bytes + REPLAY_ENTRY_OVERHEAD) :=
  ⟨by decide +kernel,(replay_within_budget ((Called.start Host.smallCluster Host.readyHost.system.server).call
    (Host.submitting 1 60000 0 0) : Called Host.submitHash .fixint Host.submitWire submittedOnce)).1⟩

end Endpoint
end Crayon
