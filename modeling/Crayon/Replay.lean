import Crayon.Server

/-!
How the server takes a request from an envelope. An envelope is checked when it
is read; a mutation must name the coordinator's epoch; and the reply to one that
must not be repeated is kept for a while, under the id of the request, so that a
client that lost the reply gets it again. The cache is locked from the lookup
until the reply is stored, so such requests are handled one after the other. The
clock is read once for the check and once more for the cache.
-/
namespace Crayon

/-! ### Envelopes -/

/-- The letters `CRYN`. -/
def MAGIC : Vector UInt8 4 := #v[0x43,0x52,0x59,0x4e]
def PROTOCOL_MAJOR : UInt16 := 8
def PROTOCOL_MINOR : UInt16 := 0

structure ClusterId where
  bytes : Vector UInt8 16
deriving DecidableEq, Repr

inductive RpcRequest where
  | Client (request : ClientRequest)
  | Worker (request : WorkerRequest)
deriving DecidableEq

inductive RpcReply where
  | Client (reply : ClientReply)
  | Worker (reply : WorkerReply)

structure Envelope where
  magic : Vector UInt8 4
  major : UInt16
  minor : UInt16
  cluster_id : ClusterId
  coordinator_epoch : Option CoordinatorEpoch
  request_id : RequestId
  deadline_unix_ms : UInt64
  body : RpcRequest
deriving DecidableEq

namespace Envelope

def validate (self : Envelope) (expected_cluster : ClusterId) (now_ms : UInt64) : Except Error Unit :=
  if self.magic ≠ MAGIC ∨ self.major ≠ PROTOCOL_MAJOR ∨ self.minor > PROTOCOL_MINOR then
    .error (.Protocol "incompatible protocol")
  else if self.cluster_id ≠ expected_cluster then .error (.Protocol "cluster id mismatch")
  else if self.deadline_unix_ms ≤ now_ms then .error .DeadlineExceeded
  else .ok ()

end Envelope

def request_error (request : RpcRequest) (error : Error) : RpcReply :=
  match request with
  | .Client _ => .Client (.Error error)
  | .Worker _ => .Worker (.Error error)

def is_mutation : RpcRequest → Bool
  | .Client (.Put _ _) => true
  | .Client (.ArenaReserve _ _ _ _ _) => true
  | .Client (.ArenaCommit _ _) => true
  | .Client (.PutChunk _ _ _ _) => true
  | .Client (.Submit _) => true
  | .Client (.SubmitBatch _) => true
  | .Client (.Cancel _) => true
  | .Client (.Release _) => true
  | .Client _ => false
  | .Worker (.Register _) => false
  | .Worker (.Poll _) => false
  | .Worker _ => true

def should_cache : RpcRequest → Bool
  | .Client (.Submit _) => true
  | .Client (.SubmitBatch _) => true
  | .Client (.Cancel _) => true
  | .Client (.Release _) => true
  | _ => false

theorem cached_is_mutation {request : RpcRequest} (cached : should_cache request = true) : is_mutation request = true := by
  revert cached
  fun_cases should_cache request <;> simp [is_mutation]

/-! ### Requests that are parked -/

/-- Ready once the poll returns anything but that there is no work yet. -/
def worker_poll_ready : RpcReply → Bool
  | .Worker (.Assignment none) => false
  | _ => true

/-- Ready once the object resolves. -/
def client_get_ready : RpcReply → Bool
  | .Client (.Error (.ObjectPending _)) => false
  | _ => true

/-- Ready once at least `min_ready` slots are no longer pending. -/
def client_get_batch_ready (reply : RpcReply) (min_ready : UInt32) : Bool :=
  match reply with
  | .Client (.ObjectBatch results) =>
    let ready := results.countP fun
      | .error (.ObjectPending _) => false
      | _ => true
    ready ≥ min_ready.toNat
  | _ => true

/-- Which requests `dispatch_blocking` parks, and until when. -/
def parked_until (min_ready : UInt32) : RpcRequest → Option (RpcReply → Bool)
  | .Worker (.Poll _) => some worker_poll_ready
  | .Client (.Get _) => some client_get_ready
  | .Client (.GetBatch _) => some fun reply => client_get_batch_ready reply min_ready
  | _ => none

/-! ### The cache -/

def MAX_REPLAY_ENTRIES : Nat := 16384
def MAX_REPLAY_BYTES : Nat := 64 * 1024 * 1024
def REPLAY_ENTRY_OVERHEAD : Nat := 40
def MAX_REPLAY_TTL_MS : Nat := 30000

structure ReplayEntry where
  body_hash : Checksum
  reply : RpcReply
  expires_at_ms : UInt64
  bytes : Nat

structure ReplayCache where
  entries : Table RequestId ReplayEntry
  used_bytes : Nat

/-- Commands on the cache. -/
abbrev Replay (α : Type) := Command Error ReplayCache α

namespace ReplayCache
open Command

def new : ReplayCache := ⟨.empty,0⟩

/-- `n - m`, where an underflow panics. -/
def subtract (n m : Nat) : Replay Nat := if m ≤ n then pure (n - m) else panic

def remove (id : RequestId) : Replay Unit := do
  let self ← get
  match self.entries.get id with
  | none => pure ()
  | some entry =>
    set { self with entries := self.entries.remove id }
    let used_bytes ← subtract self.used_bytes (entry.bytes + REPLAY_ENTRY_OVERHEAD)
    modify fun self => { self with used_bytes }

def insert (id : RequestId) (entry : ReplayEntry) : Replay Unit :=
  modify fun self =>
    { used_bytes := self.used_bytes + (entry.bytes + REPLAY_ENTRY_OVERHEAD)
      entries := self.entries.insert id entry }

def at_capacity (self : ReplayCache) : Bool :=
  self.entries.len ≥ MAX_REPLAY_ENTRIES || self.used_bytes ≥ MAX_REPLAY_BYTES

/-- Drops the entries that have expired. -/
def sweep (now : UInt64) : Replay Unit := do
  let self ← get
  let freed := self.entries.sum fun entry => if entry.expires_at_ms > now then 0 else entry.bytes + REPLAY_ENTRY_OVERHEAD
  set { self with entries := self.entries.retain fun entry => entry.expires_at_ms > now }
  let used_bytes ← subtract self.used_bytes freed
  modify fun self => { self with used_bytes }

end ReplayCache

/-- When the reply to a request handled now expires. -/
def expires_at_ms (now deadline_unix_ms : UInt64) : UInt64 :=
  .ofNat (saturating_add now.toNat (min (deadline_unix_ms.toNat - now.toNat) MAX_REPLAY_TTL_MS))

/-- The end of retention is at most the deadline or now, so that nothing saturates. -/
theorem expires_at_ms_toNat (now deadline_unix_ms : UInt64) :
    (expires_at_ms now deadline_unix_ms).toNat =
      now.toNat + min (deadline_unix_ms.toNat - now.toNat) MAX_REPLAY_TTL_MS := by
  have early := now.toNat_lt
  have late := deadline_unix_ms.toNat_lt
  rw [expires_at_ms,saturating_add,UInt64.toNat_ofNat']
  omega

/-! ### Requests -/

/-- How messages are encoded: the bytes of a request, and the length of a reply. -/
structure Wire where
  body : RpcRequest → List UInt8
  reply_len : RpcReply → Nat

/-- The server with what it needs to take envelopes. -/
structure Endpoint where
  cluster_id : ClusterId
  server : CoordinatorServer
  replay : ReplayCache

namespace Endpoint
open Command

def on_server {α : Type} (m : Serve α) : Command Error Endpoint α :=
  within (fun self => self.server) (fun server self => { self with server }) m

def on_replay {α : Type} (m : Replay α) : Command Error Endpoint α :=
  within (fun self => self.replay) (fun replay self => { self with replay }) m

def validate_epoch (envelope : Envelope) : Command Error Endpoint Unit := do
  let self ← get
  match envelope.coordinator_epoch with
  | some epoch => ensure (epoch = self.server.epoch) .StaleEpoch
  | none => err (.Protocol "mutation requires coordinator epoch")

section
variable (blake3 : List UInt8 → Checksum) (bincode : Bincode) (wire : Wire) (env : Env)

/-- Handles a request from its start to its end. -/
def dispatch : RpcRequest → Serve RpcReply
  | .Client request => do pure (.Client (← CoordinatorServer.dispatch_client blake3 bincode env request))
  | .Worker request => do pure (.Worker (← CoordinatorServer.dispatch_worker blake3 env request))

/-- Handles a request that the cache has no reply to, if there is room for the reply. -/
def dispatch_cached (now : UInt64) (envelope : Envelope) (body_hash : Checksum) : Command Error Endpoint RpcReply := do
  if (← get).replay.at_capacity then on_replay (ReplayCache.sweep now)
  if (← get).replay.at_capacity then
    pure (request_error envelope.body (.CapacityExceeded "replay cache limit reached"))
  else
    let reply ← on_server (dispatch blake3 bincode env envelope.body)
    on_replay (ReplayCache.insert envelope.request_id
      { body_hash
        reply
        expires_at_ms := expires_at_ms now envelope.deadline_unix_ms
        bytes := wire.reply_len reply })
    pure reply

def dispatch_once (now : UInt64) (envelope : Envelope) : Command Error Endpoint RpcReply := do
  if is_mutation envelope.body then validate_epoch envelope
  if should_cache envelope.body = false then on_server (dispatch blake3 bincode env envelope.body)
  else
    let body_hash := blake3 (wire.body envelope.body)
    match (← get).replay.entries.get envelope.request_id with
    | some entry =>
      if entry.expires_at_ms ≤ now then
        on_replay (ReplayCache.remove envelope.request_id)
        dispatch_cached blake3 bincode wire env now envelope body_hash
      else if entry.body_hash ≠ body_hash then
        pure (request_error envelope.body (.Protocol "request id reused with different body"))
      else pure entry.reply
    | none => dispatch_cached blake3 bincode wire env now envelope body_hash

/-- Dispatches once; and whether the state advanced, so that parked requests are woken. -/
def dispatch_and_notify (now : UInt64) (envelope : Envelope) : Command Error Endpoint (RpcReply × Bool) := do
  let before := (← get).server.state.revision
  let reply ← dispatch_once blake3 bincode wire env now envelope
  pure (reply,(← get).server.state.revision ≠ before)

/-- Reads one envelope; an error closes the connection without a reply. -/
def handle (validated now : UInt64) (envelope : Envelope) : Command Error Endpoint RpcReply := do
  lift (envelope.validate (← get).cluster_id validated)
  dispatch_once blake3 bincode wire env now envelope

end

end Endpoint
end Crayon
