import Crayon.Server

/-!
How a client gets the bytes of an object that a reply tells it about: they came
with the reply, or they lie in the arena, which a client on the same host maps,
or they are fetched from the coordinator or from the worker that has them, in
one piece or in chunks. All requests of one fetch find the coordinator in the
same state here (`Site`).
-/
namespace Crayon

/-- Why a request got no reply. -/
inductive Transport where
  | Io (message : String)
  | DeadlineExceeded
  | Serialization (message : String)
  | Protocol (message : String)
deriving DecidableEq, Repr

def Transport.toError : Transport → Error
  | .Io message => .Io message
  | .DeadlineExceeded => .DeadlineExceeded
  | .Serialization message => .Serialization message
  | .Protocol message => .Protocol message

/-- What answers at addresses other than the coordinator's. Nothing can be reached without a port. -/
structure Network where
  reply : String → ClientRequest → Except Transport ClientReply
  portless : ∀ address body, ':' ∉ address.toList →
    reply address body = .error .DeadlineExceeded ∨ ∃ message, reply address body = .error (.Io message)

structure ClusterClient where
  /-- The address of the coordinator. -/
  address : String
  port : ':' ∈ address.toList
  /-- Whether the coordinator's arena is on this host and can be mapped. -/
  same_host : Bool

/-- A client, the coordinator in some state, and the other hosts. -/
structure Site where
  blake3 : List UInt8 → Checksum
  bincode : Bincode
  env : Env
  server : CoordinatorServer
  net : Network
  client : ClusterClient

def verify_object (blake3 : List UInt8 → Checksum) (requested returned : ObjectId) (bytes : List UInt8) (expected : Checksum)
    (size : UInt64) : Except Error Unit :=
  if requested ≠ returned ∨ UInt64.ofNat bytes.length ≠ size then .error (.ObjectConflict requested)
  -- All zeros: the object was stored unhashed.
  else if expected ≠ .replicate 32 0 ∧ blake3 bytes ≠ expected then .error (.ObjectConflict requested)
  else .ok ()

namespace Site

def request (site : Site) (address : String) (body : ClientRequest) : Except Error ClientReply :=
  if address = site.client.address then
    match CoordinatorServer.dispatch_client site.blake3 site.bincode site.env body site.server with
    | .ok reply _ => .ok reply
    | .error _ _ => .error (.Io "connection closed before reply")
  else (site.net.reply address body).mapError Transport.toError

def arena_map (site : Site) (token : String) : Option Memory :=
  if site.client.same_host ∧ token = site.server.arena.token then some site.server.arena.map else none

/-- The bytes of an object as they lie in the mapping, if it is mapped and has room for them there. -/
def mapped (site : Site) (payload : ObjectPayload) : Option (List UInt8) :=
  match payload.arena with
  | none => none
  | some arena_ref =>
    match site.arena_map arena_ref.token with
    | none => none
    | some map =>
      if saturating_add arena_ref.offset.toNat payload.size_bytes.toNat ≤ ARENA_BYTES.toNat then
        some (map.slice ⟨arena_ref.offset.toNat,payload.size_bytes.toNat⟩)
      else none

theorem toNat_min (a b : UInt64) : (min a b).toNat = min a.toNat b.toNat := by
  show (if a ≤ b then a else b).toNat = _
  split
  · rename_i le
    rw [min_eq_left (UInt64.le_iff_toNat_le.mp le)]
  · rename_i gt
    rw [min_eq_right (UInt64.le_iff_toNat_le.mp (UInt64.le_of_lt (UInt64.not_le.mp gt)))]

/-- How long the chunk at an offset is. -/
theorem chunk_len_toNat {offset size_bytes : UInt64} (inside : offset ≤ size_bytes) :
    (min (size_bytes - offset) (.ofNat MAX_OBJECT_BYTES)).toNat = min (size_bytes.toNat - offset.toNat) MAX_OBJECT_BYTES := by
  have limit : (UInt64.ofNat MAX_OBJECT_BYTES).toNat = MAX_OBJECT_BYTES := by decide
  rw [toNat_min,UInt64.toNat_sub_of_le _ _ inside,limit]

/-- A chunk has at least one byte, ends with the object at the latest, and leaves less to fetch. -/
theorem chunk_len_bounds {offset size_bytes : UInt64} (more : offset < size_bytes) :
    0 < (min (size_bytes - offset) (.ofNat MAX_OBJECT_BYTES)).toNat ∧
      (offset + min (size_bytes - offset) (.ofNat MAX_OBJECT_BYTES)).toNat =
        offset.toNat + (min (size_bytes - offset) (.ofNat MAX_OBJECT_BYTES)).toNat ∧
      (size_bytes - (offset + min (size_bytes - offset) (.ofNat MAX_OBJECT_BYTES))).toNat < (size_bytes - offset).toNat := by
  have below := UInt64.lt_iff_toNat_lt.mp more
  have bound := size_bytes.toNat_lt
  have pos : 0 < MAX_OBJECT_BYTES := by decide
  have length := chunk_len_toNat (UInt64.le_of_lt more)
  generalize min (size_bytes - offset) (.ofNat MAX_OBJECT_BYTES) = len at length
  have sum : (offset + len).toNat = offset.toNat + len.toNat := by
    rw [UInt64.toNat_add,Nat.mod_eq_of_lt (by omega)]
  refine ⟨by omega,sum,?_⟩
  rw [UInt64.toNat_sub_of_le _ _ (UInt64.le_iff_toNat_le.mpr (by omega)),UInt64.toNat_sub_of_le _ _ (UInt64.le_of_lt more),sum]
  omega

/-- Fetches what is still missing from `offset` on. -/
def get_chunked (site : Site) (id : ObjectId) (size_bytes : UInt64) (source : String) (offset : UInt64) (out : List UInt8) :
    Except Error (List UInt8) :=
  if offset < size_bytes then
    let len := min (size_bytes - offset) (.ofNat MAX_OBJECT_BYTES)
    match site.request source (.GetChunk id offset len) with
    | .error error => .error error
    | .ok (.Chunk bytes) =>
      if UInt64.ofNat bytes.length = len then get_chunked site id size_bytes source (offset + len) (out ++ bytes)
      else .error (.ObjectConflict id)
    | .ok (.Error error) => .error error
    | .ok _ => .error (.ObjectConflict id)
  else .ok out
termination_by (size_bytes - offset).toNat
decreasing_by exact (chunk_len_bounds (by assumption)).2.2

/-- The bytes of a reply to a fetch, if they are those of the object. -/
def accept (site : Site) (payload : ObjectPayload) : ClientReply → Except Error (Codec × List UInt8)
  | .Object { id, codec, size_bytes, checksum, location := _, bytes := some bytes, arena := _ } =>
    if codec = payload.codec ∧ checksum = payload.checksum ∧ size_bytes = payload.size_bytes then do
      verify_object site.blake3 payload.id id bytes payload.checksum payload.size_bytes
      pure (payload.codec,bytes)
    else .error (.ObjectConflict payload.id)
  | _ => .error (.ObjectConflict payload.id)

def payload_bytes (site : Site) (payload : ObjectPayload) : Except Error (Codec × List UInt8) :=
  match payload.bytes with
  | some bytes => do
    verify_object site.blake3 payload.id payload.id bytes payload.checksum payload.size_bytes
    pure (payload.codec,bytes)
  | none =>
    match site.mapped payload with
    | some bytes => pure (payload.codec,bytes)
    | none =>
      -- What lies in the arena is at the coordinator, and a worker's output at the worker.
      let source := if payload.arena.isSome then site.client.address else payload.location
      if payload.arena.isSome ∧ payload.size_bytes > .ofNat MAX_OBJECT_BYTES then do
        let bytes ← site.get_chunked payload.id payload.size_bytes source 0 []
        verify_object site.blake3 payload.id payload.id bytes payload.checksum payload.size_bytes
        pure (payload.codec,bytes)
      else do
        let reply ← site.request source (.GetLocal payload.id)
        site.accept payload reply

end Site
end Crayon
