import Crayon.Client

/-!
How a client puts bytes. A client on the coordinator's host copies them into the
arena itself, at an offset that it is granted, and then commits them. Any other
client sends them, in one request if they fit or else in chunks that are
committed in the end. Small objects are named by their digest; large ones, and
those sent in chunks, get a random id and no digest.
-/
namespace Crayon

/-- What a client is told about the place reserved for it. -/
structure Grant where
  id : ObjectId
  offset : UInt64
  reservation : RequestId
deriving DecidableEq, Repr

/-- The answer to a reservation: the object is there already, or has a place now. -/
inductive Placement where
  | stored (id : ObjectId)
  | granted (grant : Grant)
deriving DecidableEq, Repr

namespace CoordinatorServer
open Command

/-- A client writes into the mapping. -/
def poke (offset : Nat) (bytes : List UInt8) (self : CoordinatorServer) : CoordinatorServer :=
  { self with arena := { self.arena with map := { self.arena.map with byte := (self.arena.map.write offset bytes).byte } } }

/-- The id and the digest under which bytes are copied into the arena. -/
def content_id (blake3 : List UInt8 → Checksum) (random : ObjectId) (bytes : List UInt8) : ObjectId × Checksum :=
  if bytes.length < 2^20 then (.from_checksum (blake3 bytes),blake3 bytes) else (random,.replicate 32 0)

def reserve_reply : ClientReply → Except Error Placement
  | .Object payload => .ok (.stored payload.id)
  | .ArenaReserved id offset reservation => .ok (.granted ⟨id,offset,reservation⟩)
  | .Error error => .error error
  | _ => .error (.Protocol "unexpected reserve reply")

def commit_reply : ClientReply → Except Error ObjectId
  | .Object payload => .ok payload.id
  | .Error error => .error error
  | _ => .error (.Protocol "unexpected commit reply")

/-- Copies the bytes to their place, if the mapping has it. -/
def copy_wide (grant : Grant) (bytes : Buffer) : Serve Unit := do
  ensure (grant.offset.toNat + bytes.bytes.length ≤ ARENA_BYTES.toNat) (.Protocol "arena offset out of bounds")
  modify (poke grant.offset.toNat bytes.bytes)

section
variable (blake3 : List UInt8 → Checksum) (bincode : Bincode)

/-- What the requests of one put find outside, in turn, is `envs`. -/
def put_arena (envs : Nat → Env) (random : ObjectId) (codec : Codec) (bytes : Buffer) : Serve ObjectId := do
  let (id,checksum) := content_id blake3 random bytes.bytes
  let reply ← dispatch_client blake3 bincode (envs 0) (.ArenaReserve id codec bytes.len checksum .Direct)
  match ← lift (reserve_reply reply) with
  | .stored id => pure id
  | .granted grant =>
    copy_wide grant bytes
    let reply ← dispatch_client blake3 bincode (envs 1) (.ArenaCommit grant.id grant.reservation)
    lift (commit_reply reply)

/-- A part of a buffer. -/
def chunk (bytes : Buffer) (i : Nat) : Buffer where
  bytes := (bytes.bytes.drop (i * MAX_OBJECT_BYTES)).take MAX_OBJECT_BYTES
  len_lt := by
    have short := bytes.len_lt
    rw [List.length_take,List.length_drop]
    omega

/-- Sends the chunks from the `i`-th on. -/
def send_chunks (envs : Nat → Env) (grant : Grant) (bytes : Buffer) (i : Nat) : Serve Unit := do
  if i * MAX_OBJECT_BYTES < bytes.bytes.length then
    match ← dispatch_client blake3 bincode (envs (i + 1))
        (.PutChunk grant.id grant.reservation (.ofNat (i * MAX_OBJECT_BYTES)) (chunk bytes i)) with
    | .ChunkWritten => send_chunks envs grant bytes (i + 1)
    | .Error error => err error
    | _ => err (.Protocol "unexpected put chunk reply")
  else pure ()
termination_by bytes.bytes.length - i * MAX_OBJECT_BYTES
decreasing_by
  have pos : 0 < MAX_OBJECT_BYTES := by decide
  rw [Nat.add_mul]
  omega

def put_chunked (envs : Nat → Env) (random : ObjectId) (codec : Codec) (bytes : Buffer) : Serve ObjectId := do
  let reply ← dispatch_client blake3 bincode (envs 0) (.ArenaReserve random codec bytes.len (.replicate 32 0) .Streamed)
  match ← lift (reserve_reply reply) with
  | .stored id => pure id
  | .granted grant =>
    send_chunks blake3 bincode envs grant bytes 0
    let reply ← dispatch_client blake3 bincode (envs (bytes.bytes.length + 1)) (.ArenaCommit grant.id grant.reservation)
    lift (commit_reply reply)

def put_raw (same_host : Bool) (envs : Nat → Env) (random : ObjectId) (codec : Codec) (bytes : Buffer) : Serve ObjectId :=
  if same_host then put_arena blake3 bincode envs random codec bytes
  else if bytes.bytes.length > MAX_OBJECT_BYTES then put_chunked blake3 bincode envs random codec bytes
  else do
    match ← dispatch_client blake3 bincode (envs 0) (.Put codec bytes) with
    | .Object payload => pure payload.id
    | .Error error => err error
    | _ => err (.Protocol "unexpected put reply")

end
end CoordinatorServer
end Crayon
