import Crayon.Protocol
import Crayon.Region
import Crayon.Table

/-!
The shared-memory arena. One mapping holds the payloads of one host; an object
lives in a slot of it, at a byte offset. A slot is reserved, filled (by the
client itself, or chunk by chunk), committed, and returned to the free list of
its exact size when the object is released, its commit is rolled back, or its
reservation is never committed in time. Arithmetic is that of `u64`, wrapping.
-/
namespace Crayon

/-- Sparse size of the mapping. -/
def ARENA_BYTES : UInt64 := 64 * 1024 * 1024 * 1024

/-- A reading of the monotonic clock, in nanoseconds. -/
abbrev Instant := Nat

/-- How long a reservation may stay uncommitted. -/
def RESERVE_TTL : Nat := 60 * 10^9

def checked_add (a b : UInt64) : Option UInt64 := if a.toNat + b.toNat < 2^64 then some (a + b) else none

def div_ceil (a b : UInt64) : UInt64 := if 0 < a % b then a / b + 1 else a / b

/-- Bytes in memory, of which there are at most `isize::MAX`. -/
structure Buffer where
  bytes : List UInt8
  len_lt : bytes.length < 2^63
deriving DecidableEq, Repr

def Buffer.len (buffer : Buffer) : UInt64 := .ofNat buffer.bytes.length

namespace Arena

structure Entry where
  offset : UInt64
  size : UInt64
  slot : UInt64
  codec : Codec
  checksum : Checksum
  reservation : RequestId
  mode : ArenaWriteMode
  written_until : UInt64
  committed : Bool
  reserved_at : Option Instant
deriving DecidableEq, Repr

structure Reservation where
  offset : UInt64
  reservation : RequestId
  committed : Bool
deriving DecidableEq, Repr

/-- What a get reply needs to know about a committed object. -/
structure Meta where
  offset : UInt64
  size : UInt64
  codec : Codec
  checksum : Checksum
deriving DecidableEq, Repr

def Entry.toMeta (e : Entry) : Meta := ⟨e.offset,e.size,e.codec,e.checksum⟩

/-- The slot of an entry. -/
def Entry.span (e : Entry) : Span := ⟨e.offset.toNat,e.slot.toNat⟩

/-- The bytes of the object in its slot. -/
def Entry.content (e : Entry) : Span := ⟨e.offset.toNat,e.size.toNat⟩

structure Alloc where
  top : UInt64
  /-- For each slot size the offsets to reuse, the next one last. -/
  free : Table UInt64 (List UInt64)
  live : Table ObjectId Entry
deriving DecidableEq

namespace Alloc

/-- Returns the slot of an entry to the free list of its size. -/
def recycle (a : Alloc) (id : ObjectId) (e : Entry) : Alloc where
  top := a.top
  free := a.free.insert e.slot ((a.free.get e.slot).getD [] ++ [e.offset])
  live := a.live.remove id

def expired (now : Instant) (e : Entry) : Bool := e.reserved_at.any fun t => RESERVE_TTL ≤ now - t

/-- Recycles the reservations that were never committed in time. -/
def reap (order : Traversal ObjectId) (now : Instant) (a : Alloc) : Alloc :=
  let ids := (order.list a.live.keys).filter fun id => (a.live.get id).any (expired now)
  ids.foldl (fun a id =>
    match a.live.get id with
    | some e => a.recycle id e
    | none => a) a

/-- An offset for a slot: the last one of its free list, or a new one cut at the top. -/
def allocate (a : Alloc) (slot : UInt64) : Except Error (UInt64 × Alloc) :=
  match (a.free.get slot).bind List.getLast? with
  | some off => .ok (off,{ a with free := a.free.modify slot List.dropLast })
  | none =>
    match checked_add a.top slot with
    | none => .error (.CapacityExceeded "arena exhausted")
    | some next =>
      if next > ARENA_BYTES then .error (.CapacityExceeded "arena exhausted")
      else .ok (a.top,{ a with top := next })

end Alloc
end Arena

open Arena

structure ArenaStore where
  token : String
  map : Memory
  alloc : Alloc

/-- Commands on the arena. -/
abbrev Store (α : Type) := Command Error ArenaStore α

namespace ArenaStore
open Command

/-- A fresh arena: a sparse file of zero bytes. -/
def new (token : String) : ArenaStore := ⟨token,⟨fun _ => 0,[]⟩,⟨0,.empty,.empty⟩⟩

def used_bytes (self : ArenaStore) : UInt64 := self.alloc.top

/-- The size of the slot for an object: rounded up to eight bytes, at least one of them. -/
def slot_for (size : UInt64) : UInt64 := div_ceil (max size 1) 8 * 8

def entry_mut (id : ObjectId) (f : Entry → Entry) : Store Unit :=
  modify fun self => { self with alloc := { self.alloc with live := self.alloc.live.modify id f } }

/-- Copies bytes to an address of the mapping. -/
def write_at (offset : UInt64) (bytes : Buffer) : Store Unit :=
  modify fun self => { self with map := self.map.write offset.toNat bytes.bytes }

/-- Reads bytes at an address of the mapping. -/
def slice (span : Span) : Store (List UInt8) := do
  let bytes := (← get).map.slice span
  modify fun self => { self with map := self.map.touch span }
  pure bytes

/-- The clock is read twice, at `now` and at `later`; `reservation` is a fresh random id. -/
def reserve (order : Traversal ObjectId) (id : ObjectId) (size : UInt64) (codec : Codec) (checksum : Checksum)
    (mode : ArenaWriteMode) (now later : Instant) (reservation : RequestId) : Store Reservation := do
  let slot := slot_for size
  modify fun self => { self with alloc := self.alloc.reap order now }
  let a := (← get).alloc
  match a.live.get id with
  | some entry =>
    ensure (entry.size = size ∧ entry.codec = codec ∧ entry.checksum = checksum ∧ entry.mode = mode) (.ObjectConflict id)
    pure ⟨entry.offset,entry.reservation,entry.committed⟩
  | none =>
    let (offset,a) ← lift (a.allocate slot)
    let entry : Entry :=
      { offset, size, slot, codec, checksum, reservation, mode, written_until := 0, committed := false
        reserved_at := some later }
    modify fun self => { self with alloc := { a with live := a.live.insert id entry } }
    pure ⟨offset,reservation,false⟩

def commit (id : ObjectId) (reservation : RequestId) : Store Meta := do
  let entry ← ok_or ((← get).alloc.live.get id) (.ObjectNotFound id)
  ensure (entry.reservation = reservation) .StaleFence
  ensure (¬ (entry.mode = .Streamed ∧ entry.written_until ≠ entry.size)) (.Protocol "arena object incomplete")
  entry_mut id fun e => { e with committed := true, reserved_at := none }
  pure entry.toMeta

def rollback (id : ObjectId) (reservation : RequestId) : Store Unit := do
  let entry ← ok_or ((← get).alloc.live.get id) (.ObjectNotFound id)
  ensure (entry.reservation = reservation ∧ entry.committed = true) .StaleFence
  modify fun self => { self with alloc := self.alloc.recycle id entry }

/-- Reserves, copies and commits bytes that the coordinator holds already. -/
def put (order : Traversal ObjectId) (id : ObjectId) (bytes : Buffer) (codec : Codec) (checksum : Checksum)
    (now later : Instant) (fresh : RequestId) : Store (Option UInt64) := do
  match ← ok (reserve order id bytes.len codec checksum .Direct now later fresh) with
  | none => pure none
  | some reservation =>
    if reservation.committed then pure (some reservation.offset)
    else
      write_at reservation.offset bytes
      match ← ok (commit id reservation.reservation) with
      | none => pure none
      | some _ => pure (some reservation.offset)

def «meta» (self : ArenaStore) (id : ObjectId) : Option Meta :=
  match self.alloc.live.get id with
  | none => none
  | some e => if e.committed then some e.toMeta else none

def read (id : ObjectId) : Store (Option (List UInt8)) := do
  match (← get).alloc.live.get id with
  | none => pure none
  | some e =>
    if e.committed then
      let bytes ← slice e.content
      pure (some bytes)
    else pure none

def write_chunk (id : ObjectId) (reservation : RequestId) (rel_offset : UInt64) (bytes : Buffer) (now : Instant) :
    Store Unit := do
  let entry ← ok_or ((← get).alloc.live.get id) (.ObjectNotFound id)
  ensure (entry.reservation = reservation ∧ entry.committed = false) .StaleFence
  ensure (entry.mode = .Streamed) (.Protocol "arena reservation is not streamed")
  let stop ← ok_or ((checked_add rel_offset bytes.len).filter (· ≤ entry.size)) (.Protocol "put chunk out of bounds")
  let base := entry.offset + rel_offset
  if rel_offset = entry.written_until then
    write_at base bytes
    entry_mut id fun e => { e with written_until := stop, reserved_at := some now }
  else if stop ≤ entry.written_until then
    let existing ← slice ⟨base.toNat,bytes.bytes.length⟩
    ensure (existing = bytes.bytes) (.ObjectConflict id)
  else err (.Protocol "put chunk must be contiguous")

def read_chunk (id : ObjectId) (rel_offset len : UInt64) : Store (Option (List UInt8)) := do
  match (← get).alloc.live.get id with
  | none => pure none
  | some e =>
    if e.committed then
      match (checked_add rel_offset len).filter (· ≤ e.size) with
      | none => pure none
      | some _ =>
        let bytes ← slice ⟨(e.offset + rel_offset).toNat,len.toNat⟩
        pure (some bytes)
    else pure none

def release (id : ObjectId) : Store Unit := do
  match (← get).alloc.live.get id with
  | some entry => modify fun self => { self with alloc := self.alloc.recycle id entry }
  | none => pure ()

/-! ### Operations as data -/

inductive Op where
  | reserve (id : ObjectId) (size : UInt64) (codec : Codec) (checksum : Checksum) (mode : ArenaWriteMode)
      (now later : Instant) (reservation : RequestId)
  | commit (id : ObjectId) (reservation : RequestId)
  | rollback (id : ObjectId) (reservation : RequestId)
  | put (id : ObjectId) (bytes : Buffer) (codec : Codec) (checksum : Checksum) (now later : Instant)
      (reservation : RequestId)
  | read (id : ObjectId)
  | write_chunk (id : ObjectId) (reservation : RequestId) (rel_offset : UInt64) (bytes : Buffer) (now : Instant)
  | read_chunk (id : ObjectId) (rel_offset len : UInt64)
  | release (id : ObjectId)
  | reap (now : Instant)
deriving DecidableEq, Repr

inductive Reply where
  | Done
  | Reserved (reservation : Reservation)
  | Committed (info : Meta)
  | Offset (offset : Option UInt64)
  | Bytes (bytes : Option (List UInt8))
deriving DecidableEq, Repr

def apply (order : Traversal ObjectId) : Op → Store Reply
  | .reserve id size codec checksum mode now later reservation =>
    .Reserved <$> reserve order id size codec checksum mode now later reservation
  | .commit id reservation => .Committed <$> commit id reservation
  | .rollback id reservation => do rollback id reservation; pure .Done
  | .put id bytes codec checksum now later reservation =>
    .Offset <$> put order id bytes codec checksum now later reservation
  | .read id => .Bytes <$> read id
  | .write_chunk id reservation rel_offset bytes now => do write_chunk id reservation rel_offset bytes now; pure .Done
  | .read_chunk id rel_offset len => .Bytes <$> read_chunk id rel_offset len
  | .release id => do release id; pure .Done
  | .reap now => do modify fun self => { self with alloc := self.alloc.reap order now }; pure .Done

end ArenaStore
end Crayon
