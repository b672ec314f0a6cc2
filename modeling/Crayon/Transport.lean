import Crayon.Exchange
import Crayon.Replay

/-!
How requests travel. A caller takes an idle connection from the pool, or dials,
writes the envelope and reads the reply, all before the deadline; then the
connection goes back to the pool, if there is room. On any error the connection
is dropped, and after a fault of the transport the caller tries once more on a
new one. The server reads the frames of a connection one after the other and
answers each before it reads the next, or closes the connection. Callers and
handlers take turns at the points where they wait (`Net.act`): bytes arrive in
parts, and a fault, a timeout or a close may come at any of these points. There
is one address, and so one list of idle connections.
-/
namespace Crayon
open Exchange

/-! ### Frames -/

section
variable {α : Type} (bincode : Encoding String α)

/-- The bytes that are written for a message. -/
def write_frame (value : α) : Except Error (List UInt8) :=
  match bincode.serialize value with
  | .error message => .error (.Serialization message)
  | .ok bytes => if bytes.length > MAX_FRAME_BYTES then .error (.Protocol "frame too large") else .ok (frame bytes)

/-- What a reader has so far. -/
inductive Received (α : Type) where
  | wait
  | none
  | some (value : α) (rest : List UInt8)

/-- Reads a message from the bytes that have arrived, and whether the peer has closed. -/
def read_frame (ended : Bool) (bytes : List UInt8) : Except Error (Received α) :=
  match scan MAX_FRAME_BYTES ended bytes with
  | .wait => .ok .wait
  | .closed => .ok .none
  | .cut => .error (.Io "early eof")
  | .oversized => .error (.Protocol "frame too large")
  | .body bytes rest =>
    match bincode.deserialize bytes with
    | .ok value => .ok (.some value rest)
    | .error message => .error (.Serialization message)

end

/-! ### Callers, connections and handlers -/

/-- Where a call of `request` is. -/
inductive Phase where
  /-- At the start of an attempt. -/
  | ready (attempt_number : Nat)
  | connecting (attempt_number : Nat)
  | sending (attempt_number stream : Nat) (rest : List UInt8)
  | awaiting (attempt_number stream : Nat)
  /-- Before the second attempt. -/
  | pausing
  | returned (result : Except Error RpcReply)
  | cancelled

structure RpcCall where
  envelope : Envelope
  phase : Phase

/-- Who has the client's end of a connection. -/
inductive Owner where
  | pool
  | call (call : Nat)
  | nobody
deriving DecidableEq

/-- A connection with the calls that use it. -/
structure TcpStream where
  conn : Connection Nat Envelope RpcReply
  owner : Owner

/-- A server: how it answers an envelope, given its state and what it finds outside, and which replies it does not hold back
    while it may still wait for a better one. -/
structure Service (σ ω : Type) where
  dispatch : ω → Envelope → σ → Except Error RpcReply × σ
  ready : Envelope → RpcReply → Bool

structure Net (σ : Type) where
  server : σ
  cluster_id : ClusterId
  streams : Table Nat TcpStream
  calls : Table Nat RpcCall
  /-- The idle connections, the last one to be taken first. -/
  connection_pool : List Nat

def POOL_MAX_PER_ADDR : Nat := 8

/-- Milliseconds until the deadline. -/
def remaining_ms (envelope : Envelope) (now : UInt64) : Nat := envelope.deadline_unix_ms.toNat - now.toNat

/-- After an attempt that ended with an error: only a fault of the transport is tried again, and once. -/
def after_attempt (attempt_number : Nat) : Error → Phase
  | .Io message => if attempt_number = 0 then .pausing else .returned (.error (.Io message))
  | error => .returned (.error error)

namespace Net
variable {σ ω : Type}

/-- What can happen next; `q` is a call, and `c` a connection. -/
inductive Turn (ω : Type) where
  | request (q : Nat) (envelope : Envelope)
  /-- An attempt starts. -/
  | attempt (q : Nat) (now : UInt64)
  /-- The connection `c` has been dialled. -/
  | connect (q c : Nat)
  /-- At most `n` bytes of the envelope are written. -/
  | send (q n : Nat)
  | receive (q : Nat)
  /-- The transport fails. -/
  | fault (q : Nat) (message : String)
  /-- The time for the attempt is up. -/
  | elapse (q : Nat)
  /-- The pause before the second attempt is over, or there is no time for it. -/
  | resume (q : Nat) (now : UInt64)
  /-- The caller gives up. -/
  | cancel (q : Nat)
  | read (c : Nat) (now : UInt64)
  /-- The server dispatches the envelope; `late` tells that it may not wait for a better reply. -/
  | dispatch (c : Nat) (outside : ω) (late : Bool)
  /-- At most `n` bytes of the reply are written. -/
  | write (c n : Nat)
  /-- The handler times out or fails. -/
  | close (c : Nat)

def new (server : σ) (cluster_id : ClusterId) : Net σ := ⟨server,cluster_id,.empty,.empty,[]⟩

section
variable (envelopes : Encoding String Envelope) (replies : Encoding String RpcReply) (service : Service σ ω) (net : Net σ)

/-- The call goes on to another phase. -/
def goes (q : Nat) (call : RpcCall) (phase : Phase) : Net σ := { net with calls := net.calls.insert q { call with phase } }

/-- The client's end of a connection is dropped. -/
def drop_stream (c : Nat) : Net σ :=
  { net with streams := net.streams.modify c fun stream => { stream with owner := .nobody } }

/-- The call has the connection, and is about to write its envelope. -/
def use_stream (q : Nat) (call : RpcCall) (attempt_number c : Nat) (stream : TcpStream) : Net σ :=
  match write_frame envelopes call.envelope with
  | .ok bytes =>
    { net with streams := net.streams.insert c ⟨stream.conn.ask q call.envelope,.call q⟩ }.goes q call
      (.sending attempt_number c bytes)
  | .error error =>
    { net with streams := net.streams.insert c { stream with owner := .nobody } }.goes q call
      (after_attempt attempt_number error)

def attempt (q : Nat) (now : UInt64) : Net σ :=
  match net.calls.get q with
  | some ⟨envelope,.ready attempt_number⟩ =>
    if remaining_ms envelope now = 0 then net.goes q ⟨envelope,.ready attempt_number⟩ (.returned (.error .DeadlineExceeded))
    else
      match if attempt_number = 0 then net.connection_pool.getLast? else none with
      | none => net.goes q ⟨envelope,.ready attempt_number⟩ (.connecting attempt_number)
      | some c =>
        match net.streams.get c with
        | some stream =>
          { net with connection_pool := net.connection_pool.dropLast }.use_stream envelopes q
            ⟨envelope,.ready attempt_number⟩ attempt_number c stream
        | none => net
  | _ => net

def connect (q c : Nat) : Net σ :=
  match net.calls.get q,net.streams.get c with
  | some ⟨envelope,.connecting attempt_number⟩,none =>
    net.use_stream envelopes q ⟨envelope,.connecting attempt_number⟩ attempt_number c ⟨.new,.nobody⟩
  | _,_ => net

def send (q n : Nat) : Net σ :=
  match net.calls.get q with
  | some ⟨envelope,.sending attempt_number c rest⟩ =>
    { net with streams := net.streams.modify c fun stream => { stream with conn := stream.conn.send (rest.take n) } }.goes q
      ⟨envelope,.sending attempt_number c rest⟩
      (if rest.drop n = [] then .awaiting attempt_number c else .sending attempt_number c (rest.drop n))
  | _ => net

/-- The reply is there: the connection goes back to the pool, if there is room. -/
def give_back (q : Nat) (call : RpcCall) (c : Nat) (stream : TcpStream) (reply : RpcReply) (rest : List UInt8) : Net σ :=
  if net.connection_pool.length < POOL_MAX_PER_ADDR then
    { net with
      streams := net.streams.insert c ⟨stream.conn.take rest,.pool⟩
      connection_pool := net.connection_pool ++ [c] }.goes q call (.returned (.ok reply))
  else
    { net with streams := net.streams.insert c ⟨stream.conn.take rest,.nobody⟩ }.goes q call (.returned (.ok reply))

def receive (q : Nat) : Net σ :=
  match net.calls.get q with
  | some ⟨envelope,.awaiting attempt_number c⟩ =>
    match net.streams.get c with
    | some stream =>
      let ended := match stream.conn.handler with
        | .closed => true
        | _ => false
      match read_frame replies ended stream.conn.down with
      | .ok .wait => net
      | .ok (.some reply rest) => net.give_back q ⟨envelope,.awaiting attempt_number c⟩ c stream reply rest
      | .ok .none =>
        (net.drop_stream c).goes q ⟨envelope,.awaiting attempt_number c⟩
          (after_attempt attempt_number (.Io "connection closed before reply"))
      | .error error =>
        (net.drop_stream c).goes q ⟨envelope,.awaiting attempt_number c⟩ (after_attempt attempt_number error)
    | none => net
  | _ => net

/-- The attempt is given up, and its connection with it. -/
def give_up (q : Nat) (call : RpcCall) (phase : Nat → Phase) : Net σ :=
  match call.phase with
  | .connecting attempt_number => net.goes q call (phase attempt_number)
  | .sending attempt_number c _ | .awaiting attempt_number c => (net.drop_stream c).goes q call (phase attempt_number)
  | _ => net

def resume (q : Nat) (now : UInt64) : Net σ :=
  match net.calls.get q with
  | some ⟨envelope,.pausing⟩ =>
    net.goes q ⟨envelope,.pausing⟩ (if remaining_ms envelope now = 0 then .returned (.error .DeadlineExceeded) else .ready 1)
  | _ => net

def cancel (q : Nat) : Net σ :=
  match net.calls.get q with
  | some ⟨_,.returned _⟩ => net
  | some call =>
    match call.phase with
    | .sending _ c _ | .awaiting _ c => (net.drop_stream c).goes q call .cancelled
    | _ => net.goes q call .cancelled
  | none => net

/-! The handler of a connection. -/

def handles (c : Nat) (stream : TcpStream) (conn : Connection Nat Envelope RpcReply) : Net σ :=
  { net with streams := net.streams.insert c { stream with conn } }

def read (c : Nat) (now : UInt64) : Net σ :=
  match net.streams.get c with
  | some stream =>
    match stream.conn.handler with
    | .reading =>
      match read_frame envelopes (stream.owner = .nobody) stream.conn.up with
      | .ok .wait => net
      | .ok (.some envelope rest) =>
        match envelope.validate net.cluster_id now with
        | .ok () => net.handles c stream { stream.conn with up := rest, handler := .serving envelope }
        | .error _ => net.handles c stream { stream.conn with handler := .closed }
      | .ok .none | .error _ => net.handles c stream { stream.conn with handler := .closed }
    | _ => net
  | none => net

def dispatch (c : Nat) (outside : ω) (late : Bool) : Net σ :=
  match net.streams.get c with
  | some stream =>
    match stream.conn.handler with
    | .serving envelope =>
      match service.dispatch outside envelope net.server with
      | (.error _,server) => { net with server }.handles c stream { stream.conn with handler := .closed }
      | (.ok reply,server) =>
        if service.ready envelope reply || late then
          match write_frame replies reply with
          | .ok bytes =>
            { net with server }.handles c stream { stream.conn with
              handler := .writing bytes
              answered := stream.conn.answered ++ [reply] }
          | .error _ => { net with server }.handles c stream { stream.conn with handler := .closed }
        else { net with server }
    | _ => net
  | none => net

def write (c n : Nat) : Net σ :=
  match net.streams.get c with
  | some stream =>
    match stream.conn.handler with
    | .writing rest =>
      net.handles c stream { stream.conn with
        down := stream.conn.down ++ rest.take n
        handler := if rest.drop n = [] then .reading else .writing (rest.drop n) }
    | _ => net
  | none => net

def close (c : Nat) : Net σ :=
  match net.streams.get c with
  | some stream => net.handles c stream { stream.conn with handler := .closed }
  | none => net

def act : Turn ω → Net σ
  | .request q envelope => if net.calls.get q = none then net.goes q ⟨envelope,.ready 0⟩ (.ready 0) else net
  | .attempt q now => net.attempt envelopes q now
  | .connect q c => net.connect envelopes q c
  | .send q n => net.send q n
  | .receive q => net.receive replies q
  | .fault q message =>
    match net.calls.get q with
    | some call => net.give_up q call fun attempt_number => after_attempt attempt_number (.Io message)
    | none => net
  | .elapse q =>
    match net.calls.get q with
    | some call => net.give_up q call fun _ => .returned (.error .DeadlineExceeded)
    | none => net
  | .resume q now => net.resume q now
  | .cancel q => net.cancel q
  | .read c now => net.read envelopes c now
  | .dispatch c outside late => net.dispatch replies service c outside late
  | .write c n => net.write c n
  | .close c => net.close c

/-- What a sequence of turns leads to. -/
def run (turns : List (Turn ω)) : Net σ := turns.foldl (fun net turn => net.act envelopes replies service turn) net

end
end Net

/-- The coordinator as a server of envelopes. A handler that panics closes its connection as one that fails does. -/
def Endpoint.service (blake3 : List UInt8 → Checksum) (bincode : Bincode) (wire : Wire) (min_ready : UInt32) :
    Service Endpoint (Env × UInt64) where
  dispatch outside envelope self :=
    match dispatch_once blake3 bincode wire outside.1 outside.2 envelope self with
    | .ok reply self => (.ok reply,self)
    | .error (.Err error) self => (.error error,self)
    | .error _ self => (.error (.Io "handler panicked"),self)
  ready envelope reply :=
    match parked_until min_ready envelope.body with
    | some ready => ready reply
    | none => true

end Crayon
