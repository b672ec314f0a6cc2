import Crayon.Client
import Crayon.Batches

/-!
Fetching one object at a time and fetching a batch. A reply to a single get sends
the client to the arena whenever the arena has the object (`arena_annotate`); a
slot of a batch never does. So the two lead to the same bytes exactly when the
arena does not have the object, or what is found there is what is found on the
other way (`Agree`).
-/
namespace Crayon

namespace CoordinatorState
open Command
variable {blake3 : List UInt8 → Checksum} {s : CoordinatorState} {id : ObjectId} {payload : ObjectPayload}

/-- What is known of the payload that a record of an available object gives. -/
structure Vouched (blake3 : List UInt8 → Checksum) (payload : ObjectPayload) : Prop where
  arena : payload.arena = none
  inline : ∀ bytes, payload.bytes = some bytes → payload.size_bytes = .ofNat bytes.length ∧
    payload.checksum = blake3 bytes ∧ payload.size_bytes ≤ .ofNat MAX_OBJECT_BYTES
  place : payload.location = "coordinator" ∨
    (':' ∈ payload.location.toList ∧ payload.size_bytes ≤ .ofNat MAX_OBJECT_BYTES)

/-- The object has a record that tells what the payload has. -/
def Lists (s : CoordinatorState) (payload : ObjectPayload) : Prop :=
  ∃ object, s.objects.get payload.id = some object ∧ object.state = .Available ∧ object.codec = some payload.codec ∧
    object.size_bytes = some payload.size_bytes ∧ object.checksum = some payload.checksum ∧
    object.location = some payload.location ∧ object.bytes = payload.bytes ∧ payload.arena = none

theorem resolve_object_lists (resolved : resolve_object id s = .ok payload s) : payload.id = id ∧ Lists s payload := by
  cases found : s.objects.get id with
  | none => simp [resolve_object,found] at resolved
  | some object =>
  cases available : object.state with
  | Available =>
    cases codec : object.codec with
    | none => simp [resolve_object,found,available,codec] at resolved
    | some _ =>
    cases size : object.size_bytes with
    | none => simp [resolve_object,found,available,codec,size] at resolved
    | some _ =>
    cases digest : object.checksum with
    | none => simp [resolve_object,found,available,codec,size,digest] at resolved
    | some _ =>
    cases place : object.location with
    | none => simp [resolve_object,found,available,codec,size,digest,place] at resolved
    | some _ =>
    rw [resolve_object_available found available codec size digest place] at resolved
    obtain rfl := (EStateM.Result.ok.inj resolved).1
    exact ⟨rfl,object,found,available,codec,size,digest,place,rfl,rfl⟩
  | _ => simp [resolve_object,found,available] at resolved

/-- There is one payload at most for an object. -/
theorem Lists.unique {payload' : ObjectPayload} (lists : Lists s payload) (lists' : Lists s payload')
    (same : payload.id = payload'.id) : payload = payload' := by
  obtain ⟨object,found,_,codec,size,digest,place,inline,bare⟩ := lists
  obtain ⟨object',found',_,codec',size',digest',place',inline',bare'⟩ := lists'
  obtain rfl := Option.some.inj (found.symm.trans (same ▸ found'))
  cases payload
  cases payload'
  simp_all

theorem Lists.vouched (lists : Lists s payload) (filed : Filed blake3 s) : Vouched blake3 payload := by
  obtain ⟨object,found,available,_,hasSize,hasDigest,hasPlace,hasBytes,bare⟩ := lists
  have certified := filed payload.id object found available
  refine ⟨bare,fun bytes inline => ?_,?_⟩
  · obtain ⟨size,digest,small⟩ := certified.inline bytes (hasBytes.trans inline)
    have same := Option.some.inj (hasSize.symm.trans size)
    exact ⟨same,Option.some.inj (hasDigest.symm.trans digest),same ▸ small⟩
  · rcases certified.place with here | ⟨location,size_bytes,there,port,size,small⟩
    · exact .inl (Option.some.inj (hasPlace.symm.trans here))
    · obtain rfl := Option.some.inj (hasPlace.symm.trans there)
      obtain rfl := Option.some.inj (hasSize.symm.trans size)
      exact .inr ⟨port,small⟩

end CoordinatorState

namespace CoordinatorServer
open CoordinatorState Command
variable {s : CoordinatorServer} {id : ObjectId} {payload : ObjectPayload}

theorem get_object_ok {blake3 : List UInt8 → Checksum} {bincode : Bincode} {env : Env}
    (resolved : resolve_object id s.state = .ok payload s.state) :
    dispatch_client blake3 bincode env (.Get id) s = .ok (.Object (s.arena_annotate payload)) s := by
  simp only [dispatch_client,get_object,bind_apply,attempt,on_state,within,resolved,get_apply,pure_apply]

/-- A slot of a batch that is a payload is the object's own. -/
theorem get_batch_ok {bincode : Bincode} {objects : List ObjectId} {results : List (Except Error ObjectPayload)}
    {s' : CoordinatorServer} (replied : get_batch bincode objects s = .ok (.ObjectBatch results) s') {i : Nat}
    (asked : objects[i]? = some id) (slot : results[i]? = some (.ok payload)) :
    resolve_object id s.state = .ok payload s.state := by
  rw [get_batch] at replied
  split at replied
  · cases (EStateM.Result.ok.inj replied).1
  · obtain ⟨results',t,ran,done⟩ := bind_ok replied
    cases (EStateM.Result.ok.inj done).1
    rw [on_state,within] at ran
    split at ran
    · rename_i filled
      cases (EStateM.Result.ok.inj ran).1
      obtain ⟨answer,resolves,same | ⟨gone,_⟩⟩ := (batch_slots_filled filled).slot asked
      · obtain rfl := Option.some.inj (same.symm.trans slot)
        exact attempt_ok resolves
      · cases gone.symm.trans slot
    · cases ran

/-- A batch of one object that fits a frame. -/
theorem get_batch_one {bincode : Bincode} (resolved : resolve_object id s.state = .ok payload s.state)
    (room : bincode.batch + bincode.slot overflow ≤ MAX_FRAME_BYTES)
    (fits : bincode.batch + bincode.slot (.ok payload) ≤ MAX_FRAME_BYTES) :
    get_batch bincode [id] s = .ok (.ObjectBatch [.ok payload]) s := by
  have limit : MAX_FRAME_BYTES < 2^64 - 1 := by decide
  have starts : ¬ saturating_add bincode.batch (saturating_mul (bincode.slot overflow) [id].length) > MAX_FRAME_BYTES := by
    rw [saturating_add,saturating_mul,List.length_singleton]
    omega
  have stays : saturating_add (saturating_add bincode.batch (bincode.slot (.ok payload)))
      (saturating_mul ([] : List ObjectId).length (bincode.slot overflow)) ≤ MAX_FRAME_BYTES := by
    rw [saturating_add,saturating_add,saturating_mul,List.length_nil,Nat.zero_mul]
    omega
  simp only [get_batch,starts,if_false,bind_apply,on_state,within,batch_slots,attempt,resolved,stays,if_true,pure_apply]

end CoordinatorServer

namespace Site
open CoordinatorState (Vouched resolve_object)
open CoordinatorServer Command
variable {site : Site} {id : ObjectId} {payload : ObjectPayload} {e : Arena.Entry} {bytes : List UInt8}

/-! ### What the ways lead to -/

/-- A client of the coordinator's host reads the object straight out of the mapping. -/
def Near (site : Site) (e : Arena.Entry) (size_bytes : UInt64) : Prop :=
  site.client.same_host = true ∧ e.offset.toNat + size_bytes.toNat ≤ ARENA_BYTES.toNat

instance (site : Site) (e : Arena.Entry) (size_bytes : UInt64) : Decidable (site.Near e size_bytes) :=
  inferInstanceAs (Decidable (_ ∧ _))

/-- What a client reads there. -/
def seen (site : Site) (e : Arena.Entry) (size_bytes : UInt64) : List UInt8 :=
  site.server.arena.map.slice ⟨e.offset.toNat,size_bytes.toNat⟩

/-- The bytes are those that the payload tells of, as far as they are hashed. -/
def Verified (site : Site) (payload : ObjectPayload) (bytes : List UInt8) : Prop :=
  UInt64.ofNat bytes.length = payload.size_bytes ∧
    (payload.checksum = .replicate 32 0 ∨ site.blake3 bytes = payload.checksum)

instance (site : Site) (payload : ObjectPayload) (bytes : List UInt8) : Decidable (site.Verified payload bytes) :=
  inferInstanceAs (Decidable (_ ∧ _))

/-- The payload as a get returns it when the arena has the object. -/
def annotated (site : Site) (payload : ObjectPayload) (e : Arena.Entry) : ObjectPayload :=
  { payload with bytes := none, arena := some ⟨site.server.arena.token,e.offset⟩ }

theorem verify_object_of (verified : site.Verified payload bytes) :
    verify_object site.blake3 payload.id payload.id bytes payload.checksum payload.size_bytes = .ok () := by
  obtain ⟨size,digest⟩ := verified
  rw [verify_object,if_neg (by simp [size]),if_neg]
  rintro ⟨hashed,differs⟩
  exact digest.elim hashed differs

theorem verify_object_not (wrong : ¬ site.Verified payload bytes) :
    verify_object site.blake3 payload.id payload.id bytes payload.checksum payload.size_bytes =
      .error (.ObjectConflict payload.id) := by
  by_cases size : UInt64.ofNat bytes.length = payload.size_bytes
  · rw [verify_object,if_neg (by simp [size]),if_pos]
    exact ⟨fun unhashed => wrong ⟨size,.inl unhashed⟩,fun same => wrong ⟨size,.inr same⟩⟩
  · rw [verify_object,if_pos (.inr size)]

theorem arena_annotate_committed (found : site.server.arena.alloc.live.get payload.id = some e)
    (committed : e.committed = true) : site.server.arena_annotate payload = site.annotated payload e := by
  simp only [arena_annotate,ArenaStore.meta,found,committed,if_true,Arena.Entry.toMeta,annotated]

theorem arena_annotate_uncommitted
    (none : ∀ e, site.server.arena.alloc.live.get payload.id = some e → e.committed = false) :
    site.server.arena_annotate payload = payload := by
  cases found : site.server.arena.alloc.live.get payload.id with
  | none => simp only [arena_annotate,ArenaStore.meta,found]
  | some e => simp only [arena_annotate,ArenaStore.meta,found,none e found,Bool.false_eq_true,if_false]

theorem mapped_annotated (site : Site) (payload : ObjectPayload) (e : Arena.Entry) :
    site.mapped (site.annotated payload e) =
      if site.Near e payload.size_bytes then some (site.seen e payload.size_bytes) else none := by
  have limit : ARENA_BYTES.toNat < 2^64 - 1 := by decide
  have room : saturating_add e.offset.toNat payload.size_bytes.toNat ≤ ARENA_BYTES.toNat ↔
      e.offset.toNat + payload.size_bytes.toNat ≤ ARENA_BYTES.toNat := by
    rw [saturating_add]
    omega
  simp only [mapped,annotated,arena_map,and_true]
  by_cases same_host : site.client.same_host = true
  · simp only [same_host,if_true,room,Near,true_and,seen]
  · simp only [same_host,Bool.false_eq_true,if_false,Near,false_and]

theorem mapped_plain (plain : payload.arena = none) : site.mapped payload = none := by
  simp only [mapped,plain]

theorem request_coordinator (body : ClientRequest) {reply : ClientReply} {s : CoordinatorServer}
    (ran : dispatch_client site.blake3 site.bincode site.env body site.server = .ok reply s) :
    site.request site.client.address body = .ok reply := by
  simp only [request,if_true,ran]

/-- The coordinator hands over the bytes it keeps, or else what the arena has. -/
theorem get_local_reply (resolved : resolve_object payload.id site.server.state = .ok payload site.server.state)
    (found : site.server.arena.alloc.live.get payload.id = some e) (committed : e.committed = true) :
    site.request site.client.address (.GetLocal payload.id) = .ok (
      if payload.bytes = none then
        if e.size.toNat ≤ MAX_OBJECT_BYTES then .Object { payload with bytes := some (site.seen e e.size) }
        else .Error (.Protocol "object too large for cross-host fetch")
      else .Object payload) := by
  have length : (site.seen e e.size).length = e.size.toNat := by simp [seen,Memory.slice]
  refine request_coordinator _ (s := { site.server with arena := { site.server.arena with
    map := site.server.arena.map.touch e.content } }) ?_
  have read : ArenaStore.read payload.id site.server.arena = .ok (some (site.seen e e.size)) _ :=
    ArenaStore.read_committed found committed
  simp only [dispatch_client,get_local,bind_apply,attempt,on_state,within,resolved,on_arena,read,length]
  by_cases bare : payload.bytes = none
  · by_cases small : e.size.toNat ≤ MAX_OBJECT_BYTES
    · simp only [bare,small,if_true,pure_apply]
    · simp only [bare,small,if_true,if_false,pure_apply]
  · simp only [bare,if_false,pure_apply]

/-- The reply hands over these bytes, and they are accepted as those of the object. -/
def Delivers (site : Site) (payload : ObjectPayload) (reply : Except Error ClientReply) (bytes : List UInt8) : Prop :=
  ∃ given, reply = .ok (.Object given) ∧ given.bytes = some bytes ∧ given.id = payload.id ∧ given.codec = payload.codec ∧
    given.checksum = payload.checksum ∧ given.size_bytes = payload.size_bytes ∧ site.Verified payload bytes

/-- There is a reply, but it hands over nothing that is accepted. -/
def Declines (site : Site) (payload : ObjectPayload) (reply : Except Error ClientReply) : Prop :=
  (∃ answer, reply = .ok answer) ∧ ∀ bytes, ¬ site.Delivers payload reply bytes

theorem accept_cases (site : Site) (payload : ObjectPayload) (reply : ClientReply) :
    (∃ bytes, site.Delivers payload (.ok reply) bytes ∧ site.accept payload reply = .ok (payload.codec,bytes)) ∨
      (site.Declines payload (.ok reply) ∧ site.accept payload reply = .error (.ObjectConflict payload.id)) := by
  by_cases given : ∃ bytes, site.Delivers payload (.ok reply) bytes
  · obtain ⟨bytes,delivers⟩ := given
    refine .inl ⟨bytes,delivers,?_⟩
    obtain ⟨⟨id,codec,size,digest,_,_,_⟩,same,rfl,rfl,rfl,rfl,rfl,verified⟩ := delivers
    obtain rfl := Except.ok.inj same
    simp only [accept,and_self,if_true,verify_object_of verified]
    rfl
  · push Not at given
    refine .inr ⟨⟨⟨reply,rfl⟩,given⟩,?_⟩
    unfold accept
    split
    · rename_i id codec size digest place bytes ref
      split
      · rename_i same
        obtain ⟨rfl,rfl,rfl⟩ := same
        by_cases mine : payload.id = id
        · subst mine
          have wrong : ¬ site.Verified payload bytes := fun verified =>
            given bytes ⟨_,rfl,rfl,rfl,rfl,rfl,rfl,verified⟩
          rw [verify_object_not wrong]
          rfl
        · rw [verify_object,if_pos (.inl mine)]
          rfl
      · rfl
    · rfl

/-- What comes of a fetch by one request. -/
theorem fetched_ok_iff {reply : Except Error ClientReply} :
    (reply >>= site.accept payload) = .ok (payload.codec,bytes) ↔ site.Delivers payload reply bytes := by
  cases reply with
  | error error =>
    constructor
    · exact nofun
    · rintro ⟨given,same,_⟩
      cases same
  | ok answer =>
    change site.accept payload answer = _ ↔ _
    rcases accept_cases site payload answer with ⟨bytes',delivers,accepted⟩ | ⟨declines,refused⟩
    · rw [accepted]
      constructor
      · intro same
        cases same
        exact delivers
      · rintro ⟨given,same,inline,_⟩
        obtain ⟨given',same',inline',_⟩ := delivers
        obtain rfl := ClientReply.Object.inj (Except.ok.inj (same.symm.trans same'))
        rw [Option.some.inj (inline.symm.trans inline')]
    · rw [refused]
      exact ⟨nofun,fun delivers => absurd delivers (declines.2 bytes)⟩

theorem request_error {address : String} {body : ClientRequest} {error : Error}
    (failed : site.request address body = .error error) : ∃ fault : Transport, error = fault.toError := by
  rw [request] at failed
  split at failed
  · split at failed
    · cases failed
    · exact ⟨.Io _,(Except.error.inj failed).symm⟩
  · cases answered : site.net.reply address body with
    | ok reply =>
      rw [answered] at failed
      cases failed
    | error fault =>
      rw [answered] at failed
      exact ⟨fault,(Except.error.inj failed).symm⟩

theorem fetched_conflict_iff {address : String} {body : ClientRequest} :
    (site.request address body >>= site.accept payload) = .error (.ObjectConflict payload.id) ↔
      site.Declines payload (site.request address body) := by
  cases asked : site.request address body with
  | error error =>
    obtain ⟨fault,rfl⟩ := request_error asked
    constructor
    · intro same
      have same : fault.toError = .ObjectConflict payload.id := Except.error.inj same
      cases fault <;> cases same
    · rintro ⟨⟨answer,same⟩,_⟩
      cases same
  | ok answer =>
    change site.accept payload answer = _ ↔ _
    rcases accept_cases site payload answer with ⟨bytes,delivers,accepted⟩ | ⟨declines,refused⟩
    · rw [accepted]
      exact ⟨nofun,fun declines => absurd delivers (declines.2 bytes)⟩
    · rw [refused]
      exact ⟨fun _ => declines,fun _ => rfl⟩

/-! ### The slot of a batch -/

theorem batch_inline (vouched : Vouched site.blake3 payload) (inline : payload.bytes = some bytes) :
    site.payload_bytes payload = .ok (payload.codec,bytes) := by
  obtain ⟨size,digest,_⟩ := vouched.inline bytes inline
  have verified : site.Verified payload bytes := ⟨size.symm,.inr digest.symm⟩
  simp only [payload_bytes,inline,verify_object_of verified]
  rfl

theorem batch_fetched (vouched : Vouched site.blake3 payload) (bare : payload.bytes = none) :
    site.payload_bytes payload = (site.request payload.location (.GetLocal payload.id) >>= site.accept payload) := by
  have plain := vouched.arena
  simp only [payload_bytes,bare,mapped_plain plain,plain,Option.isSome_none,Bool.false_eq_true,if_false,false_and]

/-- The failures of a request that reached nobody. -/
def Unreached (error : Error) : Prop := error = .DeadlineExceeded ∨ ∃ message, error = .Io message

/-- Nobody answers at the name that stands for the coordinator in records. -/
theorem batch_coordinator (vouched : Vouched site.blake3 payload) (bare : payload.bytes = none)
    (place : payload.location = "coordinator") : ∃ error, site.payload_bytes payload = .error error ∧ Unreached error := by
  have elsewhere : "coordinator" ≠ site.client.address := by
    intro same
    have port := site.client.port
    rw [← same] at port
    exact absurd port (by decide)
  rw [batch_fetched vouched bare,place,request,if_neg elsewhere]
  rcases site.net.portless "coordinator" (.GetLocal payload.id) (by decide) with late | ⟨message,failed⟩
  · rw [late]
    exact ⟨.DeadlineExceeded,rfl,.inl rfl⟩
  · rw [failed]
    exact ⟨.Io message,rfl,.inr ⟨message,rfl⟩⟩

/-! ### The reply to a single get -/

theorem single_near (near : site.Near e payload.size_bytes) :
    site.payload_bytes (site.annotated payload e) = .ok (payload.codec,site.seen e payload.size_bytes) := by
  have mapped := mapped_annotated site payload e
  rw [if_pos near] at mapped
  simp only [payload_bytes,mapped]
  rfl

theorem single_far_small (far : ¬ site.Near e payload.size_bytes) (small : payload.size_bytes ≤ .ofNat MAX_OBJECT_BYTES) :
    site.payload_bytes (site.annotated payload e) =
      (site.request site.client.address (.GetLocal payload.id) >>= site.accept payload) := by
  have mapped := mapped_annotated site payload e
  rw [if_neg far] at mapped
  have notLarge : ¬ payload.size_bytes > .ofNat MAX_OBJECT_BYTES := UInt64.not_lt.mpr small
  have bare : (site.annotated payload e).bytes = none := rfl
  have referred : (site.annotated payload e).arena.isSome = true := rfl
  have size : (site.annotated payload e).size_bytes = payload.size_bytes := rfl
  simp only [payload_bytes,bare,mapped,referred,size,if_true,true_and,notLarge,if_false]
  rfl

theorem single_far_large (far : ¬ site.Near e payload.size_bytes) (large : payload.size_bytes > .ofNat MAX_OBJECT_BYTES) :
    site.payload_bytes (site.annotated payload e) = (do
      let bytes ← site.get_chunked payload.id payload.size_bytes site.client.address 0 []
      verify_object site.blake3 payload.id payload.id bytes payload.checksum payload.size_bytes
      pure (payload.codec,bytes)) := by
  have mapped := mapped_annotated site payload e
  rw [if_neg far] at mapped
  have bare : (site.annotated payload e).bytes = none := rfl
  have referred : (site.annotated payload e).arena.isSome = true := rfl
  have size : (site.annotated payload e).size_bytes = payload.size_bytes := rfl
  simp only [payload_bytes,bare,mapped,referred,size,if_true,true_and,large]
  rfl

theorem single_far_inline (vouched : Vouched site.blake3 payload)
    (resolved : resolve_object payload.id site.server.state = .ok payload site.server.state)
    (found : site.server.arena.alloc.live.get payload.id = some e) (committed : e.committed = true)
    (far : ¬ site.Near e payload.size_bytes) (inline : payload.bytes = some bytes) :
    site.payload_bytes (site.annotated payload e) = .ok (payload.codec,bytes) := by
  obtain ⟨size,digest,small⟩ := vouched.inline bytes inline
  rw [single_far_small far small,fetched_ok_iff,get_local_reply resolved found committed,if_neg (by rw [inline]; nofun)]
  exact ⟨payload,rfl,inline,rfl,rfl,rfl,rfl,size.symm,.inr digest.symm⟩

/-- From afar the content of the entry is fetched, and accepted if it is verified. -/
theorem single_far_bare (resolved : resolve_object payload.id site.server.state = .ok payload site.server.state)
    (found : site.server.arena.alloc.live.get payload.id = some e) (committed : e.committed = true)
    (far : ¬ site.Near e payload.size_bytes) (bare : payload.bytes = none)
    (small : payload.size_bytes ≤ .ofNat MAX_OBJECT_BYTES) :
    site.payload_bytes (site.annotated payload e) =
      if site.Verified payload (site.seen e e.size) then .ok (payload.codec,site.seen e e.size)
      else .error (.ObjectConflict payload.id) := by
  have length : UInt64.ofNat (site.seen e e.size).length = e.size := by simp [seen,Memory.slice]
  rw [single_far_small far small]
  have reply := get_local_reply resolved found committed
  rw [if_pos bare] at reply
  by_cases verified : site.Verified payload (site.seen e e.size)
  · have fits : e.size.toNat ≤ MAX_OBJECT_BYTES := by
      rw [← length,verified.1]
      exact UInt64.le_iff_toNat_le.mp small
    rw [if_pos verified,fetched_ok_iff,reply,if_pos fits]
    exact ⟨_,rfl,rfl,rfl,rfl,rfl,rfl,verified⟩
  · rw [if_neg verified,fetched_conflict_iff,reply]
    refine ⟨⟨_,rfl⟩,?_⟩
    rintro bytes ⟨given,same,inline,_,_,_,_,accepted⟩
    split at same
    · cases same
      exact verified (Option.some.inj inline ▸ accepted)
    · cases same

/-- The coordinator answers for every chunk, if only with an error. -/
theorem get_chunk_reply (site : Site) (id : ObjectId) (offset len : UInt64) :
    (∃ bytes, site.request site.client.address (.GetChunk id offset len) = .ok (.Chunk bytes)) ∨
      ∃ message, site.request site.client.address (.GetChunk id offset len) = .ok (.Error (.Protocol message)) := by
  by_cases long : len > .ofNat MAX_OBJECT_BYTES
  · refine .inr ⟨"get chunk too large",request_coordinator _ (s := site.server) ?_⟩
    simp only [dispatch_client,get_chunk,long,if_true,pure_apply]
  rcases ArenaStore.read_chunk_cases id offset len site.server.arena with nothing | ⟨e,_,_,_,read⟩
  · refine .inr ⟨"get chunk out of bounds or object not committed",request_coordinator _ (s := site.server) ?_⟩
    simp only [dispatch_client,get_chunk,long,if_false,bind_apply,on_arena,within,nothing,pure_apply]
  · generalize site.server.arena.map.slice _ = bytes at read
    refine .inl ⟨bytes,request_coordinator _ (s := { site.server with arena := { site.server.arena with
      map := site.server.arena.map.touch ⟨(e.offset + offset).toNat,len.toNat⟩ } }) ?_⟩
    simp only [dispatch_client,get_chunk,long,if_false,bind_apply,on_arena,within,read,pure_apply]

/-- Fetching chunk by chunk fails only where a chunk is refused or is not what was asked for. -/
theorem get_chunked_error {size_bytes offset : UInt64} {out : List UInt8} {error : Error}
    (failed : site.get_chunked id size_bytes site.client.address offset out = .error error) :
    error = .ObjectConflict id ∨ ∃ message, error = .Protocol message := by
  fun_induction get_chunked site id size_bytes site.client.address offset out with
  | case1 offset out more len fault asked =>
    rcases get_chunk_reply site id offset len with ⟨bytes,replied⟩ | ⟨message,replied⟩
    · cases asked.symm.trans replied
    · cases asked.symm.trans replied
  | case2 offset out more len bytes asked whole ih => exact ih failed
  | case3 offset out more len bytes asked short => exact .inl (Except.error.inj failed).symm
  | case4 offset out more len fault asked =>
    rcases get_chunk_reply site id offset len with ⟨bytes,replied⟩ | ⟨message,replied⟩
    · cases asked.symm.trans replied
    · cases asked.symm.trans replied
      exact .inr ⟨message,(Except.error.inj failed).symm⟩
  | case5 offset out more len reply notChunk notError asked => exact .inl (Except.error.inj failed).symm
  | case6 offset out done => cases failed

/-- Somebody answers for what lies in the arena. -/
theorem single_reached (resolved : resolve_object payload.id site.server.state = .ok payload site.server.state)
    (found : site.server.arena.alloc.live.get payload.id = some e) (committed : e.committed = true)
    (bare : payload.bytes = none) {error : Error}
    (failed : site.payload_bytes (site.annotated payload e) = .error error) : ¬ Unreached error := by
  have conflict : ¬ Unreached (.ObjectConflict payload.id) := by simp [Unreached]
  by_cases near : site.Near e payload.size_bytes
  · rw [single_near near] at failed
    cases failed
  by_cases small : payload.size_bytes ≤ .ofNat MAX_OBJECT_BYTES
  · rw [single_far_bare resolved found committed near bare small] at failed
    split at failed
    · cases failed
    · exact Except.error.inj failed ▸ conflict
  · rw [single_far_large near (UInt64.not_le.mp small)] at failed
    cases fetched : site.get_chunked payload.id payload.size_bytes site.client.address 0 [] with
    | error fault =>
      rw [fetched] at failed
      obtain rfl := Except.error.inj failed
      rcases get_chunked_error fetched with rfl | ⟨message,rfl⟩
      · exact conflict
      · simp [Unreached]
    | ok bytes =>
      rw [fetched] at failed
      by_cases verified : site.Verified payload bytes
      · change (verify_object _ _ _ _ _ _ >>= _) = _ at failed
        rw [verify_object_of verified] at failed
        cases failed
      · change (verify_object _ _ _ _ _ _ >>= _) = _ at failed
        rw [verify_object_not verified] at failed
        exact Except.error.inj failed ▸ conflict

/-! ### Both ways -/

/-- What lies in the arena is what the record has, or what is found at the place it tells of. -/
def Same (site : Site) (payload : ObjectPayload) (e : Arena.Entry) : Prop :=
  match payload.bytes with
  | some bytes => site.Near e payload.size_bytes → site.seen e payload.size_bytes = bytes
  | none =>
    payload.location ≠ "coordinator" ∧
      if site.Near e payload.size_bytes then
        site.Delivers payload (site.request payload.location (.GetLocal payload.id)) (site.seen e payload.size_bytes)
      else if site.Verified payload (site.seen e e.size) then
        site.Delivers payload (site.request payload.location (.GetLocal payload.id)) (site.seen e e.size)
      else site.Declines payload (site.request payload.location (.GetLocal payload.id))

/-- If the arena has the object, it has there what the record leads to. -/
def Agree (site : Site) (id : ObjectId) : Prop :=
  ∀ payload e, payload.id = id → CoordinatorState.Lists site.server.state payload →
    site.server.arena.alloc.live.get id = some e → e.committed = true → site.Same payload e

theorem same_iff (vouched : Vouched site.blake3 payload)
    (resolved : resolve_object payload.id site.server.state = .ok payload site.server.state)
    (found : site.server.arena.alloc.live.get payload.id = some e) (committed : e.committed = true) :
    site.payload_bytes payload = site.payload_bytes (site.annotated payload e) ↔ site.Same payload e := by
  cases inline : payload.bytes with
  | some bytes =>
    rw [batch_inline vouched inline]
    simp only [Same,inline]
    by_cases near : site.Near e payload.size_bytes
    · rw [single_near near]
      constructor
      · intro same _
        cases same
        rfl
      · intro same
        rw [same near]
    · rw [single_far_inline vouched resolved found committed near inline]
      exact ⟨fun _ here => absurd here near,fun _ => rfl⟩
  | none =>
    simp only [Same,inline]
    by_cases place : payload.location = "coordinator"
    · obtain ⟨error,failed,unreached⟩ := batch_coordinator vouched inline place
      constructor
      · intro same
        exact absurd unreached (single_reached resolved found committed inline (same ▸ failed))
      · rintro ⟨elsewhere,_⟩
        exact absurd place elsewhere
    have small := (vouched.place.resolve_left place).2
    rw [batch_fetched vouched inline]
    by_cases near : site.Near e payload.size_bytes
    · rw [single_near near,if_pos near,fetched_ok_iff]
      exact ⟨fun delivers => ⟨place,delivers⟩,And.right⟩
    rw [single_far_bare resolved found committed near inline small,if_neg near]
    by_cases verified : site.Verified payload (site.seen e e.size)
    · rw [if_pos verified,if_pos verified,fetched_ok_iff]
      exact ⟨fun delivers => ⟨place,delivers⟩,And.right⟩
    · rw [if_neg verified,if_neg verified,fetched_conflict_iff]
      exact ⟨fun declines => ⟨place,declines⟩,And.right⟩

theorem agree_iff (lists : CoordinatorState.Lists site.server.state payload) (vouched : Vouched site.blake3 payload)
    (resolved : resolve_object payload.id site.server.state = .ok payload site.server.state) :
    site.payload_bytes payload = site.payload_bytes (site.server.arena_annotate payload) ↔ site.Agree payload.id := by
  by_cases there : ∃ e, site.server.arena.alloc.live.get payload.id = some e ∧ e.committed = true
  · obtain ⟨e,found,committed⟩ := there
    rw [arena_annotate_committed found committed,same_iff vouched resolved found committed]
    constructor
    · intro same payload' e' id lists' found' _
      obtain rfl := lists.unique lists' id.symm
      obtain rfl := Option.some.inj (found.symm.trans found')
      exact same
    · intro agree
      exact agree payload e rfl lists found committed
  · push Not at there
    rw [arena_annotate_uncommitted fun e found => by simpa using there e found]
    exact ⟨fun _ _ e _ _ found committed => absurd committed (there e found),fun _ => rfl⟩

/-! ### Runs -/

/-- A batch and a single get lead a client to the same bytes, or the same error, exactly if the arena does not
    have the object or has there what its record leads to. -/
theorem batch_agrees_iff (site : Site) {epoch : CoordinatorEpoch} {token : String} {lease_ms : Nat}
    {require_loopback : Bool} {inflight : List Commit} (run : System.Run site.blake3 site.bincode (fun _ _ => True)
      (System.start epoch token lease_ms require_loopback) ⟨site.server,inflight⟩)
    {objects : List ObjectId} {results : List (Except Error ObjectPayload)} {s' : CoordinatorServer}
    (replied : dispatch_client site.blake3 site.bincode site.env (.GetBatch objects) site.server =
      .ok (.ObjectBatch results) s') {i : Nat} (asked : objects[i]? = some id) (slot : results[i]? = some (.ok payload)) :
    ∃ single, dispatch_client site.blake3 site.bincode site.env (.Get id) site.server = .ok (.Object single) site.server ∧
      (site.payload_bytes payload = site.payload_bytes single ↔ site.Agree id) := by
  have steady := run.steady (System.start_steady epoch token lease_ms require_loopback)
  have resolved := get_batch_ok replied asked slot
  obtain ⟨rfl,lists⟩ := CoordinatorState.resolve_object_lists resolved
  exact ⟨_,get_object_ok resolved,agree_iff lists (lists.vouched steady.state.filed) resolved⟩

/-- Nobody but the coordinator is there. -/
def quietNetwork : Network where
  reply _ _ := .error (.Io "invalid socket address")
  portless _ _ _ := .inr ⟨_,rfl⟩

theorem local_port : ':' ∈ "127.0.0.1:7000".toList := by decide

/-- A client on the coordinator's host. -/
def localSite (server : CoordinatorServer) : Site where
  blake3 := System.abcHash
  bincode := .fixint
  env := System.smallEnv 4
  server
  net := quietNetwork
  client := ⟨"127.0.0.1:7000",local_port,true⟩

/-- The payload of the record of the bytes `abc`. -/
def abcPayload (bytes : Option (List UInt8)) : ObjectPayload where
  id := System.abcId
  codec := .RawBytes
  size_bytes := 3
  checksum := System.abcDigest
  location := "coordinator"
  bytes
  arena := none

/-- A client puts the bytes `abc` by a single request: the record has them, and the arena has a copy. -/
def putSystem : System := System.smallSystem.act System.abcHash .fixint
  (.client (System.smallEnv 1) (.Put .RawBytes ⟨System.abc,System.abc_bounded⟩))

theorem put_agrees :
    dispatch_client System.abcHash .fixint (System.smallEnv 4) (.GetBatch [System.abcId]) putSystem.server =
        .ok (.ObjectBatch [.ok (abcPayload (some System.abc))]) putSystem.server ∧
      ∃ single, dispatch_client System.abcHash .fixint (System.smallEnv 4) (.Get System.abcId) putSystem.server =
          .ok (.Object single) putSystem.server ∧
        (localSite putSystem.server).payload_bytes (abcPayload (some System.abc)) =
          (localSite putSystem.server).payload_bytes single := by
  have run : System.Run System.abcHash .fixint (fun _ _ => True) System.smallSystem putSystem :=
    .step .start _ ⟨.none,nofun⟩ trivial
  have resolved : resolve_object System.abcId putSystem.server.state =
      .ok (abcPayload (some System.abc)) putSystem.server.state :=
    CoordinatorState.resolve_object_available (show _ = some (CoordinatorState.put_record System.abcId .RawBytes 3
      System.abcDigest (some System.abc)) by decide +kernel) rfl rfl rfl rfl rfl
  have replied : get_batch .fixint [System.abcId] putSystem.server = _ :=
    get_batch_one resolved (by decide +kernel) (by decide +kernel)
  have agree : (localSite putSystem.server).Agree System.abcId := by
    intro payload e id lists found _
    obtain ⟨id',lists'⟩ := CoordinatorState.resolve_object_lists resolved
    obtain rfl := lists'.unique lists (id'.trans id.symm)
    have there : putSystem.server.arena.alloc.live.get System.abcId =
      some ⟨0,3,8,.RawBytes,System.abcDigest,⟨.replicate 16 1⟩,.Direct,0,true,none⟩ := by decide +kernel
    obtain rfl := Option.some.inj (there.symm.trans found)
    intro _
    decide +kernel
  obtain ⟨single,got,agrees⟩ := batch_agrees_iff (localSite putSystem.server) (i := 0) run replied rfl rfl
  exact ⟨replied,single,got,agrees.mpr agree⟩

/-- A client puts the bytes `abc` through the arena: the record does not have them. -/
def arenaActions : List Action := [System.reserving 1,System.writing,System.committing,.publish System.abcCommit]

def arenaSystem : System := System.replay System.abcHash .fixint System.smallSystem arenaActions

/-- A batch sends the client for these bytes to a place that is no address, and a single get to the arena. -/
theorem arena_disagrees :
    System.Run System.abcHash .fixint (fun _ _ => True) System.smallSystem arenaSystem ∧
      dispatch_client System.abcHash .fixint (System.smallEnv 4) (.GetBatch [System.abcId]) arenaSystem.server =
        .ok (.ObjectBatch [.ok (abcPayload none)]) arenaSystem.server ∧
      dispatch_client System.abcHash .fixint (System.smallEnv 4) (.Get System.abcId) arenaSystem.server =
        .ok (.Object { abcPayload none with arena := some ⟨"crayon-arena-0",0⟩ }) arenaSystem.server ∧
      (localSite arenaSystem.server).payload_bytes (abcPayload none) = .error (.Io "invalid socket address") ∧
      (localSite arenaSystem.server).payload_bytes { abcPayload none with arena := some ⟨"crayon-arena-0",0⟩ } =
        .ok (.RawBytes,System.abc) := by
  have run : System.Run System.abcHash .fixint (fun _ _ => True) System.smallSystem arenaSystem :=
    System.Run.start.replay ⟨⟨.none,nofun⟩,trivial,trivial,trivial,trivial,trivial,
      show System.abcCommit ∈ _ by decide +kernel,trivial,trivial⟩
  have resolved : resolve_object System.abcId arenaSystem.server.state =
      .ok (abcPayload none) arenaSystem.server.state :=
    CoordinatorState.resolve_object_available (show _ = some (CoordinatorState.put_record System.abcId .RawBytes 3
      System.abcDigest none) by decide +kernel) rfl rfl rfl rfl rfl
  have annotates : arenaSystem.server.arena_annotate (abcPayload none) =
    { abcPayload none with arena := some ⟨"crayon-arena-0",0⟩ } := by decide +kernel
  refine ⟨run,get_batch_one resolved (by decide +kernel) (by decide +kernel),?_,by decide +kernel,by decide +kernel⟩
  rw [get_object_ok resolved,annotates]

end Site
end Crayon
