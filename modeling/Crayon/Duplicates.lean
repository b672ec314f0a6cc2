import Crayon.Repeats

/-!
Requests that arrive twice. The replies to puts, reservations, chunks and commits
are not kept, so that a second copy of such a request is served again. It finds
what the first one left: if that is still there, the second one changes nothing
(`repeats_nothing`). A chunk or the first half of a commit changes nothing in any
case, as the reservation that they name is not given out again.
-/
namespace Crayon

namespace ArenaStore
open Arena Command
variable {s s' : ArenaStore} {id : ObjectId} {e e' : Entry}

/-! ### Requests to the arena that arrive again -/

/-- No reservation is due to be reaped. -/
def Idle (s : ArenaStore) (now : Instant) : Prop := ∀ id e, s.alloc.live.get id = some e → Alloc.expired now e = false

/-- The entry is what a reservation with these arguments asks for. -/
abbrev OfKind (e : Entry) (size : UInt64) (codec : Codec) (checksum : Checksum) (mode : ArenaWriteMode) : Prop :=
  e.size = size ∧ e.codec = codec ∧ e.checksum = checksum ∧ e.mode = mode

variable {order : Traversal ObjectId} {size : UInt64} {codec : Codec} {checksum : Checksum} {mode : ArenaWriteMode}
  {now later : Instant} {fresh reservation : RequestId} {bytes : Buffer} {rel_offset : UInt64}

theorem Grows.of_kind (grows : Grows e e')
    (kind : OfKind e' size codec checksum mode) : OfKind e size codec checksum mode := by
  obtain ⟨_,size,codec,checksum⟩ := Meta.mk.inj grows.info
  exact ⟨size ▸ kind.1,codec ▸ kind.2.1,checksum ▸ kind.2.2.1,grows.mode ▸ kind.2.2.2⟩

theorem reap_idle (idle : Idle s now) : s.alloc.reap order now = s.alloc := by
  have none_due : ((order.list s.alloc.live.keys).filter fun id => (s.alloc.live.get id).any (Alloc.expired now)) = [] := by
    refine List.filter_eq_nil_iff.mpr fun id _ => ?_
    cases found : s.alloc.live.get id with
    | none => simp
    | some e => simp [idle id e found]
  rw [Alloc.reap,none_due]
  rfl

/-- To ask for a place again when the first one is still there changes nothing. -/
theorem reserve_again (order : Traversal ObjectId) (size : UInt64) (codec : Codec) (checksum : Checksum) (mode : ArenaWriteMode) (later : Instant)
    (fresh : RequestId) (found : s.alloc.live.get id = some e) (idle : Idle s now) :
    (OfKind e size codec checksum mode ∧ reserve order id size codec checksum mode now later fresh s =
        .ok ⟨e.offset,e.reservation,e.committed⟩ s) ∨
      reserve order id size codec checksum mode now later fresh s = .error (.Err (.ObjectConflict id)) s := by
  simp only [reserve,bind_apply,modify_apply,get_apply,reap_idle idle,found]
  by_cases kind : OfKind e size codec checksum mode
  · exact .inl ⟨kind,by rw [ensure_of kind]; rfl⟩
  · exact .inr (by rw [ensure_not kind]; rfl)

/-- A reservation is refused for an entry that is there only if that is of another kind. -/
theorem reserve_refused {error : Error} (ran : reserve order id size codec checksum mode now later fresh s = .error (.Err error) s')
    (found : s'.alloc.live.get id = some e) : ¬ OfKind e size codec checksum mode := by
  intro kind
  simp only [reserve,bind_apply,modify_apply,get_apply] at ran
  cases there : (s.alloc.reap order now).live.get id with
  | some e₀ =>
    by_cases kind₀ : OfKind e₀ size codec checksum mode
    · simp only [there,ensure_of kind₀,bind_apply,pure_apply] at ran
      cases ran
    · simp only [there,ensure_not kind₀,bind_apply,err_apply] at ran
      obtain ⟨_,rfl⟩ := EStateM.Result.error.inj ran
      obtain rfl := Option.some.inj (there.symm.trans found)
      exact kind₀ kind
  | none =>
    cases allocated : (s.alloc.reap order now).allocate (slot_for size) with
    | error refusal =>
      simp only [there,allocated,lift,bind_apply,err_apply] at ran
      obtain ⟨_,rfl⟩ := EStateM.Result.error.inj ran
      cases there.symm.trans found
    | ok result =>
      simp only [there,allocated,lift,bind_apply,pure_apply,modify_apply] at ran
      cases ran

/-- Bytes that were put into the arena are committed there, unless something of another kind has their id. -/
theorem put_commits (found : (Outcome.state (put order id bytes codec checksum now later fresh s)).alloc.live.get id = some e)
    (kind : OfKind e bytes.len codec checksum .Direct) : e.committed = true := by
  obtain ⟨s₁,_,_,_,⟨ran,error,refused⟩ | ⟨e₁,there,_,_,⟨committed,ran⟩ | ⟨_,ran⟩⟩⟩ :=
    put_cases order id bytes codec checksum now later fresh s
  · rw [ran] at found
    exact absurd kind (reserve_refused refused found)
  · rw [ran] at found
    obtain rfl := Option.some.inj (there.symm.trans found)
    exact committed
  · rw [ran,Outcome.state_ok] at found
    dsimp only at found
    rw [Table.get_modify_of there,if_pos rfl] at found
    obtain rfl := Option.some.inj found
    rfl

/-- To put bytes again that are still in the arena changes nothing. -/
theorem put_again (found : s.alloc.live.get id = some e) (idle : Idle s now)
    (committed : OfKind e bytes.len codec checksum .Direct → e.committed = true) :
    Outcome.state (put order id bytes codec checksum now later fresh s) = s := by
  rcases reserve_again order bytes.len codec checksum .Direct later fresh found idle with ⟨kind,reserved⟩ | refused
  · simp only [put,bind_apply,ok,reserved,committed kind,if_true,pure_apply,Outcome.state_ok]
  · simp only [put,bind_apply,ok,refused,pure_apply,Outcome.state_ok]

/-- An entry but for the time of its reservation. -/
def timeless (e : Entry) : Entry := { e with reserved_at := none }

/-- The same entries are live, but for the times of their reservations. -/
def Alike (s s' : ArenaStore) : Prop := ∀ id, (s'.alloc.live.get id).map timeless = (s.alloc.live.get id).map timeless

theorem Alike.refl (s : ArenaStore) : Alike s s := fun _ => rfl

theorem alike_modify {f : Entry → Entry} {map : Memory} (found : s.alloc.live.get id = some e) (same : timeless (f e) = timeless e) :
    Alike s { s with map, alloc := { s.alloc with live := s.alloc.live.modify id f } } := by
  intro k
  dsimp only
  rw [Table.get_modify_of found]
  split
  · rename_i mine
    rw [mine,found,Option.map_some,Option.map_some,same]
  · rfl

/-- To commit again what is committed changes nothing. -/
theorem commit_again (done : ∀ e, s.alloc.live.get id = some e → e.reservation = reservation → e.committed = true) :
    Alike s (Outcome.state (commit id reservation s)) := by
  rcases commit_ends id reservation s with ⟨e,_,ran,found,mine,_,rfl⟩ | ⟨error,ran⟩
  · rw [ran]
    have committed := done e found mine
    exact alike_modify found (by rw [timeless,timeless,committed])
  · rw [ran]
    exact .refl s

/-- To write again what is written changes no entry. -/
theorem write_chunk_again (done : ∀ e, s.alloc.live.get id = some e → e.reservation = reservation →
    rel_offset.toNat + bytes.bytes.length ≤ e.written_until.toNat) :
    Alike s (Outcome.state (write_chunk id reservation rel_offset bytes now s)) := by
  rcases write_chunk_cases id reservation rel_offset bytes now s with
    ⟨e,stop,found,mine,_,_,stops,_,⟨next,ran⟩ | ⟨_,_,ran⟩⟩ | ⟨error,ran⟩ | ⟨e,_,_,ran⟩
  · rw [ran]
    have written := done e found mine
    have same : stop = e.written_until := by
      rw [next] at stops written
      exact UInt64.toNat_inj.mp (by omega)
    exact alike_modify found (by rw [timeless,timeless,same])
  all_goals
    rw [ran]
    exact .refl _

/-- What an accepted chunk leaves. -/
theorem write_chunk_reaches (ran : write_chunk id reservation rel_offset bytes now s = .ok () s') :
    ∃ e, s'.alloc.live.get id = some e ∧ e.reservation = reservation ∧
      rel_offset.toNat + bytes.bytes.length ≤ e.written_until.toNat := by
  rcases write_chunk_cases id reservation rel_offset bytes now s with
    ⟨e,stop,found,mine,_,_,stops,_,⟨_,done⟩ | ⟨behind,_,done⟩⟩ | ⟨error,failed⟩ | ⟨e,_,_,failed⟩
  · obtain ⟨_,rfl⟩ := EStateM.Result.ok.inj (ran.symm.trans done)
    refine ⟨{ e with written_until := stop, reserved_at := some now },?_,mine,stops.ge⟩
    dsimp only
    rw [Table.get_modify_of found,if_pos rfl]
  · obtain ⟨_,rfl⟩ := EStateM.Result.ok.inj (ran.symm.trans done)
    exact ⟨e,found,mine,stops ▸ UInt64.le_iff_toNat_le.mp behind⟩
  · cases ran.symm.trans failed
  · cases ran.symm.trans failed

end ArenaStore

namespace CoordinatorState
open Command
variable {s s' : CoordinatorState} {id : ObjectId} {codec : Codec} {size : UInt64} {checksum : Checksum}
  {bytes bytes' : Option (List UInt8)}

theorem Admitted.recorded (admitted : Admitted s id codec size checksum bytes s') : ∃ object, s'.objects.get id = some object ∧
    object.state = .Available ∧ object.codec = some codec ∧ object.size_bytes = some size ∧ object.checksum = some checksum := by
  cases admitted with
  | known found available sameCodec sameSize sameDigest => exact ⟨_,found,available,sameCodec,sameSize,sameDigest⟩
  | stored absent => exact ⟨_,by rw [Table.get_insert,if_pos rfl],rfl,rfl,rfl,rfl⟩

/-- To take an object again that is still on record changes nothing. -/
theorem Admitted.again {object : ObjectRecord} (admitted : Admitted s id codec size checksum bytes s')
    (found : s.objects.get id = some object) : s' = s := by
  cases admitted with
  | known => rfl
  | stored absent => cases found.symm.trans absent

end CoordinatorState

/-! ### Requests to the server that arrive again -/

/-- The mutations of clients to which no replies are kept, as they take effect: a commit does so in two steps. -/
inductive Mutation where
  | put (codec : Codec) (bytes : Buffer)
  | reserve (id : ObjectId) (codec : Codec) (size : UInt64) (checksum : Checksum) (mode : ArenaWriteMode)
  | write (id : ObjectId) (reservation : RequestId) (offset : UInt64) (bytes : Buffer)
  | commit (id : ObjectId) (reservation : RequestId)
  | publish (c : Commit)

namespace Mutation
open CoordinatorServer

/-- The object that the mutation is about. -/
def id (blake3 : List UInt8 → Checksum) : Mutation → ObjectId
  | .put _ bytes => .from_checksum (blake3 bytes.bytes)
  | .reserve id _ _ _ _ | .write id _ _ _ | .commit id _ => id
  | .publish c => c.id

def action (env : Env) : Mutation → Action
  | .put codec bytes => .client env (.Put codec bytes)
  | .reserve id codec size checksum mode => .client env (.ArenaReserve id codec size checksum mode)
  | .write id reservation offset bytes => .client env (.PutChunk id reservation offset bytes)
  | .commit id reservation => .commit id reservation
  | .publish c => .publish c

/-- The arena is asked for a place. -/
def Reserves : Mutation → Prop
  | .put _ _ | .reserve _ _ _ _ _ => True
  | _ => False

/-- The record of the object is looked up. -/
def Looks : Mutation → Prop
  | .write _ _ _ _ | .commit _ _ => False
  | _ => True

/-- The mutation is not answered with an error. -/
def Accepted (blake3 : List UInt8 → Checksum) (bincode : Bincode) (env : Env) (s : CoordinatorServer) : Mutation → Prop
  | .put codec bytes => ∃ payload s', dispatch_client blake3 bincode env (.Put codec bytes) s = .ok (.Object payload) s'
  | .reserve id codec size checksum mode =>
    (∃ payload s', dispatch_client blake3 bincode env (.ArenaReserve id codec size checksum mode) s = .ok (.Object payload) s') ∨
      ∃ offset reservation s', dispatch_client blake3 bincode env (.ArenaReserve id codec size checksum mode) s =
        .ok (.ArenaReserved id offset reservation) s'
  | .write id reservation offset bytes =>
    ∃ s', dispatch_client blake3 bincode env (.PutChunk id reservation offset bytes) s = .ok .ChunkWritten s'
  | .commit id reservation => ∃ info s', arena_commit id reservation s = .ok (.ok info) s'
  | .publish c => ∃ payload s', CoordinatorServer.publish c.id c.reservation c.info s = .ok (.Object payload) s'

end Mutation

namespace System
open Arena Command CoordinatorServer
open ArenaStore (Grows Alike Idle OfKind)
variable {blake3 : List UInt8 → Checksum} {bincode : Bincode} {sys sys' after : System} {id : ObjectId} {env env' : Env}
  {m : Mutation} {bytes : Buffer} {codec : Codec} {reservation : RequestId}

/-- The objects on record are the same, and the live entries of the arena but for the times of their reservations. -/
structure Unchanged (sys sys' : System) : Prop where
  objects : sys'.server.state.objects = sys.server.state.objects
  entries : Alike sys.server.arena sys'.server.arena

/-- What the first of two equal mutations has left and the second one needs is still there when that arrives: the record of
    the object, unless it is a chunk or the first half of a commit; and the entry, when it is a put or a reservation. A put has
    left an entry, and no reservation is overdue when a put or a reservation arrives. -/
structure Undisturbed (blake3 : List UInt8 → Checksum) (m : Mutation) (now : Instant) (after sys : System) : Prop where
  record : m.Looks → ∀ object, after.server.state.objects.get (m.id blake3) = some object →
    sys.server.state.objects.get (m.id blake3) = some object
  entry : m.Reserves → ∀ e, after.server.arena.alloc.live.get (m.id blake3) = some e →
    ∃ e', sys.server.arena.alloc.live.get (m.id blake3) = some e' ∧ e'.reservation = e.reservation
  copied : ∀ codec bytes, m = .put codec bytes → ∃ e, after.server.arena.alloc.live.get (m.id blake3) = some e
  idle : m.Reserves → sys.server.arena.Idle now

/-- The second put finds the record, and the arena's copy. -/
theorem put_repeats {object : ObjectRecord} {e : Entry}
    (recorded : sys.server.state.objects.get (.from_checksum (blake3 bytes.bytes)) = some object)
    (found : sys.server.arena.alloc.live.get (.from_checksum (blake3 bytes.bytes)) = some e)
    (committed : OfKind e bytes.len codec (blake3 bytes.bytes) .Direct → e.committed = true)
    (idle : sys.server.arena.Idle env.now) :
    Unchanged sys (sys.act blake3 bincode (.client env (.Put codec bytes))) := by
  rw [act,dispatch_client]
  rcases put_ends env codec bytes sys.server with ⟨error,ran⟩ | ⟨state,payload,admitted,_,ran⟩
  · rw [ran]
    exact ⟨rfl,.refl _⟩
  · rw [ran]
    obtain rfl := admitted.again recorded
    refine ⟨rfl,?_⟩
    rw [Outcome.state_ok]
    dsimp only
    rw [ArenaStore.put_again found idle committed]
    exact .refl _

/-- The second reservation finds the record or the entry. -/
theorem reserve_repeats {size : UInt64} {checksum : Checksum} {mode : ArenaWriteMode}
    (there : (∃ payload, CoordinatorState.resolve_object id sys.server.state = .ok payload sys.server.state) ∨
      ∃ e, sys.server.arena.alloc.live.get id = some e) (idle : sys.server.arena.Idle env.now) :
    Unchanged sys (sys.act blake3 bincode (.client env (.ArenaReserve id codec size checksum mode))) := by
  rw [act,dispatch_client]
  rcases there with ⟨payload,resolved⟩ | ⟨e,found⟩
  · simp only [arena_reserve,bind_apply,attempt,on_state,within,resolved,get_apply,pure_apply,Outcome.state_ok]
    exact ⟨rfl,.refl _⟩
  · have again : Outcome.state (ArenaStore.reserve env.objects id size codec checksum mode env.now env.later env.reservation
        sys.server.arena) = sys.server.arena := by
      rcases ArenaStore.reserve_again env.objects size codec checksum mode env.later env.reservation found idle with
        ⟨_,ran⟩ | ran <;> rw [ran] <;> rfl
    rcases Shared.arena_reserve_ends env id codec size checksum mode sys.server with
      ⟨payload,_,ran⟩ | ⟨fault,ran⟩ | ⟨arena,left,_,_,⟨e',ran,_⟩ | ⟨error,ran⟩⟩
    all_goals
      try rw [again] at left
      try subst left
      rw [ran]
      exact ⟨rfl,.refl _⟩

/-- The second copy of a chunk finds it written. -/
theorem write_repeats {offset : UInt64}
    (done : ∀ e, sys.server.arena.alloc.live.get id = some e → e.reservation = reservation →
      offset.toNat + bytes.bytes.length ≤ e.written_until.toNat) :
    Unchanged sys (sys.act blake3 bincode (.client env (.PutChunk id reservation offset bytes))) := by
  rw [act,dispatch_client,put_chunk,state_bind fun result _ => by cases result <;> rfl,state_attempt,on_arena,state_within]
  exact ⟨rfl,ArenaStore.write_chunk_again done⟩

/-- The second commit finds the entry committed. -/
theorem commit_repeats
    (done : ∀ e, sys.server.arena.alloc.live.get id = some e → e.reservation = reservation → e.committed = true) :
    Unchanged sys (sys.act blake3 bincode (.commit id reservation)) := by
  have again := ArenaStore.commit_again done
  rcases ArenaStore.commit_ends id reservation sys.server.arena with ⟨e,arena,ran,_⟩ | ⟨error,ran⟩
  · rw [ran] at again
    simp only [act,arena_commit,attempt,on_arena,within,ran]
    exact ⟨rfl,again⟩
  · simp only [act,arena_commit,attempt,on_arena,within,ran]
    exact ⟨rfl,.refl _⟩

/-- The second copy finds the record. -/
theorem publish_repeats {c : Commit} {object : ObjectRecord} (steady : Steady blake3 sys.server)
    (recorded : sys.server.state.objects.get c.id = some object) (available : object.state = .Available)
    (sameCodec : object.codec = some c.info.codec) (sameSize : object.size_bytes = some c.info.size)
    (sameDigest : object.checksum = some c.info.checksum) :
    Unchanged sys (sys.act blake3 bincode (.publish c)) := by
  rw [act]
  rcases publish_ends c.id c.reservation c.info steady.state.filed with ⟨_,state,_,admitted,_,_,ran⟩ | ⟨cannot,_⟩
  · rw [ran]
    obtain rfl := admitted.again recorded
    exact ⟨rfl,.refl _⟩
  · rw [CoordinatorState.Takes,recorded] at cannot
    exact absurd ⟨available,sameCodec,sameSize,sameDigest⟩ cannot

/-! ### What the first of two copies leaves -/

theorem put_leaves (accepted : (Mutation.put codec bytes).Accepted blake3 bincode env sys.server)
    (first : after = sys.act blake3 bincode (.client env (.Put codec bytes))) :
    (∃ object, after.server.state.objects.get (.from_checksum (blake3 bytes.bytes)) = some object) ∧
      ∀ e, after.server.arena.alloc.live.get (.from_checksum (blake3 bytes.bytes)) = some e →
        OfKind e bytes.len codec (blake3 bytes.bytes) .Direct → e.committed = true := by
  obtain ⟨payload,server,ran⟩ := accepted
  rw [dispatch_client] at ran
  rcases put_ends env codec bytes sys.server with ⟨error,refused⟩ | ⟨state,_,admitted,_,done⟩
  · cases (EStateM.Result.ok.inj (ran.symm.trans refused)).1
  · rw [act,dispatch_client,done] at first
    subst first
    obtain ⟨object,recorded,_⟩ := admitted.recorded
    exact ⟨⟨object,recorded⟩,fun e found kind => ArenaStore.put_commits found kind⟩

/-- An accepted reservation leaves the entry that it was given, unless the object was on record and could be had. -/
theorem reserve_leaves {size : UInt64} {checksum : Checksum} {mode : ArenaWriteMode}
    (accepted : (Mutation.reserve id codec size checksum mode).Accepted blake3 bincode env sys.server)
    (first : after = sys.act blake3 bincode (.client env (.ArenaReserve id codec size checksum mode))) :
    (∃ object, after.server.state.objects.get id = some object ∧ ∀ s : CoordinatorState, s.objects.get id = some object →
        ∃ payload, CoordinatorState.resolve_object id s = .ok payload s) ∨
      ∃ e, after.server.arena.alloc.live.get id = some e := by
  rcases Shared.arena_reserve_ends env id codec size checksum mode sys.server with
    ⟨payload,resolved,done⟩ | ⟨fault,failed⟩ | ⟨arena,_,_,_,⟨e,done,left,_⟩ | ⟨error,refused⟩⟩
  · rw [act,dispatch_client,done] at first
    subst first
    obtain ⟨rfl,object,found,available,hasCodec,hasSize,hasDigest,hasPlace,_⟩ := CoordinatorState.resolve_object_lists resolved
    exact .inl ⟨object,found,fun s there =>
      ⟨_,CoordinatorState.resolve_object_available there available hasCodec hasSize hasDigest hasPlace⟩⟩
  · rcases accepted with ⟨_,_,ran⟩ | ⟨_,_,_,ran⟩ <;> cases ran.symm.trans failed
  · rw [act,dispatch_client,done] at first
    subst first
    exact .inr ⟨e,left⟩
  · rcases accepted with ⟨_,_,ran⟩ | ⟨_,_,_,ran⟩ <;> cases (EStateM.Result.ok.inj (ran.symm.trans refused)).1

theorem write_leaves {offset : UInt64}
    (accepted : (Mutation.write id reservation offset bytes).Accepted blake3 bincode env sys.server)
    (first : after = sys.act blake3 bincode (.client env (.PutChunk id reservation offset bytes))) :
    ∃ e, after.server.arena.alloc.live.get id = some e ∧ e.reservation = reservation ∧
      offset.toNat + bytes.bytes.length ≤ e.written_until.toNat := by
  obtain ⟨server,ran⟩ := accepted
  rw [act,ran] at first
  obtain ⟨result,s₁,wrote,answered⟩ := bind_ok ran
  cases result with
  | error error => cases (EStateM.Result.ok.inj answered).1
  | ok done =>
    obtain ⟨_,rfl⟩ := EStateM.Result.ok.inj answered
    obtain ⟨arena,written,rfl⟩ := within_ok (attempt_ok wrote)
    subst first
    exact ArenaStore.write_chunk_reaches written

theorem commit_leaves (accepted : (Mutation.commit id reservation).Accepted blake3 bincode env sys.server)
    (first : after = sys.act blake3 bincode (.commit id reservation)) :
    ∃ e, after.server.arena.alloc.live.get id = some e ∧ e.reservation = reservation ∧ e.committed = true ∧
      ⟨id,reservation,e.toMeta⟩ ∈ after.inflight := by
  obtain ⟨info,server,ran⟩ := accepted
  rcases ArenaStore.commit_ends id reservation sys.server.arena with ⟨e,_,done,found,mine,_,rfl⟩ | ⟨error,failed⟩
  · simp only [act,arena_commit,attempt,on_arena,within,done] at first
    subst first
    refine ⟨{ e with committed := true, reserved_at := none },?_,mine,rfl,List.mem_cons_self⟩
    dsimp only
    rw [Table.get_modify_of found,if_pos rfl]
  · simp only [arena_commit,attempt,on_arena,within,failed] at ran
    cases (EStateM.Result.ok.inj ran).1

theorem publish_leaves {c : Commit} (steady : Steady blake3 sys.server)
    (accepted : (Mutation.publish c).Accepted blake3 bincode env sys.server)
    (first : after = sys.act blake3 bincode (.publish c)) :
    ∃ object, after.server.state.objects.get c.id = some object ∧ object.state = .Available ∧
      object.codec = some c.info.codec ∧ object.size_bytes = some c.info.size ∧ object.checksum = some c.info.checksum := by
  obtain ⟨payload,server,ran⟩ := accepted
  rcases publish_ends c.id c.reservation c.info steady.state.filed with ⟨_,state,_,admitted,_,_,done⟩ | ⟨_,error,refused⟩
  · rw [act,done] at first
    subst first
    exact admitted.recorded
  · cases (EStateM.Result.ok.inj (ran.symm.trans refused)).1

/-! ### Runs with two copies -/

/-- No action draws the reservation of the object's entry. -/
def Undrawn (after : System) (id : ObjectId) (_ : System) (action : Action) : Prop :=
  ∀ e, after.server.arena.alloc.live.get id = some e → action.draws ≠ some e.reservation

theorem grows_between {e e' : Entry} (steady : Steady blake3 after.server)
    (between : Run blake3 bincode (Undrawn after id) after sys) (left : after.server.arena.alloc.live.get id = some e)
    (found : sys.server.arena.alloc.live.get id = some e') (same : e'.reservation = e.reservation) : Grows e e' := by
  obtain ⟨e₀,there,grows⟩ := between.grown steady (fun _ _ undrawn => by rw [same]; exact undrawn e left) found
  obtain rfl := Option.some.inj (left.symm.trans there)
  exact grows

/-- After every run, if one of these mutations is accepted, and what it left and the same mutation needs is still there when
    that arrives again, whatever happened in between, then the second one changes neither the objects on record nor the live
    entries of the arena, and leaves nothing to be done that the first one has not left. -/
theorem repeats_nothing {epoch : CoordinatorEpoch} {token : String} {lease_ms : Nat} {require_loopback : Bool}
    (run : Run blake3 bincode (fun _ _ => True) (start epoch token lease_ms require_loopback) sys)
    (possible : (m.action env).Possible sys) (accepted : m.Accepted blake3 bincode env sys.server)
    (first : after = sys.act blake3 bincode (m.action env))
    (between : Run blake3 bincode (Undrawn after (m.id blake3)) after sys')
    (undisturbed : Undisturbed blake3 m env'.now after sys') :
    Unchanged sys' (sys'.act blake3 bincode (m.action env')) ∧
      ∀ c ∈ (sys'.act blake3 bincode (m.action env')).inflight, c ∈ sys'.inflight ∨ c ∈ after.inflight := by
  have steady : Steady blake3 sys.server := run.steady (start_steady epoch token lease_ms require_loopback)
  have steady' : Steady blake3 after.server := first ▸ act_steady steady possible
  cases m with
  | put codec bytes =>
    obtain ⟨⟨object,recorded⟩,commits⟩ := put_leaves accepted first
    obtain ⟨e,left⟩ := undisturbed.copied codec bytes rfl
    obtain ⟨e',found,same⟩ := undisturbed.entry trivial e left
    have grows := grows_between steady' between left found same
    exact ⟨put_repeats (undisturbed.record trivial object recorded) found
      (fun kind => grows.committed (commits e left (grows.of_kind kind))) (undisturbed.idle trivial),fun c => .inl⟩
  | reserve id codec size checksum mode =>
    refine ⟨reserve_repeats ?_ (undisturbed.idle trivial),fun c => .inl⟩
    rcases reserve_leaves accepted first with ⟨object,recorded,resolves⟩ | ⟨e,left⟩
    · exact .inl (resolves _ (undisturbed.record trivial object recorded))
    · obtain ⟨e',found,_⟩ := undisturbed.entry trivial e left
      exact .inr ⟨e',found⟩
  | write id reservation offset bytes =>
    obtain ⟨e,left,mine,written⟩ := write_leaves accepted first
    refine ⟨write_repeats fun e' found mine' => ?_,fun c => .inl⟩
    have grows := grows_between steady' between left found (mine'.trans mine.symm)
    exact written.trans (UInt64.le_iff_toNat_le.mp grows.written)
  | commit id reservation =>
    obtain ⟨e,left,mine,committed,todo⟩ := commit_leaves accepted first
    have grows (e' : Entry) (found : sys'.server.arena.alloc.live.get id = some e') (mine' : e'.reservation = reservation) :
        Grows e e' := grows_between steady' between left found (mine'.trans mine.symm)
    refine ⟨commit_repeats fun e' found mine' => (grows e' found mine').committed committed,fun c again => ?_⟩
    rcases ArenaStore.commit_ends id reservation sys'.server.arena with ⟨e',arena,ran,found,mine',_⟩ | ⟨error,ran⟩
    · simp only [Mutation.action,act,arena_commit,attempt,on_arena,within,ran,List.mem_cons] at again
      rw [(grows e' found mine').info] at again
      exact again.symm.imp_right fun same => by rw [same]; exact todo
    · simp only [Mutation.action,act,arena_commit,attempt,on_arena,within,ran] at again
      exact .inl again
  | publish c =>
    obtain ⟨object,recorded,available,sameCodec,sameSize,sameDigest⟩ := publish_leaves steady accepted first
    exact ⟨publish_repeats (between.steady steady') (undisturbed.record trivial object recorded) available sameCodec sameSize sameDigest,
      fun c' todo => .inl (List.mem_of_mem_erase todo)⟩

/-- A client's put of the bytes `abc`. -/
def abcPut : Mutation := .put .RawBytes ⟨abc,abc_bounded⟩

theorem abc_accepted : abcPut.Accepted abcHash .fixint (smallEnv 1) smallSystem.server := by
  have stored : Site.putSystem.server.state.objects.get abcId ≠ none := by decide +kernel
  rcases put_ends (smallEnv 1) .RawBytes ⟨abc,by decide⟩ smallSystem.server with ⟨error,refused⟩ | ⟨_,payload,_,_,ran⟩
  · rw [Site.putSystem,act,dispatch_client,refused] at stored
    exact absurd rfl stored
  · exact ⟨payload,_,ran⟩

theorem abc_idle : Site.putSystem.server.arena.Idle 0 := by
  intro id e found
  have only : Site.putSystem.server.arena.alloc.live.keys = {abcId} := by decide +kernel
  have member := Table.mem_keys_iff.mpr ⟨e,found⟩
  rw [only,Finset.mem_singleton] at member
  subst member
  have there : Site.putSystem.server.arena.alloc.live.get abcId =
    some ⟨0,3,8,.RawBytes,abcDigest,⟨.replicate 16 1⟩,.Direct,0,true,none⟩ := by decide +kernel
  obtain rfl := Option.some.inj (there.symm.trans found)
  rfl

theorem abc_unchanged :
    abcPut.Accepted abcHash .fixint (smallEnv 1) smallSystem.server ∧
      Unchanged Site.putSystem (Site.putSystem.act abcHash .fixint (abcPut.action (smallEnv 2))) := by
  have possible : (abcPut.action (smallEnv 1)).Possible smallSystem := ⟨.none,by rintro _ _ ⟨⟩⟩
  have copied : ∃ e, Site.putSystem.server.arena.alloc.live.get abcId = some e :=
    Option.isSome_iff_exists.mp (by decide +kernel)
  have undisturbed : Undisturbed abcHash abcPut (smallEnv 2).now Site.putSystem Site.putSystem :=
    ⟨fun _ _ found => found,fun _ e found => ⟨e,found,rfl⟩,fun _ _ _ => copied,fun _ => abc_idle⟩
  exact ⟨abc_accepted,(repeats_nothing .start possible abc_accepted rfl .start undisturbed).1⟩

/-- The bytes are put and released. -/
def releasedActions : List Action := [abcPut.action (smallEnv 1),.client (smallEnv 2) (.Release abcId)]

def releasedSystem : System := replay abcHash .fixint smallSystem releasedActions

/-- The put arrives again after the object was released: it is on record again, and in the arena. -/
theorem put_returns :
    abcPut.Accepted abcHash .fixint (smallEnv 1) smallSystem.server ∧
      Run abcHash .fixint (fun _ _ => True) (smallSystem.act abcHash .fixint (abcPut.action (smallEnv 1))) releasedSystem ∧
      releasedSystem.server.state.objects.get abcId = none ∧ releasedSystem.server.arena.alloc.live.get abcId = none ∧
      (releasedSystem.act abcHash .fixint (abcPut.action (smallEnv 1))).server.state.objects.get abcId =
        some (CoordinatorState.put_record abcId .RawBytes 3 abcDigest (some abc)) ∧
      (releasedSystem.act abcHash .fixint (abcPut.action (smallEnv 1))).server.arena.alloc.live.get abcId =
        some ⟨0,3,8,.RawBytes,abcDigest,⟨.replicate 16 1⟩,.Direct,0,true,none⟩ :=
  ⟨abc_accepted,.step .start (.client (smallEnv 2) (.Release abcId)) ⟨.none,nofun⟩ trivial,by decide +kernel,by decide +kernel,by decide +kernel,by decide +kernel⟩

end System
end Crayon
