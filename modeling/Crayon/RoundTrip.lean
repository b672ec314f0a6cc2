import Crayon.Fetch
import Crayon.Retention

/-!
Putting bytes and getting them back. The two halves meet at `Kept`: each of the
three ways in which a client puts bytes leaves them kept under the id that it
returns (`put_raw_kept`), and whatever is kept is what each of the ways to get
an object returns (`kept_fetched`), whether the client maps the arena or not.
What happens in between must leave the object alone; a write into the mapping
that comes too late, or a slot that is too small for what was reserved, can
change its bytes without any request about it (`stray_writes_misread`).
-/
namespace Crayon

namespace ArenaStore
open Arena Command
variable {s : ArenaStore} {id : ObjectId} {e : Entry}

theorem read_chunk_committed (found : s.alloc.live.get id = some e) (committed : e.committed = true) (rel_offset len : UInt64)
    (inside : rel_offset.toNat + len.toNat ≤ e.size.toNat) :
    read_chunk id rel_offset len s = .ok (some (s.map.slice ⟨(e.offset + rel_offset).toNat,len.toNat⟩))
      { s with map := s.map.touch ⟨(e.offset + rel_offset).toNat,len.toNat⟩ } := by
  have below : rel_offset.toNat + len.toNat < 2^64 := inside.trans_lt e.size.toNat_lt
  have checked : (checked_add rel_offset len).filter (· ≤ e.size) = some (rel_offset + len) := by
    rw [checked_add,if_pos below,Option.filter_some,if_pos]
    rw [decide_eq_true_iff,UInt64.le_iff_toNat_le,UInt64.toNat_add,Nat.mod_eq_of_lt below]
    exact inside
  simp only [read_chunk,bind_apply,get_apply,found,committed,if_true,checked,slice,modify_apply,pure_apply]

end ArenaStore

/-! ### What is kept is what is fetched -/

namespace Site
open CoordinatorState (Vouched resolve_object)
open CoordinatorServer Command
variable {site : Site} {id : ObjectId} {e : Arena.Entry}

/-- Chunks of a committed object, fetched one after the other, make up the object. -/
theorem get_chunked_committed (sound : site.server.arena.alloc.Sound) (found : site.server.arena.alloc.live.get id = some e)
    (committed : e.committed = true) {offset : UInt64} {out : List UInt8} (inside : offset ≤ e.size)
    (fetched : out = site.server.arena.map.slice ⟨e.offset.toNat,offset.toNat⟩) :
    site.get_chunked id e.size site.client.address offset out = .ok (site.seen e e.size) := by
  -- what a request for the next chunk is answered with
  have reply : ∀ {offset : UInt64}, offset < e.size →
      site.request site.client.address (.GetChunk id offset (min (e.size - offset) (.ofNat MAX_OBJECT_BYTES))) =
        .ok (.Chunk (site.server.arena.map.slice
          ⟨e.offset.toNat + offset.toNat,(min (e.size - offset) (.ofNat MAX_OBJECT_BYTES)).toNat⟩)) := by
    intro offset more
    have length := chunk_len_toNat (UInt64.le_of_lt more)
    have below := UInt64.lt_iff_toNat_lt.mp more
    have short : ¬ min (e.size - offset) (.ofNat MAX_OBJECT_BYTES) > UInt64.ofNat MAX_OBJECT_BYTES := by
      have limit : (UInt64.ofNat MAX_OBJECT_BYTES).toNat = MAX_OBJECT_BYTES := by decide
      rw [gt_iff_lt,UInt64.lt_iff_toNat_lt,length,limit]
      omega
    have read := ArenaStore.read_chunk_committed found committed offset (min (e.size - offset) (.ofNat MAX_OBJECT_BYTES))
      (by omega)
    rw [ArenaStore.offset_exact sound found below.le] at read
    generalize ArenaStore.mk _ _ _ = arena at read
    refine request_coordinator _ (s := { site.server with arena }) ?_
    simp only [dispatch_client,get_chunk,short,if_false,bind_apply,on_arena,within,read,pure_apply]
  fun_induction get_chunked site id e.size site.client.address offset out with
  | case1 offset out more len fault asked => cases asked.symm.trans (reply more)
  | case2 offset out more len bytes asked whole ih =>
    obtain rfl := ClientReply.Chunk.inj (Except.ok.inj (asked.symm.trans (reply more)))
    obtain ⟨_,sum,_⟩ := chunk_len_bounds more
    have length := chunk_len_toNat (UInt64.le_of_lt more)
    have below := UInt64.lt_iff_toNat_lt.mp more
    refine ih (UInt64.le_iff_toNat_le.mpr ?_) ?_
    · rw [sum]
      omega
    · rw [sum,Memory.slice_append,← fetched]
  | case3 offset out more len bytes asked short =>
    obtain rfl := ClientReply.Chunk.inj (Except.ok.inj (asked.symm.trans (reply more)))
    exact absurd (by simp [Memory.slice,len]) short
  | case4 offset out more len fault asked => cases asked.symm.trans (reply more)
  | case5 offset out more len answer notChunk notError asked =>
    exact absurd (Except.ok.inj (asked.symm.trans (reply more))) (notChunk _)
  | case6 offset out done =>
    have whole : offset = e.size := UInt64.le_antisymm inside (UInt64.not_lt.mp done)
    rw [fetched,whole]
    rfl

/-- From afar an object that only the arena has is fetched whole or in chunks. -/
theorem single_far_committed {payload : ObjectPayload} {bytes : Buffer} (sound : site.server.arena.alloc.Sound)
    (resolved : resolve_object payload.id site.server.state = .ok payload site.server.state)
    (found : site.server.arena.alloc.live.get payload.id = some e) (committed : e.committed = true)
    (far : ¬ site.Near e payload.size_bytes) (bare : payload.bytes = none) (size : e.size = payload.size_bytes)
    (content : site.seen e e.size = bytes.bytes) (verified : site.Verified payload bytes.bytes) :
    site.payload_bytes (site.annotated payload e) = .ok (payload.codec,bytes.bytes) := by
  by_cases small : payload.size_bytes ≤ .ofNat MAX_OBJECT_BYTES
  · rw [single_far_bare resolved found committed far bare small,content,if_pos verified]
  · have start : (0 : UInt64) ≤ e.size := UInt64.le_iff_toNat_le.mpr (Nat.zero_le _)
    have fetched : site.get_chunked payload.id e.size site.client.address 0 [] = _ :=
      get_chunked_committed sound found committed start rfl
    rw [content,size] at fetched
    rw [single_far_large far (UInt64.not_le.mp small),fetched]
    change (verify_object _ _ _ _ _ _ >>= _) = _
    rw [verify_object_of verified]
    rfl

/-- Whatever way a client takes, it gets what is kept. -/
theorem kept_fetched {codec : Codec} {bytes : Buffer} (well : Well site.blake3 site.server)
    (kept : Kept site.blake3 site.server id codec bytes) :
    ∃ payload, site.request site.client.address (.Get id) = .ok (.Object payload) ∧
      site.payload_bytes payload = .ok (codec,bytes.bytes) := by
  obtain ⟨checksum,inline,deposited,digest,place⟩ := kept.record
  have resolved := CoordinatorState.resolve_object_available deposited.found rfl rfl rfl rfl rfl
  have vouched := (CoordinatorState.resolve_object_lists resolved).2.vouched well.steady.state.filed
  have verified : site.Verified ⟨id,codec,bytes.len,checksum,"coordinator",inline,none⟩ bytes.bytes :=
    ⟨rfl,digest.imp_right Eq.symm⟩
  refine ⟨_,request_coordinator _ (get_object_ok resolved),?_⟩
  by_cases there : ∃ e, site.server.arena.alloc.live.get id = some e ∧ e.committed = true
  · obtain ⟨e,found,committed⟩ := there
    obtain ⟨size,content⟩ := kept.filled e found committed
    rw [arena_annotate_committed found committed]
    by_cases near : site.Near e bytes.len
    · rw [single_near near]
      rw [Arena.Entry.content,size] at content
      exact congrArg (fun read => Except.ok (codec,read)) content
    · rcases place with rfl | ⟨rfl,_⟩
      · exact single_far_inline vouched resolved found committed near rfl
      · exact single_far_committed well.sound resolved found committed near rfl size content verified
  · have uncommitted : ∀ e, site.server.arena.alloc.live.get id = some e → e.committed = false := fun e found =>
      Bool.eq_false_iff.mpr fun committed => there ⟨e,found,committed⟩
    rw [arena_annotate_uncommitted uncommitted]
    rcases place with rfl | ⟨_,committed⟩
    · exact batch_inline vouched rfl
    · exact absurd committed there

end Site
/-! ### What is put is kept -/

namespace ArenaStore
open Arena Command

/-- What is put in the arena, if it was not committed there before, is there. -/
theorem put_filled (order : Traversal ObjectId) (id : ObjectId) (bytes : Buffer) (codec : Codec) (checksum : Checksum)
    (now later : Instant) (fresh : RequestId) {s : ArenaStore}
    (uncommitted : ∀ e, s.alloc.live.get id = some e → e.committed = false) :
    (Outcome.state (put order id bytes codec checksum now later fresh s)).Filled id bytes := by
  obtain ⟨s₁,reserved,_,_,result⟩ := put_cases order id bytes codec checksum now later fresh s
  -- a reservation commits nothing
  have none : ∀ e, s₁.alloc.live.get id = some e → e.committed ≠ true := by
    intro e found committed
    rw [← reserved] at found
    rcases reserve_entries _ _ _ _ _ _ _ _ _ _ found with before | ⟨_,_,fresh⟩
    · cases (uncommitted e before).symm.trans committed
    · cases fresh.symm.trans committed
  rcases result with ⟨ran,_⟩ | ⟨e,found,size,_,⟨committed,_⟩ | ⟨_,ran⟩⟩
  · rw [ran]
    exact fun e found committed => absurd committed (none e found)
  · exact absurd committed (none e found)
  · rw [ran]
    intro e' found' _
    simp only [Outcome.state_ok] at found' ⊢
    rw [Table.get_modify_of found,if_pos rfl] at found'
    obtain rfl := Option.some.inj found'
    refine ⟨size,?_⟩
    rw [Entry.content,size,Buffer.len_toNat]
    exact Memory.slice_write _ _ _

end ArenaStore

namespace CoordinatorServer
open CoordinatorState Command
variable {blake3 : List UInt8 → Checksum} {bincode : Bincode} {s s' : CoordinatorServer} {id : ObjectId} {codec : Codec}
  {checksum : Checksum} {bytes : Buffer} {reservation : RequestId} {reply : ClientReply} {env : Env} {envs : Nat → Env}

/-- The object is not stored: there is no record of it, and nothing of it is committed in the arena. -/
structure Unstored (s : CoordinatorServer) (id : ObjectId) : Prop where
  unrecorded : s.state.objects.get id = none
  uncommitted : ∀ e, s.arena.alloc.live.get id = some e → e.committed = false

/-- A record that was not there before is a deposit: all outputs of tasks were there. -/
theorem admitted_deposited {state state' : CoordinatorState} {size_bytes : UInt64} {inline : Option (List UInt8)}
    (inv : CoordinatorState.Consistent state) (absent : state.objects.get id = none)
    (admitted : Admitted state id codec size_bytes checksum inline state') :
    Deposited state' id (put_record id codec size_bytes checksum inline) := by
  cases admitted with
  | known found => cases absent.symm.trans found
  | stored =>
    refine ⟨by rw [Table.get_insert,if_pos rfl],rfl,?_⟩
    rintro k task found rfl
    obtain ⟨object,there⟩ := inv.output found
    cases absent.symm.trans there

/-- A put in one request is refused, or makes a record with the bytes and, if there is room, an entry. -/
theorem put_ends (env : Env) (codec : Codec) (bytes : Buffer) (s : CoordinatorServer) :
    (∃ error, put blake3 env codec bytes s = .ok (.Error error) s) ∨
      ∃ state payload, Admitted s.state (.from_checksum (blake3 bytes.bytes)) codec bytes.len (blake3 bytes.bytes)
          (some bytes.bytes) state ∧ payload.id = .from_checksum (blake3 bytes.bytes) ∧
        put blake3 env codec bytes s = .ok (.Object payload) { s with
          state
          arena := Outcome.state (ArenaStore.put env.objects (.from_checksum (blake3 bytes.bytes)) bytes codec
            (blake3 bytes.bytes) env.now env.later env.reservation s.arena) } := by
  by_cases long : bytes.bytes.length > MAX_OBJECT_BYTES
  · exact .inl ⟨.Protocol "object too large",by simp only [put,long,if_true,pure_apply]⟩
  rcases admit_object_ends (s := s.state) (.from_checksum (blake3 bytes.bytes)) codec (.ofNat bytes.bytes.length)
    (blake3 bytes.bytes) (some bytes.bytes) with ⟨_,state,ran,admitted⟩ | ⟨_,error,refused⟩
  · obtain ⟨offset,arena,stored⟩ : ∃ offset arena, ArenaStore.put env.objects (.from_checksum (blake3 bytes.bytes)) bytes
        codec (blake3 bytes.bytes) env.now env.later env.reservation s.arena = .ok offset arena := by
      obtain ⟨s₁,_,_,_,⟨ran,_⟩ | ⟨_,_,_,_,⟨_,ran⟩ | ⟨_,ran⟩⟩⟩ := ArenaStore.put_cases env.objects
        (.from_checksum (blake3 bytes.bytes)) bytes codec (blake3 bytes.bytes) env.now env.later env.reservation s.arena
      all_goals exact ⟨_,_,ran⟩
    refine .inr ⟨state,⟨.from_checksum (blake3 bytes.bytes),codec,bytes.len,blake3 bytes.bytes,"coordinator",none,none⟩,
      admitted,rfl,?_⟩
    simp only [put,long,if_false,bind_apply,attempt,on_state,on_arena,within,CoordinatorState.put,ran,pure_apply,stored,
      Outcome.state_ok]
  · refine .inl ⟨error,?_⟩
    simp only [put,long,if_false,bind_apply,attempt,on_state,within,CoordinatorState.put,refused,pure_apply]

/-- A client has a place for the object, and the first `n` of its bytes are there. -/
structure Placed (blake3 : List UInt8 → Checksum) (s : CoordinatorServer) (id : ObjectId) (reservation : RequestId)
    (codec : Codec) (checksum : Checksum) (bytes : Buffer) (n : Nat) : Prop where
  well : Well blake3 s
  unrecorded : s.state.objects.get id = none
  entry : ∃ e, s.arena.alloc.live.get id = some e ∧ e.reservation = reservation ∧ e.committed = false ∧
    e.size = bytes.len ∧ e.codec = codec ∧ e.checksum = checksum ∧
    s.arena.map.slice ⟨e.offset.toNat,n⟩ = bytes.bytes.take n

theorem dispatch_well {request : ClientRequest} (well : Well blake3 s)
    (ran : dispatch_client blake3 bincode env request s = .ok reply s') (sized : request.Sized)
    (possible : (Action.client env request).Possible ⟨s,[]⟩) : Well blake3 s' := by
  have after : Well blake3 (System.act blake3 bincode ⟨s,[]⟩ (.client env request)).server :=
    System.act_well well possible sized
  rwa [System.act,ran] at after

/-- A reservation gives a place to an object that is not stored. -/
theorem reserve_placed (well : Well blake3 s) (unstored : Unstored s id) {mode : ArenaWriteMode} {grant : Grant}
    (ran : dispatch_client blake3 bincode env (.ArenaReserve id codec bytes.len checksum mode) s = .ok reply s')
    (granted : reserve_reply reply = .ok (.granted grant)) :
    Placed blake3 s' id grant.reservation codec checksum bytes 0 ∧
      ∀ e, s'.arena.alloc.live.get id = some e → e.offset = grant.offset := by
  have sized : ClientRequest.Sized (.ArenaReserve id codec bytes.len checksum mode) := by
    have short := bytes.len_lt
    rw [ClientRequest.Sized,ArenaStore.Buffer.len_toNat]
    omega
  have after : Well blake3 s' := dispatch_well well ran sized ⟨.none,nofun⟩
  rw [dispatch_client] at ran
  rcases Shared.arena_reserve_ends env id codec bytes.len checksum mode s with
    ⟨payload,_,stored⟩ | ⟨fault,failed⟩ | ⟨arena,left,_,sameMap,⟨e,given,found,size,sameCodec,digest,_⟩ | ⟨error,refused⟩⟩
  · cases (EStateM.Result.ok.inj (ran.symm.trans stored)).1
    cases granted
  · cases ran.symm.trans failed
  · obtain ⟨rfl,rfl⟩ := EStateM.Result.ok.inj (ran.symm.trans given)
    cases granted
    have uncommitted : e.committed = false := by
      rw [left] at found
      rcases ArenaStore.reserve_entries _ _ _ _ _ _ _ _ _ _ found with before | ⟨_,_,fresh⟩
      · exact unstored.uncommitted e before
      · exact fresh
    refine ⟨⟨after,unstored.unrecorded,e,found,rfl,uncommitted,size,sameCodec,digest,rfl⟩,fun e' found' => ?_⟩
    rw [Option.some.inj (found'.symm.trans found)]
  · cases (EStateM.Result.ok.inj (ran.symm.trans refused)).1
    cases granted

/-- A client that copies its bytes to its place has them there. -/
theorem copy_placed {grant : Grant} (placed : Placed blake3 s id grant.reservation codec checksum bytes 0)
    (offset : ∀ e, s.arena.alloc.live.get id = some e → e.offset = grant.offset) (ran : copy_wide grant bytes s = .ok () s') :
    Placed blake3 s' id grant.reservation codec checksum bytes bytes.bytes.length := by
  obtain ⟨e,found,mine,uncommitted,size,sameCodec,digest,_⟩ := placed.entry
  by_cases room : grant.offset.toNat + bytes.bytes.length ≤ ARENA_BYTES.toNat
  · simp only [copy_wide,bind_apply,ensure_of room,pure_apply,modify_apply] at ran
    obtain ⟨_,rfl⟩ := EStateM.Result.ok.inj ran
    refine ⟨⟨⟨placed.well.steady.state,placed.well.steady.settled⟩,placed.well.sound⟩,placed.unrecorded,e,found,mine,
      uncommitted,size,sameCodec,digest,?_⟩
    rw [offset e found,List.take_length]
    exact Memory.slice_write _ _ _
  · simp only [copy_wide,bind_apply,ensure_not room,err_apply] at ran
    cases ran

/-- The chunks before one, and that one. -/
theorem take_chunk (bytes : Buffer) (i : Nat) :
    bytes.bytes.take (i * MAX_OBJECT_BYTES) ++ (chunk bytes i).bytes =
      bytes.bytes.take (i * MAX_OBJECT_BYTES + (chunk bytes i).bytes.length) := by
  rw [List.take_add]
  congr 1
  show _ = List.take (List.take _ _).length _
  rw [List.length_take,← List.take_take,List.take_length]
  rfl

/-- A chunk that is accepted is there, after those before it. -/
theorem chunk_placed {i : Nat} (more : i * MAX_OBJECT_BYTES < bytes.bytes.length)
    (placed : Placed blake3 s id reservation codec checksum bytes (i * MAX_OBJECT_BYTES))
    (ran : dispatch_client blake3 bincode env (.PutChunk id reservation (.ofNat (i * MAX_OBJECT_BYTES)) (chunk bytes i)) s =
      .ok .ChunkWritten s') :
    Placed blake3 s' id reservation codec checksum bytes (i * MAX_OBJECT_BYTES + (chunk bytes i).bytes.length) := by
  have after : Well blake3 s' := dispatch_well placed.well ran trivial ⟨.none,nofun⟩
  obtain ⟨e,found,mine,uncommitted,size,sameCodec,digest,earlier⟩ := placed.entry
  have exact : (UInt64.ofNat (i * MAX_OBJECT_BYTES)).toNat = i * MAX_OBJECT_BYTES := by
    have short := bytes.len_lt
    exact UInt64.toNat_ofNat_of_lt' (by rw [UInt64.size]; omega)
  have start : (e.offset + .ofNat (i * MAX_OBJECT_BYTES)).toNat = e.offset.toNat + i * MAX_OBJECT_BYTES := by
    rw [ArenaStore.offset_exact placed.well.sound found,exact]
    rw [exact,size,ArenaStore.Buffer.len_toNat]
    exact more.le
  rcases ArenaStore.write_chunk_cases id reservation (.ofNat (i * MAX_OBJECT_BYTES)) (chunk bytes i) env.now s.arena with
    ⟨e',stop,found',_,_,_,_,_,⟨_,done⟩ | ⟨_,same,done⟩⟩ | ⟨error,failed⟩ | ⟨_,_,_,failed⟩
  · obtain rfl := Option.some.inj (found.symm.trans found')
    simp only [dispatch_client,put_chunk,bind_apply,attempt,on_arena,within,done,pure_apply] at ran
    obtain ⟨_,rfl⟩ := EStateM.Result.ok.inj ran
    refine ⟨after,placed.unrecorded,_,(Table.get_modify_of found _ _).trans (if_pos rfl),mine,uncommitted,size,sameCodec,digest,?_⟩
    rw [start,← take_chunk,← earlier]
    exact Memory.slice_write_after _ _ _ _
  · obtain rfl := Option.some.inj (found.symm.trans found')
    simp only [dispatch_client,put_chunk,bind_apply,attempt,on_arena,within,done,pure_apply] at ran
    obtain ⟨_,rfl⟩ := EStateM.Result.ok.inj ran
    refine ⟨after,placed.unrecorded,e,found,mine,uncommitted,size,sameCodec,digest,?_⟩
    rw [start] at same
    rw [Memory.slice_append,← take_chunk]
    exact congrArg₂ _ earlier same
  · simp only [dispatch_client,put_chunk,bind_apply,attempt,on_arena,within,failed,pure_apply] at ran
    cases ran
  · simp only [dispatch_client,put_chunk,bind_apply,attempt,on_arena,within,failed,pure_apply] at ran
    cases ran

/-- When all chunks were accepted, all bytes are there. -/
theorem send_chunks_placed {grant : Grant} (i : Nat)
    (placed : Placed blake3 s grant.id grant.reservation codec checksum bytes (min (i * MAX_OBJECT_BYTES) bytes.bytes.length))
    (ran : send_chunks blake3 bincode envs grant bytes i s = .ok () s') :
    Placed blake3 s' grant.id grant.reservation codec checksum bytes bytes.bytes.length := by
  induction left : bytes.bytes.length - i * MAX_OBJECT_BYTES using Nat.strong_induction_on generalizing i s with
  | _ left' ih =>
  subst left
  rw [send_chunks] at ran
  by_cases more : i * MAX_OBJECT_BYTES < bytes.bytes.length
  · rw [if_pos more] at ran
    obtain ⟨reply,s₁,sent,rest⟩ := bind_ok ran
    rw [min_eq_left more.le] at placed
    cases reply with
    | ChunkWritten =>
      have next := chunk_placed more placed sent
      have pos : 0 < MAX_OBJECT_BYTES := by decide
      have length : i * MAX_OBJECT_BYTES + (chunk bytes i).bytes.length =
          min ((i + 1) * MAX_OBJECT_BYTES) bytes.bytes.length := by
        rw [chunk,List.length_take,List.length_drop,Nat.add_mul]
        omega
      rw [length] at next
      exact ih _ (by rw [Nat.add_mul]; omega) (i + 1) next rest rfl
    | _ => cases rest
  · rw [if_neg more] at ran
    obtain ⟨_,rfl⟩ := EStateM.Result.ok.inj ran
    rwa [min_eq_right (Nat.le_of_not_lt more)] at placed

/-- Once an object that is placed whole is committed, it is kept. -/
theorem commit_placed (placed : Placed blake3 s id reservation codec checksum bytes bytes.bytes.length)
    (digested : checksum = .replicate 32 0 ∨ checksum = blake3 bytes.bytes) {id' : ObjectId}
    (ran : dispatch_client blake3 bincode env (.ArenaCommit id reservation) s = .ok reply s')
    (named : commit_reply reply = .ok id') : Well blake3 s' ∧ Kept blake3 s' id codec bytes := by
  obtain ⟨e,found,mine,uncommitted,size,sameCodec,digest,content⟩ := placed.entry
  rcases ArenaStore.commit_ends id reservation s.arena with ⟨e',arena,done,found',-,complete,rfl⟩ | ⟨error,failed⟩
  · obtain rfl := Option.some.inj (found.symm.trans found')
    have first : Well blake3 (System.act blake3 bincode ⟨s,[]⟩ (.commit id reservation)).server :=
      System.act_well placed.well trivial trivial
    simp only [System.act,arena_commit,attempt,on_arena,within,done] at first
    simp only [dispatch_client,bind_apply,arena_commit,attempt,on_arena,within,done] at ran
    rcases publish_ends id reservation e.toMeta first.steady.state.filed with
      ⟨_,state,_,admitted,_,_,published⟩ | ⟨_,error,refused⟩
    · obtain ⟨rfl,rfl⟩ := EStateM.Result.ok.inj (ran.symm.trans published)
      have second : Well blake3 (System.act blake3 bincode ⟨_,[⟨id,reservation,e.toMeta⟩]⟩ (.publish ⟨id,reservation,e.toMeta⟩)).server :=
        System.act_well first List.mem_cons_self trivial
      rw [System.act,published] at second
      have same : e.toMeta = ⟨e.offset,bytes.len,codec,checksum⟩ := by rw [Arena.Entry.toMeta,size,sameCodec,digest]
      rw [same] at admitted
      have there := (Table.get_modify_of found (fun e => { e with committed := true, reserved_at := none }) id).trans (if_pos rfl)
      refine ⟨second,⟨checksum,none,admitted_deposited placed.well.steady.state.inv.consistent placed.unrecorded admitted,digested,
        .inr ⟨rfl,_,there,rfl⟩⟩,fun e' found' _ => ?_⟩
      obtain rfl := Option.some.inj (there.symm.trans found')
      refine ⟨size,?_⟩
      rw [List.take_length] at content
      rw [← content,Arena.Entry.content,size,ArenaStore.Buffer.len_toNat]
    · cases (EStateM.Result.ok.inj (ran.symm.trans refused)).1
      cases named
  · simp only [dispatch_client,bind_apply,arena_commit,attempt,on_arena,within,failed,pure_apply] at ran
    cases (EStateM.Result.ok.inj ran).1
    cases named

/-! ### Names -/

/-- The server speaks of the object that it was asked to reserve, and one that need not be sent is stored. -/
theorem reserve_names {size : UInt64} {mode : ArenaWriteMode} {placement : Placement}
    (ran : dispatch_client blake3 bincode env (.ArenaReserve id codec size checksum mode) s = .ok reply s')
    (replied : reserve_reply reply = .ok placement) :
    (placement = .stored id ∧ ¬ Unstored s id) ∨ ∃ offset reservation, placement = .granted ⟨id,offset,reservation⟩ := by
  rw [dispatch_client] at ran
  rcases Shared.arena_reserve_ends env id codec size checksum mode s with
    ⟨payload,resolved,stored⟩ | ⟨fault,failed⟩ | ⟨_,_,_,_,⟨e,given,_⟩ | ⟨error,refused⟩⟩
  · cases (EStateM.Result.ok.inj (ran.symm.trans stored)).1
    cases replied
    obtain ⟨rfl,object,found,_⟩ := resolve_object_lists resolved
    rw [arena_annotate_id]
    refine .inl ⟨rfl,fun unstored => ?_⟩
    cases unstored.unrecorded.symm.trans found
  · cases ran.symm.trans failed
  · cases (EStateM.Result.ok.inj (ran.symm.trans given)).1
    cases replied
    exact .inr ⟨_,_,rfl⟩
  · cases (EStateM.Result.ok.inj (ran.symm.trans refused)).1
    cases replied

/-- The id that a commit returns is the one that was committed. -/
theorem commit_names {id' : ObjectId}
    (ran : dispatch_client blake3 bincode env (.ArenaCommit id reservation) s = .ok reply s')
    (replied : commit_reply reply = .ok id') : id' = id := by
  obtain ⟨committed,s₁,_,ran⟩ := bind_ok ran
  cases committed with
  | error error =>
    cases (EStateM.Result.ok.inj ran).1
    cases replied
  | ok info =>
    obtain ⟨stored,s₂,tried,ran⟩ := bind_ok ran
    cases stored with
    | error error =>
      obtain ⟨_,_,_,ran⟩ := bind_ok ran
      cases (EStateM.Result.ok.inj ran).1
      cases replied
    | ok payload =>
      cases (EStateM.Result.ok.inj ran).1
      cases replied
      obtain ⟨state,both,_⟩ := within_ok (attempt_ok tried)
      obtain ⟨named,state',admitted,resolved⟩ := bind_ok both
      obtain rfl := resolve_object_same resolved
      rw [arena_annotate_id,(resolve_object_lists resolved).1]
      rcases admit_object_ends (s := s₁.state) id info.codec info.size info.checksum none with ⟨_,_,done,_⟩ | ⟨_,_,failed⟩
      · exact (EStateM.Result.ok.inj (admitted.symm.trans done)).1
      · cases admitted.symm.trans failed

/-! ### Puts -/

theorem put_arena_kept (well : Well blake3 s) {random : ObjectId}
    (ran : put_arena blake3 bincode envs random codec bytes s = .ok id s') (unstored : Unstored s id) :
    Well blake3 s' ∧ Kept blake3 s' id codec bytes := by
  rw [put_arena] at ran
  have digested : (content_id blake3 random bytes.bytes).2 = .replicate 32 0 ∨
      (content_id blake3 random bytes.bytes).2 = blake3 bytes.bytes := by
    unfold content_id
    split
    · exact .inr rfl
    · exact .inl rfl
  obtain ⟨reply,s₁,reserved,ran⟩ := bind_ok ran
  obtain ⟨placement,s₂,lifted,ran⟩ := bind_ok ran
  obtain ⟨replied,rfl⟩ := lift_eq lifted
  rcases reserve_names reserved replied with ⟨rfl,stored⟩ | ⟨offset,reservation,rfl⟩
  · obtain ⟨rfl,_⟩ := EStateM.Result.ok.inj ran
    exact absurd unstored stored
  · obtain ⟨_,s₃,copied,ran⟩ := bind_ok ran
    obtain ⟨reply',s₄,committed,ran⟩ := bind_ok ran
    obtain ⟨named,rfl⟩ := lift_eq ran
    obtain rfl := commit_names committed named
    obtain ⟨placed,place⟩ := reserve_placed well unstored reserved replied
    exact commit_placed (copy_placed placed place copied) digested committed named

theorem put_chunked_kept (well : Well blake3 s) {random : ObjectId}
    (ran : put_chunked blake3 bincode envs random codec bytes s = .ok id s') (unstored : Unstored s id) :
    Well blake3 s' ∧ Kept blake3 s' id codec bytes := by
  rw [put_chunked] at ran
  obtain ⟨reply,s₁,reserved,ran⟩ := bind_ok ran
  obtain ⟨placement,s₂,lifted,ran⟩ := bind_ok ran
  obtain ⟨replied,rfl⟩ := lift_eq lifted
  rcases reserve_names reserved replied with ⟨rfl,stored⟩ | ⟨offset,reservation,rfl⟩
  · obtain ⟨rfl,_⟩ := EStateM.Result.ok.inj ran
    exact absurd unstored stored
  · obtain ⟨_,s₃,sent,ran⟩ := bind_ok ran
    obtain ⟨reply',s₄,committed,ran⟩ := bind_ok ran
    obtain ⟨named,rfl⟩ := lift_eq ran
    obtain rfl := commit_names committed named
    obtain ⟨placed,_⟩ := reserve_placed well unstored reserved replied
    rw [← Nat.zero_min bytes.bytes.length,← Nat.zero_mul MAX_OBJECT_BYTES] at placed
    exact commit_placed (send_chunks_placed 0 placed sent) (.inl rfl) committed named

theorem put_kept (well : Well blake3 s) {payload : ObjectPayload}
    (ran : dispatch_client blake3 bincode env (.Put codec bytes) s = .ok (.Object payload) s') (unstored : Unstored s payload.id) :
    Well blake3 s' ∧ Kept blake3 s' payload.id codec bytes := by
  refine ⟨dispatch_well well ran trivial ⟨.none,nofun⟩,?_⟩
  rcases put_ends env codec bytes s with ⟨error,refused⟩ | ⟨state,payload',admitted,named,done⟩
  · cases ran.symm.trans refused
  · obtain ⟨same,rfl⟩ := EStateM.Result.ok.inj (ran.symm.trans done)
    cases same
    rw [named] at unstored ⊢
    exact ⟨⟨_,_,admitted_deposited well.steady.state.inv.consistent unstored.unrecorded admitted,.inr rfl,.inl rfl⟩,
      ArenaStore.put_filled _ _ _ _ _ _ _ _ unstored.uncommitted⟩

/-- Whichever way a client puts an object that is not stored, it is kept. -/
theorem put_raw_kept (well : Well blake3 s) {same_host : Bool} {random : ObjectId}
    (ran : put_raw blake3 bincode same_host envs random codec bytes s = .ok id s') (unstored : Unstored s id) :
    Well blake3 s' ∧ Kept blake3 s' id codec bytes := by
  rw [put_raw] at ran
  split at ran
  · exact put_arena_kept well ran unstored
  · split at ran
    · exact put_chunked_kept well ran unstored
    · obtain ⟨reply,s₁,put,ran⟩ := bind_ok ran
      cases reply with
      | Object payload =>
        obtain ⟨rfl,rfl⟩ := EStateM.Result.ok.inj ran
        exact put_kept well put unstored
      | _ => cases ran

end CoordinatorServer

namespace System
open CoordinatorServer Command
variable {blake3 : List UInt8 → Checksum} {bincode : Bincode} {sys sys' : System}

/-- After every run in which no reserved size wraps around, an object that was not stored and is put is got with its
    codec and its bytes, by whatever client and after whatever happened in between, as long as no request concerned the
    object and whoever wrote into the mapping wrote into slots of other objects. -/
theorem put_get {epoch : CoordinatorEpoch} {token : String} {lease_ms : Nat} {require_loopback same_host : Bool}
    {envs : Nat → Env} {random id : ObjectId} {codec : Codec} {bytes : Buffer} {server : CoordinatorServer} (site : Site)
    (run : Run blake3 bincode (fun _ action => action.Sized) (start epoch token lease_ms require_loopback) sys)
    (unstored : Unstored sys.server id)
    (stored : put_raw blake3 bincode same_host envs random codec bytes sys.server = .ok id server)
    (between : Run blake3 bincode (fun sys action => action.Sized ∧ action.Aside blake3 id ∧ action.Contained id sys)
      { sys with server } sys') (hash : site.blake3 = blake3) (there : site.server = sys'.server) :
    ∃ payload, site.request site.client.address (.Get id) = .ok (.Object payload) ∧
      site.payload_bytes payload = .ok (codec,bytes.bytes) := by
  have well : Well blake3 sys.server := run.well (fun _ _ sized => sized) (new_well epoch token lease_ms require_loopback)
  obtain ⟨well,kept⟩ := put_raw_kept well stored unstored
  have kept' := between.kept (fun _ _ rule => rule.1) (fun _ _ rule => rule.2.1) (fun _ _ rule => rule.2.2) well kept
  have well' := between.well (fun _ _ rule => rule.1) well
  rw [← hash,← there] at kept' well'
  exact Site.kept_fetched well' kept'

end System

/-! ### Examples -/

namespace Site
open CoordinatorServer Shared

/-- A client on the coordinator's host, or on another one. -/
def reader (same_host : Bool) (server : CoordinatorServer) : Site where
  blake3 := shortHash
  bincode := .fixint
  env := System.smallEnv 4
  server
  net := quietNetwork
  client := ⟨"127.0.0.1:7000",local_port,same_host⟩

/-- What a client gets. -/
def got (site : Site) (id : ObjectId) : Except Error (Codec × List UInt8) := do
  match ← site.request site.client.address (.Get id) with
  | .Object payload => site.payload_bytes payload
  | _ => .error (.Protocol "unexpected get reply")

/-- A client far away puts bytes. -/
def putting (env : Env) (bytes : Buffer) (server : CoordinatorServer) : Outcome Error CoordinatorServer ObjectId :=
  put_raw shortHash .fixint false (fun _ => env) ⟨.replicate 32 0⟩ .RawBytes bytes server

/-- One client puts `abc`, and then another one puts `xyz`. -/
def abcSystem : System := { System.smallSystem with server := (putting (System.smallEnv 1) abcBuffer System.smallSystem.server).state }
def bothSystem : System := abcSystem.act shortHash .fixint (.client (System.smallEnv 2) (.Put .RawBytes xyzBuffer))

theorem abc_got :
    putting (System.smallEnv 1) abcBuffer System.smallSystem.server = .ok System.abcId abcSystem.server ∧
      ∃ payload, (reader true bothSystem.server).request "127.0.0.1:7000" (.Get System.abcId) = .ok (.Object payload) ∧
        (reader true bothSystem.server).payload_bytes payload = .ok (.RawBytes,System.abc) := by
  have stored : putting (System.smallEnv 1) abcBuffer System.smallSystem.server = .ok System.abcId abcSystem.server := rfl
  have different : (.from_checksum xyzDigest : ObjectId) ≠ System.abcId := by decide
  exact ⟨stored,System.put_get (reader true bothSystem.server) .start ⟨rfl,nofun⟩ stored
    (.step .start (.client (System.smallEnv 2) (.Put .RawBytes xyzBuffer)) ⟨.none,nofun⟩
      ⟨trivial,fun same => different (Option.some.inj same),trivial⟩) rfl rfl⟩

/-- One client is granted a place for `abc` and does not come back for a minute; another one puts `xyz`. -/
def lateEnv : Env := { System.smallEnv 2 with now := 60 * 10^9, later := 60 * 10^9 }
def grantedSystem : System := System.smallSystem.act shortHash .fixint (System.reserving 1)
def replacedSystem : System :=
  { grantedSystem with server := (putting lateEnv xyzBuffer grantedSystem.server).state }

/-- Only then the first client copies its bytes. -/
def lateSystem : System := replacedSystem.act shortHash .fixint System.writing

/-- One client announces more bytes than can be rounded up, and is granted a place without any room; another one
    puts `xyz`, and then the first one sends a chunk. -/
def hugeSystem : System := System.smallSystem.act shortHash .fixint
  (.client (System.smallEnv 1) (.ArenaReserve System.abcId .RawBytes 0xffffffffffffffff (.replicate 32 0) .Streamed))
def sharedSystem : System := { hugeSystem with server := (putting (System.smallEnv 2) xyzBuffer hugeSystem.server).state }
def chunkSystem : System := sharedSystem.act shortHash .fixint
  (.client (System.smallEnv 3) (.PutChunk System.abcId ⟨.replicate 16 1⟩ 0 abcBuffer))

/-- Both times nobody asked for anything about `xyz` since it was put, and a client that maps the arena gets `abc`
    in its place. -/
theorem stray_writes_misread :
    (System.Run shortHash .fixint (fun _ action => action.Sized) System.smallSystem grantedSystem ∧
      Unstored grantedSystem.server (.from_checksum xyzDigest) ∧
      putting lateEnv xyzBuffer grantedSystem.server = .ok (.from_checksum xyzDigest) replacedSystem.server ∧
      System.Run shortHash .fixint (fun _ action => action.Sized ∧ action.Aside shortHash (.from_checksum xyzDigest))
        replacedSystem lateSystem ∧
      (reader true lateSystem.server).got (.from_checksum xyzDigest) = .ok (.RawBytes,System.abc) ∧
      (reader false lateSystem.server).got (.from_checksum xyzDigest) = .ok (.RawBytes,xyzBuffer.bytes)) ∧
    (System.Run shortHash .fixint (fun _ _ => True) System.smallSystem hugeSystem ∧
      Unstored hugeSystem.server (.from_checksum xyzDigest) ∧
      putting (System.smallEnv 2) xyzBuffer hugeSystem.server = .ok (.from_checksum xyzDigest) sharedSystem.server ∧
      System.Run shortHash .fixint (fun sys action => action.Sized ∧ action.Aside shortHash (.from_checksum xyzDigest) ∧
          action.Contained (.from_checksum xyzDigest) sys) sharedSystem chunkSystem ∧
      (reader true chunkSystem.server).got (.from_checksum xyzDigest) = .ok (.RawBytes,System.abc) ∧
      (reader false chunkSystem.server).got (.from_checksum xyzDigest) = .ok (.RawBytes,xyzBuffer.bytes)) := by
  have different : System.abcId ≠ .from_checksum xyzDigest := by decide
  have replaced : (putting lateEnv xyzBuffer grantedSystem.server).value? = some (.from_checksum xyzDigest) := by
    decide +kernel
  have shared : (putting (System.smallEnv 2) xyzBuffer hugeSystem.server).value? = some (.from_checksum xyzDigest) := by
    decide +kernel
  have unplaced {server : CoordinatorServer} {id : ObjectId} (unrecorded : server.state.objects.get id = none)
      (absent : server.arena.alloc.live.get id = none) : Unstored server id :=
    ⟨unrecorded,fun e found => by cases absent.symm.trans found⟩
  refine ⟨⟨.step .start (System.reserving 1) ⟨.none,nofun⟩ ?_,unplaced rfl (by decide +kernel),Outcome.eq_ok replaced,
    System.Run.start.step System.writing trivial ⟨trivial,trivial⟩,?_,?_⟩,.step .start (.client _ _) ⟨.none,nofun⟩ trivial,
    unplaced rfl (by decide +kernel),Outcome.eq_ok shared,System.Run.start.step (.client _ _) ⟨.none,nofun⟩
      ⟨trivial,fun same => different (Option.some.inj same),trivial⟩,by decide +kernel,by decide +kernel⟩
  · exact show (3 : UInt64).toNat ≤ 2^64 - 8 by decide
  · decide +kernel
  · decide +kernel

end Site
end Crayon
