import Crayon.RoundTrip

/-!
Puts of what is there already. The entry that a reservation makes in the arena
keeps its codec, its size and its mode for as long as it is live, and what is
written or committed of it stays so (`Grows`, `Run.grown`). So a commit publishes
what was asked for when the place was reserved, and a request that arrives again
finds what the first one left, unless something was released, rolled back or
reaped in between.
-/
namespace Crayon

namespace ArenaStore
open Arena Command
variable {s s' : ArenaStore} {id : ObjectId} {e e' : Entry}

/-! ### Entries as long as they live -/

theorem grows_commit {k : ObjectId} (found : (s.alloc.live.modify k fun e => { e with committed := true, reserved_at := none }).get
    id = some e') : ∃ e, s.alloc.live.get id = some e ∧ Grows e e' := by
  rw [Table.get_modify] at found
  split at found
  · obtain ⟨e,there,rfl⟩ := Option.map_eq_some_iff.mp found
    exact ⟨e,there,rfl,rfl,rfl,fun _ => rfl,UInt64.le_refl _⟩
  · exact ⟨e',found,.refl e'⟩

/-- An entry was there before, or has just been reserved. -/
theorem apply_grown (order : Traversal ObjectId) (op : Op) (s : ArenaStore)
    (found : (Outcome.state (apply order op s)).alloc.live.get id = some e') :
    (∃ e, s.alloc.live.get id = some e ∧ Grows e e') ∨ op.draws = some e'.reservation := by
  cases (apply_ends order op s).moves.origin found with
  | kept before => exact .inl ⟨e',before,.refl e'⟩
  | grown before grows => exact .inl ⟨_,before,grows⟩
  | reserved _ drawn => exact .inr drawn

end ArenaStore

namespace CoordinatorServer
open Arena Command ArenaStore
variable {blake3 : List UInt8 → Checksum} {Q : ArenaStore.Op → Prop} {s s' : CoordinatorServer} {id : ObjectId} {e' : Entry}

theorem Works.grown (works : Works blake3 Q s s') (found : s'.arena.alloc.live.get id = some e') :
    (∃ e, s.arena.alloc.live.get id = some e ∧ Grows e e') ∨ ∃ op, Q op ∧ op.draws = some e'.reservation := by
  induction works generalizing e' with
  | refl => exact .inl ⟨e',found,.refl e'⟩
  | tail _ work ih =>
    cases work with
    | state deed => exact ih found
    | arena order op asked =>
      rcases apply_grown order op _ found with ⟨e,there,grows⟩ | drawn
      · rcases ih there with ⟨e₀,there₀,grows₀⟩ | ⟨op',asked',drawn⟩
        · exact .inl ⟨e₀,there₀,grows₀.trans grows⟩
        · exact .inr ⟨op',asked',by rw [drawn,grows.reservation]⟩
      · exact .inr ⟨op,asked,drawn⟩

end CoordinatorServer

/-- The reservation that an action draws. -/
def Action.draws : Action → Option RequestId
  | .client env (.Put _ _) | .client env (.ArenaReserve _ _ _ _ _) => some env.reservation
  | _ => none

/-- A request that draws no reservation asks the arena for none. -/
theorem ClientRequest.Stores.undrawn {blake3 : List UInt8 → Checksum} {request : ClientRequest} {op : ArenaStore.Op} {env : Env}
    (stores : request.Stores blake3 op) (draws : (Action.client env request).draws = none) : op.draws = none := by
  cases request with
  | Put | ArenaReserve => cases draws
  | PutChunk =>
    obtain ⟨now,rfl⟩ := stores
    rfl
  | GetLocal | GetChunk =>
    cases stores
    rfl
  | _ => cases stores

namespace System
open Arena Command CoordinatorServer
open ArenaStore (Grows Recedes recedes_release recedes_rollback grows_commit apply_grown)
variable {blake3 : List UInt8 → Checksum} {bincode : Bincode} {sys sys' : System} {id : ObjectId} {e' : Entry}

/-- An entry was there before an action, or has just been reserved by it. -/
theorem act_grown (steady : Steady blake3 sys.server) {action : Action} (possible : action.Possible sys)
    (found : (sys.act blake3 bincode action).server.arena.alloc.live.get id = some e') :
    (∃ e, sys.server.arena.alloc.live.get id = some e ∧ Grows e e') ∨ action.draws = some e'.reservation := by
  have same (there : sys.server.arena.alloc.live.get id = some e') :
      (∃ e, sys.server.arena.alloc.live.get id = some e ∧ Grows e e') ∨ action.draws = some e'.reservation :=
    .inl ⟨e',there,.refl e'⟩
  cases action with
  | client env request =>
    by_cases releases : ∃ other, request = .Release other
    · obtain ⟨other,rfl⟩ := releases
      rw [act,dispatch_client] at found
      rcases release_ends other sys.server with ⟨_,state,_,_,ran⟩ | ⟨_,error,ran⟩
      · rw [ran] at found
        exact .inl ⟨e',(recedes_release other _).entries id e' found,.refl e'⟩
      · rw [ran] at found
        exact same found
    have chores : Chores blake3 (request.Stores blake3) sys.server _ := dispatch_client_chores bincode possible.1
      steady.state.inv possible.2 fun other asked => releases ⟨other,asked⟩
    by_cases draws : (Action.client env request).draws = none
    · rcases Works.grown chores.works found with grown | ⟨op,asked,drawn⟩
      · exact .inl grown
      · rw [asked.undrawn draws] at drawn
        cases drawn
    have drawing : Works blake3 (fun op => op.draws = some env.reservation) sys.server
        (Outcome.state (dispatch_client blake3 bincode env request sys.server)) := by
      cases request with
      | Put codec bytes => exact (put_chores (Q := fun op => op.draws = some env.reservation) env codec bytes rfl).works
      | ArenaReserve id codec size_bytes checksum mode =>
        exact (arena_reserve_chores (Q := fun op => op.draws = some env.reservation) env id codec size_bytes checksum mode
          rfl).works
      | _ => exact absurd rfl draws
    rcases Works.grown drawing found with grown | ⟨op,asked,drawn⟩
    · exact .inl grown
    · right
      cases request with
      | Put | ArenaReserve => exact asked.symm.trans drawn
      | _ => exact absurd rfl draws
  | worker env request =>
    have works : Works blake3 (fun _ => False) sys.server _ := dispatch_worker_works env request
    rcases works.grown found with grown | ⟨_,asked,_⟩
    · exact .inl grown
    · cases asked
  | tick env report =>
    rw [act,on_state,state_within] at found
    exact same found
  | commit other reservation =>
    rcases ArenaStore.commit_ends other reservation sys.server.arena with ⟨e,arena,done,_,_,_,rfl⟩ | ⟨error,failed⟩
    · simp only [act,arena_commit,attempt,on_arena,within,done] at found
      exact .inl (grows_commit found)
    · simp only [act,arena_commit,attempt,on_arena,within,failed] at found
      exact same found
  | publish c =>
    rw [act] at found
    rcases publish_ends c.id c.reservation c.info steady.state.filed with ⟨_,_,_,_,_,_,ran⟩ | ⟨_,error,ran⟩
    · rw [ran] at found
      exact same found
    · rw [ran] at found
      exact .inl ⟨e',(recedes_rollback c.id c.reservation _).entries id e' found,.refl e'⟩
  | write offset bytes => exact same found

/-- An entry whose reservation is not drawn again was there from the start. -/
theorem Run.grown {Rule : System → Action → Prop} {first : System} (run : Run blake3 bincode Rule first sys)
    (steady : Steady blake3 first.server) (undrawn : ∀ sys action, Rule sys action → action.draws ≠ some e'.reservation)
    (found : sys.server.arena.alloc.live.get id = some e') :
    ∃ e, first.server.arena.alloc.live.get id = some e ∧ Grows e e' := by
  induction run generalizing e' with
  | start => exact ⟨e',found,.refl e'⟩
  | step run action possible rule ih =>
    rcases act_grown (run.steady steady) possible found with ⟨e,there,grows⟩ | drawn
    · obtain ⟨e₀,there₀,grows₀⟩ := ih (fun sys action rule => by rw [← grows.reservation]; exact undrawn sys action rule) there
      exact ⟨e₀,there₀,grows₀.trans grows⟩
    · exact absurd drawn (undrawn _ _ rule)

/-! ### What a put leaves on record -/

section
variable (blake3 : List UInt8 → Checksum) (bincode : Bincode)

/-- A client puts an object of this codec and size, and is told its id: it sends the object and is told that it is stored, it
    asks for a place and is told that it is stored, or it is given a place and in the end commits it. What else happens in
    the meantime is arbitrary, except that no other reservation gets the id of this one. -/
inductive Puts (codec : Codec) (size : UInt64) (sys : System) : ObjectId → System → Prop where
  | sent {env : Env} {bytes : Buffer} {payload : ObjectPayload} {server : CoordinatorServer} (sized : bytes.len = size)
      (ran : dispatch_client blake3 bincode env (.Put codec bytes) sys.server = .ok (.Object payload) server) :
      Puts codec size sys payload.id { sys with server }
  | stored {env : Env} {id : ObjectId} {checksum : Checksum} {mode : ArenaWriteMode} {payload : ObjectPayload}
      {server : CoordinatorServer}
      (ran : dispatch_client blake3 bincode env (.ArenaReserve id codec size checksum mode) sys.server =
        .ok (.Object payload) server) :
      Puts codec size sys payload.id { sys with server }
  | committed {env : Env} {id : ObjectId} {checksum : Checksum} {mode : ArenaWriteMode} {offset : UInt64}
      {reservation : RequestId} {info : Arena.Meta} {payload : ObjectPayload} {server server₁ server₂ : CoordinatorServer}
      {sys₁ sys₂ : System}
      (reserved : dispatch_client blake3 bincode env (.ArenaReserve id codec size checksum mode) sys.server =
        .ok (.ArenaReserved id offset reservation) server)
      (before : Run blake3 bincode (fun _ action => action.draws ≠ some reservation) { sys with server } sys₁)
      (committed : arena_commit id reservation sys₁.server = .ok (.ok info) server₁)
      (between : Run blake3 bincode (fun _ _ => True) ⟨server₁,⟨id,reservation,info⟩ :: sys₁.inflight⟩ sys₂)
      (published : publish id reservation info sys₂.server = .ok (.Object payload) server₂) :
      Puts codec size sys payload.id { sys₂ with server := server₂ }

end

/-- The object is on record with this codec and size. -/
def Reports (s : CoordinatorState) (id : ObjectId) (codec : Codec) (size : UInt64) : Prop :=
  ∃ payload, CoordinatorState.resolve_object id s = .ok payload s ∧ payload.codec = codec ∧ payload.size_bytes = size

/-- If the object is on record, it is so with this codec and size. -/
def Agrees (s : CoordinatorState) (id : ObjectId) (codec : Codec) (size : UInt64) : Prop :=
  ∀ payload t, CoordinatorState.resolve_object id s = .ok payload t → payload.codec = codec ∧ payload.size_bytes = size

variable {codec : Codec} {size : UInt64} {payload : ObjectPayload} {checksum : Checksum}

theorem reports_iff_agrees {state : CoordinatorState}
    (resolved : CoordinatorState.resolve_object id state = .ok payload state) :
    Reports state id codec size ↔ Agrees state id codec size := by
  constructor
  · rintro ⟨payload',again,same⟩ payload'' t once_more
    obtain rfl := (EStateM.Result.ok.inj (again.symm.trans once_more)).1
    exact same
  · exact fun agrees => ⟨payload,resolved,agrees payload state resolved⟩

/-- An object is taken only if the record agrees with it. -/
theorem admitted_agrees {state state' : CoordinatorState} {bytes : Option (List UInt8)}
    (admitted : CoordinatorState.Admitted state id codec size checksum bytes state') : Agrees state id codec size := by
  intro payload t resolved
  obtain rfl := CoordinatorState.resolve_object_same resolved
  obtain ⟨rfl,object,found,_,sameCodec,sameSize,_⟩ := CoordinatorState.resolve_object_lists resolved
  cases admitted with
  | known found' _ codec size =>
    obtain rfl := Option.some.inj (found.symm.trans found')
    exact ⟨Option.some.inj (sameCodec.symm.trans codec),Option.some.inj (sameSize.symm.trans size)⟩
  | stored absent => cases absent.symm.trans found

theorem sent_reports (steady : Steady blake3 sys.server) {env : Env} {bytes : Buffer} {server : CoordinatorServer}
    (ran : dispatch_client blake3 bincode env (.Put codec bytes) sys.server = .ok (.Object payload) server) :
    Reports server.state payload.id codec bytes.len ∧ Agrees sys.server.state payload.id codec bytes.len := by
  rw [dispatch_client] at ran
  rcases put_ends env codec bytes sys.server with ⟨error,refused⟩ | ⟨state,payload',admitted,named,done⟩
  · cases ran.symm.trans refused
  · obtain ⟨same,rfl⟩ := EStateM.Result.ok.inj (ran.symm.trans done)
    obtain rfl := ClientReply.Object.inj same
    rw [named]
    exact ⟨admitted_resolves steady.state.filed admitted,admitted_agrees admitted⟩

/-- A place is given only to an object that is not on record. -/
theorem reserved_agrees {env : Env} {mode : ArenaWriteMode} {k : ObjectId} {offset : UInt64}
    {reservation : RequestId} {server : CoordinatorServer}
    (reserved : dispatch_client blake3 bincode env (.ArenaReserve id codec size checksum mode) sys.server =
      .ok (.ArenaReserved k offset reservation) server) : Agrees sys.server.state id codec size := by
  intro payload t resolved
  obtain rfl := CoordinatorState.resolve_object_same resolved
  simp only [dispatch_client,arena_reserve,bind_apply,attempt,on_state,within,resolved,get_apply,pure_apply] at reserved
  cases (EStateM.Result.ok.inj reserved).1

/-- The entry that a commit finds is the one that was reserved, so that its codec and size are those asked for. -/
theorem committed_info (steady : Steady blake3 sys.server) {env : Env} {mode : ArenaWriteMode}
    {offset : UInt64} {reservation : RequestId} {info : Arena.Meta} {server server₁ : CoordinatorServer} {sys₁ : System}
    (reserved : dispatch_client blake3 bincode env (.ArenaReserve id codec size checksum mode) sys.server =
      .ok (.ArenaReserved id offset reservation) server)
    (before : Run blake3 bincode (fun _ action => action.draws ≠ some reservation) { sys with server } sys₁)
    (committed : arena_commit id reservation sys₁.server = .ok (.ok info) server₁) : info.codec = codec ∧ info.size = size := by
  have steady' : Steady blake3 server := by
    have after : Steady blake3 (sys.act blake3 bincode (.client env (.ArenaReserve id codec size checksum mode))).server :=
      act_steady steady ⟨.none,nofun⟩
    rwa [act,reserved] at after
  rw [dispatch_client] at reserved
  rcases Shared.arena_reserve_ends env id codec size checksum mode sys.server with
    ⟨payload,_,stored⟩ | ⟨fault,failed⟩ | ⟨arena,_,_,_,⟨e,given,found,sameSize,sameCodec,_⟩ | ⟨error,refused⟩⟩
  · cases (EStateM.Result.ok.inj (reserved.symm.trans stored)).1
  · cases reserved.symm.trans failed
  · obtain ⟨same,rfl⟩ := EStateM.Result.ok.inj (reserved.symm.trans given)
    obtain ⟨_,_,rfl⟩ := ClientReply.ArenaReserved.inj same
    rcases ArenaStore.commit_ends id e.reservation sys₁.server.arena with ⟨e₁,_,done,found₁,mine,_⟩ | ⟨error,failed⟩
    · simp only [arena_commit,attempt,on_arena,within,done] at committed
      obtain ⟨rfl⟩ := Except.ok.inj (EStateM.Result.ok.inj committed).1
      obtain ⟨e₀,there,grows⟩ := before.grown steady' (fun _ _ undrawn => by rw [mine]; exact undrawn) found₁
      obtain rfl := Option.some.inj (found.symm.trans there)
      rw [grows.info]
      exact ⟨sameCodec,sameSize⟩
    · simp only [arena_commit,attempt,on_arena,within,failed] at committed
      cases (EStateM.Result.ok.inj committed).1
  · cases (EStateM.Result.ok.inj (reserved.symm.trans refused)).1

/-! ### The ways of the client -/

section
variable {id' : ObjectId} {checksum : Checksum} {mode : ArenaWriteMode} {bytes : Buffer} {envs : Nat → Env} {random : ObjectId}
  {server server' : CoordinatorServer}

/-- A client that was given a place and then commits it puts the object. -/
theorem commit_puts {env env' : Env} {grant : Grant} {reply reply' : ClientReply} {sys₁ : System}
    (reserved : dispatch_client blake3 bincode env (.ArenaReserve id codec size checksum mode) sys.server = .ok reply server)
    (granted : reserve_reply reply = .ok (.granted grant))
    (before : Run blake3 bincode (fun _ action => action.draws ≠ some grant.reservation) { sys with server } sys₁)
    (ran : dispatch_client blake3 bincode env' (.ArenaCommit grant.id grant.reservation) sys₁.server = .ok reply' server')
    (named : commit_reply reply' = .ok id') : ∃ sys', Puts blake3 bincode codec size sys id' sys' ∧ sys'.server = server' := by
  obtain ⟨offset,reservation,rfl⟩ : ∃ offset reservation, reply = .ArenaReserved id offset reservation := by
    rcases reserve_names reserved granted with ⟨⟨⟩,_⟩ | ⟨offset,reservation,same⟩
    cases reply with
    | ArenaReserved k offset reservation =>
      cases granted
      cases same
      exact ⟨offset,reservation,rfl⟩
    | _ => cases granted
  cases granted
  obtain ⟨committed,server₁,first,ran⟩ := bind_ok ran
  cases committed with
  | error error =>
    cases ran
    cases named
  | ok info =>
    cases reply' with
    | Object payload =>
      cases named
      exact ⟨_,.committed reserved before first .start ran,rfl⟩
    | _ => cases named

theorem put_arena_puts (ran : put_arena blake3 bincode envs random codec bytes sys.server = .ok id server) :
    ∃ sys', Puts blake3 bincode codec bytes.len sys id sys' ∧ sys'.server = server := by
  rw [put_arena] at ran
  obtain ⟨reply,s₁,reserved,ran⟩ := bind_ok ran
  obtain ⟨placement,s₂,lifted,ran⟩ := bind_ok ran
  obtain ⟨replied,rfl⟩ := lift_eq lifted
  cases placement with
  | stored k =>
    obtain ⟨rfl,rfl⟩ := EStateM.Result.ok.inj ran
    cases reply with
    | Object payload =>
      cases replied
      exact ⟨_,.stored reserved,rfl⟩
    | _ => cases replied
  | granted grant =>
    obtain ⟨_,s₃,copied,ran⟩ := bind_ok ran
    obtain ⟨reply',s₄,committed,ran⟩ := bind_ok ran
    obtain ⟨named,rfl⟩ := lift_eq ran
    suffices before : Run blake3 bincode (fun _ action => action.draws ≠ some grant.reservation) ⟨s₂,sys.inflight⟩
        ⟨s₃,sys.inflight⟩ from commit_puts reserved replied before committed named
    by_cases room : grant.offset.toNat + bytes.bytes.length ≤ ARENA_BYTES.toNat
    · simp only [copy_wide,bind_apply,ensure_of room,pure_apply,modify_apply] at copied
      obtain ⟨_,rfl⟩ := EStateM.Result.ok.inj copied
      exact .step .start (.write grant.offset.toNat bytes.bytes) trivial (by rintro ⟨⟩)
    · simp only [copy_wide,bind_apply,ensure_not room,err_apply] at copied
      cases copied

/-- The chunks that a client sends are actions that draw no reservation. -/
theorem send_chunks_run {grant : Grant} {first : System} {reservation : RequestId} (i : Nat)
    (run : Run blake3 bincode (fun _ action => action.draws ≠ some reservation) first sys)
    (ran : send_chunks blake3 bincode envs grant bytes i sys.server = .ok () server) :
    Run blake3 bincode (fun _ action => action.draws ≠ some reservation) first { sys with server } := by
  induction left : bytes.bytes.length - i * MAX_OBJECT_BYTES using Nat.strong_induction_on generalizing i sys with
  | _ left' ih =>
  subst left
  rw [send_chunks] at ran
  by_cases more : i * MAX_OBJECT_BYTES < bytes.bytes.length
  · rw [if_pos more] at ran
    obtain ⟨reply,s₁,sent,rest⟩ := bind_ok ran
    cases reply with
    | ChunkWritten =>
      have step := run.step (.client (envs (i + 1)) (.PutChunk grant.id grant.reservation (.ofNat (i * MAX_OBJECT_BYTES))
        (chunk bytes i))) ⟨.none,by rintro _ _ ⟨⟩⟩ (by rintro ⟨⟩)
      rw [act,sent] at step
      have pos : 0 < MAX_OBJECT_BYTES := by decide
      have done := ih _ (by rw [Nat.add_mul]; omega) (i + 1) step rest rfl
      exact done
    | _ => cases rest
  · rw [if_neg more] at ran
    obtain ⟨_,rfl⟩ := EStateM.Result.ok.inj ran
    exact run

theorem put_chunked_puts (ran : put_chunked blake3 bincode envs random codec bytes sys.server = .ok id server) :
    ∃ sys', Puts blake3 bincode codec bytes.len sys id sys' ∧ sys'.server = server := by
  rw [put_chunked] at ran
  obtain ⟨reply,s₁,reserved,ran⟩ := bind_ok ran
  obtain ⟨placement,s₂,lifted,ran⟩ := bind_ok ran
  obtain ⟨replied,rfl⟩ := lift_eq lifted
  cases placement with
  | stored k =>
    obtain ⟨rfl,rfl⟩ := EStateM.Result.ok.inj ran
    cases reply with
    | Object payload =>
      cases replied
      exact ⟨_,.stored reserved,rfl⟩
    | _ => cases replied
  | granted grant =>
    obtain ⟨_,s₃,sent,ran⟩ := bind_ok ran
    obtain ⟨reply',s₄,committed,ran⟩ := bind_ok ran
    obtain ⟨named,rfl⟩ := lift_eq ran
    have run : Run blake3 bincode (fun _ action => action.draws ≠ some grant.reservation) ⟨s₂,sys.inflight⟩ ⟨s₂,sys.inflight⟩ :=
      .start
    have whole := send_chunks_run 0 run sent
    exact commit_puts reserved replied whole committed named

/-- Whichever way a client takes, it puts the object. -/
theorem put_raw_puts {same_host : Bool} (ran : put_raw blake3 bincode same_host envs random codec bytes sys.server = .ok id server) :
    ∃ sys', Puts blake3 bincode codec bytes.len sys id sys' ∧ sys'.server = server := by
  rw [put_raw] at ran
  split at ran
  · exact put_arena_puts ran
  · split at ran
    · exact put_chunked_puts ran
    · obtain ⟨reply,s₁,put,ran⟩ := bind_ok ran
      cases reply with
      | Object payload =>
        obtain ⟨rfl,rfl⟩ := EStateM.Result.ok.inj ran
        exact ⟨_,.sent rfl put,rfl⟩
      | _ => cases ran

end

theorem puts_reports (steady : Steady blake3 sys.server) (puts : Puts blake3 bincode codec size sys id sys') :
    Reports sys'.server.state id codec size ↔ Agrees sys.server.state id codec size := by
  cases puts with
  | sent sized ran =>
    subst sized
    exact iff_of_true (sent_reports steady ran).1 (sent_reports steady ran).2
  | @stored env id checksum mode payload server ran =>
    rw [dispatch_client] at ran
    rcases Shared.arena_reserve_ends env id codec size checksum mode sys.server with
      ⟨payload',resolved,stored⟩ | ⟨fault,failed⟩ | ⟨_,_,_,_,⟨e,given,_⟩ | ⟨error,refused⟩⟩
    · obtain ⟨same,rfl⟩ := EStateM.Result.ok.inj (ran.symm.trans stored)
      obtain rfl := ClientReply.Object.inj same
      rw [arena_annotate_id,(CoordinatorState.resolve_object_lists resolved).1]
      exact reports_iff_agrees resolved
    · cases ran.symm.trans failed
    · cases (EStateM.Result.ok.inj (ran.symm.trans given)).1
    · cases (EStateM.Result.ok.inj (ran.symm.trans refused)).1
  | @committed env id checksum mode offset reservation info payload server server₁ server₂ sys₁ sys₂ reserved before committed
      between published =>
    obtain ⟨sameCodec,sameSize⟩ := committed_info steady reserved before committed
    have steady₂ : Steady blake3 sys₂.server := by
      have first : Steady blake3 (sys.act blake3 bincode (.client env (.ArenaReserve id codec size checksum mode))).server :=
        act_steady steady ⟨.none,by rintro _ _ ⟨⟩⟩
      rw [act,reserved] at first
      have second : Steady blake3 (sys₁.act blake3 bincode (.commit id reservation)).server :=
        act_steady (before.steady first) trivial
      rw [act,committed] at second
      exact between.steady second
    rcases publish_ends id reservation info steady₂.state.filed with ⟨_,state,_,admitted,payload',resolved,ran⟩ | ⟨_,error,ran⟩
    · obtain ⟨same,rfl⟩ := EStateM.Result.ok.inj (published.symm.trans ran)
      obtain rfl := ClientReply.Object.inj same
      rw [arena_annotate_id,(CoordinatorState.resolve_object_lists resolved).1]
      rw [sameCodec,sameSize] at admitted
      exact iff_of_true (admitted_resolves steady₂.state.filed admitted) (reserved_agrees reserved)
    · cases (EStateM.Result.ok.inj (published.symm.trans ran)).1

/-- To send an object that is on record with another codec is refused. -/
theorem put_conflicts {env : Env} {bytes : Buffer} {t : CoordinatorState}
    (short : bytes.bytes.length ≤ MAX_OBJECT_BYTES)
    (resolved : CoordinatorState.resolve_object (.from_checksum (blake3 bytes.bytes)) sys.server.state = .ok payload t)
    (other : payload.codec ≠ codec) : dispatch_client blake3 bincode env (.Put codec bytes) sys.server =
      .ok (.Error (.ObjectConflict (.from_checksum (blake3 bytes.bytes)))) sys.server := by
  obtain rfl := CoordinatorState.resolve_object_same resolved
  obtain ⟨named,object,found,_,sameCodec,_⟩ := CoordinatorState.resolve_object_lists resolved
  rw [named] at found
  have conflict : ¬ (object.state = .Available ∧ object.codec = some codec ∧
      object.size_bytes = some (.ofNat bytes.bytes.length) ∧ object.checksum = some (blake3 bytes.bytes)) :=
    fun same => other (Option.some.inj (sameCodec.symm.trans same.2.1))
  simp only [dispatch_client,CoordinatorServer.put,gt_iff_lt,if_neg (not_lt.mpr short),bind_apply,attempt,on_state,within,
    CoordinatorState.put,CoordinatorState.admit_object,get_apply,found,ensure_not conflict,err_apply,pure_apply]

/-- After every run, a put of whatever kind that succeeds, with whatever happening in between, leaves the object on record with
    the codec and the size that it was put with exactly if the object was not on record or was so with that codec and size
    when the put began. So do all ways in which the client puts objects. And to send an object that is on record with another
    codec is refused. -/
theorem put_reports {epoch : CoordinatorEpoch} {token : String} {lease_ms : Nat} {require_loopback : Bool}
    (run : Run blake3 bincode (fun _ _ => True) (start epoch token lease_ms require_loopback) sys) :
    (∀ codec size id sys', Puts blake3 bincode codec size sys id sys' →
      (Reports sys'.server.state id codec size ↔ Agrees sys.server.state id codec size)) ∧
    (∀ same_host envs random codec bytes id server,
      put_raw blake3 bincode same_host envs random codec bytes sys.server = .ok id server →
      (Reports server.state id codec bytes.len ↔ Agrees sys.server.state id codec bytes.len)) ∧
    ∀ env codec (bytes : Buffer) payload t, bytes.bytes.length ≤ MAX_OBJECT_BYTES →
      CoordinatorState.resolve_object (.from_checksum (blake3 bytes.bytes)) sys.server.state = .ok payload t →
      payload.codec ≠ codec → dispatch_client blake3 bincode env (.Put codec bytes) sys.server =
        .ok (.Error (.ObjectConflict (.from_checksum (blake3 bytes.bytes)))) sys.server := by
  have steady : Steady blake3 sys.server := run.steady (start_steady epoch token lease_ms require_loopback)
  refine ⟨fun codec size id sys' puts => puts_reports steady puts,?_,?_⟩
  · intro same_host envs random codec bytes id server ran
    obtain ⟨sys',puts,rfl⟩ := put_raw_puts ran
    exact puts_reports steady puts
  · exact fun env codec bytes payload t short resolved other => put_conflicts short resolved other

/-- The bytes `abc` are on record as raw bytes. -/
theorem abc_resolved : CoordinatorState.resolve_object abcId Site.putSystem.server.state =
    .ok (Site.abcPayload (some abc)) Site.putSystem.server.state :=
  CoordinatorState.resolve_object_available (show _ = some (CoordinatorState.put_record abcId .RawBytes 3 abcDigest
    (some abc)) by decide +kernel) rfl rfl rfl rfl rfl

/-- What a client is told that asks for a place for them, whatever codec it asks for. -/
theorem abc_stored (codec : Codec) : put_raw abcHash .fixint true (fun _ => smallEnv 2) abcId codec ⟨abc,by decide⟩
    Site.putSystem.server = .ok abcId Site.putSystem.server := by
  have short : content_id abcHash abcId abc = (abcId,abcDigest) := by decide +kernel
  simp only [put_raw,if_true,put_arena,short,dispatch_client,CoordinatorServer.arena_reserve,bind_apply,attempt,on_state,
    within,abc_resolved,get_apply,pure_apply,reserve_reply,lift,arena_annotate_id]
  rfl

theorem abc_reported :
    put_raw abcHash .fixint true (fun _ => smallEnv 2) abcId .RawBytes ⟨abc,by decide⟩ Site.putSystem.server =
        .ok abcId Site.putSystem.server ∧
      Reports Site.putSystem.server.state abcId .RawBytes 3 := by
  have run : Run abcHash .fixint (fun _ _ => True) smallSystem Site.putSystem := .step .start _ ⟨.none,nofun⟩ trivial
  refine ⟨abc_stored .RawBytes,((put_reports run).2.1 _ _ _ _ _ _ _ (abc_stored .RawBytes)).mpr fun payload t again => ?_⟩
  obtain rfl := (EStateM.Result.ok.inj (abc_resolved.symm.trans again)).1
  exact ⟨rfl,rfl⟩

/-- The bytes are put as a document through the arena: the client is told that this succeeded, and they are on record as raw
    bytes. To send them as a document is refused. -/
theorem put_under_other_codec :
    Run abcHash .fixint (fun _ _ => True) smallSystem Site.putSystem ∧
      put_raw abcHash .fixint true (fun _ => smallEnv 2) abcId .JsonV1 ⟨abc,by decide⟩ Site.putSystem.server =
        .ok abcId Site.putSystem.server ∧
      ¬ Reports Site.putSystem.server.state abcId .JsonV1 3 ∧
      put_raw abcHash .fixint false (fun _ => smallEnv 2) abcId .JsonV1 ⟨abc,by decide⟩ Site.putSystem.server =
        .error (.Err (.ObjectConflict abcId)) Site.putSystem.server := by
  refine ⟨.step .start _ ⟨.none,by rintro _ _ ⟨⟩⟩ trivial,abc_stored .JsonV1,?_,?_⟩
  · rintro ⟨payload,again,codec,_⟩
    obtain rfl := (EStateM.Result.ok.inj (abc_resolved.symm.trans again)).1
    cases codec
  · have refused : dispatch_client abcHash .fixint (smallEnv 2) (.Put .JsonV1 ⟨abc,by decide⟩) Site.putSystem.server =
        .ok (.Error (.ObjectConflict abcId)) Site.putSystem.server := put_conflicts (by decide) abc_resolved (by rintro ⟨⟩)
    simp only [put_raw]
    rw [if_neg (by rintro ⟨⟩),if_neg (by decide)]
    simp only [bind_apply,refused,err_apply]

end System
end Crayon
