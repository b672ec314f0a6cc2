import Crayon.Service

/-!
Where objects are whose bytes only the arena has. A record of such an object is
worth something only as long as the arena has a committed entry for it
(`Backed`). That holds along every run in which no commit loses its entry
between its two halves (`Orderly`): an object is not released while a commit of
it is under way, and a commit that the state refuses does not take back the
entry of another commit of the same object.
-/
namespace Crayon

namespace ArenaStore
variable {s s' : ArenaStore} {op : Op} {id : ObjectId}

/-- The arena has a committed entry with this data. -/
def Holds (s : ArenaStore) (id : ObjectId) (size : UInt64) (codec : Codec) (checksum : Checksum) : Prop :=
  ∃ e, s.alloc.live.get id = some e ∧ e.committed = true ∧ e.size = size ∧ e.codec = codec ∧ e.checksum = checksum

/-- The object's entry, if it is committed, is still the same. -/
def Keeps (id : ObjectId) (s s' : ArenaStore) : Prop :=
  ∀ e, s.alloc.live.get id = some e → e.committed = true → s'.alloc.live.get id = some e

theorem Keeps.holds (keeps : Keeps id s s') {size : UInt64} {codec : Codec} {checksum : Checksum}
    (holds : s.Holds id size codec checksum) : s'.Holds id size codec checksum := by
  obtain ⟨e,found,committed,same⟩ := holds
  exact ⟨e,keeps e found committed,committed,same⟩

theorem Moves.keep (moves : Moves op s s') (settled : s.alloc.Settled) (kept : op.drops ≠ some id) : Keeps id s s' :=
  fun _ found committed => moves.entry_stays settled found committed kept

end ArenaStore

namespace CoordinatorServer
open CoordinatorState Command
variable {blake3 : List UInt8 → Checksum} {s s' : CoordinatorServer}

/-- Every object whose bytes only the arena can have is committed there, as its record tells. -/
def Backed (s : CoordinatorServer) : Prop :=
  ∀ id object, s.state.objects.get id = some object → ArenaOnly object → ∃ size codec checksum,
    object.size_bytes = some size ∧ object.codec = some codec ∧ object.checksum = some checksum ∧
      s.arena.Holds id size codec checksum

theorem Touches.keep (touches : Touches blake3 s s') (steady : Steady blake3 s) (id : ObjectId) :
    ArenaStore.Keeps id s.arena s'.arena := by
  intro e found committed
  induction touches with
  | refl => exact found
  | tail before touch ih =>
    cases touch with
    | state act => exact ih
    | arena keeps move =>
      exact move.entry_stays (Touches.steady before steady).settled ih committed (by rw [keeps]; nofun)

theorem Touches.arena_only (touches : Touches blake3 s s') (steady : Steady blake3 s) {id : ObjectId} {object : ObjectRecord}
    (found : s'.state.objects.get id = some object) (only : ArenaOnly object) : s.state.objects.get id = some object := by
  induction touches with
  | refl => exact found
  | tail before touch ih =>
    cases touch with
    | state act => exact ih (act.arena_only (Touches.steady before steady).state found only)
    | arena keeps move => exact ih found

end CoordinatorServer

namespace System
open CoordinatorState (ArenaOnly)
open CoordinatorServer Command
variable {blake3 : List UInt8 → Checksum} {bincode : Bincode} {sys sys' : System}

/-- The entries of objects that only the arena has, and of commits under way, are there. -/
structure InCustody (sys : System) : Prop where
  backed : Backed sys.server
  inflight : ∀ c ∈ sys.inflight, sys.server.arena.Holds c.id c.info.size c.info.codec c.info.checksum

/-- No commit loses its entry between its two halves: an object is released only while no
    commit of it is under way, and a commit that the state refuses is the only one of its object. -/
def Orderly (sys : System) : Action → Prop
  | .client _ (.Release id) => sys.server.state.Releasable id → ∀ c ∈ sys.inflight, c.id ≠ id
  | .publish c => ¬ sys.server.state.Takes c.id c.info.codec c.info.size c.info.checksum →
      ∀ other ∈ sys.inflight.erase c, other.id ≠ c.id
  | _ => True

theorem start_in_custody (epoch : CoordinatorEpoch) (token : String) (lease_ms : Nat) (require_loopback : Bool) :
    InCustody (start epoch token lease_ms require_loopback) where
  backed id object found := by cases found
  inflight c member := by cases member

/-- What makes no record without bytes and no commit, and keeps the entries of those there are,
    keeps custody. -/
theorem InCustody.of_keep (custody : InCustody sys)
    (records : ∀ id object, sys'.server.state.objects.get id = some object → ArenaOnly object →
      sys.server.state.objects.get id = some object ∧ ArenaStore.Keeps id sys.server.arena sys'.server.arena)
    (commits : ∀ c ∈ sys'.inflight, c ∈ sys.inflight ∧ ArenaStore.Keeps c.id sys.server.arena sys'.server.arena) :
    InCustody sys' where
  backed id object found only := by
    obtain ⟨before,keeps⟩ := records id object found only
    obtain ⟨size,codec,checksum,hasSize,hasCodec,hasDigest,holds⟩ := custody.backed id object before only
    exact ⟨size,codec,checksum,hasSize,hasCodec,hasDigest,keeps.holds holds⟩
  inflight c member := by
    obtain ⟨before,keeps⟩ := commits c member
    exact keeps.holds (custody.inflight c before)

theorem InCustody.touches {server : CoordinatorServer} (custody : InCustody sys) (steady : Steady blake3 sys.server)
    (touches : Touches blake3 sys.server server) : InCustody { sys with server } :=
  custody.of_keep (fun id _ found only => ⟨touches.arena_only steady found only,touches.keep steady id⟩)
    fun c member => ⟨member,touches.keep steady c.id⟩

theorem InCustody.release (custody : InCustody sys) (steady : Steady blake3 sys.server) {id : ObjectId}
    (orderly : sys.server.state.Releasable id → ∀ c ∈ sys.inflight, c.id ≠ id) :
    InCustody { sys with server := Outcome.state (release id sys.server) } := by
  rcases release_ends id sys.server with ⟨can,state,ran,released,left⟩ | ⟨_,error,left⟩
  swap
  · rw [left]
    exact custody
  have act : CoordinatorState.Act blake3 sys.server.state _ := .op .by_id (.release_object id) trivial trivial nofun
  rw [CoordinatorState.apply,state_bind fun _ _ => rfl,ran] at act
  have moves := (ArenaStore.apply_ends .increasing (.release id) sys.server.arena).moves
  rw [ArenaStore.apply,state_bind fun _ _ => rfl] at moves
  have keep : ∀ other, other ≠ id → ArenaStore.Keeps other sys.server.arena
      (Outcome.state (ArenaStore.release id sys.server.arena)) :=
    fun other different => moves.keep steady.settled fun same => different (Option.some.inj same).symm
  rw [left]
  refine custody.of_keep (fun other object found only => ?_) fun c member => ⟨member,keep c.id (orderly can c member)⟩
  refine ⟨act.arena_only steady.state found only,keep other ?_⟩
  rintro rfl
  cases released.gone.symm.trans found

theorem InCustody.commit (custody : InCustody sys) (steady : Steady blake3 sys.server) (id : ObjectId)
    (reservation : RequestId) : InCustody (sys.act blake3 bincode (.commit id reservation)) := by
  rcases arena_commit_ends id reservation sys.server with ⟨e,arena,done,moves,found,committed⟩ | ⟨error,failed⟩
  swap
  · rw [act,failed]
    exact custody
  have keep : ∀ other, ArenaStore.Keeps other sys.server.arena arena := fun other => moves.keep steady.settled (by rintro ⟨⟩)
  have before : InCustody { sys with server := { sys.server with arena } } :=
    custody.of_keep (fun other _ there _ => ⟨there,keep other⟩) fun c member => ⟨member,keep c.id⟩
  rw [act,done]
  refine ⟨before.backed,fun c member => ?_⟩
  rcases List.mem_cons.mp member with rfl | old
  · exact ⟨e,found,committed,rfl,rfl,rfl⟩
  · exact before.inflight c old

theorem InCustody.publish (custody : InCustody sys) (steady : Steady blake3 sys.server) {c : Commit}
    (underWay : c ∈ sys.inflight)
    (orderly : ¬ sys.server.state.Takes c.id c.info.codec c.info.size c.info.checksum →
      ∀ other ∈ sys.inflight.erase c, other.id ≠ c.id) : InCustody (sys.act blake3 bincode (.publish c)) := by
  have mine := custody.inflight c underWay
  rw [act]
  rcases publish_ends c.id c.reservation c.info steady.state.filed with ⟨_,state,_,admitted,_,_,left⟩ | ⟨refused,_,left⟩
  · rw [left,Outcome.state_ok]
    refine ⟨fun id object found only => ?_,fun other member => custody.inflight other (List.mem_of_mem_erase member)⟩
    cases admitted with
    | known => exact custody.backed id object found only
    | stored absent =>
      rw [Table.get_insert] at found
      split at found
      · rename_i same
        obtain rfl := Option.some.inj found
        exact ⟨c.info.size,c.info.codec,c.info.checksum,rfl,rfl,rfl,same ▸ mine⟩
      · exact custody.backed id object found only
  · have moves := (ArenaStore.apply_ends .increasing (.rollback c.id c.reservation) sys.server.arena).moves
    rw [ArenaStore.apply,state_bind fun _ _ => rfl] at moves
    have keep : ∀ other, other ≠ c.id → ArenaStore.Keeps other sys.server.arena
        (Outcome.state (ArenaStore.rollback c.id c.reservation sys.server.arena)) :=
      fun other different => moves.keep steady.settled fun same => different (Option.some.inj same).symm
    rw [left]
    refine custody.of_keep (fun id object found only => ⟨found,keep id ?_⟩)
      fun other member => ⟨List.mem_of_mem_erase member,keep other.id (orderly refused other member)⟩
    -- a record of the object itself would tell what its entry tells, and so would have been accepted
    rintro rfl
    have found : sys.server.state.objects.get c.id = some object := found
    obtain ⟨size,codec,checksum,hasSize,hasCodec,hasDigest,e,there,_,rfl,rfl,rfl⟩ := custody.backed c.id object found only
    obtain ⟨e',there',_,sizes,codecs,digests⟩ := mine
    obtain rfl := Option.some.inj (there.symm.trans there')
    refine refused ?_
    simp only [CoordinatorState.Takes,found,hasSize,hasCodec,hasDigest,sizes,codecs,digests,only.state,and_self]

/-- Every orderly action keeps custody. -/
theorem act_in_custody (custody : InCustody sys) (steady : Steady blake3 sys.server) {action : Action}
    (possible : action.Possible sys) (orderly : Orderly sys action) : InCustody (sys.act blake3 bincode action) := by
  cases action with
  | client env request =>
    by_cases keeping : ∀ id, request ≠ .Release id
    · exact custody.touches steady (dispatch_client_touches bincode possible.1 steady.state.inv possible.2 keeping)
    · push Not at keeping
      obtain ⟨id,rfl⟩ := keeping
      exact custody.release steady orderly
  | worker env request => exact custody.touches steady (dispatch_worker_touches env request)
  | tick env report => exact custody.touches steady (tick_touches env report)
  | commit id reservation => exact custody.commit steady id reservation
  | publish c => exact custody.publish steady possible orderly
  | write offset bytes => exact ⟨custody.backed,custody.inflight⟩

theorem Run.in_custody {first : System} (run : Run blake3 bincode Orderly first sys) (steady : Steady blake3 first.server)
    (custody : InCustody first) : InCustody sys := by
  induction run with
  | start => exact custody
  | step run action possible orderly ih => exact act_in_custody ih (run.steady steady) possible orderly

/-! ### Puts of the same content -/

def smallEnv (n : UInt8) : Env where
  order := .by_id
  objects := .increasing
  now_ms := 0
  now := 0
  later := 0
  session := ⟨.replicate 16 n⟩
  lease := ⟨.replicate 16 n⟩
  reservation := ⟨.replicate 16 n⟩
  task _ := (⟨.replicate 16 n⟩,⟨.replicate 32 n⟩)

def smallSystem : System := start CoordinatorState.smallEpoch "crayon-arena-0" 5000 false

/-- The bytes `abc`, and their digest. -/
def abc : List UInt8 := [97,98,99]
theorem abc_bounded : abc.length < 2^63 := by decide

def abcDigest : Checksum :=
  ⟨#[0x64,0x37,0xb3,0xac,0x38,0x46,0x51,0x33,0xff,0xb6,0x3b,0x75,0x27,0x3a,0x8d,0xb5,
     0x48,0xc5,0x58,0x46,0x5d,0x79,0xdb,0x03,0xfd,0x35,0x9c,0x6c,0xd5,0xbd,0x9d,0x85],rfl⟩

/-- A hash for runs that store these bytes only. -/
def abcHash : List UInt8 → Checksum := fun _ => abcDigest

def abcId : ObjectId := .from_checksum abcDigest

/-- A client asks for a place for the object; the first one is given the reservation `1`. -/
def reserving (n : UInt8) : Action := .client (smallEnv n) (.ArenaReserve abcId .RawBytes 3 abcDigest .Direct)

/-- A client copies the bytes to their place. -/
def writing : Action := .write 0 abc

def abcCommit : Commit := ⟨abcId,⟨.replicate 16 1⟩,⟨0,3,.RawBytes,abcDigest⟩⟩

def committing : Action := .commit abcId ⟨.replicate 16 1⟩

/-- Two clients put the same content, one after the other, and the second one's stays. -/
def keptActions : List Action :=
  [reserving 1,writing,reserving 2,writing,committing,.publish abcCommit,committing,.publish abcCommit]

def keptSystem : System := replay abcHash .fixint smallSystem keptActions

theorem kept_run : Run abcHash .fixint Orderly smallSystem keptSystem :=
  Run.start.replay ⟨⟨.none,nofun⟩,trivial,trivial,trivial,⟨.none,nofun⟩,trivial,trivial,trivial,trivial,trivial,
    show abcCommit ∈ _ by decide +kernel,fun _ => by decide +kernel,trivial,trivial,
    show abcCommit ∈ _ by decide +kernel,fun _ => by decide +kernel,trivial⟩

/-- Two clients put the same content, and one of them releases it while the other's commit is under way. -/
def racedActions : List Action :=
  [reserving 1,writing,reserving 2,writing,committing,.publish abcCommit,committing,
    .client (smallEnv 3) (.Release abcId),.publish abcCommit]

def racedSystem : System := replay abcHash .fixint smallSystem racedActions

/-- Along every orderly run, an object whose bytes only the arena can have is committed there with
    what its record tells, and a get is told where. -/
theorem run_backed {epoch : CoordinatorEpoch} {token : String} {lease_ms : Nat} {require_loopback : Bool}
    (run : Run blake3 bincode Orderly (start epoch token lease_ms require_loopback) sys) {id : ObjectId}
    {object : ObjectRecord} (found : sys.server.state.objects.get id = some object) (available : object.state = .Available)
    (place : object.location = some "coordinator") (absent : object.bytes = none) :
    ∃ e, sys.server.arena.alloc.live.get id = some e ∧ e.committed = true ∧ object.size_bytes = some e.size ∧
      object.codec = some e.codec ∧ object.checksum = some e.checksum ∧
      ∀ env, dispatch_client blake3 bincode env (.Get id) sys.server = .ok (.Object
        { id, codec := e.codec, size_bytes := e.size, checksum := e.checksum, location := "coordinator", bytes := none
          arena := some ⟨sys.server.arena.token,e.offset⟩ }) sys.server := by
  have custody := run.in_custody (start_steady epoch token lease_ms require_loopback)
    (start_in_custody epoch token lease_ms require_loopback)
  obtain ⟨size,codec,checksum,hasSize,hasCodec,hasDigest,e,there,committed,rfl,rfl,rfl⟩ :=
    custody.backed id object found ⟨available,place,absent⟩
  refine ⟨e,there,committed,hasSize,hasCodec,hasDigest,fun env => ?_⟩
  have resolved := CoordinatorState.resolve_object_available found available hasCodec hasSize hasDigest place
  simp only [dispatch_client,get_object,bind_apply,attempt,on_state,within,resolved,get_apply,pure_apply,arena_annotate,
    ArenaStore.meta,there,committed,if_true,Arena.Entry.toMeta,absent]

theorem kept_backed :
    keptSystem.server.state.objects.get abcId =
        some (CoordinatorState.put_record abcId .RawBytes 3 abcDigest none) ∧
      ∃ e, keptSystem.server.arena.alloc.live.get abcId = some e ∧ e.committed = true := by
  have found : keptSystem.server.state.objects.get abcId =
    some (CoordinatorState.put_record abcId .RawBytes 3 abcDigest none) := by decide +kernel
  obtain ⟨e,there,committed,_⟩ := run_backed kept_run found rfl rfl rfl
  exact ⟨found,e,there,committed⟩

/-- The second put is acknowledged, and its record stands, but the arena has no entry for it. -/
theorem raced_unbacked :
    Run abcHash .fixint (fun _ _ => True) smallSystem racedSystem ∧
      racedSystem.server.state.objects.get abcId =
        some (CoordinatorState.put_record abcId .RawBytes 3 abcDigest none) ∧
      racedSystem.server.arena.alloc.live.get abcId = none := by
  refine ⟨Run.start.replay ⟨⟨.none,nofun⟩,trivial,trivial,trivial,⟨.none,nofun⟩,trivial,trivial,trivial,trivial,trivial,
    show abcCommit ∈ _ by decide +kernel,trivial,trivial,trivial,⟨.none,nofun⟩,trivial,
    show abcCommit ∈ _ by decide +kernel,trivial,trivial⟩,by decide +kernel,by decide +kernel⟩

end System
end Crayon
