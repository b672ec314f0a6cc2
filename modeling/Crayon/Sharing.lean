import Crayon.Custody
import Crayon.Upload

/-!
Clients that share the arena. Each puts an object in steps: it reserves a place,
copies its bytes there, and commits, and each step may come late. The coordinator
does not see the copying: it fences the commit with the reservation, but by then
the bytes have been copied, and a place that was not committed in time may have
been given to another object. What is committed keeps its bytes along every run
in which clients copy only while they have their reservation (`Fenced`).
-/
namespace Crayon

namespace ArenaStore
open Arena Command
variable {s s' : ArenaStore} {id : ObjectId}

/-- The arena holds the same bytes, and no entries but some of those that it had. -/
structure Recedes (s s' : ArenaStore) : Prop where
  bytes : s'.map.byte = s.map.byte
  entries : ∀ id e, s'.alloc.live.get id = some e → s.alloc.live.get id = some e

theorem recedes_recycle (s : ArenaStore) (id : ObjectId) (e : Entry) :
    Recedes s { s with alloc := s.alloc.recycle id e } := by
  refine ⟨rfl,fun other e' found => ?_⟩
  rw [Alloc.recycle,Table.get_remove] at found
  split at found
  · cases found
  · exact found

theorem recedes_reap (order : Traversal ObjectId) (now : Instant) (s : ArenaStore) :
    Recedes s { s with alloc := s.alloc.reap order now } := by
  refine ⟨rfl,?_⟩
  rw [Alloc.reap]
  generalize (order.list s.alloc.live.keys).filter (fun id => (s.alloc.live.get id).any (Alloc.expired now)) = ids
  generalize s.alloc = a
  intro id e
  induction ids generalizing a with
  | nil => exact fun found => found
  | cons first rest ih =>
    intro found
    have before := ih _ found
    cases there : a.live.get first with
    | none =>
      simp only [there] at before
      exact before
    | some e' =>
      simp only [there] at before
      exact (recedes_recycle { s with alloc := a } first e').entries id e before

theorem recedes_release (id : ObjectId) (s : ArenaStore) : Recedes s (Outcome.state (release id s)) := by
  cases found : s.alloc.live.get id with
  | none =>
    have ran : release id s = .ok () s := by simp only [release,bind_apply,get_apply,found,pure_apply]
    rw [ran]
    exact ⟨rfl,fun _ _ found => found⟩
  | some e =>
    have ran : release id s = .ok () { s with alloc := s.alloc.recycle id e } := by
      simp only [release,bind_apply,get_apply,found,modify_apply]
    rw [ran]
    exact recedes_recycle s id e

theorem recedes_rollback (id : ObjectId) (reservation : RequestId) (s : ArenaStore) :
    Recedes s (Outcome.state (rollback id reservation s)) := by
  rcases rollback_ends id reservation s with ⟨e,ran,_⟩ | ⟨error,ran⟩
  · rw [ran]
    exact recedes_recycle s id e
  · rw [ran]
    exact ⟨rfl,fun _ _ found => found⟩

/-- A reservation leaves the bytes, and makes no entry but one for the object with a new reservation. -/
theorem reserve_entries (order : Traversal ObjectId) (id : ObjectId) (size : UInt64) (codec : Codec) (checksum : Checksum)
    (mode : ArenaWriteMode) (now later : Instant) (fresh : RequestId) (s : ArenaStore) {other : ObjectId} {e : Entry}
    (found : (Outcome.state (reserve order id size codec checksum mode now later fresh s)).alloc.live.get other = some e) :
    s.alloc.live.get other = some e ∨ other = id ∧ e.reservation = fresh ∧ e.committed = false := by
  obtain ⟨s',moves,_,ends⟩ := reserve_ends order size codec checksum mode now later fresh
    (show Op.target (.reserve id size codec checksum mode now later fresh) = some id from rfl) rfl rfl s
  have left : Outcome.state (reserve order id size codec checksum mode now later fresh s) = s' := by
    rcases ends with ⟨_,ran,_⟩ | ⟨_,ran⟩ <;> rw [ran] <;> rfl
  rw [left] at found
  cases moves.origin found with
  | kept before => exact .inl before
  | grown _ _ asked => cases asked
  | reserved asked drawn commits =>
    refine .inr ⟨(Option.some.inj asked).symm,(Option.some.inj drawn).symm,Bool.eq_false_iff.mpr fun committed => ?_⟩
    cases commits committed

end ArenaStore

/-! ### Clients -/

/-- How far the put of a client is. -/
inductive Stage where
  | idle
  | granted (grant : Grant) (bytes : Buffer)
  | written (grant : Grant) (bytes : Buffer)
  /-- Between the two halves of its commit. -/
  | committing (grant : Grant) (bytes : Buffer) (info : Arena.Meta)
  | stored (id : ObjectId)
  | failed (error : Error)
deriving DecidableEq

/-- The place that a client was granted, and what it is to put there, until it commits. -/
def Stage.place : Stage → Option (Grant × Buffer)
  | .granted grant bytes | .written grant bytes => some (grant,bytes)
  | _ => none

/-- The server, and the clients that share its arena. -/
structure Shared where
  server : CoordinatorServer
  stage : Nat → Stage
  /-- Of the objects that were committed and not released since: where, and what their writer wrote. -/
  kept : ObjectId → Option (UInt64 × Buffer)
  /-- What was put so far, under which id. -/
  contents : List (ObjectId × Buffer)

/-- The next step of a client, or of the allocator. -/
inductive Event where
  | reserve (k : Nat) (env : Env) (random : ObjectId) (codec : Codec) (bytes : Buffer)
  | write (k : Nat)
  | commit (k : Nat)
  | publish (k : Nat)
  | release (k : Nat)
  | reap (order : Traversal ObjectId) (now : Instant)

namespace Shared
open Command CoordinatorServer

def start (epoch : CoordinatorEpoch) (token : String) (lease_ms : Nat) (require_loopback : Bool) : Shared :=
  ⟨.new epoch token lease_ms require_loopback,fun _ => .idle,fun _ => none,[]⟩

/-- The error of a request that got no reply. -/
def unanswered : Error := .Io "connection closed before reply"

/-- How a put goes on after its reservation. -/
def reserved (bytes : Buffer) : Outcome Error CoordinatorServer ClientReply → Stage
  | .ok reply _ =>
    match reserve_reply reply with
    | .ok (.stored id) => .stored id
    | .ok (.granted grant) => .granted grant bytes
    | .error error => .failed error
  | .error _ _ => .failed unanswered

section
variable (blake3 : List UInt8 → Checksum) (bincode : Bincode)

def act (w : Shared) : Event → Shared
  | .reserve k env random codec bytes =>
    let (id,checksum) := content_id blake3 random bytes.bytes
    let outcome := dispatch_client blake3 bincode env (.ArenaReserve id codec bytes.len checksum .Direct) w.server
    { w with
      server := Outcome.state outcome
      stage := Function.update w.stage k (reserved bytes outcome)
      contents := (id,bytes) :: w.contents }
  | .write k =>
    match w.stage k with
    | .granted grant bytes =>
      match copy_wide grant bytes w.server with
      | .ok _ server => { w with server, stage := Function.update w.stage k (.written grant bytes) }
      | .error _ server =>
        { w with server, stage := Function.update w.stage k (.failed (.Protocol "arena offset out of bounds")) }
    | _ => w
  | .commit k =>
    match w.stage k with
    | .written grant bytes =>
      match arena_commit grant.id grant.reservation w.server with
      | .ok (.ok info) server =>
        { w with
          server
          stage := Function.update w.stage k (.committing grant bytes info)
          kept := Function.update w.kept grant.id (some (grant.offset,bytes)) }
      | .ok (.error error) server => { w with server, stage := Function.update w.stage k (.failed error) }
      | .error _ server => { w with server, stage := Function.update w.stage k (.failed unanswered) }
    | _ => w
  | .publish k =>
    match w.stage k with
    | .committing grant bytes info =>
      match publish grant.id grant.reservation info w.server with
      | .ok reply server =>
        match commit_reply reply with
        | .ok id =>
          { w with
            server
            stage := Function.update w.stage k (.stored id)
            kept := Function.update w.kept grant.id (some (grant.offset,bytes)) }
        | .error error =>
          { w with
            server
            stage := Function.update w.stage k (.failed error)
            kept := Function.update w.kept grant.id none }
      | .error _ server => { w with server, stage := Function.update w.stage k (.failed unanswered) }
    | _ => w
  | .release k =>
    match w.stage k with
    | .stored id =>
      match release id w.server with
      | .ok .Released server => { w with server, kept := Function.update w.kept id none }
      | outcome => { w with server := Outcome.state outcome }
    | _ => w
  | .reap order now =>
    let arena := w.server.arena
    { w with server := { w.server with arena := { arena with alloc := arena.alloc.reap order now } } }

end

/-- When an event can happen: ids drawn at random are new, and an id stands for one content. -/
def Possible (blake3 : List UInt8 → Checksum) (w : Shared) : Event → Prop
  | .reserve k env random _ bytes => w.stage k = .idle ∧
      (∀ j grant bytes', (w.stage j).place = some (grant,bytes') → grant.reservation ≠ env.reservation) ∧
      ∀ other ∈ w.contents, other.1 = (content_id blake3 random bytes.bytes).1 → other.2 = bytes
  | _ => True

/-- A client copies only while the arena has the entry that it was granted, and no commit loses its entry between
    its two halves. -/
def Fenced (w : Shared) : Event → Prop
  | .write k => ∀ grant bytes, w.stage k = .granted grant bytes →
      ∃ e, w.server.arena.alloc.live.get grant.id = some e ∧ e.reservation = grant.reservation
  | .publish k => ∀ grant bytes info, w.stage k = .committing grant bytes info →
      ¬ w.server.state.Takes grant.id info.codec info.size info.checksum →
      ∀ j grant' bytes' info', j ≠ k → w.stage j = .committing grant' bytes' info' → grant'.id ≠ grant.id
  | .release k => ∀ id, w.stage k = .stored id → w.server.state.Releasable id →
      ∀ j grant bytes info, w.stage j = .committing grant bytes info → grant.id ≠ id
  | _ => True

/-- The worlds that runs lead to in which every event obeys a rule. -/
inductive Run (blake3 : List UInt8 → Checksum) (bincode : Bincode) (Rule : Shared → Event → Prop) (first : Shared) :
    Shared → Prop where
  | start : Run blake3 bincode Rule first first
  | step {w : Shared} (run : Run blake3 bincode Rule first w) (event : Event) (possible : w.Possible blake3 event)
      (rule : Rule w event) : Run blake3 bincode Rule first (w.act blake3 bincode event)

/-! ### What is committed stays -/

/-- The arena has a committed entry there, with these bytes. -/
def Holds (arena : ArenaStore) (id : ObjectId) (offset : UInt64) (bytes : Buffer) : Prop :=
  ∃ e, arena.alloc.live.get id = some e ∧ e.committed = true ∧ e.offset = offset ∧ e.size = bytes.len ∧
    arena.map.slice e.content = bytes.bytes

/-- The state has the record of an entry. -/
def Recorded (s : CoordinatorServer) (id : ObjectId) : Prop :=
  ∃ e, s.arena.alloc.live.get id = some e ∧ ∃ object, s.state.objects.get id = some object ∧ object.state = .Available ∧
    object.codec = some e.codec ∧ object.size_bytes = some e.size ∧ object.checksum = some e.checksum

/-- What a client knows of its put is right: if its entry is still there, then where it was told, and, once it has
    copied its bytes, with these; and while it commits, the entry is there and committed. -/
def Fine (arena : ArenaStore) (kept : ObjectId → Option (UInt64 × Buffer)) (contents : List (ObjectId × Buffer)) :
    Stage → Prop
  | .granted grant bytes => (grant.id,bytes) ∈ contents ∧ ∀ e, arena.alloc.live.get grant.id = some e →
      e.reservation = grant.reservation → e.offset = grant.offset ∧ e.size = bytes.len
  | .written grant bytes => (grant.id,bytes) ∈ contents ∧ ∀ e, arena.alloc.live.get grant.id = some e →
      e.reservation = grant.reservation →
      e.offset = grant.offset ∧ e.size = bytes.len ∧ arena.map.slice e.content = bytes.bytes
  | .committing grant bytes info => kept grant.id = some (grant.offset,bytes) ∧
      ∃ e, arena.alloc.live.get grant.id = some e ∧ e.toMeta = info
  | _ => True

/-- What holds between events. -/
structure Good (blake3 : List UInt8 → Checksum) (w : Shared) : Prop where
  steady : Steady blake3 w.server
  sound : w.server.arena.alloc.Sound
  identified : ∀ a ∈ w.contents, ∀ b ∈ w.contents, a.1 = b.1 → a.2 = b.2
  stages : ∀ k, Fine w.server.arena w.kept w.contents (w.stage k)
  kept : ∀ id offset bytes, w.kept id = some (offset,bytes) → Holds w.server.arena id offset bytes ∧ (id,bytes) ∈ w.contents
  recorded : ∀ id, w.kept id ≠ none → (∃ k grant bytes info, w.stage k = .committing grant bytes info ∧ grant.id = id) ∨
    Recorded w.server id

section
variable {blake3 : List UInt8 → Checksum} {bincode : Bincode} {w : Shared} {arena arena' : ArenaStore}
  {kept kept' : ObjectId → Option (UInt64 × Buffer)} {contents contents' : List (ObjectId × Buffer)} {stage : Stage}
variable {bytes : Buffer} {id : ObjectId} {k : Nat}

theorem start_good (epoch : CoordinatorEpoch) (token : String) (lease_ms : Nat) (require_loopback : Bool) :
    Good blake3 (start epoch token lease_ms require_loopback) where
  steady := System.start_steady epoch token lease_ms require_loopback
  sound := ArenaStore.new_sound token
  identified a member := by cases member
  stages k := trivial
  kept id offset bytes kept := by cases kept
  recorded id kept := absurd rfl kept

theorem Holds.later {offset : UInt64} (holds : Holds arena id offset bytes) (same : arena'.map.byte = arena.map.byte)
    (stays : ∀ e, arena.alloc.live.get id = some e → e.committed = true → arena'.alloc.live.get id = some e) :
    Holds arena' id offset bytes := by
  obtain ⟨e,found,committed,place,size,content⟩ := holds
  refine ⟨e,stays e found committed,committed,place,size,?_⟩
  rw [← content]
  exact Memory.slice_congr fun i _ => by rw [same]

/-- A client stays right when no bytes are written, its entry stays as it is or goes, and what is kept is kept. -/
theorem Fine.later (fine : Fine arena kept contents stage) (same : arena'.map.byte = arena.map.byte)
    (entries : ∀ grant bytes, stage.place = some (grant,bytes) → ∀ e, arena'.alloc.live.get grant.id = some e →
      e.reservation = grant.reservation →
      ∃ e', arena.alloc.live.get grant.id = some e' ∧ e'.toMeta = e.toMeta ∧ e'.reservation = e.reservation)
    (commits : ∀ grant bytes info, stage = .committing grant bytes info → kept' grant.id = kept grant.id ∧
      ∀ e, arena.alloc.live.get grant.id = some e → ∃ e', arena'.alloc.live.get grant.id = some e' ∧ e'.toMeta = e.toMeta)
    (more : ∀ a ∈ contents, a ∈ contents') : Fine arena' kept' contents' stage := by
  cases stage with
  | idle | stored | failed => trivial
  | granted grant bytes =>
    refine ⟨more _ fine.1,fun e found mine => ?_⟩
    obtain ⟨e',before,told,reserved⟩ := entries grant bytes rfl e found mine
    obtain ⟨offset,size⟩ := fine.2 e' before (reserved.trans mine)
    exact ⟨(congrArg Arena.Meta.offset told).symm.trans offset,(congrArg Arena.Meta.size told).symm.trans size⟩
  | written grant bytes =>
    refine ⟨more _ fine.1,fun e found mine => ?_⟩
    obtain ⟨e',before,told,reserved⟩ := entries grant bytes rfl e found mine
    obtain ⟨offset,size,content⟩ := fine.2 e' before (reserved.trans mine)
    have sameOffset : e.offset = e'.offset := (congrArg Arena.Meta.offset told).symm
    have sameSize : e.size = e'.size := (congrArg Arena.Meta.size told).symm
    refine ⟨sameOffset.trans offset,sameSize.trans size,?_⟩
    rw [← content,Arena.Entry.content,Arena.Entry.content,sameOffset,sameSize]
    exact Memory.slice_congr fun i _ => by rw [same]
  | committing grant bytes info =>
    obtain ⟨stays,entry⟩ := commits grant bytes info rfl
    obtain ⟨keeps,e,found,told⟩ := fine
    obtain ⟨e',found',told'⟩ := entry e found
    exact ⟨stays.trans keeps,e',found',told'.trans told⟩

/-- The server changes, but writes no bytes, loses nothing that is kept, and gives no client's entry to another. -/
theorem Good.serve (good : Good blake3 w) {server : CoordinatorServer} (steady : Steady blake3 server)
    (sound : server.arena.alloc.Sound) (same : server.arena.map.byte = w.server.arena.map.byte)
    (entries : ∀ k grant bytes, (w.stage k).place = some (grant,bytes) → ∀ e,
      server.arena.alloc.live.get grant.id = some e → e.reservation = grant.reservation →
      ∃ e', w.server.arena.alloc.live.get grant.id = some e' ∧ e'.toMeta = e.toMeta ∧ e'.reservation = e.reservation)
    (stays : ∀ id, w.kept id ≠ none → ∀ e, w.server.arena.alloc.live.get id = some e → e.committed = true →
      server.arena.alloc.live.get id = some e)
    (recorded : ∀ id, w.kept id ≠ none → ∀ object, w.server.state.objects.get id = some object →
      server.state.objects.get id = some object) : Good blake3 { w with server } where
  steady := steady
  sound := sound
  identified := good.identified
  stages k := by
    refine (good.stages k).later same (entries k) (fun grant bytes info committing => ?_) fun _ member => member
    have right := good.stages k
    rw [committing] at right
    obtain ⟨⟨e,found,committed,_⟩,_⟩ := good.kept grant.id grant.offset bytes right.1
    refine ⟨rfl,fun e' found' => ?_⟩
    obtain rfl := Option.some.inj (found.symm.trans found')
    exact ⟨e,stays grant.id (by rw [right.1]; nofun) e found committed,rfl⟩
  kept id offset bytes kept := by
    obtain ⟨holds,member⟩ := good.kept id offset bytes kept
    have isKept : w.kept id ≠ none := by
      rw [show w.kept id = _ from kept]
      nofun
    exact ⟨holds.later same (stays id isKept),member⟩
  recorded id kept := by
    obtain ⟨⟨offset,bytes⟩,kept'⟩ := Option.ne_none_iff_exists'.mp kept
    obtain ⟨⟨e,found,committed,_⟩,_⟩ := good.kept id offset bytes kept'
    refine (good.recorded id kept).imp_right ?_
    rintro ⟨e',found',object,there,record⟩
    obtain rfl := Option.some.inj (found.symm.trans found')
    exact ⟨e,stays id kept e found committed,object,recorded id kept object there,record⟩

/-- A client goes on. If it was committing, there is a record now. -/
theorem Good.goes (good : Good blake3 w) (fine : Fine w.server.arena w.kept w.contents stage)
    (done : ∀ grant bytes info, w.stage k = .committing grant bytes info → Recorded w.server grant.id) :
    Good blake3 { w with stage := Function.update w.stage k stage } where
  steady := good.steady
  sound := good.sound
  identified := good.identified
  stages := Function.forall_update_iff w.stage (fun _ => Fine w.server.arena w.kept w.contents) |>.mpr
    ⟨fine,fun j _ => good.stages j⟩
  kept := good.kept
  recorded id kept := by
    rcases good.recorded id kept with ⟨j,grant,bytes,info,committing,rfl⟩ | recorded
    · by_cases mine : j = k
      · exact .inr (done grant bytes info (mine ▸ committing))
      · exact .inl ⟨j,grant,bytes,info,(Function.update_of_ne mine _ _).trans committing,rfl⟩
    · exact .inr recorded

/-- An object is kept no longer. Only the client that goes on may have been committing it. -/
theorem Good.forget (good : Good blake3 w)
    (fine : Fine w.server.arena (Function.update w.kept id none) w.contents stage)
    (own : ∀ grant bytes info, w.stage k = .committing grant bytes info → grant.id = id)
    (others : ∀ j grant bytes info, j ≠ k → w.stage j = .committing grant bytes info → grant.id ≠ id) :
    Good blake3 { w with stage := Function.update w.stage k stage, kept := Function.update w.kept id none } where
  steady := good.steady
  sound := good.sound
  identified := good.identified
  stages := by
    refine Function.forall_update_iff w.stage (fun _ => Fine w.server.arena _ w.contents) |>.mpr ⟨fine,fun j other => ?_⟩
    refine (good.stages j).later rfl (fun grant bytes place e found mine => ⟨e,found,rfl,rfl⟩)
      (fun grant bytes info committing => ⟨?_,fun e found => ⟨e,found,rfl⟩⟩) fun _ member => member
    exact Function.update_of_ne (others j grant bytes info other committing) _ _
  kept other offset bytes kept := by
    by_cases same : other = id
    · subst same
      cases (Function.update_self other _ w.kept).symm.trans kept
    · exact good.kept other offset bytes ((Function.update_of_ne same _ _).symm.trans kept)
  recorded other kept := by
    by_cases same : other = id
    · subst same
      exact absurd (Function.update_self other _ w.kept) kept
    · rcases good.recorded other fun none => kept ((Function.update_of_ne same _ _).trans none) with
        ⟨j,grant,bytes,info,committing,rfl⟩ | recorded
      · have different : j ≠ k := by
          rintro rfl
          exact same (own grant bytes info committing)
        exact .inl ⟨j,grant,bytes,info,(Function.update_of_ne different _ _).trans committing,rfl⟩
      · exact .inr recorded

/-- A client has committed its entry. Whoever committed the entry before has put the same bytes there. -/
theorem Good.keep (good : Good blake3 w) {grant : Grant} {info : Arena.Meta}
    (free : ∀ grant bytes info, w.stage k ≠ .committing grant bytes info) (member : (grant.id,bytes) ∈ w.contents)
    (holds : Holds w.server.arena grant.id grant.offset bytes)
    (told : ∃ e, w.server.arena.alloc.live.get grant.id = some e ∧ e.toMeta = info) :
    Good blake3 { w with
      stage := Function.update w.stage k (.committing grant bytes info)
      kept := Function.update w.kept grant.id (some (grant.offset,bytes)) } := by
  have same : ∀ place buffer, w.kept grant.id = some (place,buffer) → (place,buffer) = (grant.offset,bytes) := by
    intro place buffer kept
    obtain ⟨⟨e,found,_,offset,_⟩,member'⟩ := good.kept grant.id place buffer kept
    obtain ⟨e',found',_,offset',_⟩ := holds
    obtain rfl := Option.some.inj (found.symm.trans found')
    exact Prod.ext (offset.symm.trans offset') (good.identified _ member' _ member rfl)
  refine ⟨good.steady,good.sound,good.identified,?_,?_,?_⟩
  · refine Function.forall_update_iff w.stage (fun _ => Fine w.server.arena _ w.contents) |>.mpr
      ⟨⟨Function.update_self _ _ _,told⟩,fun j _ => ?_⟩
    refine (good.stages j).later rfl (fun _ _ _ e found _ => ⟨e,found,rfl,rfl⟩)
      (fun grant' bytes' info committing => ⟨?_,fun e found => ⟨e,found,rfl⟩⟩) fun _ member => member
    by_cases named : grant'.id = grant.id
    · have right := good.stages j
      rw [committing,Fine,named] at right
      dsimp only
      rw [named,Function.update_self,right.1,same _ _ right.1]
    · exact Function.update_of_ne named _ _
  · intro id place buffer kept
    dsimp only at kept
    by_cases named : id = grant.id
    · subst named
      rw [Function.update_self] at kept
      cases kept
      exact ⟨holds,member⟩
    · rw [Function.update_of_ne named] at kept
      exact good.kept id place buffer kept
  · intro id kept
    dsimp only at kept
    by_cases named : id = grant.id
    · exact .inl ⟨k,grant,bytes,info,Function.update_self _ _ _,named.symm⟩
    · rw [Function.update_of_ne named] at kept
      refine (good.recorded id kept).imp_left ?_
      rintro ⟨j,grant',bytes',info',committing,rfl⟩
      have different : j ≠ k := by
        rintro rfl
        exact free grant' bytes' info' committing
      exact ⟨j,grant',bytes',info',(Function.update_of_ne different _ _).trans committing,rfl⟩

/-- A put begins. -/
theorem Good.begins (good : Good blake3 w) (identified : ∀ other ∈ w.contents, other.1 = id → other.2 = bytes) :
    Good blake3 { w with contents := (id,bytes) :: w.contents } where
  steady := good.steady
  sound := good.sound
  identified := by
    rintro a first b second same
    rcases List.mem_cons.mp first with rfl | first <;> rcases List.mem_cons.mp second with rfl | second
    · rfl
    · exact (identified b second same.symm).symm
    · exact identified a first same
    · exact good.identified a first b second same
  stages k := (good.stages k).later rfl (fun grant bytes place e found mine => ⟨e,found,rfl,rfl⟩)
    (fun grant bytes info committing => ⟨rfl,fun e found => ⟨e,found,rfl⟩⟩) fun _ member => List.mem_cons_of_mem _ member
  kept other offset bytes kept := by
    obtain ⟨holds,member⟩ := good.kept other offset bytes kept
    exact ⟨holds,List.mem_cons_of_mem _ member⟩
  recorded := good.recorded

/-- The server drops an object that is not kept. -/
theorem Good.drop (good : Good blake3 w) {op : ArenaStore.Op} {state : CoordinatorState} (unkept : w.kept id = none)
    (drops : op.drops = some id) (fits : op.Fits) (moves : ArenaStore.Moves op w.server.arena arena)
    (recedes : ArenaStore.Recedes w.server.arena arena) (steady : Steady blake3 { w.server with state, arena })
    (objects : ∀ other, other ≠ id → state.objects.get other = w.server.state.objects.get other) :
    Good blake3 { w with server := { w.server with state, arena } } := by
  have apart : ∀ other, w.kept other ≠ none → other ≠ id := by
    rintro other kept rfl
    exact kept unkept
  refine good.serve steady (moves.keeps (fun move sound => move.sound fits sound) good.sound) recedes.bytes
    (fun _ grant _ _ e found _ => ⟨e,recedes.entries grant.id e found,rfl,rfl⟩) (fun other kept e found committed => ?_)
    fun other kept object there => (objects other (apart other kept)).trans there
  refine moves.entry_stays good.steady.settled found committed ?_
  rw [drops]
  exact fun same => apart other kept (Option.some.inj same).symm

/-! ### Every event keeps it -/

/-- How a reservation is answered. -/
theorem arena_reserve_ends (env : Env) (id : ObjectId) (codec : Codec) (size : UInt64) (checksum : Checksum)
    (mode : ArenaWriteMode) (s : CoordinatorServer) :
    (∃ payload, CoordinatorState.resolve_object id s.state = .ok payload s.state ∧
        arena_reserve env id codec size checksum mode s = .ok (.Object (s.arena_annotate payload)) s) ∨
      (∃ fault, arena_reserve env id codec size checksum mode s = .error fault s) ∨
      ∃ arena, arena = Outcome.state (ArenaStore.reserve env.objects id size codec checksum mode env.now env.later
          env.reservation s.arena) ∧
        ArenaStore.Moves (.reserve id size codec checksum mode env.now env.later env.reservation) s.arena arena ∧
        arena.map = s.arena.map ∧
        ((∃ e, arena_reserve env id codec size checksum mode s =
              .ok (.ArenaReserved id e.offset e.reservation) { s with arena } ∧ arena.alloc.live.get id = some e ∧
              e.size = size ∧ e.codec = codec ∧ e.checksum = checksum ∧ e.mode = mode) ∨
          ∃ error, arena_reserve env id codec size checksum mode s = .ok (.Error error) { s with arena }) := by
  cases resolved : CoordinatorState.resolve_object id s.state with
  | ok payload state =>
    obtain rfl := CoordinatorState.resolve_object_same resolved
    refine .inl ⟨payload,rfl,?_⟩
    simp only [arena_reserve,bind_apply,attempt,on_state,within,resolved,get_apply,pure_apply]
  | error fault state =>
    have quiet := CoordinatorState.resolve_object_quiet id s.state
    rw [resolved,Outcome.state_error] at quiet
    subst quiet
    cases fault with
    | Panic => exact .inr (.inl ⟨.Panic,by simp only [arena_reserve,bind_apply,attempt,on_state,within,resolved]⟩)
    | Diverge => exact .inr (.inl ⟨.Diverge,by simp only [arena_reserve,bind_apply,attempt,on_state,within,resolved]⟩)
    | Err unresolved =>
      have target : ArenaStore.Op.target (.reserve id size codec checksum mode env.now env.later env.reservation) =
        some id := rfl
      obtain ⟨arena,moves,sameMap,⟨e,ran,entry⟩ | ⟨error,ran⟩⟩ := ArenaStore.reserve_ends env.objects size codec checksum
        mode env.now env.later env.reservation target rfl rfl s.arena
      · refine .inr (.inr ⟨arena,by rw [ran]; rfl,moves,sameMap,.inl ⟨e,?_,entry⟩⟩)
        simp only [arena_reserve,bind_apply,attempt,on_state,on_arena,within,resolved,ran,pure_apply]
      · refine .inr (.inr ⟨arena,by rw [ran]; rfl,moves,sameMap,.inr ⟨error,?_⟩⟩)
        simp only [arena_reserve,bind_apply,attempt,on_state,on_arena,within,resolved,ran,pure_apply]

theorem Good.reserve (good : Good blake3 w) {env : Env} {random : ObjectId} {codec : Codec}
    (possible : w.Possible blake3 (.reserve k env random codec bytes)) :
    Good blake3 (w.act blake3 bincode (.reserve k env random codec bytes)) := by
  obtain ⟨idle,unused,identified⟩ := possible
  have begun := good.begins identified
  have free {P : Grant → Prop} : ∀ grant bytes info, w.stage k = .committing grant bytes info → P grant := by
    intro grant bytes info committing
    rw [idle] at committing
    cases committing
  simp only [act,dispatch_client]
  generalize content_id blake3 random bytes.bytes = name at begun ⊢
  obtain ⟨id,checksum⟩ := name
  dsimp only at begun ⊢
  rcases arena_reserve_ends env id codec bytes.len checksum .Direct w.server with
    ⟨payload,_,ran⟩ | ⟨fault,ran⟩ | ⟨arena,left,moves,sameMap,ended⟩
  · rw [ran]
    exact begun.goes trivial free
  · rw [ran]
    exact begun.goes trivial free
  have fits : ArenaStore.Op.Fits (.reserve id bytes.len codec checksum .Direct env.now env.later env.reservation) := by
    rintro size ⟨⟩
    have short := bytes.len_lt
    rw [ArenaStore.Buffer.len_toNat]
    omega
  have served : Good blake3 { w with server := { w.server with arena }, contents := (id,bytes) :: w.contents } := by
    refine begun.serve ⟨good.steady.state,moves.settled good.steady.settled⟩
      (moves.keeps (fun move sound => move.sound fits sound) good.sound) (by rw [sameMap]) ?_ ?_ fun _ _ _ found => found
    · intro j grant bytes place e found mine
      rw [left] at found
      rcases ArenaStore.reserve_entries _ _ _ _ _ _ _ _ _ _ found with before | ⟨_,fresh,_⟩
      · exact ⟨e,before,rfl,rfl⟩
      · exact absurd (mine.symm.trans fresh) (unused j grant bytes place)
    · intro other _ e found committed
      exact moves.entry_stays good.steady.settled found committed (by rintro ⟨⟩)
  rcases ended with ⟨e,ran,found,size,_⟩ | ⟨error,ran⟩
  · rw [ran]
    refine served.goes ⟨List.mem_cons_self,fun e' found' _ => ?_⟩ free
    obtain rfl := Option.some.inj (found.symm.trans found')
    exact ⟨rfl,size⟩
  · rw [ran]
    exact served.goes trivial free

/-- A copy into an entry of its size fills that entry, and leaves all others. -/
theorem poke_slice (sound : arena.alloc.Sound) {id other : ObjectId} {e e' : Arena.Entry}
    (found : arena.alloc.live.get id = some e) (size : e.size = bytes.len) (found' : arena.alloc.live.get other = some e') :
    (arena.map.write e.offset.toNat bytes.bytes).slice e'.content =
      if other = id then bytes.bytes else arena.map.slice e'.content := by
  have span : e.content = ⟨e.offset.toNat,bytes.bytes.length⟩ := by
    rw [Arena.Entry.content,size,ArenaStore.Buffer.len_toNat]
  split
  · rename_i same
    obtain rfl := Option.some.inj (found.symm.trans (same ▸ found'))
    rw [span]
    exact Memory.slice_write _ _ _
  · rename_i different
    refine Memory.slice_congr fun i member => Memory.byte_write_outside _ fun written => ?_
    have mine : e.content.Within e.span := ⟨le_rfl,Nat.add_le_add_left (sound.fits id e found) _⟩
    have theirs : e'.content.Within e'.span := ⟨le_rfl,Nat.add_le_add_left (sound.fits other e' found') _⟩
    exact sound.apart found found' different i (mine.contains (span ▸ written)) (theirs.contains member)

theorem Good.write (good : Good blake3 w) (fenced : w.Fenced (.write k)) :
    Good blake3 (w.act blake3 bincode (.write k)) := by
  cases stage : w.stage k with
  | idle | written | committing | stored | failed =>
    simp only [act,stage]
    exact good
  | granted grant bytes =>
    have free : ∀ grant bytes info, w.stage k = .committing grant bytes info → Recorded w.server grant.id := by
      intro grant bytes info committing
      rw [stage] at committing
      cases committing
    by_cases room : grant.offset.toNat + bytes.bytes.length ≤ ARENA_BYTES.toNat
    swap
    · simp only [act,stage,copy_wide,bind_apply,ensure_not room,err_apply]
      exact good.goes trivial free
    simp only [act,stage,copy_wide,bind_apply,ensure_of room,pure_apply,modify_apply]
    obtain ⟨e,found,mine⟩ := fenced grant bytes stage
    have right := good.stages k
    rw [stage] at right
    obtain ⟨member,placed⟩ := right
    obtain ⟨offset,size⟩ := placed e found mine
    have slices : ∀ {other e'}, w.server.arena.alloc.live.get other = some e' →
        (poke grant.offset.toNat bytes.bytes w.server).arena.map.slice e'.content =
          if other = grant.id then bytes.bytes else w.server.arena.map.slice e'.content := by
      intro other e' found'
      rw [← poke_slice good.sound found size found',← offset]
      rfl
    have same : ∀ {other buffer}, (other,buffer) ∈ w.contents → other = grant.id → buffer = bytes := by
      intro other buffer member' named
      exact good.identified _ member' _ member named
    refine ⟨⟨good.steady.state,good.steady.settled⟩,good.sound,good.identified,?_,?_,?_⟩
    · refine Function.forall_update_iff w.stage (fun _ => Fine _ w.kept w.contents) |>.mpr ⟨⟨member,?_⟩,fun j _ => ?_⟩
      · intro e' found' _
        obtain rfl := Option.some.inj (found.symm.trans found')
        exact ⟨offset,size,by rw [slices found,if_pos rfl]⟩
      · have right := good.stages j
        cases stage' : w.stage j with
        | written grant' bytes' =>
          rw [stage'] at right
          refine ⟨right.1,fun e' found' mine' => ?_⟩
          obtain ⟨offset',size',content'⟩ := right.2 e' found' mine'
          refine ⟨offset',size',?_⟩
          rw [slices found']
          split
          · rename_i named
            rw [same right.1 named]
          · exact content'
        | idle | granted | committing | stored | failed =>
          rw [stage'] at right
          exact right
    · intro other place buffer kept
      obtain ⟨⟨e',found',committed,offset',size',content'⟩,member'⟩ := good.kept other place buffer kept
      refine ⟨⟨e',found',committed,offset',size',?_⟩,member'⟩
      rw [slices found']
      split
      · rename_i named
        rw [same member' named]
      · exact content'
    · intro other kept
      rcases good.recorded other kept with ⟨j,grant',bytes',info,committing,rfl⟩ | recorded
      · have different : j ≠ k := by
          rintro rfl
          rw [stage] at committing
          cases committing
        exact .inl ⟨j,grant',bytes',info,(Function.update_of_ne different _ _).trans committing,rfl⟩
      · exact .inr recorded

theorem Good.commit (good : Good blake3 w) (k : Nat) : Good blake3 (w.act blake3 bincode (.commit k)) := by
  cases stage : w.stage k with
  | idle | granted | committing | stored | failed =>
    simp only [act,stage]
    exact good
  | written grant bytes =>
    have free : ∀ grant bytes info, w.stage k ≠ .committing grant bytes info := by simp [stage]
    rcases ArenaStore.commit_ends grant.id grant.reservation w.server.arena with
      ⟨e,arena,ran,found,mine,complete,left⟩ | ⟨error,ran⟩
    swap
    · simp only [act,stage,arena_commit,attempt,on_arena,within,ran]
      exact good.goes trivial fun _ _ _ committing => absurd committing (free _ _ _)
    simp only [act,stage,arena_commit,attempt,on_arena,within,ran]
    have right := good.stages k
    rw [stage] at right
    obtain ⟨member,filled⟩ := right
    obtain ⟨offset,size,content⟩ := filled e found mine
    have move : ArenaStore.Move (.commit grant.id grant.reservation) w.server.arena arena := left ▸ .commit found complete rfl
    have entries : ∀ other, arena.alloc.live.get other =
        if other = grant.id then some { e with committed := true, reserved_at := none }
        else w.server.arena.alloc.live.get other := by
      intro other
      rw [left,Table.get_modify_of found]
    have same : arena.map = w.server.arena.map := by rw [left]
    have served : Good blake3 { w with server := { w.server with arena } } := by
      refine good.serve ⟨good.steady.state,move.settled good.steady.settled⟩ (move.sound (by rintro _ ⟨⟩) good.sound)
        (by rw [same]) ?_ (fun id _ e' found' committed => move.entry_stays good.steady.settled found' committed (by rintro ⟨⟩))
        fun _ _ _ found => found
      intro j grant' bytes' _ e' found' _
      rw [entries] at found'
      split at found'
      · rename_i named
        obtain rfl := Option.some.inj found'
        exact ⟨e,by rw [named]; exact found,rfl,rfl⟩
      · exact ⟨e',found',rfl,rfl⟩
    have committed : arena.alloc.live.get grant.id = some { e with committed := true, reserved_at := none } := by
      rw [entries,if_pos rfl]
    refine served.keep free member ⟨_,committed,rfl,offset,size,?_⟩ ⟨_,committed,rfl⟩
    rw [same]
    exact content

theorem Good.publish (good : Good blake3 w) (fenced : w.Fenced (.publish k)) :
    Good blake3 (w.act blake3 bincode (.publish k)) := by
  cases stage : w.stage k with
  | idle | granted | written | stored | failed =>
    simp only [act,stage]
    exact good
  | committing grant bytes info =>
    have right := good.stages k
    rw [stage] at right
    obtain ⟨kept,e,found,rfl⟩ := right
    have steady := @System.publish_steady blake3 ⟨w.server,[]⟩ good.steady ⟨grant.id,grant.reservation,e.toMeta⟩
    rcases publish_ends grant.id grant.reservation e.toMeta good.steady.state.filed with
      ⟨_,state,_,admitted,payload,_,ran⟩ | ⟨refused,error,ran⟩
    · rw [ran] at steady
      simp only [act,stage,ran,commit_reply]
      rw [show Function.update w.kept grant.id (some (grant.offset,bytes)) = w.kept from
        Function.update_eq_self_iff.mpr kept.symm]
      have served : Good blake3 { w with server := { w.server with state } } := by
        refine good.serve steady good.sound rfl (fun _ _ _ _ e found _ => ⟨e,found,rfl,rfl⟩) (fun _ _ _ found _ => found) ?_
        intro id _ object there
        cases admitted with
        | known => exact there
        | stored absent =>
          have other : id ≠ grant.id := by
            rintro rfl
            cases absent.symm.trans there
          exact (by rw [Table.get_insert,if_neg other]; exact there)
      refine served.goes trivial fun grant' bytes' info' committing => ?_
      cases stage.symm.trans committing
      refine ⟨e,found,?_⟩
      cases admitted with
      | known there available codec size digest => exact ⟨_,there,available,codec,size,digest⟩
      | stored absent => exact ⟨_,by rw [Table.get_insert,if_pos rfl],rfl,rfl,rfl,rfl⟩
    · rw [ran] at steady
      simp only [act,stage,ran,commit_reply]
      have forgotten : Good blake3 { w with
          stage := Function.update w.stage k (.failed error), kept := Function.update w.kept grant.id none } :=
        good.forget trivial (fun grant' bytes' info' committing => by cases stage.symm.trans committing; rfl)
          (fenced grant bytes e.toMeta stage refused)
      have moves := (ArenaStore.apply_ends .increasing (.rollback grant.id grant.reservation) w.server.arena).moves
      rw [ArenaStore.apply,state_bind fun _ _ => rfl] at moves
      exact forgotten.drop (Function.update_self _ _ _) rfl (by rintro _ ⟨⟩) moves
        (ArenaStore.recedes_rollback grant.id grant.reservation w.server.arena) steady fun _ _ => rfl

theorem Good.release (good : Good blake3 w) (fenced : w.Fenced (.release k)) :
    Good blake3 (w.act blake3 bincode (.release k)) := by
  cases stage : w.stage k with
  | idle | granted | written | committing | failed =>
    simp only [act,stage]
    exact good
  | stored id =>
    have steady := @System.release_steady blake3 ⟨w.server,[]⟩ good.steady id
    rcases release_ends id w.server with ⟨can,state,_,released,ran⟩ | ⟨_,error,ran⟩
    · rw [ran] at steady
      simp only [act,stage,ran]
      have forgotten : Good blake3 { w with kept := Function.update w.kept id none } := by
        have forgotten : Good blake3 { w with
            stage := Function.update w.stage k (.stored id), kept := Function.update w.kept id none } :=
          good.forget trivial (fun _ _ _ committing => by cases stage.symm.trans committing)
            fun j grant bytes info _ committing => fenced id stage can j grant bytes info committing
        rwa [← stage,Function.update_eq_self] at forgotten
      have moves := (ArenaStore.apply_ends .increasing (.release id) w.server.arena).moves
      rw [ArenaStore.apply,state_bind fun _ _ => rfl] at moves
      refine forgotten.drop (Function.update_self _ _ _) rfl (by rintro _ ⟨⟩) moves
        (ArenaStore.recedes_release id w.server.arena) steady fun other different => ?_
      cases released with
      | before => rfl
      | drop => exact (by rw [CoordinatorState.dropped,Table.get_remove,if_neg different])
    · simp only [act,stage,ran]
      exact good

theorem Good.reap (good : Good blake3 w) (order : Traversal ObjectId) (now : Instant) :
    Good blake3 (w.act blake3 bincode (.reap order now)) := by
  have moves : ArenaStore.Moves (.reap now) w.server.arena _ := ArenaStore.reap_moves order now w.server.arena
  have recedes := ArenaStore.recedes_reap order now w.server.arena
  refine good.serve ⟨good.steady.state,moves.settled good.steady.settled⟩
    (moves.keeps (fun move sound => move.sound (by rintro _ ⟨⟩) sound) good.sound) recedes.bytes
    (fun _ grant _ _ e found _ => ⟨e,recedes.entries grant.id e found,rfl,rfl⟩) ?_ fun _ _ _ found => found
  exact fun _ _ e found committed => moves.entry_stays good.steady.settled found committed nofun

theorem Run.good {epoch : CoordinatorEpoch} {token : String} {lease_ms : Nat} {require_loopback : Bool}
    (run : Run blake3 bincode Fenced (Shared.start epoch token lease_ms require_loopback) w) : Good blake3 w := by
  induction run with
  | start => exact start_good epoch token lease_ms require_loopback
  | step run event possible fenced ih =>
    cases event with
    | reserve => exact ih.reserve possible
    | write => exact ih.write fenced
    | commit k => exact ih.commit k
    | publish => exact ih.publish fenced
    | release => exact ih.release fenced
    | reap order now => exact ih.reap order now

/-- Along every fenced run, what was committed and not released since has the bytes that its writer wrote, in a
    committed entry at the place that the writer was granted. -/
theorem run_kept {epoch : CoordinatorEpoch} {token : String} {lease_ms : Nat} {require_loopback : Bool}
    (run : Run blake3 bincode Fenced (start epoch token lease_ms require_loopback) w) {id : ObjectId} {offset : UInt64}
    {bytes : Buffer} (kept : w.kept id = some (offset,bytes)) :
    w.server.arena.map.slice ⟨offset.toNat,bytes.bytes.length⟩ = bytes.bytes ∧
      ∃ e, w.server.arena.alloc.live.get id = some e ∧ e.committed = true ∧ e.offset = offset ∧ e.size = bytes.len := by
  obtain ⟨⟨e,found,committed,rfl,size,content⟩,_⟩ := run.good.kept id offset bytes kept
  refine ⟨?_,e,found,committed,rfl,size⟩
  rw [Arena.Entry.content,size,ArenaStore.Buffer.len_toNat] at content
  exact content

end

/-! ### Examples -/

def abcBuffer : Buffer := ⟨System.abc,System.abc_bounded⟩
def xyzBuffer : Buffer := ⟨[120,121,122],by decide⟩

def xyzDigest : Checksum :=
  ⟨#[0xf0,0x06,0xb5,0xee,0x48,0x90,0xb6,0x66,0x56,0xcf,0x6c,0x23,0x99,0x8e,0x25,0x19,
     0x6a,0x16,0x36,0x44,0x66,0x5d,0xc9,0xd4,0xb4,0x7d,0xa1,0xfc,0xa3,0x03,0x70,0x23],rfl⟩

/-- A hash for runs that put these bytes only. -/
def shortHash (bytes : List UInt8) : Checksum := if bytes = System.abc then System.abcDigest else xyzDigest

def smallShared : Shared := start CoordinatorState.smallEpoch "crayon-arena-0" 5000 false

/-- The first client reserves a place for `abc`. -/
def asked : Shared :=
  smallShared.act shortHash .fixint (.reserve 0 (System.smallEnv 1) ⟨.replicate 32 0⟩ .RawBytes abcBuffer)

/-- A minute later the place is free again. -/
def waited : Shared := asked.act shortHash .fixint (.reap .increasing (60 * 10^9))

/-- The second client is granted it, for `xyz`, and puts that there. -/
def granted : Shared :=
  waited.act shortHash .fixint (.reserve 1 (System.smallEnv 2) ⟨.replicate 32 0⟩ .RawBytes xyzBuffer)
def copied : Shared := granted.act shortHash .fixint (.write 1)
def committed : Shared := copied.act shortHash .fixint (.commit 1)
def published : Shared := committed.act shortHash .fixint (.publish 1)

/-- Only now the first client copies its bytes. -/
def overwritten : Shared := published.act shortHash .fixint (.write 0)

theorem published_run {Rule : Shared → Event → Prop}
    (reserves : ∀ w k env random codec bytes, Rule w (.reserve k env random codec bytes))
    (reaps : ∀ w order now, Rule w (.reap order now)) (writes : Rule granted (.write 1)) (commits : Rule copied (.commit 1))
    (publishes : Rule committed (.publish 1)) : Run shortHash .fixint Rule smallShared published := by
  have first : smallShared.Possible shortHash (.reserve 0 (System.smallEnv 1) ⟨.replicate 32 0⟩ .RawBytes abcBuffer) :=
    ⟨rfl,nofun,nofun⟩
  have held : waited.stage 0 = .granted ⟨System.abcId,0,⟨.replicate 16 1⟩⟩ abcBuffer := by decide +kernel
  have second : waited.Possible shortHash (.reserve 1 (System.smallEnv 2) ⟨.replicate 32 0⟩ .RawBytes xyzBuffer) := by
    refine ⟨rfl,?_,by decide +kernel⟩
    intro j grant bytes place
    cases j with
    | zero =>
      rw [held] at place
      cases place
      decide
    | succ j => cases place
  have freed : Run shortHash .fixint Rule smallShared waited :=
    .step (.step .start _ first (reserves _ _ _ _ _ _)) (.reap .increasing (60 * 10^9)) trivial (reaps _ _ _)
  exact .step (.step (.step (.step freed _ second (reserves _ _ _ _ _ _)) (.write 1) trivial writes) (.commit 1) trivial
    commits) (.publish 1) trivial publishes

/-- The second client's object is committed, but has the bytes of the first. -/
theorem late_write_overwrites :
    Run shortHash .fixint (fun _ _ => True) smallShared overwritten ∧
      overwritten.kept (.from_checksum xyzDigest) = some (0,xyzBuffer) ∧
      overwritten.server.arena.map.slice ⟨0,3⟩ = System.abc := by
  have run : Run shortHash .fixint (fun _ _ => True) smallShared published :=
    published_run (fun _ _ _ _ _ _ => trivial) (fun _ _ _ => trivial) trivial trivial trivial
  exact ⟨.step run (.write 0) trivial trivial,by decide +kernel,by decide +kernel⟩

/-- As long as the first client does not copy, the object is as it was written. -/
theorem published_kept :
    published.kept (.from_checksum xyzDigest) = some (0,xyzBuffer) ∧
      published.server.arena.map.slice ⟨0,3⟩ = xyzBuffer.bytes := by
  have kept : published.kept (.from_checksum xyzDigest) = some (0,xyzBuffer) := by decide +kernel
  have run : Run shortHash .fixint Fenced smallShared published := by
    refine published_run (fun _ _ _ _ _ _ => trivial) (fun _ _ _ => trivial) ?_ trivial ?_
    · intro grant bytes stage
      have held : granted.stage 1 = .granted ⟨.from_checksum xyzDigest,0,⟨.replicate 16 2⟩⟩ xyzBuffer := by decide +kernel
      cases held.symm.trans stage
      have mine : (granted.server.arena.alloc.live.get (.from_checksum xyzDigest)).map (·.reservation) =
        some ⟨.replicate 16 2⟩ := by decide +kernel
      exact Option.map_eq_some_iff.mp mine
    · intro grant bytes info stage refused
      have committing : committed.stage 1 = .committing ⟨.from_checksum xyzDigest,0,⟨.replicate 16 2⟩⟩ xyzBuffer
        ⟨0,3,.RawBytes,xyzDigest⟩ := by decide +kernel
      cases committing.symm.trans stage
      have absent : committed.server.state.objects.get (.from_checksum xyzDigest) = none := by decide +kernel
      rw [CoordinatorState.Takes,absent] at refused
      exact absurd (show committed.server.state.objects.len < MAX_OBJECTS by decide +kernel) refused
  exact ⟨kept,(run_kept run kept).1⟩

end Shared
end Crayon
