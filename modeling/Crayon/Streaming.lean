import Crayon.RoundTrip

/-!
Objects that are written chunk by chunk. A chunk that starts where the last one
ended is appended, one that lies in what was written is compared with it, and any
other is refused; so at any time the object holds the chunks that were appended,
one after the other, and every chunk that was ever accepted is a part of them.
Whatever is done to other objects in between stays out of the slot, unless a size
was reserved that wraps around (`stray_chunks`).
-/
namespace Crayon.ArenaStore
open Arena Command
variable {s t : ArenaStore} {id : ObjectId} {e e₀ : Entry} {order : Traversal ObjectId} {op : Op}

/-! ### Other objects -/

theorem Move.aside (move : Move op s t) (sound : s.alloc.Sound) (unwritten : op.writes ≠ some id)
    (unreserved : op.target = some id → op.draws = none) (found : t.alloc.live.get id = some e) :
    s.alloc.live.get id = some e ∧ ∀ i, e.span.Contains i → t.map.byte i = s.map.byte i := by
  have before : s.alloc.live.get id = some e := by
    cases Moves.origin (.single move) found with
    | kept before => exact before
    | grown _ _ asked => exact absurd asked unwritten
    | reserved asked drawn => cases (unreserved asked).symm.trans drawn
  refine ⟨before,fun i member => ?_⟩
  cases move with
  | write there _ inside asked => exact write_apart sound before there (fun same => unwritten (same ▸ asked)) inside member
  | _ => rfl

/-- An operation that writes nothing to an object and reserves no place for it leaves the bytes in its slot. -/
theorem Moves.aside (moves : Moves op s t) (sound : s.alloc.Sound) (fits : op.Fits) (unwritten : op.writes ≠ some id)
    (unreserved : op.target = some id → op.draws = none) (found : t.alloc.live.get id = some e) :
    s.alloc.live.get id = some e ∧ ∀ i, e.span.Contains i → t.map.byte i = s.map.byte i := by
  induction moves with
  | refl => exact ⟨found,fun _ _ => rfl⟩
  | tail moves move ih =>
    have sound' := Moves.keeps moves (fun move kept => move.sound fits kept) sound
    obtain ⟨between,same⟩ := move.aside sound' unwritten unreserved found
    obtain ⟨before,earlier⟩ := ih between
    exact ⟨before,fun i member => (same i member).trans (earlier i member)⟩

/-! ### The chunks of an object -/

/-- The chunk that an operation writes to an object. -/
def Op.chunk (id : ObjectId) : Op → Option (UInt64 × Buffer)
  | .write_chunk id' _ rel_offset bytes _ => if id' = id then some (rel_offset,bytes) else none
  | _ => none

/-- What a client that streams an object asks about it. -/
def Op.streams : Op → Bool
  | .write_chunk .. | .commit .. | .read .. | .read_chunk .. => true
  | _ => false

/-- The chunk of an object that an operation writes, if it is accepted. -/
def accepts (s : ArenaStore) (id : ObjectId) (order : Traversal ObjectId) (op : Op) : List (UInt64 × Buffer) :=
  if (Outcome.value? (apply order op s)).isSome then (op.chunk id).toList else []

/-- The bytes that an operation appends to an object: those of an accepted chunk that starts where the object ends. -/
def appends (s : ArenaStore) (id : ObjectId) (order : Traversal ObjectId) (op : Op) : List UInt8 :=
  (s.accepts id order op).flatMap fun chunk =>
    if (s.alloc.live.get id).any fun e => e.written_until = chunk.1 then chunk.2.bytes else []

/-- The chunks of an object that were accepted, with their offsets. -/
def accepted (s : ArenaStore) (id : ObjectId) : Steps → List (UInt64 × Buffer)
  | [] => []
  | (order,op) :: earlier => accepted s id earlier ++ (after s earlier).accepts id order op

/-- What was appended to an object. -/
def appended (s : ArenaStore) (id : ObjectId) : Steps → List UInt8
  | [] => []
  | (order,op) :: earlier => appended s id earlier ++ (after s earlier).appends id order op

/-- The chunk is what stands at its offset. -/
def Stands (content : List UInt8) (chunk : UInt64 × Buffer) : Prop :=
  chunk.1.toNat + chunk.2.bytes.length ≤ content.length ∧
    (content.drop chunk.1.toNat).take chunk.2.bytes.length = chunk.2.bytes

theorem Stands.append {content : List UInt8} {chunk : UInt64 × Buffer} (stands : Stands content chunk) (more : List UInt8) :
    Stands (content ++ more) chunk := by
  obtain ⟨inside,same⟩ := stands
  constructor
  · rw [List.length_append]
    omega
  · rw [List.drop_append_of_le_length (by omega),List.take_append_of_le_length (by rw [List.length_drop]; omega)]
    exact same

theorem stands_last {content : List UInt8} {chunk : UInt64 × Buffer} (start : chunk.1.toNat = content.length) :
    Stands (content ++ chunk.2.bytes) chunk := by
  constructor
  · rw [List.length_append,start]
  · rw [start,List.drop_left,List.take_length]

/-- An entry of a streamed object: what was appended stands at the start of its slot, and every accepted chunk is
    a part of it. -/
structure Streams (e₀ : Entry) (content : List UInt8) (chunks : List (UInt64 × Buffer)) (t : ArenaStore) (e : Entry) :
    Prop where
  size : e.size = e₀.size
  reservation : e.reservation = e₀.reservation
  streamed : e.mode = .Streamed
  length : content.length = e.written_until.toNat
  inside : e.written_until ≤ e.size
  whole : e.committed = true → e.written_until = e.size
  bytes : t.map.slice ⟨e.offset.toNat,content.length⟩ = content
  stand : ∀ chunk ∈ chunks, Stands content chunk

section
variable {content : List UInt8} {chunks : List (UInt64 × Buffer)} {reservation : RequestId} {rel_offset : UInt64}
  {bytes : Buffer} {now : Instant}

theorem Streams.length_le (streams : Streams e₀ content chunks s e) : content.length ≤ e.size.toNat := by
  rw [streams.length]
  exact UInt64.le_iff_toNat_le.mp streams.inside

/-- What leaves the slot alone leaves the object alone. -/
theorem Streams.aside (streams : Streams e₀ content chunks s e) (roomy : e.size.toNat ≤ e.slot.toNat)
    (same : ∀ i, e.span.Contains i → t.map.byte i = s.map.byte i) : Streams e₀ content chunks t e := by
  have short := streams.length_le
  have mine : Span.Within ⟨e.offset.toNat,content.length⟩ e.span := ⟨le_rfl,Nat.add_le_add_left (short.trans roomy) _⟩
  exact { streams with bytes := (Memory.slice_congr fun i member => same i (mine.contains member)).trans streams.bytes }

theorem Streams.appended (streams : Streams e₀ content chunks s e) (sound : s.alloc.Sound)
    (found : s.alloc.live.get id = some e) {stop : UInt64} (uncommitted : e.committed = false)
    (exact : stop.toNat = rel_offset.toNat + bytes.bytes.length) (below : stop ≤ e.size) (next : rel_offset = e.written_until)
    (map : t.map = s.map.write (e.offset + rel_offset).toNat bytes.bytes) :
    Streams e₀ (content ++ bytes.bytes) (chunks ++ [(rel_offset,bytes)]) t
      { e with written_until := stop, reserved_at := some now } := by
  have start : rel_offset.toNat = content.length := by rw [next,streams.length]
  have inside : rel_offset.toNat ≤ e.size.toNat := start ▸ streams.length_le
  constructor
  case size => exact streams.size
  case reservation => exact streams.reservation
  case streamed => exact streams.streamed
  case length => rw [List.length_append,exact,start]
  case inside => exact below
  case whole => exact fun committed => by cases uncommitted.symm.trans committed
  case bytes =>
    rw [map,offset_exact sound found inside,start,List.length_append,Memory.slice_write_after,streams.bytes]
  case stand =>
    intro chunk member
    rcases List.mem_append.mp member with earlier | last
    · exact (streams.stand chunk earlier).append bytes.bytes
    · obtain rfl := List.mem_singleton.mp last
      exact stands_last start

/-- A chunk that was compared with what is there stands there. -/
theorem Streams.compared (streams : Streams e₀ content chunks s e) (sound : s.alloc.Sound)
    (found : s.alloc.live.get id = some e) (inside : rel_offset.toNat + bytes.bytes.length ≤ e.written_until.toNat)
    (same : s.map.slice ⟨(e.offset + rel_offset).toNat,bytes.bytes.length⟩ = bytes.bytes) :
    Streams e₀ content (chunks ++ [(rel_offset,bytes)]) s e := by
  refine { streams with stand := fun chunk member => ?_ }
  rcases List.mem_append.mp member with earlier | last
  · exact streams.stand chunk earlier
  obtain rfl := List.mem_singleton.mp last
  have short := streams.length_le
  rw [← streams.length] at inside
  refine ⟨inside,?_⟩
  rw [offset_exact sound found (by omega)] at same
  rw [← streams.bytes,Memory.slice_part _ inside]
  exact same

/-- What accepts no chunk and leaves the slot alone leaves the object alone. -/
theorem Streams.unchanged (streams : ∀ e, s.alloc.live.get id = some e → Streams e₀ content chunks s e)
    (sound : s.alloc.Sound) (nothing : s.accepts id order op = []) (found : s.alloc.live.get id = some e)
    (same : ∀ i, e.span.Contains i → (Outcome.state (apply order op s)).map.byte i = s.map.byte i) :
    Streams e₀ (content ++ s.appends id order op) (chunks ++ s.accepts id order op) (Outcome.state (apply order op s)) e := by
  simp only [appends,nothing,List.flatMap_nil,List.append_nil]
  exact (streams e found).aside (sound.fits id e found) same

theorem accepts_none (none : op.chunk id = none) : s.accepts id order op = [] := by
  simp [accepts,none]

theorem accepts_chunk (ran : write_chunk id reservation rel_offset bytes now s = .ok () t) :
    s.accepts id order (.write_chunk id reservation rel_offset bytes now) = [(rel_offset,bytes)] := by
  simp [accepts,apply,bind_apply,ran,pure_apply,Outcome.value?,Op.chunk]

theorem accepts_refused {fault : Fault Error} (ran : write_chunk id reservation rel_offset bytes now s = .error fault t) :
    s.accepts id order (.write_chunk id reservation rel_offset bytes now) = [] := by
  simp [accepts,apply,bind_apply,ran,Outcome.value?]

/-- A chunk of the object is appended, compared or refused. -/
theorem Streams.write_chunk (streams : ∀ e, s.alloc.live.get id = some e → Streams e₀ content chunks s e)
    (sound : s.alloc.Sound)
    (found : (Outcome.state (apply order (.write_chunk id reservation rel_offset bytes now) s)).alloc.live.get id = some e) :
    Streams e₀ (content ++ s.appends id order (.write_chunk id reservation rel_offset bytes now))
      (chunks ++ s.accepts id order (.write_chunk id reservation rel_offset bytes now))
      (Outcome.state (apply order (.write_chunk id reservation rel_offset bytes now) s)) e := by
  have left : Outcome.state (apply order (.write_chunk id reservation rel_offset bytes now) s) = _ :=
    state_bind (fun _ _ => rfl) s
  rw [left] at found
  rcases write_chunk_cases id reservation rel_offset bytes now s with
    ⟨e',stop,before,_,uncommitted,_,exact,below,⟨next,ran⟩ | ⟨written,same,ran⟩⟩ | ⟨error,ran⟩ | ⟨e',_,_,ran⟩
  · have more : s.appends id order (.write_chunk id reservation rel_offset bytes now) = bytes.bytes := by
      rw [appends,accepts_chunk ran]
      simp [before,next]
    rw [ran,Outcome.state_ok,Table.get_modify_of before,if_pos rfl] at found
    obtain rfl := Option.some.inj found
    rw [more,accepts_chunk ran,left,ran]
    exact (streams e' before).appended sound before uncommitted exact below next rfl
  · have inside : rel_offset.toNat + bytes.bytes.length ≤ e'.written_until.toNat :=
      exact ▸ UInt64.le_iff_toNat_le.mp written
    -- only an empty chunk starts where the object ends and lies in what was written
    have more : s.appends id order (.write_chunk id reservation rel_offset bytes now) = [] := by
      simp only [appends,accepts_chunk ran,before,List.flatMap_cons,List.flatMap_nil,List.append_nil,Option.any_some]
      by_cases last : e'.written_until = rel_offset
      · subst last
        simp only [decide_true,if_true]
        exact List.length_eq_zero_iff.mp (by omega)
      · simp [last]
    rw [ran] at found
    obtain rfl := Option.some.inj (before.symm.trans found)
    rw [more,accepts_chunk ran,left,ran,List.append_nil]
    exact ((streams e' before).compared sound before inside same).aside (sound.fits id e' before) fun _ _ => rfl
  · rw [ran] at found
    exact .unchanged streams sound (accepts_refused ran) found fun _ _ => by rw [left,ran,Outcome.state_error]
  · rw [ran] at found
    exact .unchanged streams sound (accepts_refused ran) found fun _ _ => by rw [left,ran]; rfl

/-- One operation: on the object itself as a client that streams it makes them, or on anything else. -/
theorem Streams.step (streams : ∀ e, s.alloc.live.get id = some e → Streams e₀ content chunks s e) (sound : s.alloc.Sound)
    (fits : op.Fits) (only : op.target = some id → op.streams = true)
    (found : (Outcome.state (apply order op s)).alloc.live.get id = some e) :
    Streams e₀ (content ++ s.appends id order op) (chunks ++ s.accepts id order op) (Outcome.state (apply order op s)) e := by
  by_cases mine : op.target = some id
  swap
  · have none : op.chunk id = none := by
      cases op with
      | write_chunk k => exact if_neg fun same => mine (congrArg some same)
      | _ => rfl
    have unwritten : op.writes ≠ some id := fun written => mine (Op.target_of_writes written)
    obtain ⟨before,same⟩ := (apply_ends order op s).moves.aside sound fits unwritten (fun asked => absurd asked mine) found
    exact .unchanged streams sound (accepts_none none) before same
  cases op with
  | write_chunk k reservation rel_offset bytes now =>
    obtain rfl := Option.some.inj mine
    exact .write_chunk streams sound found
  | commit k reservation =>
    obtain rfl := Option.some.inj mine
    have left : Outcome.state (apply order (.commit k reservation) s) = _ := state_map _ _ s
    rw [left] at found
    rcases commit_ends k reservation s with ⟨e',_,ran,before,_,complete,rfl⟩ | ⟨error,ran⟩ <;> rw [ran] at found
    · rw [Outcome.state_ok,Table.get_modify_of before,if_pos rfl] at found
      obtain rfl := Option.some.inj found
      have nothing : s.accepts k order (.commit k reservation) = [] := accepts_none rfl
      have now := Streams.unchanged streams sound nothing before fun _ _ => by rw [left,ran]; rfl
      exact { now with whole := fun _ => complete now.streamed }
    · exact .unchanged streams sound (accepts_none rfl) found fun _ _ => by rw [left,ran]; rfl
  | read k | read_chunk k rel_offset len =>
    obtain ⟨before,same⟩ := (apply_ends order _ s).moves.aside sound fits (by rintro ⟨⟩) (fun _ => rfl) found
    exact .unchanged streams sound (accepts_none rfl) before same
  | _ => cases only mine

end

/-! ### Runs -/

/-- The operations in the order in which they were made. -/
def Steps.ops (steps : Steps) : List Op := (steps.map Prod.snd).reverse

theorem reaches_after (s : ArenaStore) (steps : Steps) : Reaches s steps.ops (after s steps) := by
  induction steps with
  | nil => exact .refl
  | cons step earlier ih =>
    obtain ⟨order,op⟩ := step
    rw [Steps.ops,List.map_cons,List.reverse_cons]
    exact ih.tail order op

theorem after_append (s : ArenaStore) (later earlier : Steps) : after s (later ++ earlier) = after (after s earlier) later := by
  induction later with
  | nil => rfl
  | cons step later ih => rw [List.cons_append,after,after,ih]

/-- No operation reserves more than can be rounded up, and the object is only streamed. -/
structure Streamed (id : ObjectId) (steps : Steps) : Prop where
  fits : ∀ op ∈ steps.ops, op.Fits
  only : ∀ op ∈ steps.ops, op.target = some id → op.streams = true

theorem Streamed.split (later earlier : Steps) (streamed : Streamed id (later ++ earlier)) :
    Streamed id later ∧ Streamed id earlier := by
  have whole : Steps.ops (later ++ earlier) = Steps.ops earlier ++ Steps.ops later := by simp [Steps.ops]
  obtain ⟨fits,only⟩ := streamed
  rw [whole] at fits only
  obtain ⟨fitsEarlier,fitsLater⟩ := List.forall_mem_append.mp fits
  obtain ⟨onlyEarlier,onlyLater⟩ := List.forall_mem_append.mp only
  exact ⟨⟨fitsLater,onlyLater⟩,⟨fitsEarlier,onlyEarlier⟩⟩

/-- The entry of an object that nothing was written to. -/
structure Blank (s : ArenaStore) (id : ObjectId) (e : Entry) : Prop where
  found : s.alloc.live.get id = some e
  streamed : e.mode = .Streamed
  uncommitted : e.committed = false
  start : e.written_until = 0

theorem Blank.streams (blank : Blank s id e₀) (found : s.alloc.live.get id = some e) : Streams e₀ [] [] s e := by
  obtain rfl := Option.some.inj (blank.found.symm.trans found)
  constructor
  case size => rfl
  case reservation => rfl
  case streamed => exact blank.streamed
  case length => rw [blank.start]; rfl
  case inside => rw [blank.start]; exact UInt64.le_iff_toNat_le.mpr (Nat.zero_le _)
  case whole => exact fun committed => by cases blank.uncommitted.symm.trans committed
  case bytes => rfl
  case stand => exact nofun

theorem streams_after (sound : s.alloc.Sound) (blank : Blank s id e₀) {steps : Steps} (streamed : Streamed id steps)
    (found : (after s steps).alloc.live.get id = some e) :
    Streams e₀ (appended s id steps) (accepted s id steps) (after s steps) e := by
  induction steps generalizing e with
  | nil => exact blank.streams found
  | cons step earlier ih =>
    obtain ⟨order,op⟩ := step
    obtain ⟨last,before⟩ := streamed.split [(order,op)] earlier
    have member : op ∈ Steps.ops [(order,op)] := List.mem_singleton_self op
    exact Streams.step (fun e found => ih before found) ((reaches_after s earlier).sound sound before.fits)
      (last.fits op member) (last.only op member) found

/-- What streams an object does not drop it. -/
theorem Streamed.keeps {steps : Steps} (streamed : Streamed id steps) : ∀ op ∈ steps.ops, op.drops ≠ some id := by
  intro op member dropped
  cases op with
  | rollback => cases streamed.only _ member dropped
  | release => cases streamed.only _ member dropped
  | _ => cases dropped

theorem commit_iff (streamed : ∀ e, s.alloc.live.get id = some e → e.mode = .Streamed) (reservation : RequestId) :
    (Outcome.value? (commit id reservation s)).isSome ↔
      ∃ e, s.alloc.live.get id = some e ∧ e.reservation = reservation ∧ e.written_until = e.size := by
  rcases commit_ends id reservation s with ⟨e,_,ran,found,mine,complete,_⟩ | ⟨error,ran⟩ <;> rw [ran]
  · exact ⟨fun _ => ⟨e,found,mine,complete (streamed e found)⟩,fun _ => rfl⟩
  · refine ⟨nofun,?_⟩
    rintro ⟨e,found,mine,whole⟩
    simp only [commit,bind_apply,get_apply,found,ok_or_some,pure_apply,ensure_of mine,
      ensure_of (show ¬ (e.mode = .Streamed ∧ e.written_until ≠ e.size) from fun part => part.2 whole),entry_mut,
      modify_apply] at ran
    cases ran

theorem commit_commits (order : Traversal ObjectId) {reservation : RequestId}
    (done : (Outcome.value? (commit id reservation s)).isSome) :
    ∃ e, (Outcome.state (apply order (.commit id reservation) s)).alloc.live.get id = some e ∧ e.committed = true := by
  rw [apply,state_map]
  rcases commit_ends id reservation s with ⟨e,_,ran,found,_,_,rfl⟩ | ⟨error,ran⟩ <;> rw [ran] at done ⊢
  · refine ⟨{ e with committed := true, reserved_at := none },?_,rfl⟩
    rw [Outcome.state_ok,Table.get_modify_of found,if_pos rfl]
  · cases done

/-- A committed object takes no chunk. -/
theorem committed_refuses (found : s.alloc.live.get id = some e) (committed : e.committed = true) (reservation : RequestId)
    (rel_offset : UInt64) (bytes : Buffer) (now : Instant) :
    write_chunk id reservation rel_offset bytes now s = .error (.Err .StaleFence) s := by
  have closed : ¬ (e.reservation = reservation ∧ e.committed = false) := fun ⟨_,uncommitted⟩ => by
    cases committed.symm.trans uncommitted
  simp only [write_chunk,bind_apply,get_apply,found,ok_or_some,pure_apply,ensure_not closed,err_apply]

theorem committed_accepts (found : s.alloc.live.get id = some e) (committed : e.committed = true)
    (order : Traversal ObjectId) (op : Op) : s.accepts id order op = [] := by
  cases op with
  | write_chunk k reservation rel_offset bytes now =>
    by_cases same : k = id
    · subst same
      exact accepts_refused (committed_refuses found committed reservation rel_offset bytes now)
    · exact accepts_none (if_neg same)
  | _ => exact accepts_none rfl

/-- A committed object stays as it is while it is only streamed. -/
theorem committed_lasts {steps : Steps} (sound : (after s steps).alloc.Sound) (settled : (after s steps).alloc.Settled)
    (found : (after s steps).alloc.live.get id = some e) (committed : e.committed = true) {later : Steps}
    (streamed : Streamed id later) :
    (after s (later ++ steps)).alloc.live.get id = some e ∧ appended s id (later ++ steps) = appended s id steps := by
  induction later with
  | nil => exact ⟨found,rfl⟩
  | cons step later ih =>
    obtain ⟨_,before⟩ := streamed.split [step] later
    obtain ⟨there,same⟩ := ih before
    constructor
    · rw [after_append]
      exact ((reaches_after _ (step :: later)).committed_stays sound settled streamed.fits found committed streamed.keeps).1
    · rw [List.cons_append,appended,appends,committed_accepts there committed,List.flatMap_nil,List.append_nil,same]

/-- What streaming an object by some operations comes to. -/
structure Streaming (s : ArenaStore) (id : ObjectId) (e₀ : Entry) (steps : Steps) : Prop where
  /-- What was written is what was appended, and every chunk that was accepted is there. -/
  entry : ∀ e, (after s steps).alloc.live.get id = some e →
    Streams e₀ (appended s id steps) (accepted s id steps) (after s steps) e
  /-- A call that is rejected changes nothing. -/
  rejected : ∀ reservation rel_offset bytes now fault t,
    write_chunk id reservation rel_offset bytes now (after s steps) = .error fault t →
      t.alloc = (after s steps).alloc ∧ t.map.byte = (after s steps).map.byte
  /-- The object can be committed exactly with the current token and when it is complete. -/
  commits : ∀ reservation, (Outcome.value? (commit id reservation (after s steps))).isSome ↔
    ∃ e, (after s steps).alloc.live.get id = some e ∧ e.reservation = reservation ∧ e.written_until = e.size
  /-- Once it has been committed it stays so. -/
  lasting : ∀ later order reservation earlier, steps = later ++ (order,.commit id reservation) :: earlier →
    (Outcome.value? (commit id reservation (after s earlier))).isSome →
      ∃ e, (after s steps).alloc.live.get id = some e ∧ e.committed = true ∧ appended s id steps = appended s id earlier
  /-- From then on what was appended is what is read, and every chunk is rejected. -/
  committed : ∀ e, (after s steps).alloc.live.get id = some e → e.committed = true →
    (appended s id steps).length = e.size.toNat ∧
    Outcome.value? (read id (after s steps)) = some (some (appended s id steps)) ∧
    (∀ rel_offset len : UInt64, rel_offset.toNat + len.toNat ≤ e.size.toNat →
      Outcome.value? (read_chunk id rel_offset len (after s steps)) =
        some (some (((appended s id steps).drop rel_offset.toNat).take len.toNat))) ∧
    ∀ reservation rel_offset bytes now,
      write_chunk id reservation rel_offset bytes now (after s steps) = .error (.Err .StaleFence) (after s steps)

/-- If no size wraps around when it is rounded up, an object holds what is streamed into it, whatever is done to
    other objects. -/
theorem streamed_content (token : String) {ops : List Op} (reached : Reaches (new token) ops s)
    (fits : ∀ op ∈ ops, op.Fits) (blank : Blank s id e₀) {steps : Steps} (streamed : Streamed id steps) :
    Streaming s id e₀ steps := by
  have sound := reached.sound (new_sound token) fits
  have settled : s.alloc.Settled := reached.settled (new_settled token)
  have entry : ∀ {steps : Steps}, Streamed id steps → ∀ e, (after s steps).alloc.live.get id = some e →
      Streams e₀ (appended s id steps) (accepted s id steps) (after s steps) e :=
    fun streamed e found => streams_after sound blank streamed found
  constructor
  case entry => exact entry streamed
  case rejected =>
    intro reservation rel_offset bytes now fault t refused
    rcases write_chunk_cases id reservation rel_offset bytes now (after s steps) with
      ⟨_,_,_,_,_,_,_,_,⟨_,ran⟩ | ⟨_,_,ran⟩⟩ | ⟨error,ran⟩ | ⟨_,_,_,ran⟩ <;> cases ran.symm.trans refused <;> exact ⟨rfl,rfl⟩
  case commits => exact commit_iff fun e found => (entry streamed e found).streamed
  case lasting =>
    rintro later order reservation earlier rfl done
    obtain ⟨rest,before⟩ := streamed.split later _
    obtain ⟨e,found,committed⟩ := commit_commits order done
    have reaches := reaches_after s ((order,.commit id reservation) :: earlier)
    obtain ⟨still,same⟩ := committed_lasts (reaches.sound sound before.fits) (reaches.settled settled) found committed rest
    refine ⟨e,still,committed,same.trans ?_⟩
    rw [appended,appends,accepts_none rfl,List.flatMap_nil,List.append_nil]
  case committed =>
    intro e found committed
    have streams := entry streamed e found
    have length : (appended s id steps).length = e.size.toNat := by rw [streams.length,streams.whole committed]
    have whole : (after s steps).map.slice e.content = appended s id steps := by
      rw [Entry.content,← length]
      exact streams.bytes
    refine ⟨length,?_,fun rel_offset len inside => ?_,committed_refuses found committed⟩
    · rw [read_committed found committed,whole]
      rfl
    · have exact := offset_exact ((reaches_after s steps).sound sound streamed.fits) found (Nat.le_of_add_right_le inside)
      rw [read_chunk_committed found committed rel_offset len inside,exact,← whole,Entry.content,Memory.slice_part _ inside]
      rfl

/-! ### A size that wraps around -/

/-- Two reservations, the first one of the given size. -/
def pairOps (size : UInt64) : List Op :=
  [.reserve ⟨.replicate 32 1⟩ size .RawBytes (.replicate 32 0) .Streamed 0 0 ⟨.replicate 16 1⟩,
   .reserve ⟨.replicate 32 2⟩ 3 .RawBytes (.replicate 32 0) .Streamed 0 0 ⟨.replicate 16 2⟩]
def pairStore (size : UInt64) : ArenaStore := replay "arena" (pairOps size)
def pairEntry (offset : UInt64) : Entry :=
  ⟨offset,3,8,.RawBytes,.replicate 32 0,⟨.replicate 16 2⟩,.Streamed,0,false,some 0⟩

/-- The second object is written in two chunks and committed, and the first one is started. -/
def pairSteps : Steps :=
  [(.increasing,.write_chunk ⟨.replicate 32 1⟩ ⟨.replicate 16 1⟩ 0 ⟨[9],by decide⟩ 4),
   (.increasing,.commit ⟨.replicate 32 2⟩ ⟨.replicate 16 2⟩),
   (.increasing,.write_chunk ⟨.replicate 32 2⟩ ⟨.replicate 16 2⟩ 2 ⟨[7],by decide⟩ 3),
   (.increasing,.write_chunk ⟨.replicate 32 2⟩ ⟨.replicate 16 2⟩ 1 ⟨[6],by decide⟩ 2),
   (.increasing,.write_chunk ⟨.replicate 32 2⟩ ⟨.replicate 16 2⟩ 0 ⟨[5,6],by decide⟩ 1)]

theorem pair_blank (size offset : UInt64) (found : (pairStore size).alloc.live.get ⟨.replicate 32 2⟩ = some (pairEntry offset)) :
    Blank (pairStore size) ⟨.replicate 32 2⟩ (pairEntry offset) := ⟨found,rfl,rfl,rfl⟩

theorem pair_streamed : Streamed ⟨.replicate 32 2⟩ pairSteps := ⟨by decide,by decide⟩

theorem pair_content :
    appended (pairStore 5) ⟨.replicate 32 2⟩ pairSteps = [5,6,7] ∧
      Streaming (pairStore 5) ⟨.replicate 32 2⟩ (pairEntry 8) pairSteps :=
  ⟨by decide +kernel,streamed_content "arena" (replay_reaches "arena" (pairOps 5)) (by decide)
    (pair_blank 5 8 (by decide +kernel)) pair_streamed⟩

/-- The slot for 2^64 - 1 bytes wraps around to nothing, so that both objects start at the same place, and a chunk
    of the one lands in the other. -/
theorem stray_chunks :
    Reaches (new "arena") (pairOps 0xffffffffffffffff) (pairStore 0xffffffffffffffff) ∧
      Blank (pairStore 0xffffffffffffffff) ⟨.replicate 32 2⟩ (pairEntry 0) ∧ Streamed ⟨.replicate 32 2⟩ pairSteps ∧
      appended (pairStore 0xffffffffffffffff) ⟨.replicate 32 2⟩ pairSteps = [5,6,7] ∧
      Outcome.value? (read ⟨.replicate 32 2⟩ (after (pairStore 0xffffffffffffffff) pairSteps)) = some (some [9,6,7]) ∧
      ¬ Streaming (pairStore 0xffffffffffffffff) ⟨.replicate 32 2⟩ (pairEntry 0) pairSteps := by
  have content : appended (pairStore 0xffffffffffffffff) ⟨.replicate 32 2⟩ pairSteps = [5,6,7] := by decide +kernel
  have misread : Outcome.value? (read ⟨.replicate 32 2⟩ (after (pairStore 0xffffffffffffffff) pairSteps)) =
      some (some [9,6,7]) := by decide +kernel
  have found : (after (pairStore 0xffffffffffffffff) pairSteps).alloc.live.get ⟨.replicate 32 2⟩ =
      some { pairEntry 0 with written_until := 3, committed := true, reserved_at := none } := by decide +kernel
  refine ⟨replay_reaches _ _,pair_blank _ 0 (by decide +kernel),pair_streamed,content,misread,fun streaming => ?_⟩
  obtain ⟨_,read,_,_⟩ := streaming.committed _ found rfl
  rw [content,misread] at read
  exact absurd read (by decide)

end Crayon.ArenaStore
