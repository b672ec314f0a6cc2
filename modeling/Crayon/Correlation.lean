import Crayon.Retries
import Crayon.Transport

/-!
Replies reach the callers that asked for them. Replies name no request, so this
rests on who may use a connection when: one in the pool is idle, and one that a
call has is used by no other (`Sound`). Every turn keeps this (`act_sound`), and
what the server or another call does leaves a call's own connection as it was,
or as the server has taken it further (`Follows`).
-/
namespace Crayon
open Exchange

/-! ### Frames -/

section
variable {α : Type} {bincode : Encoding String α} {value : α} {bytes rest : List UInt8} {ended : Bool}

theorem max_frame_small : MAX_FRAME_BYTES < 2^32 := by decide

theorem write_frame_frames (written : write_frame bincode value = .ok bytes) : bincode.Frames MAX_FRAME_BYTES value bytes := by
  unfold write_frame at written
  split at written
  · cases written
  · rename_i body encoded
    split at written
    · cases written
    · obtain rfl := Except.ok.inj written
      exact ⟨body,encoded,by omega,rfl⟩

theorem read_frame_some (got : read_frame bincode ended bytes = .ok (.some value rest)) :
    ∃ body, scan MAX_FRAME_BYTES ended bytes = .body body rest ∧ bincode.deserialize body = .ok value := by
  unfold read_frame at got
  split at got <;> try cases got
  rename_i body left scanned
  split at got
  · rename_i decoded
    cases got
    exact ⟨body,scanned,decoded⟩
  · cases got

end

/-- The server can answer the envelope so. -/
def Service.Produces {σ ω : Type} (service : Service σ ω) (envelope : Envelope) (reply : RpcReply) : Prop :=
  ∃ outside s s', service.dispatch outside envelope s = (.ok reply,s')

namespace Net
variable {σ ω : Type}

section
variable (envelopes : Encoding String Envelope) (replies : Encoding String RpcReply) (service : Service σ ω)

/-- What a call relies on. -/
def Relies (streams : Table Nat TcpStream) (q : Nat) (call : RpcCall) : Prop :=
  match call.phase with
  | .sending _ c rest => ∃ stream, streams.get c = some stream ∧ stream.owner = .call q ∧ rest ≠ [] ∧
      stream.conn.Asking envelopes MAX_FRAME_BYTES service.Produces q call.envelope rest
  | .awaiting _ c => ∃ stream, streams.get c = some stream ∧ stream.owner = .call q ∧
      stream.conn.Awaiting envelopes replies MAX_FRAME_BYTES service.Produces q call.envelope
  | .returned (.ok reply) => ∃ c stream, streams.get c = some stream ∧
      stream.conn.Recorded service.Produces q call.envelope reply
  | _ => True

structure Sound (net : Net σ) : Prop where
  pooled : ∀ c ∈ net.connection_pool, ∃ stream, net.streams.get c = some stream ∧ stream.owner = .pool ∧
    stream.conn.Idle service.Produces
  distinct : net.connection_pool.Nodup
  calls : ∀ q call, net.calls.get q = some call → Relies envelopes replies service net.streams q call

/-- The connections of an owner are as they were, or as the server has taken them further; none is forgotten. -/
def Follows (owner : Owner) (streams streams' : Table Nat TcpStream) : Prop :=
  ∀ c stream, streams.get c = some stream → ∃ stream', streams'.get c = some stream' ∧ stream.conn.Grows stream'.conn ∧
    (stream.owner = owner → stream'.owner = owner ∧ (stream'.conn = stream.conn ∨
      stream.conn.Serves envelopes replies MAX_FRAME_BYTES service.Produces stream'.conn))

end

variable {envelopes : Encoding String Envelope} {replies : Encoding String RpcReply} {service : Service σ ω} {net net' : Net σ}
  {streams streams' : Table Nat TcpStream} {owner : Owner} {q c : Nat} {call : RpcCall} {stream stream' : TcpStream}
variable {phase : Phase}

theorem grows_refl (conn : Connection Nat Envelope RpcReply) : conn.Grows conn := ⟨List.prefix_rfl,List.prefix_rfl⟩

theorem follows_refl (owner : Owner) (streams : Table Nat TcpStream) : Follows envelopes replies service owner streams streams :=
  fun _ stream found => ⟨stream,found,grows_refl _,fun own => ⟨own,.inl rfl⟩⟩

/-- What the owner does not have may change. -/
theorem follows_insert (others : ∀ stream, streams.get c = some stream → stream.owner ≠ owner ∧ stream.conn.Grows stream'.conn) :
    Follows envelopes replies service owner streams (streams.insert c stream') := by
  intro k stream found
  by_cases same : k = c
  · subst same
    obtain ⟨apart,grows⟩ := others stream found
    exact ⟨stream',by rw [Table.get_insert,if_pos rfl],grows,fun own => absurd own apart⟩
  · exact ⟨stream,by rw [Table.get_insert,if_neg same,found],grows_refl _,fun own => ⟨own,.inl rfl⟩⟩

/-- What the server does is seen by every owner. -/
theorem follows_serves {conn : Connection Nat Envelope RpcReply} (found : streams.get c = some stream)
    (serves : stream.conn.Serves envelopes replies MAX_FRAME_BYTES service.Produces conn) :
    Follows envelopes replies service owner streams (streams.insert c { stream with conn }) := by
  intro k stream₀ found₀
  by_cases same : k = c
  · subst same
    obtain rfl := Option.some.inj (found.symm.trans found₀)
    exact ⟨{ stream with conn },by rw [Table.get_insert,if_pos rfl],serves.grows,fun own => ⟨own,.inr serves⟩⟩
  · exact ⟨stream₀,by rw [Table.get_insert,if_neg same,found₀],grows_refl _,fun own => ⟨own,.inl rfl⟩⟩

theorem Relies.follows (relies : Relies envelopes replies service streams q call)
    (follows : Follows envelopes replies service (.call q) streams streams') : Relies envelopes replies service streams' q call := by
  obtain ⟨envelope,phase⟩ := call
  cases phase with
  | sending n c rest =>
    obtain ⟨stream,found,own,more,asking⟩ := relies
    obtain ⟨stream',found',_,still⟩ := follows c stream found
    obtain ⟨own',same | serves⟩ := still own
    · exact ⟨stream',found',own',more,same ▸ asking⟩
    · exact ⟨stream',found',own',more,asking.serves max_frame_small more serves⟩
  | awaiting n c =>
    obtain ⟨stream,found,own,awaiting⟩ := relies
    obtain ⟨stream',found',_,still⟩ := follows c stream found
    obtain ⟨own',same | serves⟩ := still own
    · exact ⟨stream',found',own',same ▸ awaiting⟩
    · exact ⟨stream',found',own',awaiting.serves max_frame_small serves⟩
  | returned result =>
    cases result with
    | error error => trivial
    | ok reply =>
      obtain ⟨c,stream,found,recorded⟩ := relies
      obtain ⟨stream',found',grows,_⟩ := follows c stream found
      exact ⟨c,stream',found',recorded.grows grows⟩
  | _ => trivial

theorem Sound.pooled_follows (sound : Sound envelopes replies service net)
    (follows : Follows envelopes replies service .pool net.streams streams') :
    ∀ c ∈ net.connection_pool, ∃ stream, streams'.get c = some stream ∧ stream.owner = .pool ∧
      stream.conn.Idle service.Produces := by
  intro c member
  obtain ⟨stream,found,own,idle⟩ := sound.pooled c member
  obtain ⟨stream',found',_,still⟩ := follows c stream found
  obtain ⟨own',same | serves⟩ := still own
  · exact ⟨stream',found',own',same ▸ idle⟩
  · exact ⟨stream',found',own',idle.serves serves⟩

/-- A turn of the server. -/
theorem Sound.handles (sound : Sound envelopes replies service net) (found : net.streams.get c = some stream) (server : σ)
    {conn : Connection Nat Envelope RpcReply}
    (serves : stream.conn.Serves envelopes replies MAX_FRAME_BYTES service.Produces conn) :
    Sound envelopes replies service ({ net with server }.handles c stream conn) where
  pooled := sound.pooled_follows (follows_serves found serves)
  distinct := sound.distinct
  calls q call there := (sound.calls q call there).follows (follows_serves found serves)

/-- A turn of a call. -/
theorem Sound.goes (sound : Sound envelopes replies service net) {pool : List Nat}
    (pooled : ∀ c ∈ pool, ∃ stream, streams.get c = some stream ∧ stream.owner = .pool ∧ stream.conn.Idle service.Produces)
    (distinct : pool.Nodup) (others : ∀ q', q' ≠ q → Follows envelopes replies service (.call q') net.streams streams)
    (mine : Relies envelopes replies service streams q { call with phase }) :
    Sound envelopes replies service ({ net with streams, connection_pool := pool }.goes q call phase) where
  pooled := pooled
  distinct := distinct
  calls q' call' there := by
    rw [Net.goes,Table.get_insert] at there
    split at there
    · rename_i same
      subst same
      obtain rfl := Option.some.inj there
      exact mine
    · rename_i apart
      exact (sound.calls q' call' there).follows (others q' apart)

/-- The call has no connection, before and after. -/
theorem Sound.goes_without (sound : Sound envelopes replies service net)
    (mine : Relies envelopes replies service net.streams q { call with phase }) :
    Sound envelopes replies service (net.goes q call phase) :=
  sound.goes sound.pooled sound.distinct (fun _ _ => follows_refl _ _) mine

/-- The call changes the connection that it has. -/
theorem Sound.goes_with (sound : Sound envelopes replies service net) (found : net.streams.get c = some stream)
    (own : stream.owner = .call q) (grows : stream.conn.Grows stream'.conn)
    (mine : Relies envelopes replies service (net.streams.insert c stream') q { call with phase }) :
    Sound envelopes replies service ({ net with streams := net.streams.insert c stream' }.goes q call phase) := by
  have follows (owner : Owner) (apart : owner ≠ .call q) :
      Follows envelopes replies service owner net.streams (net.streams.insert c stream') := by
    refine follows_insert fun stream₀ found₀ => ?_
    obtain rfl := Option.some.inj (found.symm.trans found₀)
    exact ⟨fun same => apart (same.symm.trans own),grows⟩
  exact sound.goes (sound.pooled_follows (follows .pool nofun)) sound.distinct
    (fun q' apart => follows (.call q') fun same => apart (Owner.call.inj same)) mine

theorem relies_after_attempt (n : Nat) (error : Error) (envelope : Envelope) :
    Relies envelopes replies service streams q ⟨envelope,after_attempt n error⟩ := by
  unfold after_attempt
  split
  · split <;> trivial
  · trivial

theorem drop_stream_eq (found : net.streams.get c = some stream) :
    net.drop_stream c = { net with streams := net.streams.insert c { stream with owner := .nobody } } := by
  rw [drop_stream,Table.modify_eq_insert found]

/-- The call drops its connection, and has not got a reply. -/
theorem Sound.drops (sound : Sound envelopes replies service net) (found : net.streams.get c = some stream)
    (own : stream.owner = .call q) (mine : ∀ streams, Relies envelopes replies service streams q { call with phase }) :
    Sound envelopes replies service ((net.drop_stream c).goes q call phase) := by
  rw [drop_stream_eq found]
  exact sound.goes_with found own (grows_refl _) (mine _)

/-! ### The turns of a call -/

/-- The call takes a connection that is idle and that no call has. -/
theorem Sound.use_stream (sound : Sound envelopes replies service net) {pool : List Nat} (part : pool.Sublist net.connection_pool)
    (absent : c ∉ pool) (free : ∀ s, net.streams.get c = some s → s = stream ∧ ∀ q', s.owner ≠ .call q')
    (idle : stream.conn.Idle service.Produces) (n : Nat) :
    Sound envelopes replies service ({ net with connection_pool := pool }.use_stream envelopes q call n c stream) := by
  have pooled (stream' : TcpStream) : ∀ k ∈ pool, ∃ stream, (net.streams.insert c stream').get k = some stream ∧
      stream.owner = .pool ∧ stream.conn.Idle service.Produces := by
    intro k member
    obtain ⟨stream₀,found,rest⟩ := sound.pooled k (part.subset member)
    refine ⟨stream₀,?_,rest⟩
    have apart : k ≠ c := by
      rintro rfl
      exact absent member
    rw [Table.get_insert,if_neg apart,found]
  have others (stream' : TcpStream) (grows : stream.conn.Grows stream'.conn) (q' : Nat) :
      Follows envelopes replies service (.call q') net.streams (net.streams.insert c stream') := by
    refine follows_insert fun s found => ?_
    obtain ⟨rfl,apart⟩ := free s found
    exact ⟨apart q',grows⟩
  have distinct := sound.distinct.sublist part
  unfold Net.use_stream
  split
  · rename_i bytes written
    have frames := write_frame_frames written
    refine sound.goes (pooled _) distinct (fun q' _ => others ⟨stream.conn.ask q call.envelope,.call q⟩
      ⟨List.prefix_append _ _,List.prefix_rfl⟩ q') ?_
    exact ⟨⟨stream.conn.ask q call.envelope,.call q⟩,by rw [Table.get_insert,if_pos rfl],rfl,frames.ne_nil,idle.ask frames q⟩
  · exact sound.goes (pooled _) distinct (fun q' _ => others ⟨stream.conn,.nobody⟩ (grows_refl _) q')
      (relies_after_attempt _ _ _)

theorem Sound.attempt (sound : Sound envelopes replies service net) (q : Nat) (now : UInt64) :
    Sound envelopes replies service (net.attempt envelopes q now) := by
  unfold Net.attempt
  split
  · rename_i envelope n there
    split
    · exact sound.goes_without trivial
    · split
      · exact sound.goes_without trivial
      · rename_i c taken
        split
        · rename_i stream found
          have last : net.connection_pool.getLast? = some c := by
            split at taken
            · exact taken
            · cases taken
          have member := List.mem_of_getLast? last
          obtain ⟨stream₀,found₀,own,idle⟩ := sound.pooled c member
          obtain rfl := Option.some.inj (found.symm.trans found₀)
          have absent : c ∉ net.connection_pool.dropLast := by
            have distinct := sound.distinct
            rw [← List.dropLast_append_getLast? c last] at distinct
            exact fun inside => (List.nodup_append.mp distinct).2.2 c inside c List.mem_cons_self rfl
          refine sound.use_stream (List.dropLast_sublist _) absent (fun s there => ?_) idle n
          obtain rfl := Option.some.inj (found.symm.trans there)
          exact ⟨rfl,fun q' held => by cases own.symm.trans held⟩
        · exact sound
  · exact sound

theorem Sound.connect (sound : Sound envelopes replies service net) (q c : Nat) :
    Sound envelopes replies service (net.connect envelopes q c) := by
  unfold Net.connect
  split
  · rename_i fresh
    refine sound.use_stream (List.Sublist.refl _) (fun member => ?_) (fun s there => ?_) Connection.new_idle _
    · obtain ⟨_,found,_⟩ := sound.pooled c member
      cases fresh.symm.trans found
    · cases fresh.symm.trans there
  · exact sound

theorem Sound.send (sound : Sound envelopes replies service net) (q n : Nat) :
    Sound envelopes replies service (net.send q n) := by
  unfold Net.send
  split
  · rename_i envelope k c rest there
    obtain ⟨stream,found,own,more,asking⟩ := sound.calls q _ there
    rw [Table.modify_eq_insert found]
    rw [← List.take_append_drop n rest] at asking
    have after := asking.send
    refine sound.goes_with found own ⟨List.prefix_rfl,List.prefix_rfl⟩ ?_
    have there' : (net.streams.insert c { stream with conn := stream.conn.send (rest.take n) }).get c =
        some { stream with conn := stream.conn.send (rest.take n) } := by rw [Table.get_insert,if_pos rfl]
    split
    · rename_i done
      rw [done] at after
      exact ⟨_,there',own,after.awaiting⟩
    · rename_i more'
      exact ⟨_,there',own,more',after⟩
  · exact sound

/-- The reply that is read is recorded, and the connection idle. -/
theorem Sound.give_back (sound : Sound envelopes replies service net) {reply : RpcReply} {rest : List UInt8}
    (found : net.streams.get c = some stream) (own : stream.owner = .call q)
    (idle : (stream.conn.take rest).Idle service.Produces)
    (recorded : (stream.conn.take rest).Recorded service.Produces q call.envelope reply) :
    Sound envelopes replies service (net.give_back q call c stream reply rest) := by
  have mine (owner : Owner) : Relies envelopes replies service (net.streams.insert c ⟨stream.conn.take rest,owner⟩) q
      { call with phase := .returned (.ok reply) } := ⟨c,⟨stream.conn.take rest,owner⟩,by rw [Table.get_insert,if_pos rfl],recorded⟩
  have dropped : Sound envelopes replies service ({ net with
      streams := net.streams.insert c ⟨stream.conn.take rest,.nobody⟩ }.goes q call (.returned (.ok reply))) :=
    sound.goes_with found own ⟨List.prefix_rfl,List.prefix_rfl⟩ (mine .nobody)
  unfold Net.give_back
  split
  · have absent : c ∉ net.connection_pool := by
      intro member
      obtain ⟨stream₀,found₀,own₀,_⟩ := sound.pooled c member
      obtain rfl := Option.some.inj (found.symm.trans found₀)
      cases own.symm.trans own₀
    have given : Sound envelopes replies service ({ net with
        streams := net.streams.insert c ⟨stream.conn.take rest,.pool⟩ }.goes q call (.returned (.ok reply))) :=
      sound.goes_with found own ⟨List.prefix_rfl,List.prefix_rfl⟩ (mine .pool)
    refine ⟨fun k member => ?_,?_,given.calls⟩
    · rcases List.mem_append.mp member with before | new
      · exact given.pooled k before
      · obtain rfl := List.mem_singleton.mp new
        exact ⟨⟨stream.conn.take rest,.pool⟩,by rw [Net.goes,Table.get_insert,if_pos rfl],rfl,idle⟩
    · refine List.nodup_append.mpr ⟨sound.distinct,List.nodup_singleton c,fun k member k' new => ?_⟩
      rintro rfl
      exact absent (List.mem_singleton.mp new ▸ member)
  · exact dropped

theorem Sound.receive (sound : Sound envelopes replies service net) (q : Nat) :
    Sound envelopes replies service (net.receive replies q) := by
  unfold Net.receive
  split
  · rename_i envelope n c there
    obtain ⟨stream,found,own,awaiting⟩ := sound.calls q _ there
    simp only [found]
    split
    · exact sound
    · rename_i reply rest got
      obtain ⟨body,scanned,decoded⟩ := read_frame_some got
      obtain ⟨idle,replied⟩ := awaiting.take max_frame_small scanned decoded
      exact sound.give_back found own idle replied.recorded
    · exact sound.drops found own fun _ => relies_after_attempt _ _ _
    · exact sound.drops found own fun _ => relies_after_attempt _ _ _
  · exact sound

/-- An attempt that is given up has got no reply. -/
theorem Sound.give_up (sound : Sound envelopes replies service net) (there : net.calls.get q = some call) {phase : Nat → Phase}
    (none : ∀ n streams, Relies envelopes replies service streams q { call with phase := phase n }) :
    Sound envelopes replies service (net.give_up q call phase) := by
  have relies := sound.calls q call there
  obtain ⟨envelope,before⟩ := call
  unfold Net.give_up
  cases before with
  | connecting n => exact sound.goes_without (none n _)
  | sending n c rest =>
    obtain ⟨stream,found,own,_⟩ := relies
    exact sound.drops found own (none n)
  | awaiting n c =>
    obtain ⟨stream,found,own,_⟩ := relies
    exact sound.drops found own (none n)
  | _ => exact sound

theorem Sound.resume (sound : Sound envelopes replies service net) (q : Nat) (now : UInt64) :
    Sound envelopes replies service (net.resume q now) := by
  unfold Net.resume
  split
  · refine sound.goes_without ?_
    split <;> trivial
  · exact sound

theorem Sound.cancel (sound : Sound envelopes replies service net) (q : Nat) : Sound envelopes replies service (net.cancel q) := by
  unfold Net.cancel
  split
  · exact sound
  · rename_i call _ there
    have relies := sound.calls q call there
    obtain ⟨envelope,phase⟩ := call
    cases phase with
    | sending n c rest =>
      obtain ⟨stream,found,own,_⟩ := relies
      exact sound.drops found own fun _ => trivial
    | awaiting n c =>
      obtain ⟨stream,found,own,_⟩ := relies
      exact sound.drops found own fun _ => trivial
    | _ => exact sound.goes_without trivial
  · exact sound

/-! ### The turns of a handler -/

theorem Sound.read (sound : Sound envelopes replies service net) (c : Nat) (now : UInt64) :
    Sound envelopes replies service (net.read envelopes c now) := by
  unfold Net.read
  split
  · rename_i stream found
    split
    · rename_i reading
      have closed : Sound envelopes replies service (net.handles c stream { stream.conn with handler := .closed }) :=
        sound.handles found net.server .close
      split
      · exact sound
      · rename_i envelope rest got
        obtain ⟨body,scanned,decoded⟩ := read_frame_some got
        split
        · exact sound.handles found net.server (.read reading scanned decoded)
        · exact closed
      · exact closed
      · exact closed
    · exact sound
  · exact sound

theorem Sound.dispatch (sound : Sound envelopes replies service net) (c : Nat) (outside : ω) (late : Bool) :
    Sound envelopes replies service (net.dispatch replies service c outside late) := by
  unfold Net.dispatch
  split
  · rename_i stream found
    split
    · rename_i envelope serving
      split
      · exact sound.handles found _ .close
      · rename_i reply server produced
        split
        · split
          · rename_i bytes written
            exact sound.handles found server (.answer serving ⟨outside,net.server,server,produced⟩ (write_frame_frames written))
          · exact sound.handles found server .close
        · exact ⟨sound.pooled,sound.distinct,sound.calls⟩
    · exact sound
  · exact sound

theorem Sound.write (sound : Sound envelopes replies service net) (c n : Nat) :
    Sound envelopes replies service (net.write c n) := by
  unfold Net.write
  split
  · rename_i stream found
    split
    · rename_i rest writing
      rw [← List.take_append_drop n rest] at writing
      exact sound.handles found net.server (.write writing)
    · exact sound
  · exact sound

theorem Sound.close (sound : Sound envelopes replies service net) (c : Nat) : Sound envelopes replies service (net.close c) := by
  unfold Net.close
  split
  · rename_i stream found
    exact sound.handles found net.server .close
  · exact sound

/-! ### Runs -/

theorem new_sound (server : σ) (cluster_id : ClusterId) : Sound envelopes replies service (new server cluster_id) where
  pooled _ member := nomatch member
  distinct := .nil
  calls _ _ there := nomatch there

theorem act_sound (sound : Sound envelopes replies service net) (turn : Turn ω) :
    Sound envelopes replies service (net.act envelopes replies service turn) := by
  cases turn with
  | request q envelope =>
    rw [act]
    split
    · exact sound.goes_without trivial
    · exact sound
  | attempt q now =>
    rw [act]
    exact sound.attempt q now
  | connect q c =>
    rw [act]
    exact sound.connect q c
  | send q n =>
    rw [act]
    exact sound.send q n
  | receive q =>
    rw [act]
    exact sound.receive q
  | fault q message =>
    rw [act]
    split
    · rename_i call there
      exact sound.give_up there fun n streams => relies_after_attempt n _ _
    · exact sound
  | elapse q =>
    rw [act]
    split
    · rename_i call there
      exact sound.give_up there fun _ _ => trivial
    · exact sound
  | resume q now =>
    rw [act]
    exact sound.resume q now
  | cancel q =>
    rw [act]
    exact sound.cancel q
  | read c now =>
    rw [act]
    exact sound.read c now
  | dispatch c outside late =>
    rw [act]
    exact sound.dispatch c outside late
  | write c n =>
    rw [act]
    exact sound.write c n
  | close c =>
    rw [act]
    exact sound.close c

theorem run_sound (sound : Sound envelopes replies service net) (turns : List (Turn ω)) :
    Sound envelopes replies service (net.run envelopes replies service turns) := by
  induction turns generalizing net with
  | nil => exact sound
  | cons turn rest ih => exact ih (act_sound sound turn)

/-- However the turns of callers and handlers follow one another, a reply that is returned to a caller is one that the server
    has produced for the caller's own envelope, on a connection where the caller asked and where this reply is the one in the
    place of its request; and on the connections in the pool every request is answered and every reply is read. -/
theorem replies_correlate (server : σ) (cluster_id : ClusterId) (turns : List (Turn ω)) :
    (∀ q call reply, ((new server cluster_id).run envelopes replies service turns).calls.get q = some call →
      call.phase = .returned (.ok reply) → ∃ c stream,
        ((new server cluster_id).run envelopes replies service turns).streams.get c = some stream ∧
        stream.conn.Recorded service.Produces q call.envelope reply) ∧
    ∀ c ∈ ((new server cluster_id).run envelopes replies service turns).connection_pool, ∃ stream,
      ((new server cluster_id).run envelopes replies service turns).streams.get c = some stream ∧
      stream.conn.Idle service.Produces := by
  have sound : Sound envelopes replies service ((new server cluster_id).run envelopes replies service turns) :=
    run_sound (new_sound server cluster_id) turns
  refine ⟨fun q call reply there returned => ?_,fun c member => ?_⟩
  · obtain ⟨envelope,phase⟩ := call
    subst returned
    exact sound.calls q _ there
  · obtain ⟨stream,found,_,idle⟩ := sound.pooled c member
    exact ⟨stream,found,idle⟩

def connecting : Envelope := Host.smallEnvelope 9 (.Client .Connect)

def connected : RpcReply := .Client (.Connected CoordinatorState.smallEpoch "crayon-arena-0")

/-- Encodings of this one request and of its reply. -/
def smallRequests : Encoding String Envelope where
  serialize envelope := if envelope = connecting then .ok [1] else .error "not encoded"
  deserialize bytes := if bytes = [1] then .ok connecting else .error "not encoded"
  round_trip envelope bytes encoded := by
    split at encoded
    · rename_i same
      obtain rfl := Except.ok.inj encoded
      rw [if_pos rfl,same]
    · cases encoded

def smallReplies : Encoding String RpcReply where
  serialize
    | .Client (.Connected epoch token) =>
      if epoch = CoordinatorState.smallEpoch ∧ token = "crayon-arena-0" then .ok [2] else .error "not encoded"
    | _ => .error "not encoded"
  deserialize bytes := if bytes = [2] then .ok connected else .error "not encoded"
  round_trip reply bytes encoded := by
    split at encoded
    · split at encoded
      · rename_i same
        obtain ⟨rfl,rfl⟩ := same
        obtain rfl := Except.ok.inj encoded
        rfl
      · cases encoded
    · cases encoded

def smallService : Service Endpoint (Env × UInt64) := Endpoint.service (fun _ => .replicate 32 0) .fixint Host.submitWire 1

/-- Two calls, of which the second one takes the connection of the first one from the pool. -/
def smallTurns : List (Turn (Env × UInt64)) :=
  [.request 0 connecting,.attempt 0 0,.connect 0 0,.send 0 3,.send 0 9,.read 0 0,.dispatch 0 (System.smallEnv 1,0) false,
    .write 0 2,.write 0 9,.receive 0,.request 1 connecting,.attempt 1 0,.send 1 9,.read 0 0,
    .dispatch 0 (System.smallEnv 2,0) false,.write 0 9,.receive 1]

def smallNet : Net Endpoint :=
  (new ⟨Host.smallCluster,System.smallSystem.server,.new⟩ Host.smallCluster).run smallRequests smallReplies smallService smallTurns

theorem reused_correlates :
    smallNet.calls.get 1 = some ⟨connecting,.returned (.ok connected)⟩ ∧
      ∃ c stream, smallNet.streams.get c = some stream ∧ stream.conn.Recorded smallService.Produces 1 connecting connected := by
  have returned : smallNet.calls.get 1 = some ⟨connecting,.returned (.ok connected)⟩ := by rfl
  exact ⟨returned,(replies_correlate _ _ smallTurns).1 1 _ connected returned rfl⟩

end Net
end Crayon
