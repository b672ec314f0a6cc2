import Crayon.Correlation
import Crayon.Wakeups

/-!
Mutations that name another epoch. The server refuses them before it looks at
anything else, and nothing changes (`dispatch_once_stale`); but it does so in the
handler, which returns the error to nobody and closes the connection, with no reply.
What a caller gets to see is therefore never the refusal, but a fault of the
transport, and after the second attempt the call returns just that
(`stale_epoch_unseen`).
-/
namespace Crayon
open Exchange

/-! ### The epoch stays the same -/

namespace CoordinatorServer
open Command
variable {α β : Type}

/-- The command leaves the epoch as it is. -/
def Fixed (m : Serve α) : Prop := ∀ s, (Outcome.state (m s)).epoch = s.epoch

theorem Fixed.bind {m : Serve α} {f : α → Serve β} (first : Fixed m) (rest : ∀ a, Fixed (f a)) : Fixed (m >>= f) := by
  intro s
  have same := first s
  rw [bind_apply]
  cases ran : m s with
  | ok a t =>
    rw [ran] at same
    exact (rest a t).trans same
  | error fault t =>
    rw [ran] at same
    exact same

theorem Fixed.attempt {m : Serve α} (fixed : Fixed m) : Fixed (attempt m) := by
  intro s
  rw [state_attempt]
  exact fixed s

theorem fixed_on_state (m : Coord α) : Fixed (on_state m) := by
  intro s
  rw [on_state,state_within]

theorem fixed_on_arena (m : Store α) : Fixed (on_arena m) := by
  intro s
  rw [on_arena,state_within]

/-- A reply is made of the result. -/
theorem Fixed.reply {m : Serve (Except Error α)} {f : Except Error α → Serve β} (fixed : Fixed m)
    (done : ∀ a, Fixed (f (.ok a))) (failed : ∀ error, Fixed (f (.error error))) : Fixed (m >>= f) :=
  fixed.bind fun
    | .ok a => done a
    | .error error => failed error

theorem fixed_accepted (m : Coord α) : Fixed (accepted m) :=
  (fixed_on_state m).attempt.reply (fun _ _ => rfl) fun _ _ => rfl

theorem fixed_answer (m : Coord α) (reply : α → ClientReply) : Fixed (answer m reply) :=
  (fixed_on_state m).attempt.reply (fun _ _ => rfl) fun _ _ => rfl

theorem fixed_dispatch_worker (blake3 : List UInt8 → Checksum) (env : Env) (request : WorkerRequest) :
    Fixed (dispatch_worker blake3 env request) := by
  cases request with
  | Register request =>
    refine .bind (fun _ => rfl) fun self => ?_
    split
    · exact fun _ => rfl
    · exact (fixed_on_state _).attempt.reply (fun _ _ => rfl) fun _ _ => rfl
  | Heartbeat identity => exact .bind (fun _ => rfl) fun self => fixed_accepted _
  | Poll identity => exact fixed_on_state _
  | Cancelled identity fence => exact fixed_accepted _
  | Started identity fence => exact fixed_accepted _
  | Completed identity report => exact fixed_accepted _
  | Failed identity fence message «class» => exact fixed_accepted _
  | Drain identity => exact fixed_accepted _

theorem fixed_dispatch_client (blake3 : List UInt8 → Checksum) (bincode : Bincode) (env : Env) (request : ClientRequest) :
    Fixed (dispatch_client blake3 bincode env request) := by
  cases request with
  | Connect => exact fun _ => rfl
  | Put codec bytes =>
    rw [dispatch_client,put]
    split
    · exact fun _ => rfl
    · exact (fixed_on_state _).attempt.reply (fun _ => .bind (fixed_on_arena _) fun _ _ => rfl) fun _ _ => rfl
  | Submit spec => exact fixed_answer _ _
  | SubmitBatch specs => exact fixed_answer _ _
  | Status id =>
    refine .bind (fun _ => rfl) fun self => ?_
    split <;> exact fun _ => rfl
  | Get id => exact (fixed_on_state _).attempt.reply (fun _ _ => rfl) fun _ _ => rfl
  | GetBatch objects =>
    rw [dispatch_client,get_batch]
    split
    · exact fun _ => rfl
    · exact .bind (fixed_on_state _) fun _ _ => rfl
  | GetLocal id =>
    refine (fixed_on_state _).attempt.reply (fun payload => .bind (fixed_on_arena _) fun read => ?_) fun _ _ => rfl
    split
    · split
      · split <;> exact fun _ => rfl
      · exact fun _ => rfl
    · exact fun _ => rfl
  | ArenaReserve id codec size_bytes checksum mode =>
    refine (fixed_on_state _).attempt.reply (fun _ _ => rfl) fun _ => ?_
    exact (fixed_on_arena _).attempt.reply (fun _ _ => rfl) fun _ _ => rfl
  | ArenaCommit id reservation =>
    refine (fixed_on_arena _).attempt.reply (fun info => ?_) fun _ _ => rfl
    exact (fixed_on_state _).attempt.reply (fun _ _ => rfl) fun _ => .bind (fixed_on_arena _).attempt fun _ _ => rfl
  | PutChunk id reservation offset bytes => exact (fixed_on_arena _).attempt.reply (fun _ _ => rfl) fun _ _ => rfl
  | GetChunk id offset len =>
    rw [dispatch_client,get_chunk]
    split
    · exact fun _ => rfl
    · refine .bind (fixed_on_arena _) fun read => ?_
      split <;> exact fun _ => rfl
  | Workers => exact fun _ => rfl
  | Cancel id => exact fixed_answer _ _
  | Release id =>
    exact (fixed_on_state _).attempt.reply (fun _ => .bind (fixed_on_arena _) fun _ _ => rfl) fun _ _ => rfl

end CoordinatorServer

namespace Endpoint
open Command CoordinatorServer
variable {blake3 : List UInt8 → Checksum} {bincode : Bincode} {wire : Wire} {env : Env} {now : UInt64} {envelope : Envelope}
  {e : Endpoint}

theorem dispatch_fixed (blake3 : List UInt8 → Checksum) (bincode : Bincode) (env : Env) (request : RpcRequest) :
    Fixed (dispatch blake3 bincode env request) := by
  cases request with
  | Client request => exact (fixed_dispatch_client blake3 bincode env request).bind fun _ _ => rfl
  | Worker request => exact (fixed_dispatch_worker blake3 env request).bind fun _ _ => rfl

theorem dispatch_once_epoch :
    (Outcome.state (dispatch_once blake3 bincode wire env now envelope e)).server.epoch = e.server.epoch := by
  have fronts : Fronts blake3 bincode env envelope.body (dispatch_once blake3 bincode wire env now envelope) :=
    fronts_dispatch_once
  rcases fronts e with same | handled
  · rw [same]
  · rw [handled]
    exact dispatch_fixed blake3 bincode env envelope.body e.server

end Endpoint

/-! ### What a call returns -/

/-- An error that a call makes itself, and that does not come from the server: the envelope or the reply cannot be
    encoded or decoded, the transport failed, or the time was up. -/
def Error.of_call : Error → Bool
  | .Io _ | .Protocol _ | .Serialization _ | .DeadlineExceeded => true
  | _ => false

theorem write_frame_error {α : Type} {bincode : Encoding String α} {value : α} {error : Error}
    (failed : write_frame bincode value = .error error) : error.of_call = true := by
  unfold write_frame at failed
  split at failed
  · cases failed
    rfl
  · split at failed
    · cases failed
      rfl
    · cases failed

theorem read_frame_error {α : Type} {bincode : Encoding String α} {ended : Bool} {bytes : List UInt8} {error : Error}
    (failed : read_frame bincode ended bytes = .error error) : error.of_call = true := by
  unfold read_frame at failed
  split at failed
  · cases failed
  · cases failed
  · cases failed
    rfl
  · cases failed
    rfl
  · split at failed
    · cases failed
    · cases failed
      rfl

/-- The phase is no failure but one that the call made itself. -/
def Phase.Plain : Phase → Prop
  | .returned (.error error) => error.of_call = true
  | _ => True

theorem plain_after_attempt (attempt_number : Nat) {error : Error} (own : error.of_call = true) :
    (after_attempt attempt_number error).Plain := by
  unfold after_attempt
  split
  · split
    · trivial
    · exact own
  · exact own

namespace Net
variable {σ ω : Type} {envelopes : Encoding String Envelope} {replies : Encoding String RpcReply} {service : Service σ ω}
  {net : Net σ}

/-- What a turn may do: each call is as it was or in a phase that is plain, and the server has dispatched an envelope at
    most. -/
structure Plainly (service : Service σ ω) (net net' : Net σ) : Prop where
  calls : ∀ q call, net'.calls.get q = some call → net.calls.get q = some call ∨ call.phase.Plain
  server : net'.server = net.server ∨ ∃ outside envelope, net'.server = (service.dispatch outside envelope net.server).2

theorem plainly_handles {streams : Table Nat TcpStream} : Plainly service net { net with streams } :=
  ⟨fun _ _ there => .inl there,.inl rfl⟩

theorem plainly_goes {streams : Table Nat TcpStream} {pool : List Nat} {q : Nat} {call : RpcCall} {phase : Phase}
    (plain : phase.Plain) : Plainly service net ({ net with streams, connection_pool := pool }.goes q call phase) := by
  refine ⟨fun k other there => ?_,.inl rfl⟩
  rw [goes,Table.get_insert] at there
  split at there
  · cases there
    exact .inr plain
  · exact .inl there

theorem plainly_use_stream {pool : List Nat} {q attempt_number c : Nat} {call : RpcCall} {stream : TcpStream} :
    Plainly service net ({ net with connection_pool := pool }.use_stream envelopes q call attempt_number c stream) := by
  unfold use_stream
  split
  · exact plainly_goes trivial
  · rename_i error failed
    exact plainly_goes (plain_after_attempt attempt_number (write_frame_error failed))

theorem plainly_give_up {q : Nat} {call : RpcCall} {phase : Nat → Phase} (plain : ∀ n, (phase n).Plain) :
    Plainly service net (net.give_up q call phase) := by
  unfold give_up
  split
  · exact plainly_goes (plain _)
  · exact plainly_goes (plain _)
  · exact plainly_goes (plain _)
  · exact plainly_handles

theorem act_plainly (net : Net σ) (turn : Turn ω) : Plainly service net (net.act envelopes replies service turn) := by
  cases turn with
  | request q envelope =>
    rw [act]
    split
    · exact plainly_goes trivial
    · exact plainly_handles
  | attempt q now =>
    rw [act,attempt]
    split
    · split
      · exact plainly_goes rfl
      · split
        · exact plainly_goes trivial
        · split
          · exact plainly_use_stream
          · exact plainly_handles
    · exact plainly_handles
  | connect q c =>
    rw [act,connect]
    split
    · exact plainly_use_stream
    · exact plainly_handles
  | send q n =>
    rw [act,send]
    split
    · split <;> exact plainly_goes trivial
    · exact plainly_handles
  | receive q =>
    rw [act,receive]
    split
    · split
      · dsimp only
        split
        · exact plainly_handles
        · rw [give_back]
          split <;> exact plainly_goes trivial
        · exact plainly_goes (plain_after_attempt _ rfl)
        · rename_i failed
          exact plainly_goes (plain_after_attempt _ (read_frame_error failed))
      · exact plainly_handles
    · exact plainly_handles
  | fault q message =>
    rw [act]
    split
    · exact plainly_give_up fun n => plain_after_attempt n rfl
    · exact plainly_handles
  | elapse q =>
    rw [act]
    split
    · exact plainly_give_up fun _ => rfl
    · exact plainly_handles
  | resume q now =>
    rw [act,resume]
    split
    · split
      · exact plainly_goes rfl
      · exact plainly_goes trivial
    · exact plainly_handles
  | cancel q =>
    rw [act,cancel]
    split
    · exact plainly_handles
    · split <;> exact plainly_goes trivial
    · exact plainly_handles
  | read c now =>
    rw [act,read]
    split
    · split
      · split
        · exact plainly_handles
        · split <;> exact plainly_handles
        · exact plainly_handles
        · exact plainly_handles
      · exact plainly_handles
    · exact plainly_handles
  | dispatch c outside late =>
    rw [act,dispatch]
    split
    · split
      · rename_i envelope _
        have dispatched : ∀ result server streams, service.dispatch outside envelope net.server = (result,server) →
            Plainly service net { net with server, streams } := fun _ _ _ ran => ⟨fun _ _ there => .inl there,
          .inr ⟨outside,envelope,by rw [ran]⟩⟩
        split
        · rename_i ran
          exact dispatched _ _ _ ran
        · rename_i ran
          split
          · split <;> exact dispatched _ _ _ ran
          · exact dispatched _ _ _ ran
      · exact plainly_handles
    · exact plainly_handles
  | write c n =>
    rw [act,write]
    split
    · split <;> exact plainly_handles
    · exact plainly_handles
  | close c =>
    rw [act,close]
    split <;> exact plainly_handles

/-- No call returns an error but one that it made itself. -/
theorem run_plain {turns : List (Turn ω)} (plain : ∀ q call, net.calls.get q = some call → call.phase.Plain) :
    ∀ q call, (net.run envelopes replies service turns).calls.get q = some call → call.phase.Plain := by
  induction turns generalizing net with
  | nil => exact plain
  | cons turn rest ih =>
    have next : ∀ q call, (net.act envelopes replies service turn).calls.get q = some call → call.phase.Plain :=
      fun q call there => ((act_plainly net turn).calls q call there).elim (plain q call) id
    exact ih next

/-! ### Servers that keep something -/

/-- The service, as far as its state is of a kind. -/
def only (service : Service σ ω) (P : σ → Prop) [DecidablePred P] : Service σ ω where
  dispatch outside envelope server :=
    if P server then service.dispatch outside envelope server else (.error (.Io "handler panicked"),server)
  ready := service.ready

section
variable {P : σ → Prop} [DecidablePred P]

theorem act_only (keeps : ∀ outside envelope server, P server → P (service.dispatch outside envelope server).2)
    (holds : P net.server) (turn : Turn ω) :
    net.act envelopes replies service turn = net.act envelopes replies (only service P) turn ∧
      P (net.act envelopes replies service turn).server := by
  constructor
  · cases turn with
    | dispatch c outside late =>
      have alike : ∀ envelope, (only service P).dispatch outside envelope net.server =
          service.dispatch outside envelope net.server := fun _ => if_pos holds
      simp only [act,dispatch,alike]
      rfl
    | _ => rfl
  · rcases (act_plainly net turn).server with same | ⟨outside,envelope,ran⟩
    · rw [same]
      exact holds
    · rw [ran]
      exact keeps outside envelope net.server holds

/-- A server that stays of a kind does not notice the difference. -/
theorem run_only (keeps : ∀ outside envelope server, P server → P (service.dispatch outside envelope server).2)
    (holds : P net.server) (turns : List (Turn ω)) :
    net.run envelopes replies service turns = net.run envelopes replies (only service P) turns ∧
      P (net.run envelopes replies service turns).server := by
  induction turns generalizing net with
  | nil => exact ⟨rfl,holds⟩
  | cons turn rest ih =>
    obtain ⟨same,still⟩ : net.act envelopes replies service turn = net.act envelopes replies (only service P) turn ∧
      P (net.act envelopes replies service turn).server := act_only keeps holds turn
    obtain ⟨sameRest,stillRest⟩ := ih still
    refine ⟨?_,stillRest⟩
    calc net.run envelopes replies service (turn :: rest)
      _ = (net.act envelopes replies service turn).run envelopes replies service rest := rfl
      _ = (net.act envelopes replies service turn).run envelopes replies (only service P) rest := sameRest
      _ = net.run envelopes replies (only service P) (turn :: rest) := by rw [same]; rfl

/-- What a server of a kind never answers is never answered. -/
theorem run_unanswered (keeps : ∀ outside envelope server, P server → P (service.dispatch outside envelope server).2)
    {server : σ} (holds : P server) {envelope : Envelope}
    (mute : ∀ outside server, P server → ∃ error, service.dispatch outside envelope server = (.error error,server))
    (cluster_id : ClusterId) (turns : List (Turn ω)) {q : Nat} {result : Except Error RpcReply}
    (there : ((new server cluster_id).run envelopes replies service turns).calls.get q = some ⟨envelope,.returned result⟩) :
    ∃ error, result = .error error ∧ error.of_call = true := by
  cases result with
  | error error =>
    have unasked : ∀ q call, (new server cluster_id).calls.get q = some call → call.phase.Plain := fun _ _ there => nomatch there
    exact ⟨error,rfl,run_plain unasked q _ there⟩
  | ok reply =>
    obtain ⟨same,_⟩ : (new server cluster_id).run envelopes replies service turns =
      (new server cluster_id).run envelopes replies (only service P) turns ∧ P _ := run_only keeps holds turns
    rw [same] at there
    obtain ⟨c,stream,_,k,_,_,outside,s,s',ran⟩ := (run_sound (new_sound server cluster_id) turns).calls q _ there
    simp only [only] at ran
    split at ran
    · rename_i kind
      obtain ⟨error,refused⟩ := mute outside s kind
      cases refused.symm.trans ran
    · cases ran

end

/-! ### A refusal, turn by turn -/

section
variable {envelope : Envelope} {bytes : List UInt8} {q c k : Nat} {outside : ω} {error : Error}
variable {conn : Connection Nat Envelope RpcReply}

theorem read_frame_written (written : write_frame envelopes envelope = .ok bytes) (ended : Bool) :
    read_frame envelopes ended bytes = .ok (.some envelope []) := by
  obtain ⟨body,encoded,fits,rfl⟩ := write_frame_frames written
  have scanned := scan_frame ended max_frame_small fits []
  rw [List.append_nil] at scanned
  rw [read_frame,scanned]
  simp only [envelopes.round_trip envelope body encoded]

/-- The net when the call has the connection. -/
def holding (net : Net σ) (q c : Nat) (envelope : Envelope) (phase : Phase) (stream : TcpStream) : Net σ :=
  { net with streams := net.streams.insert c stream, calls := net.calls.insert q ⟨envelope,phase⟩ }

theorem dialled (idle : net.connection_pool = []) (call : net.calls.get q = some ⟨envelope,.ready k⟩)
    (fresh : net.streams.get c = none) (written : write_frame envelopes envelope = .ok bytes) {now : UInt64}
    (early : remaining_ms envelope now ≠ 0) :
    (net.attempt envelopes q now).connect envelopes q c =
      net.holding q c envelope (.sending k c bytes) ⟨Connection.new.ask q envelope,.call q⟩ := by
  simp only [attempt,call,early,if_false,idle,List.getLast?_nil,ite_self,goes,connect,Table.get_insert,if_true,fresh,
    use_stream,written,Table.insert_insert,holding]

theorem sent (net : Net σ) (conn : Connection Nat Envelope RpcReply) :
    (net.holding q c envelope (.sending k c bytes) ⟨conn,.call q⟩).send q bytes.length =
      net.holding q c envelope (.awaiting k c) ⟨conn.send bytes,.call q⟩ := by
  simp only [holding,send,Table.get_insert,if_true,List.take_length,List.drop_length,goes,Table.modify_insert,
    Table.insert_insert]

theorem taken (written : write_frame envelopes envelope = .ok bytes) {now : UInt64}
    (valid : envelope.validate net.cluster_id now = .ok ()) {phase : Phase}
    (reading : conn.handler = .reading) (up : conn.up = bytes) :
    (net.holding q c envelope phase ⟨conn,.call q⟩).read envelopes c now =
      net.holding q c envelope phase ⟨{ conn with up := [], handler := .serving envelope },.call q⟩ := by
  simp only [holding,read,Table.get_insert,if_true,reading,up,read_frame_written written,valid,handles,Table.insert_insert]

theorem refused (late : Bool) (refuses : service.dispatch outside envelope net.server = (.error error,net.server))
    {phase : Phase} (serving : conn.handler = .serving envelope) :
    (net.holding q c envelope phase ⟨conn,.call q⟩).dispatch replies service c outside late =
      net.holding q c envelope phase ⟨{ conn with handler := .closed },.call q⟩ := by
  simp only [holding,dispatch,Table.get_insert,if_true,serving,refuses,handles,Table.insert_insert]

theorem hung_up (closed : conn.handler = .closed) (down : conn.down = []) :
    (net.holding q c envelope (.awaiting k c) ⟨conn,.call q⟩).receive replies q =
      net.holding q c envelope (after_attempt k (.Io "connection closed before reply")) ⟨conn,.nobody⟩ := by
  simp only [holding,receive,Table.get_insert,if_true,closed,down,read_frame,scan,drop_stream,goes,Table.modify_insert,
    Table.insert_insert]

/-- One attempt on a new connection, without any trouble. -/
def attempting (q c n : Nat) (outside : ω) (late : Bool) (now now' : UInt64) : List (Turn ω) :=
  [.attempt q now,.connect q c,.send q n,.read c now',.dispatch c outside late,.receive q]

/-- An attempt whose envelope the server refuses fails as if the connection were lost. -/
theorem refused_attempt (idle : net.connection_pool = []) (call : net.calls.get q = some ⟨envelope,.ready k⟩)
    (fresh : net.streams.get c = none) (written : write_frame envelopes envelope = .ok bytes) {now now' : UInt64}
    (early : remaining_ms envelope now ≠ 0) (valid : envelope.validate net.cluster_id now' = .ok ()) (late : Bool)
    (refuses : service.dispatch outside envelope net.server = (.error error,net.server)) :
    net.run envelopes replies service (attempting q c bytes.length outside late now now') =
      net.holding q c envelope (after_attempt k (.Io "connection closed before reply"))
        ⟨⟨[],[],.closed,[(q,envelope)],[]⟩,.nobody⟩ := by
  simp only [run,attempting,List.foldl_cons,List.foldl_nil,act]
  rw [dialled idle call fresh written early,sent,taken written valid rfl rfl,refused late refuses rfl,hung_up rfl rfl]
  rfl

/-- A call with both its attempts. -/
def calling (n : Nat) (outside : ω) (now : UInt64) (envelope : Envelope) : List (Turn ω) :=
  .request 0 envelope :: attempting 0 0 n outside false now now ++
    .resume 0 now :: attempting 0 1 n outside false now now

/-- The second attempt ends as the first one does, and with it the call. -/
theorem refused_call {server : σ} {cluster_id : ClusterId} (written : write_frame envelopes envelope = .ok bytes)
    {now : UInt64} (valid : envelope.validate cluster_id now = .ok ())
    (refuses : service.dispatch outside envelope server = (.error error,server)) :
    ((new server cluster_id).run envelopes replies service (calling bytes.length outside now envelope)).calls.get 0 =
        some ⟨envelope,.returned (.error (.Io "connection closed before reply"))⟩ ∧
      ((new server cluster_id).run envelopes replies service (calling bytes.length outside now envelope)).server = server := by
  have early : remaining_ms envelope now ≠ 0 := by
    unfold Envelope.validate at valid
    split at valid
    · cases valid
    split at valid
    · cases valid
    split at valid
    · cases valid
    · rename_i later
      have later := UInt64.lt_iff_toNat_lt.mp (UInt64.not_le.mp later)
      unfold remaining_ms
      omega
  let asked : Net σ := { new server cluster_id with calls := Table.empty.insert 0 ⟨envelope,.ready 0⟩ }
  let lost : TcpStream := ⟨⟨[],[],.closed,[(0,envelope)],[]⟩,.nobody⟩
  let again : Net σ := { asked.holding 0 0 envelope .pausing lost with
    calls := (asked.holding 0 0 envelope .pausing lost).calls.insert 0 ⟨envelope,.ready 1⟩ }
  have first : asked.run envelopes replies service (attempting 0 0 bytes.length outside false now now) =
      asked.holding 0 0 envelope .pausing lost := refused_attempt (k := 0) rfl rfl rfl written early valid false refuses
  have resumed : (asked.holding 0 0 envelope .pausing lost).act envelopes replies service (.resume 0 now) = again := by
    simp only [act,resume,holding,Table.get_insert,if_true,early,if_false,goes]
    rfl
  have second : again.run envelopes replies service (attempting 0 1 bytes.length outside false now now) =
      again.holding 0 1 envelope (.returned (.error (.Io "connection closed before reply"))) lost :=
    refused_attempt (k := 1) rfl rfl rfl written early valid false refuses
  have whole : (new server cluster_id).run envelopes replies service (calling bytes.length outside now envelope) =
      again.holding 0 1 envelope (.returned (.error (.Io "connection closed before reply"))) lost := by
    calc (new server cluster_id).run envelopes replies service (calling bytes.length outside now envelope)
      _ = asked.run envelopes replies service (attempting 0 0 bytes.length outside false now now ++
            .resume 0 now :: attempting 0 1 bytes.length outside false now now) := rfl
      _ = (asked.run envelopes replies service (attempting 0 0 bytes.length outside false now now)).run envelopes replies
            service (.resume 0 now :: attempting 0 1 bytes.length outside false now now) := List.foldl_append
      _ = ((asked.holding 0 0 envelope .pausing lost).act envelopes replies service (.resume 0 now)).run envelopes replies
            service (attempting 0 1 bytes.length outside false now now) := by rw [first]; rfl
      _ = _ := by rw [resumed,second]
  rw [whole]
  exact ⟨rfl,rfl⟩

end

/-- However callers and handlers take turns, a call with a mutation for another epoch than the server's never returns that the
    epoch is stale, neither as its error nor in a reply: it returns no reply at all, and no error but its own. Whenever the
    server takes the envelope, nothing changes. And if all goes well, the call ends as if the connection had been lost. -/
theorem stale_epoch_unseen (blake3 : List UInt8 → Checksum) (bincode : Bincode) (wire : Wire) (min_ready : UInt32)
    (envelopes : Encoding String Envelope) (replies : Encoding String RpcReply) (server : Endpoint) (cluster_id : ClusterId)
    {envelope : Envelope} {epoch : CoordinatorEpoch} (mutation : is_mutation envelope.body = true)
    (named : envelope.coordinator_epoch = some epoch) (other : epoch ≠ server.server.epoch) :
    let service := Endpoint.service blake3 bincode wire min_ready
    (∀ turns q result,
      ((new server cluster_id).run envelopes replies service turns).calls.get q = some ⟨envelope,.returned result⟩ →
        result ≠ .error .StaleEpoch ∧ result ≠ .ok (.Client (.Error .StaleEpoch)) ∧
          ∃ error, result = .error error ∧ error.of_call = true) ∧
    (∀ turns outside, service.dispatch outside envelope ((new server cluster_id).run envelopes replies service turns).server =
      (.error .StaleEpoch,((new server cluster_id).run envelopes replies service turns).server)) ∧
    ∀ bytes outside now, write_frame envelopes envelope = .ok bytes → envelope.validate cluster_id now = .ok () →
      ((new server cluster_id).run envelopes replies service (calling bytes.length outside now envelope)).calls.get 0 =
          some ⟨envelope,.returned (.error (.Io "connection closed before reply"))⟩ ∧
        ((new server cluster_id).run envelopes replies service (calling bytes.length outside now envelope)).server =
          server := by
  intro service
  have keeps : ∀ outside envelope (e : Endpoint), e.server.epoch = server.server.epoch →
      (service.dispatch outside envelope e).2.server.epoch = server.server.epoch := by
    intro outside envelope e home
    have same : (Outcome.state (Endpoint.dispatch_once blake3 bincode wire outside.1 outside.2 envelope e)).server.epoch =
      e.server.epoch := Endpoint.dispatch_once_epoch
    rw [home] at same
    simp only [service,Endpoint.service]
    split <;> rename_i ran <;> rw [ran] at same <;> exact same
  have refuses : ∀ outside (e : Endpoint), e.server.epoch = server.server.epoch →
      service.dispatch outside envelope e = (.error .StaleEpoch,e) := by
    intro outside e home
    have stale : ¬ e.InEpoch envelope := by
      rw [Endpoint.InEpoch,named,home]
      exact fun same => other (Option.some.inj same)
    simp only [service,Endpoint.service,Endpoint.dispatch_once_stale mutation stale,Endpoint.epoch_error,named]
  refine ⟨fun turns q result there => ?_,fun turns outside => ?_,fun bytes outside now written valid => ?_⟩
  · obtain ⟨error,rfl,own⟩ := run_unanswered keeps rfl (fun outside e home => ⟨_,refuses outside e home⟩) cluster_id turns there
    refine ⟨?_,by rintro ⟨⟩,error,rfl,own⟩
    rintro ⟨⟩
    cases own
  · obtain ⟨_,home⟩ : (new server cluster_id).run envelopes replies service turns = _ ∧ _ := run_only keeps rfl turns
    exact refuses outside _ home
  · exact refused_call written valid (refuses outside server rfl)

/-- A cancellation for an epoch that is not the server's, and an encoding of it. -/
def otherEpoch : CoordinatorEpoch := ⟨.replicate 16 1⟩

def staleCancel : Envelope :=
  { Host.smallEnvelope 9 (.Client (.Cancel CoordinatorState.smallTask)) with coordinator_epoch := some otherEpoch }

def staleRequests : Encoding String Envelope where
  serialize envelope := if envelope = staleCancel then .ok [1] else .error "not encoded"
  deserialize bytes := if bytes = [1] then .ok staleCancel else .error "not encoded"
  round_trip envelope bytes encoded := by
    split at encoded
    · rename_i same
      obtain rfl := Except.ok.inj encoded
      rw [if_pos rfl,same]
    · cases encoded

def smallEndpoint : Endpoint := ⟨Host.smallCluster,System.smallSystem.server,.new⟩

theorem stale_cancel_unseen :
    otherEpoch ≠ smallEndpoint.server.epoch ∧ write_frame staleRequests staleCancel = .ok [0,0,0,1,1] ∧
      ∀ turns q result, ((new smallEndpoint Host.smallCluster).run staleRequests smallReplies smallService turns).calls.get q =
          some ⟨staleCancel,.returned result⟩ → result ≠ .error .StaleEpoch := by
  refine ⟨by decide,by rfl,fun turns q result there => ?_⟩
  exact ((stale_epoch_unseen _ _ _ _ staleRequests smallReplies smallEndpoint Host.smallCluster rfl rfl (by decide)).1 turns q
    result there).1

/-- The server is there, no byte is lost, and there is time, and yet the caller is told of a fault of the transport. -/
theorem stale_cancel_lost :
    is_mutation staleCancel.body = true ∧ staleCancel.coordinator_epoch = some otherEpoch ∧
      otherEpoch ≠ smallEndpoint.server.epoch ∧ staleCancel.validate Host.smallCluster 0 = .ok () ∧
      ((new smallEndpoint Host.smallCluster).run staleRequests smallReplies smallService
          (calling 5 (System.smallEnv 1,0) 0 staleCancel)).calls.get 0 =
        some ⟨staleCancel,.returned (.error (.Io "connection closed before reply"))⟩ :=
  ⟨rfl,rfl,by decide,rfl,rfl⟩

end Net
end Crayon
