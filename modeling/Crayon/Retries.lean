import Crayon.Custody
import Crayon.Deliveries

/-!
Requests that are sent again. In a run, deliveries come in any order, each read
and looked up at clock readings of its own, with anything else in between. Until
its reply expires a request that was handled is answered from the cache and
changes nothing (`Run.retains`), and one that is sent again only until then is
handled once (`Run.replays_first`). A reply expires with the deadline of the
envelope or after thirty seconds, whichever is first, so a later retry that is
still within its deadline is handled again.
-/
namespace Crayon

/-- The server with its cache, and with the commits under way. -/
structure Host where
  cluster_id : ClusterId
  system : System
  replay : ReplayCache

namespace Host
open Command Endpoint AtMostOnce ReplayCache

def endpoint (host : Host) : Endpoint := ⟨host.cluster_id,host.system.server,host.replay⟩

def start (cluster_id : ClusterId) (epoch : CoordinatorEpoch) (token : String) (lease_ms : Nat)
    (require_loopback : Bool) : Host :=
  ⟨cluster_id,.start epoch token lease_ms require_loopback,.new⟩

/-- The host with its server and its cache as a delivery leaves them. -/
def settle (host : Host) (e : Endpoint) : Host :=
  { host with system := { host.system with server := e.server }, replay := e.replay }

/-- A request that goes through the cache; the ids that it draws are new. -/
def Possible (host : Host) (d : Delivery) : Prop :=
  ∃ request, d.envelope.body = .Client request ∧ should_cache (.Client request) = true ∧
    d.env.New 0 request.submits host.system.server.state

/-- An action that does not go through the cache. -/
def Uncached : Action → Prop
  | .client _ request => should_cache (.Client request) = false
  | _ => True

/-- The deliveries of a run, the last one first, and the hosts that runs lead to in which every delivery obeys a
    rule. Between deliveries anything else may happen. -/
inductive Run (blake3 : List UInt8 → Checksum) (bincode : Bincode) (wire : Wire) (Rule : List Turn → Delivery → Prop)
    (first : Host) : List Turn → Host → Prop where
  | start : Run blake3 bincode wire Rule first [] first
  | deliver {past : List Turn} {host : Host} (run : Run blake3 bincode wire Rule first past host) (d : Delivery)
      (possible : host.Possible d) (rule : Rule past d) :
      Run blake3 bincode wire Rule first (take blake3 bincode wire host.endpoint d :: past)
        (host.settle (Outcome.state (take blake3 bincode wire host.endpoint d).outcome))
  | other {past : List Turn} {host : Host} (run : Run blake3 bincode wire Rule first past host) (action : Action)
      (possible : action.Possible host.system) (uncached : Uncached action) :
      Run blake3 bincode wire Rule first past { host with system := host.system.act blake3 bincode action }

section
variable {blake3 : List UInt8 → Checksum} {bincode : Bincode} {wire : Wire} {Rule : List Turn → Delivery → Prop}
  {cluster_id : ClusterId} {epoch : CoordinatorEpoch} {token : String} {lease_ms : Nat} {loopback : Bool}
  {past : List Turn} {host : Host}

/-- What holds between deliveries. -/
structure Sound (blake3 : List UInt8 → Checksum) (host : Host) : Prop where
  steady : CoordinatorServer.Steady blake3 host.system.server
  balanced : Balanced host.replay

theorem Sound.handled (sound : Sound blake3 host) (bincode : Bincode) (wire : Wire) {d : Delivery}
    (possible : host.Possible d) :
    Handled blake3 bincode wire (take blake3 bincode wire host.endpoint d)
      ((take blake3 bincode wire host.endpoint d).answer blake3 wire)
      (take blake3 bincode wire host.endpoint d).outcome := by
  obtain ⟨request,body,cached,_⟩ := possible
  exact take_handled blake3 bincode wire (by rw [body]; exact cached) sound.balanced sound.steady.state.inv.consistent

/-- A delivery does nothing to the server, or what its request does. -/
theorem Sound.acts (sound : Sound blake3 host) (bincode : Bincode) (wire : Wire) {d : Delivery}
    (possible : host.Possible d) :
    (host.settle (Outcome.state (take blake3 bincode wire host.endpoint d).outcome)).system = host.system ∨
      ∃ action : Action, action.Possible host.system ∧
        (host.settle (Outcome.state (take blake3 bincode wire host.endpoint d).outcome)).system =
          host.system.act blake3 bincode action := by
  have handled := sound.handled bincode wire possible
  obtain ⟨request,body,cached,fresh⟩ := possible
  generalize (take blake3 bincode wire host.endpoint d).answer blake3 wire = answer at handled
  generalize (take blake3 bincode wire host.endpoint d).outcome = outcome at handled
  cases handled with
  | stale | replayed | conflict | refused => exact .inl rfl
  | @performed reply server inEpoch lapsed room ran =>
    refine .inr ⟨.client d.env request,⟨fresh,?_⟩,?_⟩
    · rintro id reservation rfl
      cases cached
    change dispatch blake3 bincode d.env d.envelope.body host.system.server = .ok reply server at ran
    rw [body,dispatch] at ran
    have left := congrArg Outcome.state ran
    rw [state_bind fun _ _ => rfl,Outcome.state_ok] at left
    simp only [settle,System.act,left,Outcome.state_ok]

theorem Sound.deliver (sound : Sound blake3 host) (bincode : Bincode) (wire : Wire) {d : Delivery}
    (possible : host.Possible d) :
    Sound blake3 (host.settle (Outcome.state (take blake3 bincode wire host.endpoint d).outcome)) := by
  refine ⟨?_,(sound.handled bincode wire possible).balanced sound.balanced⟩
  rcases sound.acts bincode wire possible with same | ⟨action,can,acted⟩
  · rw [same]
    exact sound.steady
  · rw [acted]
    exact System.act_steady sound.steady can

theorem Run.sound (run : Run blake3 bincode wire Rule (Host.start cluster_id epoch token lease_ms loopback) past host) :
    Sound blake3 host := by
  induction run with
  | start => exact ⟨System.start_steady epoch token lease_ms loopback,by simp [ReplayCache.Balanced,Host.start,new,Table.sum]⟩
  | deliver run d possible rule ih => exact ih.deliver bincode wire possible
  | other run action possible uncached ih => exact ⟨System.act_steady ih.steady possible,ih.balanced⟩

/-- The cluster and the epoch stay the same. -/
theorem Run.home (run : Run blake3 bincode wire Rule (Host.start cluster_id epoch token lease_ms loopback) past host) :
    host.cluster_id = cluster_id ∧ host.system.server.epoch = epoch := by
  induction run with
  | start => exact ⟨rfl,rfl⟩
  | deliver run d possible rule ih =>
    refine ⟨ih.1,?_⟩
    rcases run.sound.acts bincode wire possible with same | ⟨action,can,acted⟩
    · rw [same]
      exact ih.2
    · rw [acted,System.act_epoch run.sound.steady can]
      exact ih.2
  | other run action possible uncached ih => exact ⟨ih.1,(System.act_epoch run.sound.steady possible).trans ih.2⟩

/-- The deliveries of a run as calls of the log. -/
theorem Run.steps (run : Run blake3 bincode wire Rule (Host.start cluster_id epoch token lease_ms loopback) past host) :
    Steps (fun _ => none) (past.filterMap (Turn.entry blake3 wire)) host.replay.log := by
  induction run with
  | start => exact .start
  | other run action possible uncached ih => exact ih
  | @deliver past host run d possible rule ih =>
    have handled := run.sound.handled bincode wire possible
    rw [List.filterMap_cons,Turn.entry]
    cases answered : (take blake3 bincode wire host.endpoint d).answer blake3 wire with
    | none =>
      rw [answered] at handled
      generalize (take blake3 bincode wire host.endpoint d).outcome = outcome at handled
      cases handled
      exact ih
    | some answer =>
      rw [answered] at handled
      exact .step ih (handled.step run.sound.balanced)

/-- Every delivery of a run was taken in a run that was possible so far. -/
theorem Run.turn {first : Host} (run : Run blake3 bincode wire Rule first past host) {turn : Turn} (member : turn ∈ past) :
    ∃ past host, Run blake3 bincode wire Rule first past host ∧ host.Possible turn.delivery ∧ Rule past turn.delivery ∧
      turn = take blake3 bincode wire host.endpoint turn.delivery := by
  induction run with
  | start => cases member
  | other run action possible uncached ih => exact ih member
  | @deliver past host run d possible rule ih =>
    rcases List.mem_cons.mp member with rfl | earlier
    · exact ⟨past,host,run,possible,rule,rfl⟩
    · exact ih earlier

theorem Run.handled (run : Run blake3 bincode wire Rule (Host.start cluster_id epoch token lease_ms loopback) past host)
    {turn : Turn} (member : turn ∈ past) :
    Handled blake3 bincode wire turn (turn.answer blake3 wire) turn.outcome := by
  obtain ⟨past',host',run',possible,_,taken⟩ := run.turn member
  rw [taken]
  exact run'.sound.handled bincode wire possible

theorem Run.in_epoch_iff
    (run : Run blake3 bincode wire Rule (Host.start cluster_id epoch token lease_ms loopback) past host)
    {turn : Turn} (member : turn ∈ past) :
    turn.before.InEpoch turn.delivery.envelope ↔ turn.delivery.envelope.coordinator_epoch = some epoch := by
  obtain ⟨past',host',run',_,_,taken⟩ := run.turn member
  rw [taken,← run'.home.2]
  rfl

/-! ### Retries before the reply expires -/

/-- The envelope passes its check, and the cache is asked then or later. -/
def Accepted (cluster_id : ClusterId) (d : Delivery) : Prop :=
  d.envelope.validate cluster_id d.validated = .ok () ∧ d.validated ≤ d.now

/-- A request id belongs to one envelope, and once that was handled it is sent again while the reply is retained:
    from then on the cache is not asked after that time. -/
def Prompt (past : List Turn) (d : Delivery) : Prop :=
  (∀ turn ∈ past, turn.delivery.envelope.request_id = d.envelope.request_id → turn.delivery.envelope = d.envelope) ∧
    ∀ later turn earlier, past = later ++ turn :: earlier → turn.performed = true → turn.delivery.envelope = d.envelope →
      d.now.toNat < turn.retained ∧ ∀ between ∈ later, between.delivery.now.toNat < turn.retained

theorem Run.timely (run : Run blake3 bincode wire Rule (Host.start cluster_id epoch token lease_ms loopback) past host)
    (prompt : ∀ past d, Rule past d → Prompt past d) : Timely (past.filterMap (Turn.entry blake3 wire)) := by
  have entered : ∀ {turn : Turn} {entry}, turn.entry blake3 wire = some entry →
      entry.1 = turn.call blake3 wire ∧ turn.answer blake3 wire = some entry.2 := by
    intro turn entry found
    obtain ⟨answer,answered,rfl⟩ := Option.map_eq_some_iff.mp found
    exact ⟨rfl,answered⟩
  induction run with
  | start => trivial
  | other run action possible uncached ih => exact ih
  | @deliver past host run d possible rule ih =>
    obtain ⟨owned,intime⟩ := prompt past d rule
    cases found : (take blake3 bincode wire host.endpoint d).entry blake3 wire with
    | none =>
      rw [List.filterMap_cons_none found]
      exact ih
    | some entry =>
      rw [List.filterMap_cons_some found]
      obtain ⟨call,answer⟩ := entry
      obtain ⟨rfl,_⟩ := entered found
      refine ⟨ih,?_,?_⟩
      · intro entry' member same
        obtain ⟨turn,member,found'⟩ := List.mem_filterMap.mp member
        obtain ⟨called,_⟩ := entered found'
        rw [called] at same ⊢
        have repeated := owned turn member same
        simp only [Turn.call,repeated,take]
      · intro later' entry' earlier' split done
        -- The handled delivery in the run, and what came after it there.
        obtain ⟨front,rest,rfl,fronted,split⟩ := List.filterMap_eq_append_iff.mp split
        obtain ⟨skipped,turn,earlier,rfl,_,found',_⟩ := List.filterMap_eq_cons_iff.mp split
        obtain ⟨called,answered⟩ := entered found'
        obtain ⟨same,reply,performed⟩ := performs_iff.mp done
        rw [called] at same ⊢
        rw [performed] at answered
        have member : turn ∈ front ++ (skipped ++ turn :: earlier) := by simp
        have handed := (run.handled member).performed_iff.mpr ⟨reply,answered⟩
        obtain ⟨live,between⟩ := intime (front ++ skipped) turn earlier (by simp) handed (owned turn member same)
        refine ⟨live,?_⟩
        rw [← fronted]
        intro entry'' member'
        obtain ⟨turn',member',found''⟩ := List.mem_filterMap.mp member'
        rw [(entered found'').1]
        exact between turn' (List.mem_append_left _ member')

/-- What the client is told when the log answers so. -/
def told (body : RpcRequest) (refusal : Error) : Option (Answer RpcReply) → Except (Fault Error) RpcReply
  | none => .error (.Err refusal)
  | some (.replayed reply) => .ok reply
  | some .conflict => .ok (request_error body (.Protocol "request id reused with different body"))
  | some .refused => .ok (request_error body (.CapacityExceeded "replay cache limit reached"))
  | some (.performed reply) => .ok reply

theorem told_handled {turn : Turn} {answer : Option (Answer RpcReply)}
    (handled : Handled blake3 bincode wire turn answer turn.outcome) :
    turn.reply = told turn.delivery.envelope.body (epoch_error turn.delivery.envelope) answer := by
  rw [Turn.reply]
  generalize turn.outcome = outcome at handled
  cases handled <;> rfl

/-- Of all deliveries of an envelope at most one is handled, and all are told the same except those that are
    refused for want of room, as long as it is sent again only while its reply is retained. -/
theorem Run.replays_first
    (run : Run blake3 bincode wire (fun past d => Accepted cluster_id d ∧ Prompt past d)
      (Host.start cluster_id epoch token lease_ms loopback) past host) (envelope : Envelope) :
    past.countP (fun turn => turn.performed && decide (turn.delivery.envelope = envelope)) ≤ 1 ∧
      ∃ reply, ∀ turn ∈ past, turn.delivery.envelope = envelope →
        handle blake3 bincode wire turn.delivery.env turn.delivery.validated turn.delivery.now envelope turn.before =
            turn.outcome ∧
          (turn.performed = false → (Outcome.state turn.outcome).server = turn.before.server) ∧
          (turn.reply = reply ∨ turn.performed = false ∧
            turn.reply = .ok (request_error envelope.body (.CapacityExceeded "replay cache limit reached"))) := by
  have once := run.steps.once (run.timely fun _ _ rule => rule.2) envelope.request_id
  have counted : past.countP (fun turn => turn.performed && decide (turn.delivery.envelope = envelope)) ≤
      (past.filterMap (Turn.entry blake3 wire)).countP (performs envelope.request_id) := by
    rw [List.countP_filterMap]
    refine List.countP_mono_left fun turn member both => ?_
    obtain ⟨performed,same⟩ := Bool.and_eq_true_iff.mp both
    obtain ⟨reply,answered⟩ := (run.handled member).performed_iff.mp performed
    simp [Turn.entry,answered,performs,Turn.call,of_decide_eq_true same]
  -- The epoch does not change: all deliveries of the envelope get to the log, or none does.
  have told : ∃ reply, ∀ turn ∈ past, turn.delivery.envelope = envelope →
      turn.reply = reply ∨ turn.answer blake3 wire = some .refused := by
    by_cases inEpoch : envelope.coordinator_epoch = some epoch
    swap
    · refine ⟨.error (.Err (epoch_error envelope)),fun turn member same => .inl ?_⟩
      have answered := (run.handled member).answer_none_iff.mpr (by rw [run.in_epoch_iff member,same]; exact inEpoch)
      rw [told_handled (run.handled member),answered,same]
      rfl
    have entered : ∀ turn ∈ past, turn.delivery.envelope = envelope → ∃ answer, turn.answer blake3 wire = some answer ∧
        (turn.call blake3 wire,answer) ∈ past.filterMap (Turn.entry blake3 wire) := by
      intro turn member same
      cases answered : turn.answer blake3 wire with
      | none =>
        have stale := (run.handled member).answer_none_iff.mp answered
        rw [run.in_epoch_iff member,same] at stale
        exact absurd inEpoch stale
      | some answer => exact ⟨answer,rfl,List.mem_filterMap.mpr ⟨turn,member,by rw [Turn.entry,answered]; rfl⟩⟩
    rcases once with ⟨_,none⟩ | ⟨_,reply,all⟩
    · refine ⟨.error .Diverge,fun turn member same => .inr ?_⟩
      obtain ⟨answer,answered,listed⟩ := entered turn member same
      rw [answered,← none _ listed (by rw [← same]; rfl)]
    · refine ⟨.ok reply,fun turn member same => ?_⟩
      obtain ⟨answer,answered,listed⟩ := entered turn member same
      rw [told_handled (run.handled member),answered]
      rcases all _ listed (by rw [← same]; rfl) with refused | replayed | performed
      · exact .inr (congrArg some refused)
      · exact .inl (by rw [show answer = _ from replayed]; rfl)
      · exact .inl (by rw [show answer = _ from performed]; rfl)
  obtain ⟨reply,told⟩ := told
  refine ⟨by omega,reply,fun turn member same => ⟨?_,(run.handled member).unperformed,?_⟩⟩
  · obtain ⟨past',host',run',_,⟨⟨valid,_⟩,_⟩,taken⟩ := run.turn member
    have here : turn.before.cluster_id = cluster_id := by
      rw [taken]
      exact run'.home.1
    rw [← same,handle,bind_apply,get_apply]
    dsimp only
    rw [here,valid,lift,bind_apply,pure_apply]
    dsimp only
    rw [taken]
    rfl
  · refine (told turn member same).imp_right fun refused => ?_
    have handled := run.handled member
    refine ⟨?_,by rw [told_handled handled,refused,same]; rfl⟩
    rw [Bool.eq_false_iff]
    intro performed
    obtain ⟨reply,performed⟩ := handled.performed_iff.mp performed
    rw [refused] at performed
    cases performed

/-- The answer to a delivery that was handled is remembered until it expires. -/
theorem Run.remembers {later earlier : List Turn} {turn : Turn}
    (run : Run blake3 bincode wire Rule (Host.start cluster_id epoch token lease_ms loopback)
      (later ++ turn :: earlier) host) (performed : turn.performed = true)
    (timely : ∀ between ∈ later, between.delivery.now.toNat < turn.retained) :
    ∃ reply, turn.reply = .ok reply ∧ host.replay.log turn.delivery.envelope.request_id =
      some ⟨blake3 (wire.body turn.delivery.envelope.body),reply,turn.retained⟩ := by
  have handled := run.handled (List.mem_append_right later List.mem_cons_self)
  obtain ⟨reply,answered⟩ := handled.performed_iff.mp performed
  have steps := run.steps
  have entry : turn.entry blake3 wire = some (turn.call blake3 wire,.performed reply) := by
    rw [Turn.entry,answered]
    rfl
  rw [List.filterMap_append,List.filterMap_cons_some entry] at steps
  refine ⟨reply,by rw [told_handled handled,answered]; rfl,steps.remembers ?_⟩
  intro between member
  obtain ⟨turn',member',found⟩ := List.mem_filterMap.mp member
  obtain ⟨answer,_,rfl⟩ := Option.map_eq_some_iff.mp found
  exact timely turn' member'

/-- While the reply to a handled request is retained, a request under its id gets that reply again or, if it asks
    for something else, an error, whatever else was asked in between. A request refused for want of room changes
    nothing that counts. -/
theorem Run.retains (run : Run blake3 bincode wire Rule (Host.start cluster_id epoch token lease_ms loopback) past host)
    (env : Env) (now : UInt64) (envelope : Envelope) (cached : should_cache envelope.body = true)
    (inEpoch : envelope.coordinator_epoch = some epoch) :
    (∀ later turn earlier, past = later ++ turn :: earlier → turn.performed = true →
      turn.delivery.envelope.request_id = envelope.request_id → now.toNat < turn.retained →
      (∀ between ∈ later, between.delivery.now ≤ now) →
      (envelope.body = turn.delivery.envelope.body → ∃ reply, turn.reply = .ok reply ∧
        dispatch_once blake3 bincode wire env now envelope host.endpoint = .ok reply host.endpoint) ∧
      (envelope.body ≠ turn.delivery.envelope.body →
        (blake3 (wire.body envelope.body) = blake3 (wire.body turn.delivery.envelope.body) →
          envelope.body = turn.delivery.envelope.body) →
        dispatch_once blake3 bincode wire env now envelope host.endpoint =
          .ok (request_error envelope.body (.Protocol "request id reused with different body")) host.endpoint)) ∧
    (host.replay.live envelope.request_id now = none → (host.replay.cleared envelope.request_id now).at_capacity = true →
      ∃ replay, dispatch_once blake3 bincode wire env now envelope host.endpoint =
          .ok (request_error envelope.body (.CapacityExceeded "replay cache limit reached")) { host.endpoint with replay } ∧
        ∀ id, replay.live id now = host.replay.live id now) := by
  have named : host.endpoint.InEpoch envelope := inEpoch.trans (congrArg some run.home.2.symm)
  refine ⟨?_,?_⟩
  · rintro later turn earlier rfl performed same inTime order
    obtain ⟨reply,told,found⟩ := run.remembers performed fun between member =>
      Nat.lt_of_le_of_lt (UInt64.le_iff_toNat_le.mp (order between member)) inTime
    rw [same] at found
    obtain ⟨entry,stored,record⟩ := Option.map_eq_some_iff.mp found
    simp only [Record.mk.injEq] at record
    obtain ⟨hash,rfl,expires⟩ := record
    have live : host.endpoint.replay.live envelope.request_id now = some entry :=
      Option.filter_eq_some_iff.mpr ⟨stored,decide_eq_true (UInt64.lt_iff_toNat_lt.mpr (expires ▸ inTime))⟩
    rw [dispatch_once_held cached named live]
    refine ⟨fun repeated => ⟨entry.reply,told,?_⟩,fun other collisionFree => ?_⟩
    · rw [if_pos (by rw [hash,repeated])]
    · rw [if_neg fun same => other (collisionFree (same.symm.trans hash))]
  · intro lapsed full
    rw [dispatch_once_free cached named run.sound.balanced lapsed]
    exact ⟨_,if_pos full,cleared_live run.sound.balanced lapsed⟩

end

/-! ### Examples -/

def smallCluster : ClusterId := ⟨.replicate 16 0⟩

def smallHost : Host := .start smallCluster CoordinatorState.smallEpoch "crayon-arena-0" 5000 false

def submitBody (max_attempts : UInt32) : RpcRequest :=
  .Client (.Submit ⟨CoordinatorState.smallKey,[],⟨⟨[("cpu",⟨600⟩)],CoordinatorState.demand_sorted⟩⟩,max_attempts⟩)

/-- The encoding of such a request with few attempts. -/
def submitBytes (max_attempts : UInt8) : List UInt8 :=
  [0,0,0,0,2,0,0,0,4,0,0,0,0,0,0,0,109,97,116,104,3,0,0,0,0,0,0,0,97,100,100,1,0,0,0,0,0,0,0,0,0,0,0,1,0,0,0,0,0,0,0,
    3,0,0,0,0,0,0,0,99,112,117,88,2,0,0,0,0,0,0,max_attempts,0,0,0]

/-- The encoding of the requests of these runs. -/
def submitWire : Wire where
  body
    | .Client (.Submit spec) => submitBytes spec.max_attempts.toUInt8
    | _ => []
  reply_len _ := 4 + 4 + 16 + 32

/-- A hash for runs that hash two of these requests and the bytes `abc`. -/
def submitHash (bytes : List UInt8) : Checksum :=
  if bytes = System.abc then System.abcDigest
  else if bytes = submitBytes 2 then
    ⟨#[0x03,0x4e,0x5c,0x10,0x21,0x70,0xdb,0xe4,0x7b,0x7a,0x1a,0xb5,0x9b,0xd4,0x9f,0x70,
       0x70,0x83,0x68,0xe5,0x4b,0x6b,0x4b,0x19,0x74,0xc0,0xb5,0x5e,0xc3,0xd8,0xa2,0x71],rfl⟩
  else
    ⟨#[0x23,0xa5,0x0a,0xfc,0xde,0xf4,0xd3,0x68,0xde,0x54,0x20,0xbf,0x0e,0xeb,0xc0,0x3f,
       0xf7,0x40,0xcc,0x7b,0x06,0x82,0x71,0x6e,0xf8,0x74,0xfa,0x8d,0x8c,0x08,0x06,0x9c],rfl⟩

def smallEnvelope (deadline_unix_ms : UInt64) (body : RpcRequest) : Envelope :=
  ⟨MAGIC,PROTOCOL_MAJOR,PROTOCOL_MINOR,smallCluster,some CoordinatorState.smallEpoch,⟨.replicate 16 9⟩,deadline_unix_ms,body⟩

def submitting (n : UInt8) (deadline_unix_ms validated now : UInt64) : Delivery :=
  ⟨System.smallEnv n,validated,now,smallEnvelope deadline_unix_ms (submitBody 2)⟩

/-- A worker registers. -/
def registering : Action :=
  .worker (System.smallEnv 1) (.Register ⟨CoordinatorState.smallWorker.node_id,CoordinatorState.smallWorker.worker_epoch,
    "host:1",⟨⟨[("cpu",⟨1000⟩)],CoordinatorState.offer_sorted⟩⟩,1,[⟨CoordinatorState.smallKey,.JsonV1,.JsonV1,64⟩]⟩)

def readyHost : Host := { smallHost with system := smallHost.system.act submitHash .fixint registering }

def firstTurn (deadline_unix_ms : UInt64) : Turn :=
  take submitHash .fixint submitWire readyHost.endpoint (submitting 1 deadline_unix_ms 0 0)

def firstHost (deadline_unix_ms : UInt64) : Host := readyHost.settle (Outcome.state (firstTurn deadline_unix_ms).outcome)

def secondTurn (deadline_unix_ms validated now : UInt64) : Turn :=
  take submitHash .fixint submitWire (firstHost deadline_unix_ms).endpoint (submitting 2 deadline_unix_ms validated now)

def secondHost (deadline_unix_ms validated now : UInt64) : Host :=
  (firstHost deadline_unix_ms).settle (Outcome.state (secondTurn deadline_unix_ms validated now).outcome)

theorem first_run {Rule : List Turn → Delivery → Prop} {deadline_unix_ms : UInt64}
    (rule : Rule [] (submitting 1 deadline_unix_ms 0 0)) :
    Run submitHash .fixint submitWire Rule smallHost [firstTurn deadline_unix_ms] (firstHost deadline_unix_ms) := by
  have fresh : (System.smallEnv 1).New 0 1 readyHost.system.server.state := .one (by decide +kernel) (by decide +kernel)
  exact .deliver (.other .start registering trivial trivial) (submitting 1 deadline_unix_ms 0 0) ⟨_,rfl,rfl,fresh⟩ rule

theorem second_run {Rule : List Turn → Delivery → Prop} {deadline_unix_ms validated now : UInt64}
    (first : Rule [] (submitting 1 deadline_unix_ms 0 0))
    (fresh : (System.smallEnv 2).New 0 1 (firstHost deadline_unix_ms).system.server.state)
    (rule : Rule [firstTurn deadline_unix_ms] (submitting 2 deadline_unix_ms validated now)) :
    Run submitHash .fixint submitWire Rule smallHost
      [secondTurn deadline_unix_ms validated now,firstTurn deadline_unix_ms] (secondHost deadline_unix_ms validated now) :=
  .deliver (first_run first) (submitting 2 deadline_unix_ms validated now) ⟨_,rfl,rfl,fresh⟩ rule

/-- A retry within the deadline, but thirty seconds after the first delivery, is handled again, and so is a retry
    that is accepted just before the deadline and looked up at the deadline: there are two tasks then. -/
theorem late_retry_repeats :
    (Run submitHash .fixint submitWire (fun _ d => Accepted smallCluster d) smallHost
        [secondTurn 60000 30000 30000,firstTurn 60000] (secondHost 60000 30000 30000) ∧
      [secondTurn 60000 30000 30000,firstTurn 60000].countP (fun turn => turn.performed &&
        decide (turn.delivery.envelope = smallEnvelope 60000 (submitBody 2))) = 2 ∧
      (secondHost 60000 30000 30000).system.server.state.tasks.len = 2) ∧
    Run submitHash .fixint submitWire (fun _ d => Accepted smallCluster d) smallHost
        [secondTurn 1000 999 1000,firstTurn 1000] (secondHost 1000 999 1000) ∧
      [secondTurn 1000 999 1000,firstTurn 1000].countP (fun turn => turn.performed &&
        decide (turn.delivery.envelope = smallEnvelope 1000 (submitBody 2))) = 2 ∧
      (secondHost 1000 999 1000).system.server.state.tasks.len = 2 := by
  refine ⟨⟨second_run ⟨rfl,?_⟩ (.one ?_ ?_) ⟨rfl,?_⟩,?_,?_⟩,second_run ⟨rfl,?_⟩ (.one ?_ ?_) ⟨rfl,?_⟩,?_,?_⟩
  all_goals decide +kernel

theorem prompt_one {turn : Turn} {d : Delivery} (same : turn.delivery.envelope = d.envelope)
    (live : d.now.toNat < turn.retained) : Prompt [turn] d := by
  refine ⟨fun other member _ => by rw [List.mem_singleton.mp member,same],fun later other earlier split _ _ => ?_⟩
  rcases List.append_eq_singleton_iff.mp split.symm with ⟨rfl,whole⟩ | ⟨_,none⟩
  · obtain ⟨rfl,_⟩ := List.cons.inj whole
    exact ⟨live,by simp⟩
  · cases none

theorem prompt_nil (d : Delivery) : Prompt [] d :=
  ⟨by simp,fun later turn earlier split => absurd split.symm (by simp)⟩

theorem prompt_run : Run submitHash .fixint submitWire (fun past d => Accepted smallCluster d ∧ Prompt past d) smallHost
    [secondTurn 60000 29999 29999,firstTurn 60000] (secondHost 60000 29999 29999) := by
  refine second_run ⟨⟨rfl,by decide⟩,prompt_nil _⟩ (.one ?_ ?_) ⟨⟨rfl,by decide⟩,prompt_one rfl ?_⟩
  all_goals decide +kernel

/-- A retry just before the reply expires is not handled again. -/
theorem prompt_retry_replays :
    (firstTurn 60000).performed = true ∧ (secondTurn 60000 29999 29999).performed = false ∧
      [secondTurn 60000 29999 29999,firstTurn 60000].countP (fun turn => turn.performed &&
        decide (turn.delivery.envelope = smallEnvelope 60000 (submitBody 2))) ≤ 1 :=
  ⟨by decide +kernel,by decide +kernel,(Run.replays_first prompt_run _).1⟩

/-- Under the same id, and while the reply is retained, an object is stored as usual. -/
theorem uncached_reuse_dispatched :
    Run submitHash .fixint submitWire (fun _ _ => True) smallHost [firstTurn 60000] (firstHost 60000) ∧
      (firstTurn 60000).performed = true ∧ (10 : UInt64).toNat < (firstTurn 60000).retained ∧
      ∃ payload e, dispatch_once submitHash .fixint submitWire (System.smallEnv 2) 10
          (smallEnvelope 60000 (.Client (.Put .RawBytes ⟨System.abc,by decide⟩))) (firstHost 60000).endpoint =
        .ok (.Client (.Object payload)) e ∧
      (firstHost 60000).system.server.state.objects.get System.abcId = none ∧
      e.server.state.objects.get System.abcId ≠ none := by
  exact ⟨first_run trivial,by decide +kernel,by decide +kernel,_,_,rfl,by decide +kernel,by decide +kernel⟩

/-- A retry of the request, and another request under its id. -/
theorem submitted_retained :
    (firstTurn 60000).performed = true ∧
      (∃ reply, (firstTurn 60000).reply = .ok reply ∧
        dispatch_once submitHash .fixint submitWire (System.smallEnv 2) 29999 (smallEnvelope 60000 (submitBody 2))
          (firstHost 60000).endpoint = .ok reply (firstHost 60000).endpoint) ∧
      dispatch_once submitHash .fixint submitWire (System.smallEnv 2) 29999 (smallEnvelope 60000 (submitBody 3))
        (firstHost 60000).endpoint = .ok (request_error (submitBody 3) (.Protocol "request id reused with different body"))
          (firstHost 60000).endpoint := by
  have run : Run submitHash .fixint submitWire (fun _ _ => True) smallHost [firstTurn 60000] (firstHost 60000) :=
    first_run trivial
  have performed : (firstTurn 60000).performed = true := by decide +kernel
  have live : (29999 : UInt64).toNat < (firstTurn 60000).retained := by decide +kernel
  have again := (run.retains (System.smallEnv 2) 29999 (smallEnvelope 60000 (submitBody 2)) rfl rfl).1 [] (firstTurn 60000)
    [] rfl performed rfl live (by simp)
  have other := (run.retains (System.smallEnv 2) 29999 (smallEnvelope 60000 (submitBody 3)) rfl rfl).1 [] (firstTurn 60000)
    [] rfl performed rfl live (by simp)
  exact ⟨performed,again.1 rfl,other.2 (by decide) fun same => absurd same (by decide)⟩

end Host
end Crayon
