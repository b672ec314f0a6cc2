import Crayon.Deliveries
import Crayon.Fetch
import Crayon.Polling
import Crayon.Wakeups

/-!
Clients that wait for outputs. A get that asks for an object which is still reserved is
parked by the server until the object resolves, but for four seconds at most, and the
client of a batch asks again until its own deadline. Time is counted in nanoseconds, and
requests, replies and the work on them take none of it; what goes on at the server
meanwhile is given for every instant (`Course`), and any timed history of the coordinator
makes such a course (`Course.of_history`). A single get waits no longer than the server
parks it (`get_bytes_within_resolves`, `late_output_pending`).
-/
namespace Crayon

def MAX_LONG_POLL_MS : UInt64 := 4000
def LONG_POLL_SLICE_MS : UInt64 := 250

def NANOS_PER_MILLI : Nat := 10^6

def from_millis (ms : Nat) : Nat := ms * NANOS_PER_MILLI

theorem from_millis_add (a b : Nat) : from_millis (a + b) = from_millis a + from_millis b := Nat.add_mul a b NANOS_PER_MILLI

theorem from_millis_div (ms : Nat) : from_millis ms / NANOS_PER_MILLI = ms := Nat.mul_div_cancel ms (by decide)

/-- The clock counts its seconds in 63 bits. -/
def INSTANT_END : Instant := 2^63 * 10^9

namespace CoordinatorState
open Command
variable {blake3 : List UInt8 → Checksum} {epoch : CoordinatorEpoch} {s s' : CoordinatorState} {id : ObjectId}
  {answer : Except Error ObjectPayload}

/-- The object is reserved for the output of a task that is not over. -/
def pending (s : CoordinatorState) (id : ObjectId) : Bool := (s.objects.get id).any fun object => object.state = .Reserved

end CoordinatorState

/-- Whether a request is parked no longer: its reply is ready, or the server failed. -/
def settled (ready : RpcReply → Bool) : Except Error ClientReply → Bool
  | .ok reply => ready (.Client reply)
  | .error _ => true

/-- The coordinator with its clients at every instant, and when waiters are notified. All states are those of some history
    of the coordinator, and no pending object resolves without a notification. -/
structure Course where
  epoch : CoordinatorEpoch
  site : Instant → Site
  rings : Instant → Bool
  fixint : ∀ t, (site t).bincode = .fixint
  served : ∀ t, ∃ past, CoordinatorState.Served (site t).blake3 epoch past (site t).server.state
  wakes : ∀ t u id, t ≤ u → (site t).server.state.pending id = true → (site u).server.state.pending id = false →
    ∃ v, t < v ∧ v ≤ u ∧ rings v = true

/-! ### Parked requests -/

namespace Course
variable (course : Course)

def state (t : Instant) : CoordinatorState := (course.site t).server.state

/-- What the coordinator answers when a request is dispatched at an instant. -/
def dispatch_once (body : ClientRequest) (t : Instant) : Except Error ClientReply :=
  (course.site t).request (course.site t).client.address body

/-- When a parked request is answered. -/
def long_poll (body : ClientRequest) (wait_ms : UInt64) (ready : RpcReply → Bool) (now : Instant) : Instant :=
  let deadline := now + from_millis (min wait_ms MAX_LONG_POLL_MS).toNat
  Polling.long_poll (fun t => settled ready (course.dispatch_once body t)) course.rings
    (from_millis LONG_POLL_SLICE_MS.toNat) (by decide) deadline now

/-- When a request is answered. -/
def dispatch_blocking (body : ClientRequest) (wait_ms : UInt64) (min_ready : UInt32) (now : Instant) : Instant :=
  match parked_until min_ready (.Client body) with
  | some ready => if wait_ms > 0 then course.long_poll body wait_ms ready now else now
  | none => now

/-! ### Clients -/

/-- What the client makes of the answer to a get. -/
def fetched (site : Site) : Except Error ClientReply → Except Error (Codec × List UInt8)
  | .error error => .error error
  | .ok (.Object payload) => site.payload_bytes payload
  | .ok (.Error error) => .error error
  | .ok _ => .error (.Protocol "unexpected get reply")

/-- When a get returns, and what. -/
def fetch_object (id : ObjectId) (wait_ms : UInt64) (now : Instant) : Instant × Except Error (Codec × List UInt8) :=
  let t := course.dispatch_blocking (.Get id) wait_ms 0 now
  (t,fetched (course.site t) (course.dispatch_once (.Get id) t))

def get_bytes (id : ObjectId) (now : Instant) : Instant × Except Error (Codec × List UInt8) := course.fetch_object id 0 now

def get_bytes_within (id : ObjectId) (timeout : Nat) (now : Instant) : Instant × Except Error (Codec × List UInt8) :=
  course.fetch_object id (.ofNat (timeout / NANOS_PER_MILLI)) now

end Course

def remaining_wait_ms (deadline now : Instant) : Except Error UInt64 :=
  let remaining := deadline - now
  if remaining = 0 then .error .DeadlineExceeded
  else .ok (max (.ofNat (min (remaining / NANOS_PER_MILLI) (2^64 - 1))) 1)

namespace Course
variable (course : Course)

/-- A slot that is no longer pending. -/
def slot_ready : Except Error ObjectPayload → Bool
  | .error (.ObjectPending _) => false
  | _ => true

/-- Asks for a batch until enough of its slots are ready, at most `fuel` times. -/
def fetch_rounds (ids : List ObjectId) (min_ready : Nat) (deadline : Instant) :
    Nat → Instant → Instant × Except (Fault Error) (List (Except Error ObjectPayload))
  | 0,now => (now,.error .Diverge)
  | fuel + 1,now =>
    match remaining_wait_ms deadline now with
    | .error error => (now,.error (.Err error))
    | .ok wait_ms =>
      let t := course.dispatch_blocking (.GetBatch ids) wait_ms (.ofNat min_ready) now
      match course.dispatch_once (.GetBatch ids) t with
      | .error error => (t,.error (.Err error))
      | .ok (.ObjectBatch results) =>
        if results.countP slot_ready < min_ready then fetch_rounds ids min_ready deadline fuel t else (t,.ok results)
      | .ok (.Error error) => (t,.error (.Err error))
      | .ok _ => (t,.error (.Err (.Protocol "unexpected get batch reply")))

/-- A round in which too few slots are ready takes time, so that `timeout + 1` rounds are enough. -/
def fetch_batch (ids : List ObjectId) (min_ready timeout : Nat) (now : Instant) :
    Instant × Except (Fault Error) (List (Except Error ObjectPayload)) :=
  -- There is no instant beyond the end of the clock.
  if INSTANT_END ≤ now + timeout then (now,.error .Panic)
  else course.fetch_rounds ids min_ready (now + timeout) (timeout + 1) now

def wait_bytes_many (ids : List ObjectId) (min_ready timeout : Nat) (now : Instant) :
    Instant × Except (Fault Error) (List (Except Error (Codec × List UInt8))) :=
  match course.fetch_batch ids (min min_ready ids.length) timeout now with
  | (t,.error fault) => (t,.error fault)
  | (t,.ok payloads) => (t,.ok (payloads.map fun payload => payload.bind (course.site t).payload_bytes))

def get_bytes_many (ids : List ObjectId) (timeout : Nat) (now : Instant) :
    Instant × Except (Fault Error) (List (Except Error (Codec × List UInt8))) :=
  course.wait_bytes_many ids ids.length timeout now

end Course

/-! ### Histories -/

namespace CoordinatorState
open Command
variable {blake3 : List UInt8 → Checksum} {epoch : CoordinatorEpoch} {s s' : CoordinatorState} {id : ObjectId}
  {past : List (Instant × Event)}

/-- The sweep of tasks that are over. -/
def Event.reaps : Event → Bool
  | .operation _ (.reap_terminal_tasks _) => true
  | _ => false

/-- Waiters are notified when the state advances, but not by the sweep of tasks that are over. -/
def Event.notifies (blake3 : List UInt8 → Checksum) (s : CoordinatorState) (event : Event) : Bool :=
  decide ((event.act blake3 s).revision ≠ s.revision) && !event.reaps

theorem Releases.pending (releases : Releases s s') (pending : s.pending id = true) : s'.pending id = true := by
  induction releases with
  | refl => exact pending
  | @tail t u _ released ih =>
    obtain ⟨k,released⟩ := released
    cases released with
    | before absent => exact ih
    | @drop object found settled unused =>
      have other : id ≠ k := by
        rintro rfl
        exact settled (by simpa [CoordinatorState.pending,found] using ih)
      simpa [CoordinatorState.pending,dropped,other] using ih

/-- An object that is pending is so until waiters are notified. -/
theorem Event.pending (event : Event) (inv : Inv s) (silent : event.notifies blake3 s = false)
    (pending : s.pending id = true) : (event.act blake3 s).pending id = true := by
  by_cases advanced : (event.act blake3 s).revision = s.revision
  · rcases event.counted blake3 inv with later | unmoved
    · omega
    · rwa [CoordinatorState.pending,unmoved.objects]
  · have reaps : event.reaps = true := by simpa [Event.notifies,advanced] using silent
    match event,reaps with
    | .operation order (.reap_terminal_tasks now),_ =>
      refine apply_keeps blake3 order inv (P := fun t => t.pending id = true) pending fun reply t effect => ?_
      cases effect with
      | reaped count released => exact Releases.pending released pending

/-- The state after a timed history, the last event first. -/
def state_after (blake3 : List UInt8 → Checksum) (epoch : CoordinatorEpoch) (past : List (Instant × Event)) :
    CoordinatorState :=
  past.foldr (fun timed s => timed.2.act blake3 s) (new epoch)

/-- The part of a history that is over at an instant. -/
def past_at (past : List (Instant × Event)) (t : Instant) : List (Instant × Event) := past.dropWhile fun timed => t < timed.1

/-- Whether waiters are notified at an instant. -/
def rung (blake3 : List UInt8 → Checksum) (epoch : CoordinatorEpoch) : List (Instant × Event) → Instant → Bool
  | [],_ => false
  | (at_,event) :: earlier,t =>
    (t = at_ && event.notifies blake3 (state_after blake3 epoch earlier)) || rung blake3 epoch earlier t

theorem Served.state_after (served : Served blake3 epoch (past.map Prod.snd) s) :
    s = CoordinatorState.state_after blake3 epoch past := by
  induction past generalizing s with
  | nil =>
    cases served
    rfl
  | cons last earlier ih =>
    cases served with
    | event served _ new => rw [ih served]; rfl

theorem Served.earlier {later : List Event} {events : List Event} (served : Served blake3 epoch (later ++ events) s) :
    ∃ s', Served blake3 epoch events s' := by
  induction later generalizing s with
  | nil => exact ⟨s,served⟩
  | cons last later ih =>
    cases served with
    | event served _ new => exact ih served

theorem Served.past_at (served : Served blake3 epoch (past.map Prod.snd) s) (t : Instant) :
    Served blake3 epoch ((CoordinatorState.past_at past t).map Prod.snd)
      (CoordinatorState.state_after blake3 epoch (CoordinatorState.past_at past t)) := by
  have split : past.map Prod.snd = (past.takeWhile fun timed => t < timed.1).map Prod.snd ++
      (CoordinatorState.past_at past t).map Prod.snd := by
    rw [← List.map_append,CoordinatorState.past_at,List.takeWhile_append_dropWhile]
  rw [split] at served
  obtain ⟨s',earlier⟩ := served.earlier
  rwa [earlier.state_after] at earlier

theorem past_at_of_over {t : Instant} (over_ : ∀ timed ∈ past, timed.1 ≤ t) : past_at past t = past := by
  cases past with
  | nil => rfl
  | cons last earlier =>
    have first := over_ last List.mem_cons_self
    rw [past_at,List.dropWhile_cons_of_neg (by simpa using first)]

/-- In a history whose events are in order, nothing that is pending resolves without a notification. -/
theorem rung_of_resolved (served : Served blake3 epoch (past.map Prod.snd) s)
    (ordered : past.Pairwise fun a b => b.1 ≤ a.1) {t u : Instant} (order : t ≤ u)
    (pending : (state_after blake3 epoch (past_at past t)).pending id = true)
    (resolved : (state_after blake3 epoch (past_at past u)).pending id = false) :
    ∃ v, t < v ∧ v ≤ u ∧ rung blake3 epoch past v = true := by
  induction past generalizing s u with
  | nil =>
    rw [show past_at [] t = past_at [] u from rfl] at pending
    rw [pending] at resolved
    cases resolved
  | cons last earlier ih =>
    obtain ⟨at_,event⟩ := last
    obtain ⟨earliest,ordered⟩ := List.pairwise_cons.mp ordered
    cases served with
    | @event _ before served _ new =>
    by_cases passed : at_ ≤ t
    · -- all of the history is over at both instants
      have over_t : ∀ timed ∈ (at_,event) :: earlier, timed.1 ≤ t :=
        List.forall_mem_cons.mpr ⟨passed,fun timed member => (earliest timed member).trans passed⟩
      rw [past_at_of_over over_t] at pending
      rw [past_at_of_over fun timed member => (over_t timed member).trans order,pending] at resolved
      cases resolved
    rw [past_at,List.dropWhile_cons_of_pos (by simpa using passed)] at pending
    by_cases reached : at_ ≤ u
    · rw [past_at_of_over (List.forall_mem_cons.mpr ⟨reached,fun timed member => (earliest timed member).trans reached⟩)]
        at resolved
      by_cases kept : (state_after blake3 epoch earlier).pending id = true
      · refine ⟨at_,Nat.lt_of_not_le passed,reached,?_⟩
        have notifies : event.notifies blake3 (state_after blake3 epoch earlier) = true := by
          by_contra silent
          have inv : Inv (state_after blake3 epoch earlier) := served.state_after ▸ served.inv
          have still := event.pending inv (by simpa using silent) kept
          rw [show (state_after blake3 epoch ((at_,event) :: earlier)).pending id = _ from still] at resolved
          cases resolved
        simp [rung,notifies]
      · have whole := past_at_of_over fun timed member => (earliest timed member).trans reached
        obtain ⟨v,later,before_,rings⟩ := ih served ordered order pending (u := u) (by simpa [whole] using kept)
        exact ⟨v,later,before_,by simp [rung,rings]⟩
    · rw [past_at,List.dropWhile_cons_of_pos (by simpa using reached)] at resolved
      obtain ⟨v,later,before_,rings⟩ := ih served ordered order pending resolved
      exact ⟨v,later,before_,by simp [rung,rings]⟩

end CoordinatorState

/-- The course of a history, where nothing else changes. -/
def Course.of_history (site : Site) (fixint : site.bincode = .fixint) (epoch : CoordinatorEpoch)
    (past : List (Instant × CoordinatorState.Event)) (ordered : past.Pairwise fun a b => b.1 ≤ a.1)
    (served : ∃ s, CoordinatorState.Served site.blake3 epoch (past.map Prod.snd) s) : Course where
  epoch
  site t := { site with server := { site.server with
    state := CoordinatorState.state_after site.blake3 epoch (CoordinatorState.past_at past t) } }
  rings := CoordinatorState.rung site.blake3 epoch past
  fixint _ := fixint
  served t := ⟨_,served.choose_spec.past_at t⟩
  wakes _ _ _ := CoordinatorState.rung_of_resolved served.choose_spec ordered

/-! ### What is read of an object -/

namespace CoordinatorServer
open CoordinatorState Command
variable {s : CoordinatorState} {id : ObjectId} {answer : Except Error ObjectPayload}

theorem exists_resolves (inv : Inv s) (id : ObjectId) : ∃ answer, Resolves s id answer := by
  obtain ⟨answer,t,ran⟩ := Endpoint.attempt_returns (resolve_object_clean inv id)
  obtain ⟨rfl,resolves⟩ := resolves_of_attempt ran
  exact ⟨answer,resolves⟩

theorem pending_iff : s.pending id = true ↔ ∃ k, resolve_object id s = .error (.Err (.ObjectPending k)) s := by
  simp [resolve_pending_iff,CoordinatorState.pending,Option.any_eq_true]

theorem resolves_pending (pending : s.pending id = true) : Resolves s id (.error (.ObjectPending id)) := by
  obtain ⟨object,found,reserved⟩ : ∃ object, s.objects.get id = some object ∧ object.state = .Reserved := by
    simpa [CoordinatorState.pending,Option.any_eq_true] using pending
  simp [Resolves,attempt,resolve_object,found,reserved]

/-- What is read is ready unless the object is pending. -/
theorem Resolves.ready (resolves : Resolves s id answer) : Course.slot_ready answer = !s.pending id := by
  cases pending : s.pending id with
  | true =>
    obtain ⟨k,refused⟩ := pending_iff.mp pending
    rw [Resolves,attempt,refused] at resolves
    cases resolves
    rfl
  | false =>
    have settled : ¬ ∃ k, resolve_object id s = .error (.Err (.ObjectPending k)) s := by simp [← pending_iff,pending]
    rw [Resolves,attempt] at resolves
    cases ran : resolve_object id s with
    | ok payload t =>
      rw [ran] at resolves
      cases resolves
      rfl
    | error fault t =>
      rw [ran] at resolves
      cases fault with
      | Err error =>
        cases resolves
        cases error with
        | ObjectPending k => exact absurd ⟨k,ran⟩ settled
        | _ => rfl
      | _ => cases resolves

end CoordinatorServer

namespace Site
open CoordinatorServer Command
variable {site : Site} {id k : ObjectId} {answer : Except Error ObjectPayload} {payload : ObjectPayload}

/-- The reply to a get of an object of which this is read. -/
def single (site : Site) : Except Error ObjectPayload → ClientReply
  | .ok payload => .Object (site.server.arena_annotate payload)
  | .error error => .Error error

theorem request_get (resolves : Resolves site.server.state id answer) :
    site.request site.client.address (.Get id) = .ok (site.single answer) := by
  refine request_coordinator _ (s := site.server) ?_
  rw [Resolves,attempt] at resolves
  cases ran : CoordinatorState.resolve_object id site.server.state with
  | ok payload t =>
    rw [ran] at resolves
    cases resolves
    exact get_object_ok ran
  | error fault t =>
    rw [ran] at resolves
    cases fault with
    | Err error =>
      cases resolves
      simp only [dispatch_client,get_object,bind_apply,attempt,on_state,within,ran,pure_apply,single]
    | _ => cases resolves

theorem settled_single (site : Site) (answer : Except Error ObjectPayload) :
    settled client_get_ready (.ok (site.single answer)) = Course.slot_ready answer := by
  cases answer with
  | ok payload => rfl
  | error error => cases error <;> rfl

/-- Errors of the store that no fetch of bytes ends with: that an object is pending, or that a batch is too large. -/
def unfetched : Error → Bool
  | .ObjectPending _ | .CapacityExceeded _ => true
  | _ => false

variable {error : Error}

theorem verified_not (never : unfetched error = true) {bytes : List UInt8} :
    (do verify_object site.blake3 payload.id payload.id bytes payload.checksum payload.size_bytes
        pure (payload.codec,bytes)) ≠ (.error error : Except Error (Codec × List UInt8)) := by
  by_cases verified : site.Verified payload bytes
  · rw [verify_object_of verified]
    nofun
  · rw [verify_object_not verified]
    rintro ⟨⟩
    cases never

/-- The bytes of an object that was read are never found to be pending, nor to be too large for a batch. -/
theorem payload_bytes_not (never : unfetched error = true) : site.payload_bytes payload ≠ .error error := by
  rw [payload_bytes]
  split
  · exact verified_not never
  split
  · rintro ⟨⟩
  dsimp only
  split
  · rename_i there
    rw [if_pos there.1]
    cases fetched : site.get_chunked payload.id payload.size_bytes site.client.address 0 [] with
    | ok bytes => exact verified_not never
    | error fault =>
      intro failed
      obtain rfl : fault = error := Except.error.inj failed
      rcases get_chunked_error fetched with rfl | ⟨message,rfl⟩ <;> cases never
  · cases asked : site.request (if payload.arena.isSome = true then site.client.address else payload.location)
        (.GetLocal payload.id) with
    | error error =>
      obtain ⟨fault,rfl⟩ := request_error asked
      rintro ⟨⟩
      cases fault <;> cases never
    | ok reply =>
      change site.accept payload reply ≠ _
      rcases accept_cases site payload reply with ⟨bytes,_,accepted⟩ | ⟨_,refused⟩
      · rw [accepted]
        rintro ⟨⟩
      · rw [refused]
        rintro ⟨⟩
        cases never

theorem fetched_single (site : Site) (answer : Except Error ObjectPayload) :
    Course.fetched site (.ok (site.single answer)) =
      answer.bind fun payload => site.payload_bytes (site.server.arena_annotate payload) := by
  cases answer <;> rfl

end Site

/-! ### A get within a timeout -/

namespace Course
open CoordinatorServer Polling
variable {course : Course} {id k : ObjectId} {timeout : Nat} {now r t : Instant}

/-- The object is not pending any longer. -/
def resolved (course : Course) (id : ObjectId) (t : Instant) : Bool := !(course.state t).pending id

/-- How long the server parks a get within a timeout. -/
def parked_for (timeout : Nat) : Nat :=
  from_millis (min (.ofNat (timeout / NANOS_PER_MILLI)) MAX_LONG_POLL_MS : UInt64).toNat

theorem inv (course : Course) (t : Instant) : CoordinatorState.Inv (course.state t) := (course.served t).choose_spec.inv

theorem settled_get (course : Course) (id : ObjectId) (t : Instant) :
    settled client_get_ready (course.dispatch_once (.Get id) t) = course.resolved id t := by
  obtain ⟨answer,resolves⟩ := exists_resolves (course.inv t) id
  rw [dispatch_once,Site.request_get resolves,Site.settled_single,resolves.ready,resolved,state]

theorem prompt_get (course : Course) (id : ObjectId) (start deadline : Instant) :
    Prompt (course.resolved id) course.rings start deadline := by
  intro t u _ order _ unready ready
  exact course.wakes t u id order (by simpa [resolved,state] using unready) (by simpa [resolved,state] using ready)

/-- A get is answered when the object resolves, or else when the server parks it no longer. -/
theorem get_stops (course : Course) (id : ObjectId) (wait_ms : UInt64) (min_ready : UInt32) (now : Instant) :
    Stops (course.resolved id) now (now + from_millis (min wait_ms MAX_LONG_POLL_MS).toNat)
      (course.dispatch_blocking (.Get id) wait_ms min_ready now) := by
  have ready : (fun t => settled client_get_ready (course.dispatch_once (.Get id) t)) = course.resolved id :=
    funext (course.settled_get id)
  simp only [dispatch_blocking,parked_until]
  split
  · rw [long_poll,ready]
    exact long_poll_stops (course.prompt_get id now _) (Nat.le_add_right _ _)
  · rename_i at_once
    obtain rfl : wait_ms = 0 := by simpa using at_once
    exact ⟨le_rfl,Nat.le_add_right _ _,fun t _ _ => by omega,.inr rfl⟩

theorem fetched_get {answer : Except Error ObjectPayload} (resolves : Resolves (course.state t) id answer) :
    fetched (course.site t) (course.dispatch_once (.Get id) t) =
      answer.bind fun payload => (course.site t).payload_bytes ((course.site t).server.arena_annotate payload) := by
  rw [dispatch_once,Site.request_get resolves,Site.fetched_single]

theorem get_bytes_eq {answer : Except Error ObjectPayload} (resolves : Resolves (course.state t) id answer) :
    course.get_bytes id t =
      (t,answer.bind fun payload => (course.site t).payload_bytes ((course.site t).server.arena_annotate payload)) := by
  rw [← fetched_get resolves]
  rfl

theorem get_pending (course : Course) (id : ObjectId) (t : Instant)
    (told : fetched (course.site t) (course.dispatch_once (.Get id) t) = .error (.ObjectPending k)) :
    course.resolved id t = false := by
  obtain ⟨answer,resolves⟩ := exists_resolves (course.inv t) id
  rw [fetched_get resolves] at told
  have ready := resolves.ready
  cases answer with
  | ok payload => exact absurd told (Site.payload_bytes_not rfl)
  | error error =>
    obtain rfl : error = .ObjectPending k := Except.error.inj told
    exact ready.symm

/-- No get is parked for longer than its timeout. -/
theorem parked_for_le (timeout : Nat) : parked_for timeout ≤ timeout := by
  have least : (min (.ofNat (timeout / NANOS_PER_MILLI)) MAX_LONG_POLL_MS : UInt64).toNat ≤ timeout / NANOS_PER_MILLI := by
    rw [Site.toNat_min]
    exact Nat.le_trans (Nat.min_le_left _ _) (by rw [UInt64.toNat_ofNat']; exact Nat.mod_le _ _)
  exact Nat.le_trans (Nat.mul_le_mul_right _ least) (Nat.div_mul_le_self _ _)

/-- A timeout of whole milliseconds is waited for to the end if the server parks requests that long. -/
theorem parked_for_millis {ms : Nat} (short : ms ≤ 4000) : parked_for (from_millis ms) = from_millis ms := by
  have small : (UInt64.ofNat ms).toNat = ms := UInt64.toNat_ofNat_of_lt' (by simp only [UInt64.size]; omega)
  have limit : MAX_LONG_POLL_MS.toNat = 4000 := rfl
  rw [parked_for,from_millis_div,Site.toNat_min,small,limit,Nat.min_eq_left short]

theorem get_bytes_within_pending (unready : course.resolved id (course.get_bytes_within id timeout now).1 = false) :
    (course.get_bytes_within id timeout now).2 = .error (.ObjectPending id) := by
  have pending : (course.state (course.get_bytes_within id timeout now).1).pending id = true := by
    simpa [resolved] using unready
  exact fetched_get (resolves_pending pending)

/-- A get within a timeout returns, at the moment the output resolves, what a get returns then, exactly if the output does
    not resolve in the time between the end of the park and the timeout; and exactly then it returns that the output is
    pending only if that was so all through the timeout. It returns in time. -/
theorem get_bytes_within_resolves (course : Course) (id : ObjectId) (timeout : Nat) (now : Instant) :
    ((∀ r, First (course.resolved id) now r → r ≤ now + timeout →
        course.get_bytes_within id timeout now = course.get_bytes id r) ↔
      ∀ r, First (course.resolved id) now r → r ≤ now + timeout → r ≤ now + parked_for timeout) ∧
    ((∀ k, (course.get_bytes_within id timeout now).2 = .error (.ObjectPending k) →
        ∀ t, now ≤ t → t ≤ now + timeout → (course.state t).pending id = true) ↔
      ∀ r, First (course.resolved id) now r → r ≤ now + timeout → r ≤ now + parked_for timeout) ∧
    now ≤ (course.get_bytes_within id timeout now).1 ∧ (course.get_bytes_within id timeout now).1 ≤ now + timeout := by
  have stops := course.get_stops id (.ofNat (timeout / NANOS_PER_MILLI)) 0 now
  have bounded := parked_for_le timeout
  rw [← parked_for] at stops
  refine ⟨⟨fun returned r first in_time => ?_,fun waits r first in_time => ?_⟩,
    ⟨fun pending r first in_time => ?_,fun waits k told => ?_⟩,stops.from_start,Nat.le_trans stops.in_time (by omega)⟩
  · have at_r : (course.get_bytes_within id timeout now).1 = r := congrArg Prod.fst (returned r first in_time)
    exact at_r ▸ stops.in_time
  · have at_r := stops.first first (waits r first in_time)
    rw [get_bytes_within,fetch_object,at_r]
    rfl
  -- a park that ends before the output resolves ends with the answer that it is pending
  · by_contra late
    have unready := first.before _ stops.from_start (Nat.lt_of_le_of_lt stops.in_time (Nat.lt_of_not_le late))
    have still := pending id (get_bytes_within_pending unready) r first.from_start in_time
    have ready := first.now
    rw [resolved,still] at ready
    cases ready
  · obtain ⟨_,never⟩ := stops.never_of (course.get_pending id _ told)
    intro t after before
    by_contra resolves
    obtain ⟨r,by_t,first⟩ : ∃ r, r ≤ t ∧ First (course.resolved id) now r :=
      exists_first after (by simpa [resolved] using resolves)
    have unready := never r first.from_start (waits r first (Nat.le_trans by_t before))
    rw [first.now] at unready
    cases unready

end Course

/-! ### An output that comes late -/

namespace CoordinatorState

def droppedTask : TaskId := ⟨.replicate 16 14⟩
def droppedOutput : ObjectId := ⟨.replicate 32 15⟩

/-- The bytes `abc` are put, the small task is given to the worker, and another task is submitted and cancelled. -/
def startedPast : List Event :=
  .operation .by_id (.cancel droppedTask) ::
    .operation .by_id (.submit smallKey [] ⟨⟨[("cpu",⟨600⟩)],demand_sorted⟩⟩ 2 droppedTask droppedOutput) ::
    .operation .by_id (.assign_next smallWorker.node_id 10 smallLease) :: offeredPast ++
      [.operation .by_id (.put .RawBytes System.abc)]

/-- The worker reports the same bytes as the output. -/
def reporting : Event := .operation .by_id (.complete smallWorker
  ⟨⟨smallTask,1,smallLease⟩,smallOutput,.JsonV1,3,System.abcDigest,"host:1",some System.abc⟩)

/-- All begins at once, and the report is made at some instant. -/
def finishedPast (finish : Instant) : List (Instant × Event) := (finish,reporting) :: startedPast.map fun event => (0,event)

end CoordinatorState

namespace Course
open CoordinatorState Polling

theorem finished_served (finish : Instant) :
    ∃ s, Served System.abcHash smallEpoch ((finishedPast finish).map Prod.snd) s := by
  refine ⟨_,.event (.event (.event (.event (.event (.event (.event .start _ ?_) _ ?_) _ ?_) _ ?_) _ ?_) _ ?_) _ ?_⟩
  · exact trivial
  · exact trivial
  · exact ⟨by decide,by decide,by decide⟩
  · exact trivial
  · exact ⟨by decide +kernel,by decide +kernel,by decide +kernel⟩
  · exact trivial
  · exact trivial

def finishing (finish : Instant) : Course :=
  .of_history (Site.localSite (.new smallEpoch "crayon-arena-0" 5000 false)) rfl smallEpoch (finishedPast finish)
    (by simp [finishedPast,startedPast,offeredPast]) (finished_served finish)

/-- The state before the report, and after it. -/
def runningState : CoordinatorState := state_after System.abcHash smallEpoch (finishedPast 0).tail
def finishedState : CoordinatorState := state_after System.abcHash smallEpoch (finishedPast 0)

theorem finishing_state (finish t : Instant) :
    (finishing finish).state t = if t < finish then runningState else finishedState := by
  have started : past_at (finishedPast finish).tail t = (finishedPast finish).tail :=
    past_at_of_over (by simp [finishedPast,startedPast,offeredPast])
  by_cases early : t < finish
  · have running : past_at (finishedPast finish) t = (finishedPast finish).tail := by
      rw [← started]
      exact List.dropWhile_cons_of_pos (by simpa using early)
    rw [if_pos early]
    exact congrArg (state_after System.abcHash smallEpoch) running
  · have finished : past_at (finishedPast finish) t = finishedPast finish :=
      past_at_of_over (by simpa [finishedPast,startedPast,offeredPast] using early)
    rw [if_neg early]
    exact (congrArg (state_after System.abcHash smallEpoch) finished).trans rfl

theorem finishing_resolved (finish t : Instant) : (finishing finish).resolved smallOutput t = decide (finish ≤ t) := by
  have running : runningState.pending smallOutput = true := by decide +kernel
  have finished : finishedState.pending smallOutput = false := by decide +kernel
  rw [resolved,finishing_state]
  split <;> simp_all

theorem finishing_first (finish : Instant) : First ((finishing finish).resolved smallOutput) 0 finish where
  from_start := Nat.zero_le _
  now := by simp [finishing_resolved]
  before t _ early := by simp [finishing_resolved,early]

/-- What a get returns once the report was made. -/
theorem finishing_got (finish : Instant) :
    (finishing finish).get_bytes smallOutput finish = (finish,.ok (.JsonV1,System.abc)) := by
  have finished : (finishing finish).state finish = finishedState := by simp [finishing_state]
  have resolves : CoordinatorServer.Resolves finishedState smallOutput (.ok
      ⟨smallOutput,.JsonV1,3,System.abcDigest,"host:1",some System.abc,none⟩) := Outcome.eq_ok (by decide +kernel)
  rw [← finished] at resolves
  rw [get_bytes_eq resolves]
  rfl

/-- An output that is there after two seconds is returned then, and not when the timeout of three is over. -/
theorem finishing_within :
    (finishing (from_millis 2000)).get_bytes_within smallOutput (from_millis 3000) 0 =
      (from_millis 2000,.ok (.JsonV1,System.abc)) := by
  have waits : ∀ r, First ((finishing (from_millis 2000)).resolved smallOutput) 0 r → r ≤ 0 + from_millis 3000 →
      r ≤ 0 + parked_for (from_millis 3000) := fun r _ in_time => by rwa [parked_for_millis (by decide)]
  have returned := (get_bytes_within_resolves (finishing (from_millis 2000)) smallOutput (from_millis 3000) 0).1.mpr waits
    (from_millis 2000) (finishing_first _) (by decide)
  exact returned.trans (finishing_got _)

/-- An output that is there after five seconds is pending for a get with a timeout of ten. -/
theorem late_output_pending :
    First ((finishing (from_millis 5000)).resolved smallOutput) 0 (from_millis 5000) ∧
    from_millis 5000 ≤ 0 + from_millis 10000 ∧
    (finishing (from_millis 5000)).get_bytes smallOutput (from_millis 5000) =
      (from_millis 5000,.ok (.JsonV1,System.abc)) ∧
    (finishing (from_millis 5000)).get_bytes_within smallOutput (from_millis 10000) 0 =
      (from_millis 4000,.error (.ObjectPending smallOutput)) := by
  refine ⟨finishing_first _,by decide,finishing_got _,?_⟩
  -- The server parks the get for four seconds, and the client does not ask again.
  have stops := (finishing (from_millis 5000)).get_stops smallOutput (.ofNat (from_millis 10000 / NANOS_PER_MILLI)) 0 0
  have parked : 0 + from_millis (min (.ofNat (from_millis 10000 / NANOS_PER_MILLI)) MAX_LONG_POLL_MS : UInt64).toNat =
    from_millis 4000 := by decide
  have early : from_millis 4000 < from_millis 5000 := by decide
  rw [parked] at stops
  generalize answered : (finishing (from_millis 5000)).dispatch_blocking (.Get smallOutput) _ 0 0 = t at stops
  have unready : (finishing (from_millis 5000)).resolved smallOutput t = false := by
    rw [finishing_resolved,decide_eq_false_iff_not]
    exact Nat.not_le.mpr (Nat.lt_of_le_of_lt stops.in_time early)
  obtain ⟨rfl,_⟩ := stops.never_of unready
  have ended : ((finishing (from_millis 5000)).get_bytes_within smallOutput (from_millis 10000) 0).1 = from_millis 4000 :=
    answered
  exact Prod.ext ended (get_bytes_within_pending (by rwa [ended]))

end Course
end Crayon
