import Crayon.Waiting

/-!
Clients that wait for several outputs. The server parks a get of a batch until enough of
its slots are ready, four seconds at most, and the client asks again until its deadline. It
returns, at the first instant at which enough objects have resolved, every slot as it is
then, exactly if that instant comes within a positive timeout and the reply then has room
for all slots (`Roomy`, `wait_bytes_many_resolves`). When the timeout is over first, the
whole call fails, whatever is ready, and with a timeout of zero it does not ask at all
(`gathering_fails`).
-/
namespace Crayon

/-! ### The slots of a batch -/

namespace CoordinatorServer
open CoordinatorState Command
variable {s : CoordinatorState} {ids : List ObjectId} {answers results : List (Except Error ObjectPayload)} {used : Nat}

/-- Overflow errors for all objects fit a frame, so that the server fills the slots at all. -/
def Starts (ids : List ObjectId) : Prop :=
  Bincode.fixint.batch + ids.length * Bincode.fixint.slot overflow ≤ MAX_FRAME_BYTES

/-- Each slot in turn passes the server's test, when some bytes are used already: it fits beside those before it and
    overflow errors for those after it. -/
def Fit : List (Except Error ObjectPayload) → Nat → Prop
  | [],_ => True
  | answer :: rest,used => needed .fixint used answer rest.length ≤ MAX_FRAME_BYTES ∧ Fit rest (used + Bincode.fixint.slot answer)

/-- The server gives every object a slot of its own. -/
def Roomy (s : CoordinatorState) (ids : List ObjectId) : Prop :=
  Starts ids ∧ ∃ answers, List.Forall₂ (Resolves s) ids answers ∧ Fit answers Bincode.fixint.batch

/-- A batch that fits a frame has fewer slots than are counted in 32 bits. -/
theorem Starts.short (starts : Starts ids) : ids.length < 2^32 := by
  have positive : 1 ≤ Bincode.fixint.slot overflow := by decide
  have limit : MAX_FRAME_BYTES < 2^32 := by decide
  have least : ids.length ≤ ids.length * Bincode.fixint.slot overflow := Nat.le_mul_of_pos_right _ positive
  rw [Starts] at starts
  omega

/-- Where there is room, no slot is replaced. -/
theorem Filled.roomy (filled : Filled .fixint s ids used results) (read : List.Forall₂ (Resolves s) ids answers)
    (fit : Fit answers used) : results = answers := by
  induction filled generalizing answers with
  | nil =>
    cases read
    rfl
  | kept resolves _ _ ih =>
    cases read with
    | cons resolves' read =>
      obtain rfl := (EStateM.Result.ok.inj (resolves.symm.trans resolves')).1
      rw [ih read fit.2]
  | replaced resolves large _ _ =>
    cases read with
    | cons resolves' read =>
      obtain rfl := (EStateM.Result.ok.inj (resolves.symm.trans resolves')).1
      have fits := fit.1
      rw [← read.length_eq] at fits
      omega

/-- Where no slot is replaced, there is room. -/
theorem Filled.fit (filled : Filled .fixint s ids used results) (whole : overflow ∉ results) :
    List.Forall₂ (Resolves s) ids results ∧ Fit results used := by
  induction filled with
  | nil => exact ⟨.nil,trivial⟩
  | kept resolves fits others ih =>
    obtain ⟨read,fit⟩ := ih fun member => whole (List.mem_cons_of_mem _ member)
    exact ⟨.cons resolves read,by rwa [others.length],fit⟩
  | replaced => exact absurd List.mem_cons_self whole

/-- As many slots are ready as objects have resolved: a slot that is pending takes less than the overflow error, for which
    there is always room, so that it is not replaced. -/
theorem Filled.ready (filled : Filled .fixint s ids used results)
    (room : used + ids.length * Bincode.fixint.slot overflow ≤ MAX_FRAME_BYTES) :
    results.countP Course.slot_ready = ids.countP fun id => !s.pending id := by
  induction filled with
  | nil => rfl
  | kept resolves fits _ ih =>
    rw [List.countP_cons,List.countP_cons,ih fits,resolves.ready]
  | @replaced id rest used answer results resolves large _ ih =>
    rw [List.length_cons,Nat.add_mul,Nat.one_mul] at room
    have settled : s.pending id = false := by
      by_contra pending
      obtain rfl := (EStateM.Result.ok.inj (resolves.symm.trans (resolves_pending (by simpa using pending)))).1
      have less : Bincode.fixint.slot (.error (.ObjectPending id)) ≤ Bincode.fixint.slot overflow :=
        Nat.le_of_ble_eq_true rfl
      rw [needed] at large
      omega
    rw [List.countP_cons,List.countP_cons,ih (by omega),settled]
    rfl

theorem Resolves.not_overflow {id : ObjectId} {message : String} : ¬ Resolves s id (.error (.CapacityExceeded message)) := by
  intro resolves
  cases found : s.objects.get id with
  | none => simp [Resolves,attempt,resolve_object,found] at resolves
  | some object =>
    cases state : object.state with
    | Available =>
      cases codec : object.codec <;> cases size : object.size_bytes <;> cases digest : object.checksum <;>
        cases place : object.location <;> simp [Resolves,attempt,resolve_object,found,state,codec,size,digest,place] at resolves
    | _ => simp [Resolves,attempt,resolve_object,found,state] at resolves

end CoordinatorServer

namespace Course
open CoordinatorServer Polling
variable {course : Course} {ids : List ObjectId} {min_ready timeout fuel deadline now r t : Nat}
  {answers : List (Except Error ObjectPayload)}

/-! ### One request -/

/-- Enough of the objects have resolved. -/
def enough (course : Course) (ids : List ObjectId) (min_ready : Nat) (t : Instant) : Bool :=
  min_ready ≤ ids.countP fun id => course.resolved id t

/-- What the server sends back, and how many of the slots are ready. -/
theorem batch_filled (course : Course) (starts : Starts ids) (t : Instant) :
    ∃ results, course.dispatch_once (.GetBatch ids) t = .ok (.ObjectBatch results) ∧
      Filled .fixint (course.state t) ids Bincode.fixint.batch results ∧
      results.countP slot_ready = ids.countP fun id => course.resolved id t := by
  rcases get_batch_ends (s := (course.site t).server) (course.inv t) ids with ⟨large,_⟩ | ⟨_,results,ran,filled⟩
  · exact absurd starts (Nat.not_le.mpr large)
  · rw [← course.fixint t] at ran
    exact ⟨results,Site.request_coordinator _ ran,filled,filled.ready starts⟩

theorem batch_starts {results : List (Except Error ObjectPayload)}
    (answered : course.dispatch_once (.GetBatch ids) t = .ok (.ObjectBatch results)) : Starts ids := by
  rcases get_batch_ends (s := (course.site t).server) (course.inv t) ids with ⟨_,ran⟩ | ⟨room,_⟩
  · rw [← course.fixint t] at ran
    cases answered.symm.trans (Site.request_coordinator _ ran)
  · exact room

/-- The server's own test for a batch. -/
theorem settled_batch (course : Course) (starts : Starts ids) (small : min_ready < 2^32) (t : Instant) :
    settled (fun reply => client_get_batch_ready reply (.ofNat min_ready)) (course.dispatch_once (.GetBatch ids) t) =
      course.enough ids min_ready t := by
  obtain ⟨results,answered,_,ready⟩ := course.batch_filled starts t
  have exact_count : (UInt32.ofNat min_ready).toNat = min_ready := UInt32.toNat_ofNat_of_lt' small
  have counted : client_get_batch_ready (.Client (.ObjectBatch results)) (.ofNat min_ready) = true ↔
      (UInt32.ofNat min_ready).toNat ≤ results.countP slot_ready := by
    rw [client_get_batch_ready,decide_eq_true_iff,ge_iff_le,List.countP_congr]
    intro slot _
    rcases slot with error | payload
    · cases error <;> rfl
    · rfl
  rw [answered,Bool.eq_iff_iff,settled,counted,exact_count,ready,enough,decide_eq_true_iff]

/-- When enough have resolved that had not, one of them has, and waiters were notified. -/
theorem prompt_batch (course : Course) (ids : List ObjectId) (min_ready : Nat) (start stop : Nat) :
    Prompt (course.enough ids min_ready) course.rings start stop := by
  intro t u _ order _ few many
  have more : ids.countP (course.resolved · t) < ids.countP (course.resolved · u) := by
    simp only [enough,decide_eq_true_eq,decide_eq_false_iff_not] at few many
    omega
  obtain ⟨id,resolved,pending⟩ : ∃ id, course.resolved id u = true ∧ course.resolved id t = false := by
    by_contra none
    push Not at none
    have least := List.countP_mono_left (l := ids) (p := (course.resolved · u)) (q := (course.resolved · t))
      fun id _ resolved => by simpa using none id resolved
    omega
  exact course.prompt_get id start u t u (by assumption) order le_rfl pending resolved

/-- A request is answered when enough objects have resolved, or else when the server parks it no longer. -/
theorem batch_answered {wait_ms : UInt64} {stop : Nat} (waits : 0 < wait_ms) (starts : Starts ids) (small : min_ready < 2^32)
    (parked : stop = t + from_millis (min wait_ms MAX_LONG_POLL_MS).toNat) :
    Stops (course.enough ids min_ready) t stop
      (course.dispatch_blocking (.GetBatch ids) wait_ms (.ofNat min_ready) t) := by
  simp only [dispatch_blocking,parked_until,gt_iff_lt,if_pos waits]
  rw [long_poll,← parked,funext (course.settled_batch starts small)]
  exact long_poll_stops (course.prompt_batch ids min_ready t stop) (parked ▸ Nat.le_add_right _ _)

/-! ### Asking again -/

/-- How long the server parks one request of a client that waits until a deadline. -/
def round (deadline now : Nat) : Nat := from_millis (min (max ((deadline - now) / NANOS_PER_MILLI) 1) 4000)

theorem toNat_max (a b : UInt64) : (max a b).toNat = max a.toNat b.toNat := by
  show (if a ≤ b then b else a).toNat = _
  split
  · rename_i le
    rw [Nat.max_eq_right (UInt64.le_iff_toNat_le.mp le)]
  · rename_i gt
    rw [Nat.max_eq_left (UInt64.le_iff_toNat_le.mp (UInt64.le_of_lt (UInt64.not_le.mp gt)))]

theorem remaining_wait (early : t < deadline) : ∃ wait_ms, remaining_wait_ms deadline t = .ok wait_ms ∧ 0 < wait_ms ∧
    t + round deadline t = t + from_millis (min wait_ms MAX_LONG_POLL_MS).toNat := by
  have more : deadline - t ≠ 0 := Nat.sub_ne_zero_of_lt early
  have limit : MAX_LONG_POLL_MS.toNat = 4000 := rfl
  refine ⟨_,by rw [remaining_wait_ms,if_neg more],?_,?_⟩
  · rw [UInt64.lt_iff_toNat_lt,toNat_max]
    exact Nat.lt_of_lt_of_le Nat.one_pos (Nat.le_max_right _ _)
  · -- The saturated count of milliseconds is beyond the server's limit anyway.
    rw [Site.toNat_min,toNat_max,UInt64.toNat_ofNat_of_lt' (by simp only [UInt64.size]; omega),limit,round,UInt64.toNat_one]
    congr 2
    omega

theorem round_pos (deadline t : Nat) : 0 < round deadline t := by
  have positive : 0 < NANOS_PER_MILLI := by decide
  exact Nat.mul_pos (by omega) positive

/-- A loop that asks again until a deadline: a turn ends as a wait does, and then the loop is done or goes on. -/
def Rounds {α : Type} (ready : Nat → Bool) (Done : Nat → Nat × α → Prop) (deadline : Nat) (loop : Nat → Nat → Nat × α) : Prop :=
  ∀ fuel t, t < deadline → ∃ stop, Stops ready t (t + round deadline t) stop ∧
    (ready stop = true → Done stop (loop (fuel + 1) t)) ∧ (ready stop = false → loop (fuel + 1) t = loop fuel stop)

section
variable {α : Type} {ready : Nat → Bool} {Done : Nat → Nat × α → Prop} {loop : Nat → Nat → Nat × α}

/-- A loop is done when it is first ready, if that is before the deadline. Each turn takes time, so that the fuel is enough
    if it exceeds what is left. -/
theorem Rounds.resolves (rounds : Rounds ready Done deadline loop) (first : First ready t r) (in_time : r ≤ deadline)
    (early : t < deadline) (fueled : deadline - t < fuel) : Done r (loop fuel t) := by
  induction fuel generalizing t with
  | zero => omega
  | succ fuel ih =>
    obtain ⟨stop,stops,done,goes_on⟩ := rounds fuel t early
    have later := round_pos deadline t
    by_cases reached : r ≤ t + round deadline t
    · obtain rfl := stops.first first reached
      exact done first.now
    · have next : t + round deadline t < r := Nat.lt_of_not_le reached
      have unready := first.before stop stops.from_start (Nat.lt_of_le_of_lt stops.in_time next)
      obtain ⟨rfl,_⟩ := stops.never_of unready
      rw [goes_on unready]
      exact ih ⟨Nat.le_of_lt next,first.now,fun u after => first.before u (by omega)⟩ (by omega) (by omega)

/-- A loop that is never ready, given a whole number of milliseconds, ends at the deadline. -/
theorem Rounds.expires (rounds : Rounds ready Done deadline loop) {late : Nat × α}
    (expired : ∀ fuel, loop (fuel + 1) deadline = late) (ms : Nat) (whole : deadline = t + from_millis ms)
    (never : ∀ u, t ≤ u → u ≤ deadline → ready u = false) (fueled : ms < fuel) : loop fuel t = late := by
  induction fuel generalizing t ms with
  | zero => omega
  | succ fuel ih =>
    rcases Nat.eq_zero_or_pos ms with rfl | more
    · obtain rfl : deadline = t := by simpa [from_millis] using whole
      exact expired fuel
    · have positive : 0 < from_millis ms := Nat.mul_pos more (by decide)
      have left : deadline - t = from_millis ms := by omega
      have turn : round deadline t = from_millis (min ms 4000) := by
        rw [round,left,from_millis_div,Nat.max_eq_left more]
      have rest : deadline = t + round deadline t + from_millis (ms - min ms 4000) := by
        rw [turn,Nat.add_assoc,← from_millis_add,Nat.add_sub_cancel' (Nat.min_le_left _ _)]
        exact whole
      have inside : t + round deadline t ≤ deadline := Nat.le.intro rest.symm
      obtain ⟨stop,stops,_,goes_on⟩ := rounds fuel t (by omega)
      have unready := never stop stops.from_start (Nat.le_trans stops.in_time inside)
      obtain ⟨rfl,_⟩ := stops.never_of unready
      rw [goes_on unready]
      exact ih (ms - min ms 4000) rest (fun u after => never u (by omega)) (by omega)

end

theorem fetch_rounds_turn (course : Course) (deadline : Nat) (starts : Starts ids) (small : min_ready < 2^32) :
    Rounds (course.enough ids min_ready) (fun stop returned => ∃ results,
      Filled .fixint (course.state stop) ids Bincode.fixint.batch results ∧ returned = (stop,.ok results)) deadline
      (course.fetch_rounds ids min_ready deadline) := by
  intro fuel t early
  obtain ⟨wait_ms,waits,some_time,parked⟩ := remaining_wait early
  refine ⟨_,batch_answered some_time starts small parked,?_⟩
  generalize answered : course.dispatch_blocking (.GetBatch ids) wait_ms (.ofNat min_ready) t = stop
  obtain ⟨results,replied,filled,ready⟩ := course.batch_filled starts stop
  rw [fetch_rounds,waits]
  dsimp only
  rw [answered,replied]
  dsimp only
  rw [ready]
  refine ⟨fun many => ⟨results,filled,?_⟩,fun few => ?_⟩
  · rw [if_neg (Nat.not_lt.mpr (of_decide_eq_true many))]
  · rw [if_pos (Nat.lt_of_not_le (of_decide_eq_false few))]

theorem fetch_rounds_late (course : Course) (ids : List ObjectId) (min_ready deadline fuel : Nat) :
    course.fetch_rounds ids min_ready deadline (fuel + 1) deadline = (deadline,.error (.Err .DeadlineExceeded)) := by
  simp [fetch_rounds,remaining_wait_ms]

/-- What the loop returns is a reply in which enough slots are ready. -/
theorem fetch_rounds_ok {results : List (Except Error ObjectPayload)}
    (returned : course.fetch_rounds ids min_ready deadline fuel now = (t,.ok results)) :
    now < deadline ∧ course.dispatch_once (.GetBatch ids) t = .ok (.ObjectBatch results) ∧
      min_ready ≤ results.countP slot_ready := by
  induction fuel generalizing now with
  | zero => cases returned
  | succ fuel ih =>
    by_cases early : now < deadline
    swap
    · rw [fetch_rounds,remaining_wait_ms,if_pos (Nat.sub_eq_zero_of_le (Nat.le_of_not_lt early))] at returned
      cases returned
    obtain ⟨wait_ms,waits,_⟩ := remaining_wait early
    rw [fetch_rounds,waits] at returned
    dsimp only at returned
    refine ⟨early,?_⟩
    split at returned
    · cases returned
    · rename_i results' replied
      split at returned
      · exact (ih returned).2
      · rename_i many
        cases returned
        exact ⟨replied,Nat.le_of_not_lt many⟩
    · cases returned
    · cases returned

/-! ### Waiting for a batch -/

theorem wait_bytes_many_of (clock : now + timeout < INSTANT_END)
    (fetched : course.fetch_rounds ids (min min_ready ids.length) (now + timeout) (timeout + 1) now = (t,.ok answers)) :
    course.wait_bytes_many ids min_ready timeout now =
      (t,.ok (answers.map fun answer => answer.bind (course.site t).payload_bytes)) := by
  rw [wait_bytes_many,fetch_batch,if_neg (Nat.not_le.mpr clock),fetched]

theorem wait_bytes_many_fails {fault : Fault Error} (clock : now + timeout < INSTANT_END)
    (failed : course.fetch_rounds ids (min min_ready ids.length) (now + timeout) (timeout + 1) now = (t,.error fault)) :
    course.wait_bytes_many ids min_ready timeout now = (t,.error fault) := by
  rw [wait_bytes_many,fetch_batch,if_neg (Nat.not_le.mpr clock),failed]

theorem wait_bytes_many_ok {slots : List (Except Error (Codec × List UInt8))}
    (returned : course.wait_bytes_many ids min_ready timeout now = (t,.ok slots)) :
    now + timeout < INSTANT_END ∧ ∃ results,
      course.fetch_rounds ids (min min_ready ids.length) (now + timeout) (timeout + 1) now = (t,.ok results) ∧
      slots = results.map fun answer => answer.bind (course.site t).payload_bytes := by
  by_cases clock : now + timeout < INSTANT_END
  swap
  · rw [wait_bytes_many,fetch_batch,if_pos (Nat.le_of_not_lt clock)] at returned
    cases returned
  refine ⟨clock,?_⟩
  rw [wait_bytes_many,fetch_batch,if_neg (Nat.not_le.mpr clock)] at returned
  split at returned
  · cases returned
  · rename_i fetched
    cases returned
    exact ⟨_,fetched,rfl⟩

/-- One slot for each object in their order: that the object is pending, if it is so at this instant, or else its bytes or its
    own error. -/
structure Gathered (course : Course) (ids : List ObjectId) (t : Instant) (slots : List (Except Error (Codec × List UInt8))) :
    Prop where
  length : slots.length = ids.length
  slot : ∀ (i : Nat) (id : ObjectId), ids[i]? = some id →
    ((course.state t).pending id = true ∧ slots[i]? = some (.error (.ObjectPending id))) ∨
    ((course.state t).pending id = false ∧ ∃ answer, Resolves (course.state t) id answer ∧
      slots[i]? = some (answer.bind (course.site t).payload_bytes))

theorem Gathered.of_read (read : List.Forall₂ (Resolves (course.state t)) ids answers) :
    Gathered course ids t (answers.map fun answer => answer.bind (course.site t).payload_bytes) := by
  refine ⟨by rw [List.length_map,read.length_eq],fun i id asked => ?_⟩
  obtain ⟨answer,found,resolves⟩ : ∃ answer, answers[i]? = some answer ∧ Resolves (course.state t) id answer := by
    obtain ⟨inside,rfl⟩ := List.getElem?_eq_some_iff.mp asked
    have inside' : i < answers.length := read.length_eq ▸ inside
    exact ⟨answers[i],List.getElem?_eq_getElem inside',read.get inside inside'⟩
  have slot : (answers.map fun answer => answer.bind (course.site t).payload_bytes)[i]? =
      some (answer.bind (course.site t).payload_bytes) := by rw [List.getElem?_map,found,Option.map_some]
  cases pending : (course.state t).pending id with
  | false => exact .inr ⟨rfl,answer,resolves,slot⟩
  | true =>
    obtain rfl := (EStateM.Result.ok.inj (resolves.symm.trans (resolves_pending pending))).1
    exact .inl ⟨rfl,slot⟩

/-- The overflow error is no answer of an object. -/
theorem Gathered.whole (gathered : Gathered course ids t (answers.map fun answer => answer.bind (course.site t).payload_bytes)) :
    overflow ∉ answers := by
  intro member
  obtain ⟨i,found⟩ := List.mem_iff_getElem?.mp member
  have inside : i < ids.length := by
    have length := gathered.length
    rw [List.length_map] at length
    exact length ▸ (List.getElem?_eq_some_iff.mp found).1
  have slot := gathered.slot i ids[i] (List.getElem?_eq_getElem inside)
  rw [List.getElem?_map,found,Option.map_some] at slot
  rcases slot with ⟨_,same⟩ | ⟨_,answer,resolves,same⟩
  · cases same
  · have same := (Option.some.inj same).symm
    cases answer with
    | ok payload => exact Site.payload_bytes_not rfl same
    | error error =>
      obtain rfl : error = .CapacityExceeded _ := Except.error.inj same
      exact resolves.not_overflow

/-- A wait for a batch returns the slots as they are when enough objects have resolved, or else when the timeout is over,
    exactly if the timeout is positive and the clock can count to its end, enough objects resolve within it, and the server
    then gives every object a slot of its own. -/
theorem wait_bytes_many_resolves (course : Course) (ids : List ObjectId) (min_ready timeout now : Nat) :
    (∃ t slots, course.wait_bytes_many ids min_ready timeout now = (t,.ok slots) ∧ Gathered course ids t slots ∧
      (First (course.enough ids (min min_ready ids.length)) now t ∧ t ≤ now + timeout ∨
        t = now + timeout ∧ ∀ u, now ≤ u → u ≤ t → course.enough ids (min min_ready ids.length) u = false)) ↔
    0 < timeout ∧ now + timeout < INSTANT_END ∧ ∃ r, First (course.enough ids (min min_ready ids.length)) now r ∧
      r ≤ now + timeout ∧ Roomy (course.state r) ids := by
  constructor
  · rintro ⟨t,slots,returned,gathered,ends⟩
    obtain ⟨clock,results,fetched,rfl⟩ := wait_bytes_many_ok returned
    obtain ⟨early,replied,many⟩ := fetch_rounds_ok fetched
    have starts := batch_starts replied
    obtain ⟨results',again,filled,ready⟩ := course.batch_filled starts t
    obtain rfl := ClientReply.ObjectBatch.inj (Except.ok.inj (replied.symm.trans again))
    obtain ⟨read,fit⟩ := filled.fit gathered.whole
    rw [ready] at many
    rcases ends with ⟨first,in_time⟩ | ⟨rfl,never⟩
    · exact ⟨by omega,clock,t,first,in_time,starts,results,read,fit⟩
    · have few := never (now + timeout) (Nat.le_add_right _ _) le_rfl
      exact absurd many (of_decide_eq_false few)
  · rintro ⟨positive,clock,r,first,in_time,starts,answers,read,fit⟩
    have short := starts.short
    obtain ⟨results,filled,fetched⟩ := (fetch_rounds_turn course _ starts (by omega)).resolves first in_time (by omega)
      (show now + timeout - now < timeout + 1 by omega)
    obtain rfl := filled.roomy read fit
    exact ⟨r,_,wait_bytes_many_of clock fetched,.of_read read,.inl ⟨first,in_time⟩⟩

end Course

namespace Course
open CoordinatorState CoordinatorServer Polling

/-- What is read of the two objects before the report, and after it. -/
theorem running_read : List.Forall₂ (Resolves runningState) [System.abcId,smallOutput]
    [.ok (Site.abcPayload (some System.abc)),.error (.ObjectPending smallOutput)] :=
  .cons (Outcome.eq_ok (by decide +kernel)) (.cons (Outcome.eq_ok (by decide +kernel)) .nil)

theorem finished_read : List.Forall₂ (Resolves finishedState) [System.abcId,smallOutput]
    [.ok (Site.abcPayload (some System.abc)),
      .ok ⟨smallOutput,.JsonV1,3,System.abcDigest,"host:1",some System.abc,none⟩] :=
  .cons (Outcome.eq_ok (by decide +kernel)) (.cons (Outcome.eq_ok (by decide +kernel)) .nil)

theorem finishing_roomy (finish t : Nat) : Roomy ((finishing finish).state t) [System.abcId,smallOutput] := by
  refine ⟨show _ ≤ _ by decide +kernel,?_⟩
  rw [finishing_state]
  split
  · exact ⟨_,running_read,by decide +kernel,by decide +kernel,trivial⟩
  · exact ⟨_,finished_read,by decide +kernel,by decide +kernel,trivial⟩

theorem finishing_enough (finish t : Nat) :
    (finishing finish).enough [System.abcId,smallOutput] 2 t = decide (finish ≤ t) := by
  have running : runningState.pending System.abcId = false := by decide +kernel
  have finished : finishedState.pending System.abcId = false := by decide +kernel
  have stored : (finishing finish).resolved System.abcId t = true := by
    rw [resolved,finishing_state]
    split
    · rw [running]; rfl
    · rw [finished]; rfl
  by_cases late : finish ≤ t
  · simp [enough,stored,finishing_resolved,late]
  · simp [enough,stored,finishing_resolved,late]

/-- Both objects are there after two milliseconds, and are returned then. -/
theorem finishing_gathered : ∃ slots,
    (finishing (from_millis 2)).wait_bytes_many [System.abcId,smallOutput] 2 (from_millis 10) 0 = (from_millis 2,.ok slots) ∧
      Gathered (finishing (from_millis 2)) [System.abcId,smallOutput] (from_millis 2) slots := by
  have first : First ((finishing (from_millis 2)).enough [System.abcId,smallOutput] (min 2 2)) 0 (from_millis 2) :=
    ⟨Nat.zero_le _,by simp [finishing_enough],fun t _ early => by simpa [finishing_enough] using early⟩
  obtain ⟨t,slots,returned,gathered,⟨again,_⟩ | ⟨rfl,never⟩⟩ := (wait_bytes_many_resolves (finishing (from_millis 2))
    [System.abcId,smallOutput] 2 (from_millis 10) 0).mpr
      ⟨by decide,by decide,from_millis 2,first,by decide,finishing_roomy _ _⟩
  · obtain rfl := again.unique first
    exact ⟨slots,returned,gathered⟩
  · have few := never (from_millis 2) (Nat.zero_le _) (by decide)
    cases first.now.symm.trans few

/-- A stored object is not returned when the timeout is zero, nor when the other object of the batch is still pending at the
    end of the timeout, although a get returns its bytes at the same instant. -/
theorem gathering_fails :
    ((finishing (from_millis 5000)).get_bytes System.abcId 0 = (0,.ok (.RawBytes,System.abc)) ∧
      (finishing (from_millis 5000)).wait_bytes_many [System.abcId] 1 0 0 = (0,.error (.Err .DeadlineExceeded))) ∧
    (finishing (from_millis 5000)).get_bytes System.abcId (from_millis 10) = (from_millis 10,.ok (.RawBytes,System.abc)) ∧
      (finishing (from_millis 5000)).wait_bytes_many [System.abcId,smallOutput] 2 (from_millis 10) 0 =
        (from_millis 10,.error (.Err .DeadlineExceeded)) := by
  have got : ∀ t, t < from_millis 5000 →
      (finishing (from_millis 5000)).get_bytes System.abcId t = (t,.ok (.RawBytes,System.abc)) := fun t early => by
    have running : (finishing (from_millis 5000)).state t = runningState := by rw [finishing_state,if_pos early]
    have resolves : Resolves ((finishing (from_millis 5000)).state t) System.abcId
        (.ok (Site.abcPayload (some System.abc))) := running ▸ (List.forall₂_cons.mp running_read).1
    rw [get_bytes_eq resolves]
    rfl
  refine ⟨⟨got 0 (by decide),rfl⟩,got _ (by decide),?_⟩
  refine (wait_bytes_many_fails (by decide) ((fetch_rounds_turn _ _ (finishing_roomy 0 0).1 (by decide)).expires
    (fetch_rounds_late _ _ _ _) 10 rfl (fun t _ early => ?_) (by decide))).trans ?_
  · have late : from_millis 10 < from_millis 5000 := by decide
    simp only [List.length_cons,List.length_nil,Nat.zero_add,Nat.reduceAdd,Nat.min_self,finishing_enough,
      decide_eq_false_iff_not]
    omega
  · rw [Nat.zero_add]

end Course
end Crayon
