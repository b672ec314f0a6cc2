import Crayon.Custody

/-!
The reply to a batch of gets. The loop spends the bytes of a frame one slot after
the other and keeps enough of them back to give every slot still to come the
overflow error (`Filled`); so the reply fits a frame whatever the objects are, and
a slot gives way to the overflow error only when there was no room for it.
-/
namespace Crayon

/-- The lengths of encoded replies. Those of a batch and of an error are the sums that bincode
    makes of their parts; nothing is said of the other replies. -/
structure Lengths where
  reply : ClientReply → Nat
  batch : ∀ results, reply (.ObjectBatch results) = Bincode.fixint.batch + (results.map Bincode.fixint.slot).sum
  error : ∀ error, reply (.Error error) = 4 + 4 + error.encoded_len

namespace CoordinatorServer
open CoordinatorState Command
variable {bincode : Bincode} {state state' : CoordinatorState} {objects : List ObjectId} {used : Nat}
  {results : List (Except Error ObjectPayload)} {s : CoordinatorServer}

/-- What the objects of a batch resolve to is what the object resolves to alone. -/
def Resolves (state : CoordinatorState) (id : ObjectId) (answer : Except Error ObjectPayload) : Prop :=
  attempt (resolve_object id) state = .ok answer state

/-- The bytes needed when a slot is filled and all slots after it overflow. -/
def needed (bincode : Bincode) (used : Nat) (answer : Except Error ObjectPayload) (remaining : Nat) : Nat :=
  used + bincode.slot answer + remaining * bincode.slot overflow

/-- The slots that the loop fills for the objects when some bytes are used already. -/
inductive Filled (bincode : Bincode) (state : CoordinatorState) :
    List ObjectId → Nat → List (Except Error ObjectPayload) → Prop where
  | nil (used : Nat) : Filled bincode state [] used []
  | kept {id : ObjectId} {rest : List ObjectId} {used : Nat} {answer : Except Error ObjectPayload}
      {results : List (Except Error ObjectPayload)} (resolves : Resolves state id answer)
      (fits : needed bincode used answer rest.length ≤ MAX_FRAME_BYTES)
      (others : Filled bincode state rest (used + bincode.slot answer) results) :
      Filled bincode state (id :: rest) used (answer :: results)
  | replaced {id : ObjectId} {rest : List ObjectId} {used : Nat} {answer : Except Error ObjectPayload}
      {results : List (Except Error ObjectPayload)} (resolves : Resolves state id answer)
      (large : MAX_FRAME_BYTES < needed bincode used answer rest.length)
      (others : Filled bincode state rest (used + bincode.slot overflow) results) :
      Filled bincode state (id :: rest) used (overflow :: results)

/-- No sum that fits a frame saturates. -/
theorem fits_iff (a b c : Nat) :
    saturating_add (saturating_add a b) (saturating_mul c (bincode.slot overflow)) ≤ MAX_FRAME_BYTES ↔
      a + b + c * bincode.slot overflow ≤ MAX_FRAME_BYTES := by
  have limit : MAX_FRAME_BYTES < 2^64 - 1 := by decide
  rw [saturating_add,saturating_add,saturating_mul]
  omega

theorem resolves_of_attempt {id : ObjectId} {answer : Except Error ObjectPayload}
    (ran : attempt (resolve_object id) state = .ok answer state') : state' = state ∧ Resolves state id answer := by
  have quiet := state_attempt (resolve_object id) state
  rw [ran,resolve_object_quiet] at quiet
  obtain rfl : state' = state := quiet
  exact ⟨rfl,ran⟩

/-- What the loop returns is filled so. -/
theorem batch_slots_filled (ran : batch_slots bincode objects used state = .ok results state') :
    Filled bincode state objects used results := by
  induction objects generalizing used results state' with
  | nil =>
    obtain ⟨rfl,_⟩ := EStateM.Result.ok.inj ran
    exact .nil used
  | cons id rest ih =>
    obtain ⟨answer,t,first,next⟩ := bind_ok ran
    obtain ⟨rfl,resolves⟩ := resolves_of_attempt first
    split at next
    · rename_i fits
      obtain ⟨tail,_,others,done⟩ := bind_ok next
      obtain ⟨rfl,_⟩ := EStateM.Result.ok.inj done
      exact .kept resolves ((fits_iff _ _ _).mp fits) (ih others)
    · rename_i large
      obtain ⟨tail,_,others,done⟩ := bind_ok next
      obtain ⟨rfl,_⟩ := EStateM.Result.ok.inj done
      exact .replaced resolves (Nat.lt_of_not_le fun fits => large ((fits_iff _ _ _).mpr fits)) (ih others)

/-- The loop returns when no object makes it panic. -/
theorem batch_slots_returns (clean : ∀ id, Outcome.Clean (resolve_object id state)) (objects : List ObjectId) (used : Nat) :
    ∃ results, batch_slots bincode objects used state = .ok results state := by
  induction objects generalizing used with
  | nil => exact ⟨[],rfl⟩
  | cons id rest ih =>
    have answered : ∃ answer t, attempt (resolve_object id) state = .ok answer t := by
      have ends := clean id
      rw [attempt]
      cases ran : resolve_object id state with
      | ok payload t => exact ⟨_,_,rfl⟩
      | error fault t =>
        rw [ran] at ends
        cases fault with
        | Err error => exact ⟨_,_,rfl⟩
        | _ => exact ends.elim
    obtain ⟨answer,t,first⟩ := answered
    obtain ⟨rfl,_⟩ := resolves_of_attempt first
    rw [batch_slots,bind_apply,first]
    by_cases fits : saturating_add (saturating_add used (bincode.slot answer))
        (saturating_mul rest.length (bincode.slot overflow)) ≤ MAX_FRAME_BYTES
    · obtain ⟨results,ran⟩ := ih (used + bincode.slot answer)
      exact ⟨answer :: results,by simp only [fits,if_true,bind_apply,ran,pure_apply]⟩
    · obtain ⟨results,ran⟩ := ih (used + bincode.slot overflow)
      exact ⟨overflow :: results,by simp only [fits,if_false,bind_apply,ran,pure_apply]⟩

theorem Filled.length (filled : Filled bincode state objects used results) : results.length = objects.length := by
  induction filled with
  | nil => rfl
  | kept _ _ _ ih => simp [ih]
  | replaced _ _ _ ih => simp [ih]

/-- Overflow errors for the rest fit the frame at every turn, so that all slots do in the end. -/
theorem Filled.fits (filled : Filled bincode state objects used results)
    (room : used + objects.length * bincode.slot overflow ≤ MAX_FRAME_BYTES) :
    used + (results.map bincode.slot).sum ≤ MAX_FRAME_BYTES := by
  induction filled with
  | nil used => simpa using room
  | @kept id rest used answer results _ fits _ ih =>
    have bounded := ih fits
    simp only [List.map_cons,List.sum_cons]
    omega
  | @replaced id rest used answer results _ _ _ ih =>
    rw [List.length_cons,Nat.add_mul,Nat.one_mul] at room
    have bounded := ih (by omega)
    simp only [List.map_cons,List.sum_cons]
    omega

/-- A slot has what its object resolves to, or else the overflow error, and then the slots
    before it had left too little room. -/
theorem Filled.slot (filled : Filled bincode state objects used results) {i : Nat} {id : ObjectId}
    (asked : objects[i]? = some id) :
    ∃ answer, Resolves state id answer ∧ (results[i]? = some answer ∨ (results[i]? = some overflow ∧
      MAX_FRAME_BYTES < needed bincode (used + ((results.take i).map bincode.slot).sum) answer (objects.length - i - 1))) := by
  induction filled generalizing i with
  | nil => cases asked
  | @kept first rest used answer results resolves fits others ih =>
    cases i with
    | zero =>
      obtain rfl := Option.some.inj asked
      exact ⟨answer,resolves,.inl rfl⟩
    | succ i =>
      obtain ⟨answer',resolves',slot⟩ := ih asked
      refine ⟨answer',resolves',slot.imp_right fun ⟨gone,large⟩ => ⟨gone,?_⟩⟩
      simpa [Nat.add_assoc] using large
  | @replaced first rest used answer results resolves large others ih =>
    cases i with
    | zero =>
      obtain rfl := Option.some.inj asked
      exact ⟨answer,resolves,.inr ⟨rfl,by simpa using large⟩⟩
    | succ i =>
      obtain ⟨answer',resolves',slot⟩ := ih asked
      refine ⟨answer',resolves',slot.imp_right fun ⟨gone,large⟩ => ⟨gone,?_⟩⟩
      simpa [Nat.add_assoc] using large

/-- The slots of a batch as its client sees them. -/
structure Batch (bincode : Bincode) (state : CoordinatorState) (objects : List ObjectId)
    (results : List (Except Error ObjectPayload)) : Prop where
  length : results.length = objects.length
  slot : ∀ i id, objects[i]? = some id → ∃ answer, Resolves state id answer ∧ (results[i]? = some answer ∨
    (results[i]? = some overflow ∧ MAX_FRAME_BYTES <
      needed bincode (bincode.batch + ((results.take i).map bincode.slot).sum) answer (objects.length - i - 1)))

/-- How the server answers a get of a batch. -/
theorem get_batch_ends (inv : Inv s.state) (objects : List ObjectId) :
    (MAX_FRAME_BYTES < Bincode.fixint.batch + objects.length * Bincode.fixint.slot overflow ∧
        get_batch .fixint objects s = .ok (.Error (.CapacityExceeded "get batch response too large")) s) ∨
      Bincode.fixint.batch + objects.length * Bincode.fixint.slot overflow ≤ MAX_FRAME_BYTES ∧
        ∃ results, get_batch .fixint objects s = .ok (.ObjectBatch results) s ∧
          Filled .fixint s.state objects Bincode.fixint.batch results := by
  have limit : MAX_FRAME_BYTES < 2^64 - 1 := by decide
  have starts : saturating_add Bincode.fixint.batch (saturating_mul (Bincode.fixint.slot overflow) objects.length) >
      MAX_FRAME_BYTES ↔ MAX_FRAME_BYTES < Bincode.fixint.batch + objects.length * Bincode.fixint.slot overflow := by
    rw [saturating_add,saturating_mul,Nat.mul_comm objects.length]
    omega
  by_cases large : MAX_FRAME_BYTES < Bincode.fixint.batch + objects.length * Bincode.fixint.slot overflow
  · exact .inl ⟨large,by simp only [get_batch,starts.mpr large,if_true,pure_apply]⟩
  · obtain ⟨results,ran⟩ := batch_slots_returns (resolve_object_clean inv) objects Bincode.fixint.batch
    refine .inr ⟨Nat.le_of_not_lt large,results,?_,batch_slots_filled ran⟩
    simp only [get_batch,mt starts.mp large,if_false,bind_apply,on_state,within,ran,pure_apply]

/-- A get of a batch is answered with one slot for each object, or with one error when not even the
    overflow errors fit; and the reply fits a frame. -/
theorem get_batch_fits {blake3 : List UInt8 → Checksum} {epoch : CoordinatorEpoch} {past : List Step}
    (run : Run blake3 epoch past s.state) (lengths : Lengths) (env : Env) (objects : List ObjectId) :
    ∃ reply, dispatch_client blake3 .fixint env (.GetBatch objects) s = .ok reply s ∧
      lengths.reply reply ≤ MAX_FRAME_BYTES ∧
      ((reply = .Error (.CapacityExceeded "get batch response too large") ∧
          MAX_FRAME_BYTES < Bincode.fixint.batch + objects.length * Bincode.fixint.slot overflow) ∨
        ∃ results, reply = .ObjectBatch results ∧ Batch .fixint s.state objects results) := by
  rcases get_batch_ends run.inv objects with ⟨large,ran⟩ | ⟨room,results,ran,filled⟩
  · refine ⟨_,ran,?_,.inl ⟨rfl,large⟩⟩
    rw [lengths.error]
    decide
  · refine ⟨.ObjectBatch results,ran,?_,.inr ⟨results,rfl,filled.length,fun i id => filled.slot⟩⟩
    rw [lengths.batch]
    exact filled.fits room

/-- Lengths that are nothing for other replies. -/
def smallLengths : Lengths where
  reply
    | .ObjectBatch results => Bincode.fixint.batch + (results.map Bincode.fixint.slot).sum
    | .Error error => 4 + 4 + error.encoded_len
    | _ => 0
  batch _ := rfl
  error _ := rfl

/-- Some bytes are put. -/
def filledServer (bytes : List UInt8) : CoordinatorServer :=
  ⟨Outcome.state (apply smallHash .by_id (.put .RawBytes bytes) (.new smallEpoch)),.new "",smallEpoch,5000,false⟩

def filledPayload (bytes : List UInt8) : ObjectPayload :=
  ⟨.from_checksum (.replicate 32 0),.RawBytes,.ofNat bytes.length,.replicate 32 0,"coordinator",some bytes,none⟩

/-- Twice the same five million bytes do not fit a frame: the first slot has them, the second has an error of its own, and the
    third gives way to the overflow error. -/
theorem small_batch_fits : ∃ bytes, bytes.length = 5000000 ∧
    dispatch_client smallHash .fixint (System.smallEnv 1)
        (.GetBatch [.from_checksum (.replicate 32 0),smallOutput,.from_checksum (.replicate 32 0)]) (filledServer bytes) =
      .ok (.ObjectBatch [.ok (filledPayload bytes),.error (.Protocol "object unavailable"),overflow]) (filledServer bytes) ∧
    smallLengths.reply (.ObjectBatch [.ok (filledPayload bytes),.error (.Protocol "object unavailable"),overflow]) ≤
      MAX_FRAME_BYTES := by
  obtain ⟨bytes,long⟩ : ∃ bytes : List UInt8, bytes.length = 5000000 := ⟨.replicate 5000000 0,List.length_replicate⟩
  have run : Run smallHash smallEpoch [_] (filledServer bytes).state :=
    .step .start .by_id (.put .RawBytes bytes) (by rintro _ ⟨⟩)
  obtain ⟨reply,ran,fits,⟨_,large⟩ | ⟨results,rfl,batch⟩⟩ := get_batch_fits (s := filledServer bytes) run smallLengths
    (System.smallEnv 1) [.from_checksum (.replicate 32 0),smallOutput,.from_checksum (.replicate 32 0)]
  · exact absurd large (by decide)
  have there : Resolves (filledServer bytes).state (.from_checksum (.replicate 32 0)) (.ok (filledPayload bytes)) := rfl
  have missing : Resolves (filledServer bytes).state smallOutput (.error (.Protocol "object unavailable")) := rfl
  have size : Bincode.fixint.slot (.ok (filledPayload bytes)) = 5000109 := by
    have place : "coordinator".utf8ByteSize = 11 := rfl
    simp only [Bincode.fixint,ObjectPayload.encoded_len,filledPayload,Option.elim,long,place]
  obtain ⟨a,b,c,rfl⟩ := List.length_eq_three.mp batch.length
  obtain ⟨_,resolves₀,slot₀⟩ := batch.slot 0 _ rfl
  obtain ⟨_,resolves₁,slot₁⟩ := batch.slot 1 _ rfl
  obtain ⟨_,resolves₂,slot₂⟩ := batch.slot 2 _ rfl
  obtain rfl := (EStateM.Result.ok.inj (there.symm.trans resolves₀)).1
  obtain rfl := (EStateM.Result.ok.inj (missing.symm.trans resolves₁)).1
  obtain rfl := (EStateM.Result.ok.inj (there.symm.trans resolves₂)).1
  have sizes : Bincode.fixint.slot overflow = 44 ∧ Bincode.fixint.batch = 16 ∧ MAX_FRAME_BYTES = 8388608 ∧
    Bincode.fixint.slot (.error (.Protocol "object unavailable")) = 34 := by decide
  obtain rfl : a = .ok (filledPayload bytes) := by simpa [needed,size,sizes] using slot₀
  obtain rfl : b = .error (.Protocol "object unavailable") := by simpa [needed,size,sizes] using slot₁
  obtain rfl : c = overflow := by
    rcases slot₂ with kept | ⟨gone,_⟩
    · obtain rfl : c = .ok (filledPayload bytes) := by simpa using kept
      simp [smallLengths,size,sizes] at fits
    · simpa using gone
  exact ⟨bytes,long,ran,fits⟩

end CoordinatorServer
end Crayon
