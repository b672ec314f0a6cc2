import Crayon.Changes
import Crayon.Runs

/-!
The records of available objects: where they come from, and what is known of
them. An object was put by a client, or delivered by a worker that had
registered an accepted address; the bytes kept with a record have the size and
the digest that the record tells (`Certified`).
-/
namespace Crayon.CoordinatorState
open Command

/-- Every worker has an address that was accepted. -/
def Addressed (s : CoordinatorState) : Prop :=
  ∀ node worker, s.workers.get node = some worker → validate_advertise_addr worker.advertise_addr = .ok ()

variable {s s' : CoordinatorState}

theorem Move.addressed {op : Op} (move : Move op s s') (addressed : Addressed s) : Addressed s' :=
  move.workers addressed (fun _ _ enrolled => enrolled.address) (fun _ _ held => held) (fun _ held => held)
    (fun _ _ _ held => held) (fun _ _ _ held => held)

/-- What holds of every object that is put or delivered, and survives the loss of its owner,
    holds of all available objects. -/
theorem Move.available {op : Op} (move : Move op s s') (inv : Consistent s) {P : ObjectId → ObjectRecord → Prop}
    (before : ∀ id object, s.objects.get id = some object → object.state = .Available → P id object)
    (stored : ∀ id codec size_bytes checksum bytes, op = .storing id codec size_bytes checksum bytes →
      P id (put_record id codec size_bytes checksum bytes))
    (delivered : ∀ id object identity report worker, op = .complete identity report →
      s.workers.get identity.node_id = some worker → report.location = worker.advertise_addr →
      report.size_bytes ≤ UInt64.ofNat MAX_OBJECT_BYTES → P id (reported_output identity report object))
    (orphaned : ∀ id object bytes, object.bytes = some bytes → P id object →
      P id { object with owner := none, location := some "coordinator" }) :
    ∀ id object, s'.objects.get id = some object → object.state = .Available → P id object := by
  intro id object found available
  have step := move.object inv id
  rw [found] at step
  cases there : s.objects.get id with
  | none =>
    rw [there] at step
    cases step with
    | stored source => exact stored id _ _ _ _ source
    | reserved codec drawn => cases available
  | some old =>
    rw [there] at step
    cases step with
    | kept => exact before id object there available
    | delivered reserved asked at_worker location small => exact delivered id old _ _ _ asked at_worker location small
    | ended reserved final =>
      rcases final with rfl | rfl
      · cases available
      · cases available
    | orphaned node =>
      rcases orphan_cases node old with ⟨same,_⟩ | ⟨_,was,⟨⟨bytes,inline⟩,same⟩ | ⟨_,same⟩⟩
      · rw [same] at available ⊢
        exact before id old there available
      · rw [same]
        exact orphaned id old bytes inline (before id old there was)
      · rw [same] at available
        cases available

/-- An object that an operation brings in has an id that it draws, or one that it stores under. -/
theorem Move.objects {op : Op} (move : Move op s s') {id : ObjectId} (there : id ∈ s'.objects.keys) :
    id ∈ s.objects.keys ∨ .object id ∈ op.minted ∨ ∃ codec size_bytes checksum bytes,
      op = .storing id codec size_bytes checksum bytes := by
  cases move with
  | @store id' codec size_bytes checksum bytes absent source =>
    rw [Table.keys_insert,Finset.mem_insert] at there
    rcases there with rfl | old
    · exact .inr (.inr ⟨codec,size_bytes,checksum,bytes,source⟩)
    · exact .inl old
  | submit codec newTask unqueued newOutput submitted =>
    rw [Table.keys_insert,Finset.mem_insert] at there
    rcases there with rfl | old
    · exact .inr (.inl submitted.drawn)
    · exact .inl old
  | release pending_deletes found settled unused => exact .inl (Finset.mem_of_mem_erase there)
  | _ => exact .inl there

section
variable {s : CoordinatorState} {op : Op} (blake3 : List UInt8 → Checksum) (order : HashOrder)

/-- The bytes that a report brings have the size and the digest it tells. -/
def Verified (report : TaskCompletion) : Prop :=
  (report.bytes.all fun bytes => UInt64.ofNat bytes.length = report.size_bytes && blake3 bytes = report.checksum) = true

/-- The same over a whole operation, with what is then known of what is put and delivered. -/
theorem apply_available (inv : Inv s) (newTo : op.NewTo s) (addressed : Addressed s) {P : ObjectId → ObjectRecord → Prop}
    (before : ∀ id object, s.objects.get id = some object → object.state = .Available → P id object)
    (put : ∀ codec bytes, op = .put codec bytes → P (.from_checksum (blake3 bytes))
      (put_record (.from_checksum (blake3 bytes)) codec (.ofNat bytes.length) (blake3 bytes) (some bytes)))
    (put_meta : ∀ id codec size_bytes checksum, op = .put_meta id codec size_bytes checksum →
      P id (put_record id codec size_bytes checksum none))
    (delivered : ∀ id object identity report, op = .complete identity report → Verified blake3 report →
      validate_advertise_addr report.location = .ok () → report.size_bytes ≤ UInt64.ofNat MAX_OBJECT_BYTES →
      P id (reported_output identity report object))
    (orphaned : ∀ id object bytes, object.bytes = some bytes → P id object →
      P id { object with owner := none, location := some "coordinator" }) :
    ∀ id object, (Outcome.state (apply blake3 order op s)).objects.get id = some object → object.state = .Available →
      P id object := by
  refine apply_keeps blake3 order inv (P := fun t => ∀ id object, t.objects.get id = some object →
    object.state = .Available → P id object) before fun reply s' effect => ?_
  -- The moves of an operation do not tell the digest of what is put, nor that a report was verified.
  have moved : (∀ codec bytes, op ≠ .put codec bytes) →
      (∀ identity report, op = .complete identity report → Verified blake3 report) →
      ∀ id object, s'.objects.get id = some object → object.state = .Available → P id object := by
    intro noPut verified
    refine ((effect.moves newTo).keeps (P := fun t => Consistent t ∧ Addressed t ∧ ∀ id object,
      t.objects.get id = some object → object.state = .Available → P id object) (fun t t' move now => ?_)
      ⟨inv.consistent,addressed,before⟩).2.2
    refine ⟨move.consistent now.1,move.addressed now.2.1,move.available now.1 now.2.2 ?_ ?_ orphaned⟩
    · intro id codec size_bytes checksum bytes source
      cases bytes with
      | none => exact put_meta id codec size_bytes checksum source
      | some inline => exact absurd source (noPut codec inline)
    · intro id object identity report worker asked there location small
      exact delivered id object identity report asked (verified identity report asked)
        (location ▸ now.2.1 identity.node_id worker there) small
  cases effect with
  | put admitted =>
    intro id object found available
    cases admitted with
    | known => exact before id object found available
    | stored absent =>
      rw [Table.get_insert] at found
      split at found
      · rename_i same
        obtain rfl := Option.some.inj found
        exact same ▸ put _ _ rfl
      · exact before id object found available
  | completed_before => exact before
  | completed current matching found state at_worker living offered verified =>
    refine moved nofun fun identity' report' same => ?_
    obtain ⟨-,rfl⟩ := Op.complete.inj same
    exact verified
  | _ => exact moved nofun nofun

theorem apply_addressed (inv : Inv s) (newTo : op.NewTo s) (addressed : Addressed s) :
    Addressed (Outcome.state (apply blake3 order op s)) :=
  (apply_moves blake3 order inv newTo).keeps (fun _ _ move => move.addressed) addressed

/-! ### What records tell -/

/-- The bytes kept with a record have its size and digest and are small, and an object that is
    not at the coordinator is small and at an address with a port. -/
structure Certified (object : ObjectRecord) : Prop where
  inline : ∀ bytes, object.bytes = some bytes → object.size_bytes = some (.ofNat bytes.length) ∧
    object.checksum = some (blake3 bytes) ∧ UInt64.ofNat bytes.length ≤ UInt64.ofNat MAX_OBJECT_BYTES
  place : object.location = some "coordinator" ∨ ∃ location size_bytes, object.location = some location ∧
    ':' ∈ location.toList ∧ object.size_bytes = some size_bytes ∧ size_bytes ≤ UInt64.ofNat MAX_OBJECT_BYTES

/-- All available objects are certified. -/
def Filed (s : CoordinatorState) : Prop :=
  ∀ id object, s.objects.get id = some object → object.state = .Available → Certified blake3 object

/-- An operation that puts no more bytes than one frame takes. -/
def Op.Modest : Op → Prop
  | .put _ bytes => bytes.length ≤ MAX_OBJECT_BYTES
  | _ => True

theorem Certified.orphaned {object : ObjectRecord} (certified : Certified blake3 object) :
    Certified blake3 { object with owner := none, location := some "coordinator" } :=
  ⟨certified.inline,.inl rfl⟩

theorem certified_meta (id : ObjectId) (codec : Codec) (size_bytes : UInt64) (checksum : Checksum) :
    Certified blake3 (put_record id codec size_bytes checksum none) :=
  ⟨nofun,.inl rfl⟩

theorem certified_put (id : ObjectId) (codec : Codec) {bytes : List UInt8} (short : bytes.length ≤ MAX_OBJECT_BYTES) :
    Certified blake3 (put_record id codec (.ofNat bytes.length) (blake3 bytes) (some bytes)) := by
  refine ⟨fun inline same => ?_,.inl rfl⟩
  obtain rfl := Option.some.inj same
  refine ⟨rfl,rfl,UInt64.le_iff_toNat_le.mpr ?_⟩
  have limit : MAX_OBJECT_BYTES < 2^64 := by decide
  rw [UInt64.toNat_ofNat_of_lt' (short.trans_lt limit),UInt64.toNat_ofNat_of_lt' limit]
  exact short

/-- What a verified report delivers is certified. -/
theorem certified_report {identity : WorkerIdentity} {report : TaskCompletion} (object : ObjectRecord)
    (verified : Verified blake3 report) (address : validate_advertise_addr report.location = .ok ())
    (small : report.size_bytes ≤ UInt64.ofNat MAX_OBJECT_BYTES) :
    Certified blake3 (reported_output identity report object) := by
  constructor
  · intro bytes inline
    have inline : report.bytes = some bytes := inline
    unfold Verified at verified
    rw [inline] at verified
    obtain ⟨size,digest⟩ : UInt64.ofNat bytes.length = report.size_bytes ∧ blake3 bytes = report.checksum := by
      simpa using verified
    rw [size,digest]
    exact ⟨rfl,rfl,small⟩
  · exact .inr ⟨report.location,report.size_bytes,rfl,validate_advertise_addr_colon address,rfl,small⟩

/-- Every operation leaves the available objects certified. -/
theorem apply_filed (inv : Inv s) (newTo : op.NewTo s) (addressed : Addressed s) (filed : Filed blake3 s)
    (modest : op.Modest) : Filed blake3 (Outcome.state (apply blake3 order op s)) := by
  refine apply_available blake3 order inv newTo addressed filed ?_ ?_ ?_ fun _ _ _ _ kept => kept.orphaned
  · rintro codec bytes rfl
    exact certified_put blake3 _ codec modest
  · exact fun id codec size_bytes checksum _ => certified_meta blake3 id codec size_bytes checksum
  · exact fun id object identity report _ verified address small => certified_report blake3 object verified address small

end
end Crayon.CoordinatorState
