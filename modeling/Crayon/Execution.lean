import Crayon.Waiting
import Crayon.Worker

/-!
What a worker does with an assignment: it fetches the inputs one after the other,
applies the operation that its registry has under the key, stores the output and
reports it. A registry that was filled by `register` describes every operation once,
so that a coordinator lists for its worker what was registered, and the worker has an
operation for whatever is listed (`registry_enlisted`). The bytes that a client accepts
as those of an object are the ones that its record tells of (`get_bytes_verified`).
-/
namespace Crayon

/-! ### Operations of a worker -/

/-- What an operation does with its inputs. -/
abbrev OperationFn := List (List UInt8) → Except Error Buffer

structure OperationRegistry where
  entries : Table OperationKey (OperationDescriptor × OperationFn)

namespace OperationRegistry

def default : OperationRegistry := ⟨.empty⟩

def register (self : OperationRegistry) (descriptor : OperationDescriptor) (operation : OperationFn) :
    Except Error OperationRegistry := do
  descriptor.validate
  if (self.entries.get descriptor.key).isSome then .error (.OperationConflict descriptor.key.to_string)
  else .ok ⟨self.entries.insert descriptor.key (descriptor,operation)⟩

/-- The descriptors, in the order in which the hash table has them. -/
def descriptors (self : OperationRegistry) (order : Traversal OperationKey) : List OperationDescriptor :=
  (self.entries.values order).map (·.1)

def descriptor (self : OperationRegistry) (key : OperationKey) : Option OperationDescriptor :=
  (self.entries.get key).map (·.1)

def execute (self : OperationRegistry) (assignment : TaskAssignment) (inputs : List (List UInt8)) : Except Error Buffer :=
  match self.entries.get assignment.operation with
  | none => .error (.OperationUnavailable assignment.operation.to_string)
  | some (_,op) => op inputs

/-- Registers operations one after the other, up to the first one that is refused. -/
def register_all (self : OperationRegistry) (registrations : List (OperationDescriptor × OperationFn)) :
    Except Error OperationRegistry :=
  registrations.foldlM (fun registry entry => registry.register entry.1 entry.2) self

variable {self next : OperationRegistry}

theorem register_ok {descriptor : OperationDescriptor} {operation : OperationFn}
    (registered : self.register descriptor operation = .ok next) :
    descriptor.validate = .ok () ∧ self.entries.get descriptor.key = none ∧
      next = ⟨self.entries.insert descriptor.key (descriptor,operation)⟩ := by
  obtain ⟨_,valid,added⟩ := except_bind_ok registered
  split at added
  · cases added
  · rename_i vacant
    cases added
    exact ⟨valid,by simpa using vacant,rfl⟩

/-- Every operation is described under its own key, and validly. -/
def Described (self : OperationRegistry) : Prop :=
  ∀ key entry, self.entries.get key = some entry → entry.1.key = key ∧ entry.1.validate = .ok ()

theorem default_described : default.Described := fun _ _ found => by cases found

theorem register_described {descriptor : OperationDescriptor} {operation : OperationFn}
    (described : self.Described) (registered : self.register descriptor operation = .ok next) : next.Described := by
  obtain ⟨valid,_,rfl⟩ := register_ok registered
  intro key entry found
  rw [Table.get_insert] at found
  split at found
  · rename_i same
    cases found
    exact ⟨same.symm,valid⟩
  · exact described key entry found

theorem register_all_described {registrations : List (OperationDescriptor × OperationFn)}
    (described : self.Described) (registered : self.register_all registrations = .ok next) : next.Described := by
  induction registrations generalizing self with
  | nil =>
    cases registered
    exact described
  | cons first rest ih =>
    obtain ⟨between,here,later⟩ := except_bind_ok registered
    exact ih (register_described described here) later

/-- A registry has what it had and what was registered. -/
theorem register_all_get {registrations : List (OperationDescriptor × OperationFn)}
    (registered : self.register_all registrations = .ok next) (key : OperationKey) (entry : OperationDescriptor × OperationFn) :
    next.entries.get key = some entry ↔ self.entries.get key = some entry ∨ entry ∈ registrations ∧ entry.1.key = key := by
  induction registrations generalizing self with
  | nil =>
    cases registered
    simp
  | cons first rest ih =>
    obtain ⟨between,here,later⟩ := except_bind_ok registered
    obtain ⟨_,vacant,rfl⟩ := register_ok here
    rw [ih later,Table.get_insert,List.mem_cons]
    by_cases same : key = first.1.key
    · subst same
      -- No entry was there under this key before.
      simp only [if_pos,vacant,Option.some.injEq,reduceCtorEq,false_or]
      grind
    · rw [if_neg same]
      grind

end OperationRegistry

namespace CoordinatorState

/-- Descriptors of different keys are all collected, if none of them contradicts what is known. -/
theorem collect_operations_distinct {known : Table OperationKey OperationDescriptor} {descriptors : List OperationDescriptor}
    {table : Table OperationKey OperationDescriptor} (valid : ∀ descriptor ∈ descriptors, descriptor.validate = .ok ())
    (distinct : (descriptors.map (·.key)).Nodup) (apart : ∀ descriptor ∈ descriptors, table.get descriptor.key = none)
    (agrees : ∀ descriptor ∈ descriptors, ∀ other, known.get descriptor.key = some other → other = descriptor) :
    ∃ operations, collect_operations known descriptors table = .ok operations ∧
      ∀ key, operations.get key = (descriptors.find? fun descriptor => descriptor.key = key).or (table.get key) := by
  induction descriptors generalizing table with
  | nil => exact ⟨table,rfl,fun key => rfl⟩
  | cons first rest ih =>
    obtain ⟨validFirst,validRest⟩ := List.forall_mem_cons.mp valid
    obtain ⟨apartFirst,apartRest⟩ := List.forall_mem_cons.mp apart
    obtain ⟨agreesFirst,agreesRest⟩ := List.forall_mem_cons.mp agrees
    obtain ⟨fresh,distinctRest⟩ := List.nodup_cons.mp distinct
    have unknown : ¬ (known.get first.key).any (· ≠ first) = true := by
      cases found : known.get first.key with
      | none => simp
      | some other => simp [agreesFirst other found]
    have different : ∀ descriptor ∈ rest, descriptor.key ≠ first.key := fun descriptor member same =>
      fresh (List.mem_map.mpr ⟨descriptor,member,same⟩)
    have later : ∀ descriptor ∈ rest, (table.insert first.key first).get descriptor.key = none := fun descriptor member => by
      rw [Table.get_insert,if_neg (different descriptor member)]
      exact apartRest descriptor member
    obtain ⟨operations,collected,each⟩ := ih validRest distinctRest later agreesRest
    refine ⟨operations,?_,fun key => ?_⟩
    · rw [collect_operations,validFirst]
      change (if _ then _ else if _ then _ else _) = _
      rw [if_neg (by simp [apartFirst]),if_neg unknown]
      exact collected
    · rw [each key,Table.get_insert,List.find?_cons]
      by_cases same : key = first.key
      · subst same
        have absent : rest.find? (fun descriptor => descriptor.key = first.key) = none := by
          rw [List.find?_eq_none]
          exact fun descriptor member => by simpa using different descriptor member
        simp [absent]
      · simp [same,Ne.symm same]

end CoordinatorState

namespace OperationRegistry

variable {self : OperationRegistry}

theorem mem_descriptors {order : Traversal OperationKey} {descriptor : OperationDescriptor} :
    descriptor ∈ self.descriptors order ↔ ∃ key operation, self.entries.get key = some (descriptor,operation) := by
  rw [descriptors,List.mem_map]
  constructor
  · rintro ⟨entry,member,rfl⟩
    obtain ⟨key,found⟩ := Table.mem_values.mp member
    exact ⟨key,entry.2,found⟩
  · rintro ⟨key,operation,found⟩
    exact ⟨_,Table.mem_values.mpr ⟨key,found⟩,rfl⟩

theorem descriptors_distinct (described : self.Described) (order : Traversal OperationKey) :
    ((self.descriptors order).map (·.key)).Nodup := by
  have keys : (self.entries.values order).map (fun entry => entry.1.key) = order.list self.entries.keys :=
    Table.values_map_key (fun key entry found => (described key entry found).1) order
  rw [descriptors,List.map_map]
  exact keys ▸ order.nodup _

theorem find_descriptors (described : self.Described) (order : Traversal OperationKey)
    (key : OperationKey) : (self.descriptors order).find? (fun descriptor => descriptor.key = key) = self.descriptor key := by
  rw [descriptors,List.find?_map]
  exact congrArg (Option.map _) (Table.find_values (fun key entry found => (described key entry found).1) order key)

/-- A coordinator takes the operations of a registry as the registry has them, unless it knows one of them otherwise. -/
theorem collects_registry (described : self.Described) (order : Traversal OperationKey)
    {known : Table OperationKey OperationDescriptor}
    (agrees : ∀ key descriptor, self.descriptor key = some descriptor → ∀ other, known.get key = some other → other = descriptor) :
    ∃ operations, CoordinatorState.collect_operations known (self.descriptors order) .empty = .ok operations ∧
      ∀ key, operations.get key = self.descriptor key := by
  have own : ∀ descriptor ∈ self.descriptors order, descriptor.validate = .ok () ∧
      self.descriptor descriptor.key = some descriptor := by
    intro descriptor member
    obtain ⟨key,operation,found⟩ := mem_descriptors.mp member
    obtain ⟨rfl,valid⟩ := described key _ found
    exact ⟨valid,by rw [OperationRegistry.descriptor,found,Option.map_some]⟩
  obtain ⟨operations,collected,each⟩ := CoordinatorState.collect_operations_distinct (fun descriptor member => (own descriptor member).1)
    (descriptors_distinct described order) (fun _ _ => Table.get_empty _)
    (fun descriptor member => agrees _ descriptor (own descriptor member).2)
  refine ⟨operations,collected,fun key => ?_⟩
  rw [each key,find_descriptors described order,Table.get_empty,Option.or_none]

theorem descriptor_eq_some {key : OperationKey} {descriptor : OperationDescriptor} :
    self.descriptor key = some descriptor ↔ ∃ operation, self.entries.get key = some (descriptor,operation) := by
  rw [OperationRegistry.descriptor,Option.map_eq_some_iff]
  constructor
  · rintro ⟨entry,found,rfl⟩
    exact ⟨entry.2,found⟩
  · rintro ⟨operation,found⟩
    exact ⟨_,found,rfl⟩

/-- A worker that offers what was registered with it is taken in, and its record lists exactly those operations; the worker
    has an operation for each of them. -/
theorem registry_enlisted {registrations : List (OperationDescriptor × OperationFn)} {registry : OperationRegistry}
    (registered : default.register_all registrations = .ok registry) (order : Traversal OperationKey) {s : CoordinatorState}
    {request : RegisterWorker} (offered : request.operations = registry.descriptors order)
    (address : validate_advertise_addr request.advertise_addr = .ok ()) (slots : request.slots ≠ 0)
    (absent : s.workers.get request.node_id = none)
    (agrees : ∀ entry ∈ registrations, ∀ other, s.operations.get entry.1.key = some other → other = entry.1)
    (now lease_ms : Nat) (session_id : WorkerSessionId) :
    ∃ identity t worker, CoordinatorState.register_worker request now lease_ms session_id s = .ok identity t ∧
      t.workers.get request.node_id = some worker ∧
      ∀ (assignment : TaskAssignment) descriptor, worker.operations.get assignment.operation = some descriptor ↔
        ∃ operation, (descriptor,operation) ∈ registrations ∧ descriptor.key = assignment.operation ∧
          ∀ inputs, registry.execute assignment inputs = operation inputs := by
  have found : ∀ key entry, registry.entries.get key = some entry ↔ entry ∈ registrations ∧ entry.1.key = key := by
    intro key entry
    rw [register_all_get registered,default,Table.get_empty]
    simp
  have known : ∀ key descriptor, registry.descriptor key = some descriptor → ∀ other, s.operations.get key = some other →
      other = descriptor := by
    intro key descriptor described other there
    obtain ⟨operation,entry⟩ := descriptor_eq_some.mp described
    obtain ⟨member,rfl⟩ := (found _ _).mp entry
    exact agrees _ member other there
  obtain ⟨operations,collected,listed⟩ :=
    collects_registry (register_all_described default_described registered) order known
  rw [← offered] at collected
  simp only [CoordinatorState.register_worker,Command.bind_apply,Command.get_apply,address,Command.lift_ok,
    Command.ensure_of slots,collected,absent,Option.filter_none,Command.pure_apply,Command.set_apply,
    CoordinatorState.changed,Command.modify_apply]
  refine ⟨_,_,_,rfl,(Table.get_insert ..).trans (if_pos rfl),fun assignment descriptor => ?_⟩
  rw [listed,descriptor_eq_some]
  constructor
  · rintro ⟨operation,entry⟩
    obtain ⟨member,keyed⟩ := (found _ _).mp entry
    exact ⟨operation,member,keyed,fun inputs => by rw [execute,entry]⟩
  · rintro ⟨operation,member,keyed,_⟩
    exact ⟨operation,(found _ _).mpr ⟨member,keyed⟩⟩

section
open CoordinatorState

/-- Another version of the small operation. -/
def laterKey : OperationKey := ⟨"math","add",2⟩

def smallRegistrations : List (OperationDescriptor × OperationFn) :=
  [(⟨smallKey,.JsonV1,.JsonV1,64⟩,fun _ => .error .DeadlineExceeded),(⟨laterKey,.RawBytes,.RawBytes,8⟩,fun _ => .error .StaleFence)]

def smallRegistry : OperationRegistry :=
  ⟨(Table.empty.insert smallKey (⟨smallKey,.JsonV1,.JsonV1,64⟩,fun _ => .error .DeadlineExceeded)).insert laterKey
    (⟨laterKey,.RawBytes,.RawBytes,8⟩,fun _ => .error .StaleFence)⟩

/-- A worker offers what is registered, in some order. -/
def smallRequest (order : Traversal OperationKey) : RegisterWorker where
  node_id := smallWorker.node_id
  worker_epoch := smallWorker.worker_epoch
  advertise_addr := "host:1"
  resources := ⟨⟨[("cpu",⟨1000⟩)],offer_sorted⟩⟩
  slots := 1
  operations := smallRegistry.descriptors order

theorem small_registered : default.register_all smallRegistrations = .ok smallRegistry := by
  have valid : (⟨smallKey,.JsonV1,.JsonV1,64⟩ : OperationDescriptor).validate = .ok () ∧
    (⟨laterKey,.RawBytes,.RawBytes,8⟩ : OperationDescriptor).validate = .ok () := by decide +kernel
  simp only [register_all,smallRegistrations,List.foldlM_cons,List.foldlM_nil,register,valid]
  rfl

/-- The record of the worker lists both operations as they were registered, and no third one. -/
theorem small_enlisted : ∃ order identity t worker,
    register_worker (smallRequest order) 0 5000 smallWorker.session_id (new smallEpoch) = .ok identity t ∧
    t.workers.get smallWorker.node_id = some worker ∧
    worker.operations.get smallKey = some ⟨smallKey,.JsonV1,.JsonV1,64⟩ ∧
    worker.operations.get laterKey = some ⟨laterKey,.RawBytes,.RawBytes,8⟩ ∧
    worker.operations.get ⟨"math","mul",1⟩ = none := by
  have unheard : ∀ entry ∈ smallRegistrations, ∀ other, (new smallEpoch).operations.get entry.1.key = some other →
      other = entry.1 := by
    rintro entry _ other ⟨⟩
  obtain ⟨order⟩ : Nonempty (Traversal OperationKey) := ⟨Finset.toList,Finset.nodup_toList,fun _ _ => Finset.mem_toList⟩
  have offered : (smallRequest order).operations = smallRegistry.descriptors order := rfl
  obtain ⟨identity,t,worker,enlisted,found,lists⟩ := registry_enlisted small_registered order offered
    (show validate_advertise_addr "host:1" = _ by decide +kernel) (show (1 : UInt32) ≠ 0 by decide) rfl unheard 0 5000
    smallWorker.session_id
  have listed (key : OperationKey) (descriptor : OperationDescriptor) :=
    lists ⟨⟨smallTask,1,smallLease⟩,key,[],smallOutput,⟨⟨[("cpu",⟨1000⟩)],offer_sorted⟩⟩⟩ descriptor
  refine ⟨order,identity,t,worker,enlisted,found,(listed smallKey _).mpr ⟨_,.head _,rfl,fun _ => rfl⟩,
    (listed laterKey _).mpr ⟨_,.tail _ (.head _),rfl,fun _ => rfl⟩,?_⟩
  rw [Option.eq_none_iff_forall_ne_some]
  intro descriptor there
  obtain ⟨operation,member,keyed,_⟩ := (listed ⟨"math","mul",1⟩ _).mp there
  simp only [smallRegistrations,List.mem_cons,List.not_mem_nil,or_false,Prod.mk.injEq] at member
  rcases member with ⟨rfl,_⟩ | ⟨rfl,_⟩ <;> exact absurd keyed (by decide)

end

end OperationRegistry

/-! ### Inputs -/

namespace Site
open CoordinatorServer Command
variable {site : Site} {id : ObjectId} {payload : ObjectPayload} {codec : Codec} {bytes : List UInt8}

/-- Fetches an object at once. -/
def get_bytes (site : Site) (id : ObjectId) : Except Error (Codec × List UInt8) :=
  Course.fetched site (site.request site.client.address (.Get id))

/-- A get with no timeout does not wait. -/
theorem get_bytes_course (course : Course) (id : ObjectId) (now : Instant) :
    course.get_bytes id now = (now,(course.site now).get_bytes id) := by
  rfl

/-- What the mapping shows of an object that a get leads to is what its record tells of. Nothing is shown on other hosts. -/
def Truthful (site : Site) : Prop :=
  ∀ id payload bytes, site.request site.client.address (.Get id) = .ok (.Object payload) → site.mapped payload = some bytes →
    site.Verified payload bytes

theorem mapped_remote (remote : site.client.same_host = false) : site.mapped payload = none := by
  unfold mapped arena_map
  cases payload.arena with
  | none => rfl
  | some arena_ref => simp [remote]

theorem truthful_remote (remote : site.client.same_host = false) : site.Truthful := by
  intro id payload bytes _ shown
  rw [mapped_remote remote] at shown
  cases shown

theorem verified_of {found : List UInt8}
    (accepted : (do verify_object site.blake3 payload.id payload.id found payload.checksum payload.size_bytes
                    pure (payload.codec,found)) = (.ok (codec,bytes) : Except Error (Codec × List UInt8))) :
    site.Verified payload bytes := by
  by_cases verified : site.Verified payload found
  · rw [verify_object_of verified] at accepted
    cases accepted
    exact verified
  · rw [verify_object_not verified] at accepted
    cases accepted

/-- What a client accepts as the content of an object is what the payload tells of. -/
theorem payload_bytes_verified (shown : ∀ bytes, site.mapped payload = some bytes → site.Verified payload bytes)
    (fetched : site.payload_bytes payload = .ok (codec,bytes)) : site.Verified payload bytes := by
  rw [payload_bytes] at fetched
  split at fetched
  · exact verified_of fetched
  split at fetched
  · rename_i there
    cases fetched
    exact shown _ there
  dsimp only at fetched
  split at fetched
  · rename_i there
    rw [if_pos there.1] at fetched
    cases chunks : site.get_chunked payload.id payload.size_bytes site.client.address 0 [] with
    | ok found =>
      rw [chunks] at fetched
      exact verified_of fetched
    | error error =>
      rw [chunks] at fetched
      cases fetched
  · cases asked : site.request (if payload.arena.isSome = true then site.client.address else payload.location)
        (.GetLocal payload.id) with
    | error error =>
      rw [asked] at fetched
      cases fetched
    | ok reply =>
      rw [asked] at fetched
      change site.accept payload reply = _ at fetched
      rcases accept_cases site payload reply with ⟨found,delivers,accepted⟩ | ⟨_,refused⟩
      · rw [accepted] at fetched
        cases fetched
        obtain ⟨_,_,_,_,_,_,_,verified⟩ := delivers
        exact verified
      · rw [refused] at fetched
        cases fetched

theorem verified_annotate : site.Verified (site.server.arena_annotate payload) bytes ↔ site.Verified payload bytes := by
  unfold arena_annotate
  split <;> rfl

/-- What a get returns is what the record of the object tells of. -/
theorem get_bytes_verified (inv : CoordinatorState.Inv site.server.state) (truthful : site.Truthful)
    (got : site.get_bytes id = .ok (codec,bytes)) :
    ∃ payload, payload.id = id ∧ CoordinatorState.Lists site.server.state payload ∧ site.Verified payload bytes := by
  obtain ⟨answer,resolves⟩ := exists_resolves inv id
  have asked := request_get resolves
  rw [get_bytes,asked,fetched_single] at got
  cases answer with
  | error error => cases got
  | ok payload =>
    obtain ⟨same,lists⟩ := CoordinatorState.resolve_object_lists (attempt_ok resolves)
    exact ⟨payload,same,lists,verified_annotate.mp (payload_bytes_verified (fun found => truthful id _ found asked) got)⟩

end Site

/-- The inputs of an assignment, each of them fetched from the coordinator as it is then. -/
def fetch_inputs : List (Site × TaskArg) → Except Error (List (List UInt8))
  | [] => .ok []
  | (_,.Inline _ bytes) :: rest => do
    let inputs ← fetch_inputs rest
    .ok (bytes :: inputs)
  | (site,.Object id) :: rest => do
    let got ← site.get_bytes id
    let inputs ← fetch_inputs rest
    .ok (got.2 :: inputs)

/-! ### Outputs -/

section
variable (blake3 : List UInt8 → Checksum)

/-- What comes of an assignment that is executed: the report of the output, and the worker's outputs with this one. -/
def execute_assignment (config : WorkerConfig) (registry : OperationRegistry) (objects : LocalObjectStore) (sites : List Site)
    (assignment : TaskAssignment) : Except Error (TaskCompletion × LocalObjectStore) := do
  let inputs ← fetch_inputs (sites.zip assignment.args)
  let bytes ← registry.execute assignment inputs
  match registry.descriptor assignment.operation with
  | none => .error (.OperationUnavailable assignment.operation.to_string)
  | some descriptor => do
    let (object,objects) ← objects.put blake3 assignment.output_id descriptor.output_codec bytes
    .ok (config.completion assignment object,objects)

variable {blake3}

theorem LocalObjectStore.put_checksum {self next : LocalObjectStore} {id : ObjectId} {codec : Codec} {bytes : Buffer}
    {object : LocalObject} (stored : self.put blake3 id codec bytes = .ok (object,next)) : object.checksum = blake3 bytes.bytes := by
  rw [put] at stored
  cases found : self.objects.get id with
  | some existing =>
    simp only [found] at stored
    split at stored
    · rename_i same
      cases stored
      exact same.1
    · cases stored
  | none =>
    simp only [found] at stored
    cases stored
    rfl

/-- What is reported of an execution: the digest of what the operation returned for the inputs. -/
theorem execute_assignment_reports {config : WorkerConfig} {registry : OperationRegistry} {objects next : LocalObjectStore}
    {sites : List Site} {assignment : TaskAssignment} {report : TaskCompletion}
    (ran : execute_assignment blake3 config registry objects sites assignment = .ok (report,next)) :
    ∃ inputs bytes, fetch_inputs (sites.zip assignment.args) = .ok inputs ∧ registry.execute assignment inputs = .ok bytes ∧
      report.fence = assignment.fence ∧ report.checksum = blake3 bytes.bytes := by
  obtain ⟨inputs,fetched,ran⟩ := except_bind_ok ran
  obtain ⟨bytes,executed,ran⟩ := except_bind_ok ran
  split at ran
  · cases ran
  obtain ⟨stored,put,ran⟩ := except_bind_ok ran
  cases ran
  exact ⟨inputs,bytes,fetched,executed,rfl,LocalObjectStore.put_checksum put⟩

end
end Crayon
