import Crayon.Resources

/-!
What coordinator, workers and clients tell each other, and the check on the
addresses that workers advertise.
-/
namespace Crayon

def MAX_FRAME_BYTES : Nat := 8 * 1024 * 1024
def MAX_OBJECT_BYTES : Nat := MAX_FRAME_BYTES - 64 * 1024

/-! ### Addresses -/

/-- Splits a text at the last occurrence of a separator. -/
def rsplit_once (separator : Char) (text : List Char) : Option (List Char × List Char) :=
  match text.reverse.dropWhile (· ≠ separator) with
  | [] => none
  | _ :: before => some (before.reverse,(text.reverse.takeWhile (· ≠ separator)).reverse)

/-- Reads a decimal number below 2^16, with an optional plus sign. -/
def parse_u16 (text : List Char) : Option Nat :=
  let digits : List Char := if text.head? = some '+' then text.tail else text
  let value : Nat := digits.foldl (fun n c => 10 * n + (c.toNat - '0'.toNat)) 0
  if digits ≠ [] ∧ digits.all Char.isDigit = true ∧ value < 2^16 then some value else none

def validate_advertise_addr (value : String) : Except Error Unit :=
  match rsplit_once ':' value.toList with
  | none => .error (.InvalidAddress value)
  | some (host,port) =>
    match parse_u16 port with
    | none => .error (.InvalidAddress value)
    | some port =>
      if port = 0 then .error (.InvalidAddress value)
      else if host = [] then .error (.InvalidAddress value)
      else .ok ()

def require_loopback_addr (value : String) : Except Error Unit := do
  validate_advertise_addr value
  match rsplit_once ':' value.toList with
  | none => .error (.InvalidAddress value)
  | some (host,_) =>
    if host ≠ "127.0.0.1".toList ∧ host ≠ "::1".toList ∧ host ≠ "localhost".toList then
      .error (.InvalidAddress ("unauthenticated mode requires loopback address: " ++ value))
    else .ok ()

/-- An accepted address has a colon in it. -/
theorem validate_advertise_addr_colon {value : String} (accepted : validate_advertise_addr value = .ok ()) :
    ':' ∈ value.toList := by
  by_contra absent
  have none : rsplit_once ':' value.toList = none := by
    have all : value.toList.reverse.dropWhile (· ≠ ':') = [] := by
      rw [List.dropWhile_eq_nil_iff]
      intro c member
      have different : c ≠ ':' := fun same => absent (by simpa [same] using member)
      simpa using different
    rw [rsplit_once,all]
  rw [validate_advertise_addr,none] at accepted
  cases accepted

example : validate_advertise_addr "127.0.0.1:9001" = .ok () := by decide

/-! ### Messages -/

/-- How many times a task has been dispatched. -/
abbrev Attempt := UInt32

structure WorkerIdentity where
  node_id : NodeId
  worker_epoch : WorkerEpoch
  session_id : WorkerSessionId
  coordinator_epoch : CoordinatorEpoch
deriving DecidableEq, Repr

structure RegisterWorker where
  node_id : NodeId
  worker_epoch : WorkerEpoch
  advertise_addr : String
  resources : ResourceSet
  slots : UInt32
  operations : List OperationDescriptor
deriving DecidableEq

structure TaskFence where
  task_id : TaskId
  attempt : Attempt
  lease_id : LeaseId
deriving DecidableEq, Repr

structure TaskAssignment where
  fence : TaskFence
  operation : OperationKey
  args : List TaskArg
  output_id : ObjectId
  resources : ResourceSet
deriving DecidableEq

structure TaskCompletion where
  fence : TaskFence
  output_id : ObjectId
  codec : Codec
  size_bytes : UInt64
  checksum : Checksum
  location : String
  bytes : Option (List UInt8)
deriving DecidableEq, Repr

inductive ArenaWriteMode where
  | Direct
  | Streamed
deriving DecidableEq, Repr

inductive FailureClass where
  | Transient
  | Permanent
deriving DecidableEq, Repr

/-- Where a reader finds an object in the shared arena. -/
structure ArenaRef where
  token : String
  offset : UInt64
deriving DecidableEq, Repr

structure ObjectPayload where
  id : ObjectId
  codec : Codec
  size_bytes : UInt64
  checksum : Checksum
  location : String
  bytes : Option (List UInt8)
  arena : Option ArenaRef
deriving DecidableEq, Repr

end Crayon
