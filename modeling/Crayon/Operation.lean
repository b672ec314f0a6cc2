import Crayon.Command

/-!
Ids, errors, and the operations that tasks invoke: the keys and descriptors that
workers register, the arguments that clients submit, and the checks on both.
-/
namespace Crayon

/-! ### Ids -/

/-- Sixteen random bytes. -/
structure CoordinatorEpoch where
  bytes : Vector UInt8 16
deriving DecidableEq, Repr
structure NodeId where
  bytes : Vector UInt8 16
deriving DecidableEq, Repr
structure WorkerEpoch where
  bytes : Vector UInt8 16
deriving DecidableEq, Repr
structure WorkerSessionId where
  bytes : Vector UInt8 16
deriving DecidableEq, Repr
structure TaskId where
  bytes : Vector UInt8 16
deriving DecidableEq, Repr
structure LeaseId where
  bytes : Vector UInt8 16
deriving DecidableEq, Repr
structure RequestId where
  bytes : Vector UInt8 16
deriving DecidableEq, Repr

/-- A BLAKE3 digest. -/
abbrev Checksum := Vector UInt8 32

/-- The digest of an object's content, or of a random id. -/
structure ObjectId where
  bytes : Vector UInt8 32
deriving DecidableEq, Repr

/-- The bytes of an id as numbers. Ids compare by them. -/
def digits {n : Nat} (bytes : Vector UInt8 n) : List Nat := bytes.toList.map UInt8.toNat

theorem digits_injective {n : Nat} {a b : Vector UInt8 n} (same : digits a = digits b) : a = b :=
  Vector.toList_inj.mp (List.map_injective_iff.mpr (fun _ _ => UInt8.toNat_inj.mp) same)

instance : LinearOrder NodeId := LinearOrder.lift' (fun id => digits id.bytes) <| by
  rintro ⟨a⟩ ⟨b⟩ same
  exact congrArg NodeId.mk (digits_injective same)
instance : LinearOrder TaskId := LinearOrder.lift' (fun id => digits id.bytes) <| by
  rintro ⟨a⟩ ⟨b⟩ same
  exact congrArg TaskId.mk (digits_injective same)
instance : LinearOrder ObjectId := LinearOrder.lift' (fun id => digits id.bytes) <| by
  rintro ⟨a⟩ ⟨b⟩ same
  exact congrArg ObjectId.mk (digits_injective same)

namespace ObjectId

def from_checksum (checksum : Checksum) : ObjectId := ⟨checksum⟩

end ObjectId

/-! ### Errors -/

inductive Error where
  | Protocol (message : String)
  | InvalidAddress (address : String)
  | InvalidResource (message : String)
  | OperationUnavailable (operation : String)
  | OperationConflict (operation : String)
  | IllegalTransition (message : String)
  | StaleFence
  | StaleEpoch
  | CapacityExceeded (message : String)
  | TaskNotFound (id : TaskId)
  | TaskFailed (id : TaskId) (message : String)
  | TaskCancelled (id : TaskId)
  | ObjectNotFound (id : ObjectId)
  | ObjectPending (id : ObjectId)
  | ObjectInUse (id : ObjectId)
  | ObjectLost (id : ObjectId)
  | ObjectConflict (id : ObjectId)
  | DependencyFailed (id : ObjectId)
  | DeadlineExceeded
  | Serialization (message : String)
  | Io (message : String)
deriving DecidableEq, Repr

/-! ### Operations -/

def MAX_OPERATION_COMPONENT_BYTES : Nat := 128
def MAX_INLINE_ARG_BYTES : UInt64 := 64 * 1024

inductive Codec where
  | BincodeV1
  | PythonPickleV1
  | JsonV1
  | RawBytes
deriving DecidableEq, Repr

structure OperationKey where
  «namespace» : String
  name : String
  version : UInt32
deriving DecidableEq, Repr

namespace OperationKey

def to_string (key : OperationKey) : String := key.namespace ++ ":" ++ key.name ++ "@" ++ toString key.version

/-- A byte that a component of a key may contain. -/
def component_byte (byte : UInt8) : Bool :=
  let c := Char.ofUInt8 byte
  c.isAlphanum || c = '-' || c = '_' || c = '.'

/-- The check on one component of a key, named by its label. -/
def validate_component (label value : String) : Except Error Unit :=
  if value.isEmpty || value.utf8ByteSize > MAX_OPERATION_COMPONENT_BYTES ||
      !value.toUTF8.data.toList.all component_byte then
    .error (.Protocol ("invalid operation " ++ label))
  else .ok ()

def validate (key : OperationKey) : Except Error Unit := do
  validate_component "namespace" key.namespace
  validate_component "name" key.name
  if key.version = 0 then .error (.Protocol "operation version must be positive") else .ok ()

end OperationKey

structure OperationDescriptor where
  key : OperationKey
  input_codec : Codec
  output_codec : Codec
  max_inline_arg_bytes : UInt64
deriving DecidableEq, Repr

inductive TaskArg where
  | Inline (codec : Codec) (bytes : List UInt8)
  | Object (id : ObjectId)
deriving DecidableEq, Repr

namespace TaskArg

/-- The object that an argument names. -/
def object? : TaskArg → Option ObjectId
  | .Inline _ _ => none
  | .Object id => some id

end TaskArg

namespace OperationDescriptor

def validate (descriptor : OperationDescriptor) : Except Error Unit := do
  descriptor.key.validate
  if descriptor.max_inline_arg_bytes > MAX_INLINE_ARG_BYTES then
    .error (.Protocol ("max inline argument size exceeds " ++ toString MAX_INLINE_ARG_BYTES ++ " bytes"))
  else .ok ()

def validate_args (descriptor : OperationDescriptor) : List TaskArg → Except Error Unit
  | [] => .ok ()
  | .Inline codec bytes :: rest =>
    if codec ≠ descriptor.input_codec then .error (.Protocol "inline argument codec mismatch")
    else if UInt64.ofNat bytes.length > descriptor.max_inline_arg_bytes then
      .error (.Protocol "inline argument exceeds operation limit")
    else validate_args descriptor rest
  | .Object _ :: rest => validate_args descriptor rest

end OperationDescriptor
end Crayon
