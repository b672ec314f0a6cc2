import Crayon.SortedMap

/-!
Values as bytes, in a format without names or types: numbers have a fixed width
and start with the lowest byte, a sequence starts with its length in eight bytes,
an optional value with one byte that tells whether it is there, a variant of an
enumeration with its index in four bytes, and the fields of a record follow each
other. How many bytes a value takes is the sum over its parts (`size`).
-/
namespace Crayon.Binary
universe u v

/-- A type whose values are written as bytes. -/
class Serialize (α : Type u) where
  serialize : α → List UInt8

export Serialize (serialize)

/-- How many bytes a value takes. -/
def size {α : Type u} [Serialize α] (a : α) : Nat := (serialize a).length

theorem length_serialize {α : Type u} [Serialize α] (a : α) : (serialize a).length = size a := rfl

/-! ### Numbers -/

/-- A number in some bytes, the lowest first. -/
def little : Nat → Nat → List UInt8
  | 0,_ => []
  | width + 1,n => .ofNat n :: little width (n / 256)

@[simp] theorem length_little (width n : Nat) : (little width n).length = width := by
  induction width generalizing n with
  | zero => rfl
  | succ width ih => rw [little,List.length_cons,ih]

/-- Numbers that fit the width have different bytes. -/
theorem little_injective {width m n : Nat} (small : m < 256^width) (small' : n < 256^width)
    (same : little width m = little width n) : m = n := by
  induction width generalizing m n with
  | zero => omega
  | succ width ih =>
    obtain ⟨low,high⟩ := List.cons.inj same
    have low : m % 256 = n % 256 := congrArg UInt8.toNat low
    rw [Nat.pow_succ] at small small'
    have high := ih (Nat.div_lt_of_lt_mul (by omega)) (Nat.div_lt_of_lt_mul (by omega)) high
    omega

/-- The index of a variant. -/
def variant (index : Nat) : List UInt8 := little 4 index

@[simp] theorem length_variant (index : Nat) : (variant index).length = 4 := length_little 4 index

instance : Serialize UInt8 := ⟨fun n => [n]⟩
instance : Serialize UInt16 := ⟨fun n => little 2 n.toNat⟩
instance : Serialize UInt32 := ⟨fun n => little 4 n.toNat⟩
instance : Serialize UInt64 := ⟨fun n => little 8 n.toNat⟩
instance : Serialize Int64 := ⟨fun n => little 8 n.toUInt64.toNat⟩
instance : Serialize Bool := ⟨fun b => [if b then 1 else 0]⟩

@[simp] theorem size_u8 (n : UInt8) : size n = 1 := rfl
@[simp] theorem size_u16 (n : UInt16) : size n = 2 := length_little 2 _
@[simp] theorem size_u32 (n : UInt32) : size n = 4 := length_little 4 _
@[simp] theorem size_u64 (n : UInt64) : size n = 8 := length_little 8 _
@[simp] theorem size_i64 (n : Int64) : size n = 8 := length_little 8 _
@[simp] theorem size_bool (b : Bool) : size b = 1 := rfl

/-! ### Texts, sequences and options -/

section
variable {α : Type u} {β : Type v} [Serialize α] [Serialize β]

/-- An array has no length of its own. -/
instance {n : Nat} : Serialize (Vector UInt8 n) := ⟨fun bytes => bytes.toList⟩

instance : Serialize String := ⟨fun text => little 8 text.utf8ByteSize ++ text.toUTF8.data.toList⟩

instance : Serialize (List α) := ⟨fun l => little 8 l.length ++ l.flatMap serialize⟩

instance : Serialize (α × β) := ⟨fun (a,b) => serialize a ++ serialize b⟩

instance : Serialize (Option α) where
  serialize
    | none => [0]
    | some a => 1 :: serialize a

instance : Serialize (Except β α) where
  serialize
    | .ok a => variant 0 ++ serialize a
    | .error e => variant 1 ++ serialize e

instance {K : Type u} {V : Type v} [LinearOrder K] [Serialize K] [Serialize V] : Serialize (SortedMap K V) :=
  ⟨fun map => serialize map.entries⟩

@[simp] theorem size_array {n : Nat} (bytes : Vector UInt8 n) : size bytes = n := bytes.length_toList

@[simp] theorem size_string (text : String) : size text = 8 + text.utf8ByteSize := by
  rw [size,serialize,instSerializeString,List.length_append,length_little]
  rfl

theorem size_list (l : List α) : size l = 8 + (l.map size).sum := by
  rw [size,serialize,instSerializeList,List.length_append,length_little,List.length_flatMap]
  rfl

@[simp] theorem size_bytes (bytes : List UInt8) : size bytes = 8 + bytes.length := by
  have ones : bytes.map size = bytes.map fun _ => 1 := List.map_congr_left fun byte _ => size_u8 byte
  rw [size_list,ones,List.map_const',List.sum_replicate_nat,Nat.mul_one]

@[simp] theorem size_pair (a : α) (b : β) : size (a,b) = size a + size b := List.length_append

@[simp] theorem size_none : size (none : Option α) = 1 := rfl
@[simp] theorem size_some (a : α) : size (some a) = 1 + size a := Nat.add_comm _ 1

@[simp] theorem size_ok (a : α) : size (.ok a : Except β α) = 4 + size a := by
  rw [size,serialize,instSerializeExcept,List.length_append,length_variant]
  rfl

@[simp] theorem size_error (e : β) : size (.error e : Except β α) = 4 + size e := by
  rw [size,serialize,instSerializeExcept,List.length_append,length_variant]
  rfl

end
end Crayon.Binary
