import Mathlib

/-!
Bytes in hexadecimal. A byte is written as two digits in lower case (`spell`) and
read by a parser of numbers (`from_str_radix`), which takes digits of either case
and also a plus sign before them; so two characters name a byte when both are
digits, or when the first is a plus sign (`Spells`). What is read is text in
UTF-8, where a character below 128 is one byte and every other is made of bytes
from 128 on.
-/
namespace Crayon.Hex

/-! ### ASCII -/

/-- Whatever holds of the characters below 128 one by one. -/
theorem ascii_all {P : Char → Prop} (each : ∀ n < 128, P (Char.ofNat n)) (c : Char) (small : c.toNat < 128) : P c := by
  have holds := each c.toNat small
  rwa [Char.ofNat_toNat] at holds

/-- The one byte of a character below 128. -/
def byte (c : Char) : UInt8 := .ofNat c.toNat

variable {c : Char} {text : List Char} {bs : List UInt8}

theorem ofUInt8_byte (small : c.toNat < 128) : Char.ofUInt8 (byte c) = c :=
  ascii_all (P := fun c => Char.ofUInt8 (byte c) = c) (by decide) c small

theorem byte_ofUInt8 {b : UInt8} (small : b.toNat < 128) : (Char.ofUInt8 b).toNat < 128 ∧ byte (Char.ofUInt8 b) = b := by
  have each : ∀ n < 128, (Char.ofUInt8 (.ofNat n)).toNat < 128 ∧ byte (Char.ofUInt8 (.ofNat n)) = .ofNat n := by decide
  have holds := each b.toNat small
  rwa [UInt8.ofNat_toNat] at holds

theorem toNat_ofUInt8 (b : UInt8) : (Char.ofUInt8 b).toNat = b.toNat := UInt8.toNat_toUInt32 b

theorem utf8_small (small : c.toNat < 128) : String.utf8EncodeChar c = [byte c] :=
  if_pos (Nat.le_of_lt_succ small)

/-- A larger character starts with a byte from 128 on. -/
theorem utf8_large (large : ¬ c.toNat < 128) : ∃ b ∈ String.utf8EncodeChar c, ¬ b.toNat < 128 := by
  have above : ¬ c.val.toNat ≤ 127 := fun le => large (Nat.lt_succ_of_le le)
  refine ⟨(String.utf8EncodeChar c).head (String.utf8EncodeChar_ne_nil),List.head_mem _,?_⟩
  simp only [String.utf8EncodeChar,if_neg above]
  split
  · simp only [List.head_cons,UInt8.toNat_ofNat']
    omega
  · split
    · simp only [List.head_cons,UInt8.toNat_ofNat']
      omega
    · simp only [List.head_cons,UInt8.toNat_ofNat']
      omega

/-- The bytes of a text. -/
def bytes (text : List Char) : List UInt8 := text.flatMap String.utf8EncodeChar

theorem bytes_small (small : ∀ c ∈ text, c.toNat < 128) : bytes text = text.map byte := by
  induction text with
  | nil => rfl
  | cons c rest ih =>
    obtain ⟨first,others⟩ := List.forall_mem_cons.mp small
    rw [bytes,List.flatMap_cons,utf8_small first,List.map_cons,← ih others]
    rfl

/-- A text whose bytes are all below 128 is read off them one by one. -/
theorem text_of_bytes (small : ∀ b ∈ bytes text, b.toNat < 128) :
    (∀ c ∈ text, c.toNat < 128) ∧ (bytes text).map Char.ofUInt8 = text := by
  have chars : ∀ c ∈ text, c.toNat < 128 := by
    intro c member
    by_contra large
    obtain ⟨b,inside,high⟩ := utf8_large large
    exact high (small b (List.mem_flatMap.mpr ⟨c,member,inside⟩))
  refine ⟨chars,?_⟩
  calc (bytes text).map Char.ofUInt8 = text.map (Char.ofUInt8 ∘ byte) := by rw [bytes_small chars,List.map_map]
    _ = text.map id := List.map_congr_left fun c member => ofUInt8_byte (chars c member)
    _ = text := List.map_id text

/-- Two bytes below 128 are text. -/
theorem validUTF8_pair {a b : UInt8} (first : a.toNat < 128) (second : b.toNat < 128) :
    ByteArray.IsValidUTF8 ⟨#[a,b]⟩ := by
  refine ⟨[Char.ofUInt8 a,Char.ofUInt8 b],?_⟩
  obtain ⟨smallA,sameA⟩ := byte_ofUInt8 first
  obtain ⟨smallB,sameB⟩ := byte_ofUInt8 second
  rw [List.utf8Encode,List.flatMap_cons,List.flatMap_cons,utf8_small smallA,utf8_small smallB,sameA,sameB]
  rfl

/-! ### Digits -/

/-- The value of a digit, in either case. -/
def to_digit (c : Char) : Option Nat :=
  if '0' ≤ c ∧ c ≤ '9' then some (c.toNat - '0'.toNat)
  else if 'a' ≤ c ∧ c ≤ 'f' then some (c.toNat - 'a'.toNat + 10)
  else if 'A' ≤ c ∧ c ≤ 'F' then some (c.toNat - 'A'.toNat + 10)
  else none

/-- The digit of a value, in lower case. -/
def digit (n : Nat) : Char := .ofNat (if n < 10 then '0'.toNat + n else 'a'.toNat + (n - 10))

/-- The hexadecimal digits. -/
def IsDigit (c : Char) : Prop := '0' ≤ c ∧ c ≤ '9' ∨ 'a' ≤ c ∧ c ≤ 'f' ∨ 'A' ≤ c ∧ c ≤ 'F'

instance : DecidablePred IsDigit := fun c =>
  inferInstanceAs (Decidable ('0' ≤ c ∧ c ≤ '9' ∨ 'a' ≤ c ∧ c ≤ 'f' ∨ 'A' ≤ c ∧ c ≤ 'F'))

theorem to_digit_digit : ∀ n < 16, to_digit (digit n) = some n := by decide

theorem isDigit_small (isDigit : IsDigit c) : c.toNat < 128 := by
  have below : ∀ {d : Char}, c ≤ d → c.toNat ≤ d.toNat := fun le => UInt32.le_iff_toNat_le.mp (Char.le_def.mp le)
  rcases isDigit with ⟨_,high⟩ | ⟨_,high⟩ | ⟨_,high⟩
  · exact Nat.lt_of_le_of_lt (below high) (by decide)
  · exact Nat.lt_of_le_of_lt (below high) (by decide)
  · exact Nat.lt_of_le_of_lt (below high) (by decide)

theorem to_digit_some (isDigit : IsDigit c) : ∃ n < 16, to_digit c = some n ∧ digit n = c.toLower :=
  ascii_all (P := fun c => IsDigit c → ∃ n < 16, to_digit c = some n ∧ digit n = c.toLower) (by decide) c
    (isDigit_small isDigit) isDigit

theorem isDigit_of_to_digit {n : Nat} (value : to_digit c = some n) : IsDigit c := by
  unfold to_digit at value
  split at value
  · exact .inl ‹_›
  · split at value
    · exact .inr (.inl ‹_›)
    · split at value
      · exact .inr (.inr ‹_›)
      · cases value

theorem digit_of_to_digit {n : Nat} (value : to_digit c = some n) : digit n = c.toLower := by
  obtain ⟨m,_,value',lower⟩ := to_digit_some (isDigit_of_to_digit value)
  rw [value] at value'
  cases value'
  exact lower

theorem to_digit_lt {n : Nat} (value : to_digit c = some n) : n < 16 := by
  obtain ⟨m,small,value',_⟩ := to_digit_some (isDigit_of_to_digit value)
  rw [value] at value'
  cases value'
  exact small

/-! ### Numbers -/

inductive IntErrorKind where
  | Empty
  | InvalidDigit
  | PosOverflow
deriving DecidableEq, Repr

def IntErrorKind.to_string : IntErrorKind → String
  | .Empty => "cannot parse integer from empty string"
  | .InvalidDigit => "invalid digit found in string"
  | .PosOverflow => "number too large to fit in target type"

/-- Reads one more digit of a byte. -/
def push_digit (result : UInt8) (c : UInt8) : Except IntErrorKind UInt8 :=
  match to_digit (.ofUInt8 c) with
  | none => .error .InvalidDigit
  | some x => if result.toNat * 16 + x < 256 then .ok (.ofNat (result.toNat * 16 + x)) else .error .PosOverflow

/-- Reads a byte from a number in base sixteen, with an optional plus sign. -/
def from_str_radix (src : List UInt8) : Except IntErrorKind UInt8 :=
  if src = [] then .error .Empty
  else if src = [byte '+'] ∨ src = [byte '-'] then .error .InvalidDigit
  else (if src.head? = some (byte '+') then src.tail else src).foldlM push_digit 0

theorem toNat_digits {x y : Nat} (high : x < 16) (low : y < 16) : (UInt8.ofNat (x * 16 + y)).toNat = x * 16 + y := by
  rw [UInt8.toNat_ofNat']
  omega

theorem push_digit_none {c : UInt8} (value : to_digit (.ofUInt8 c) = none) (result : UInt8) :
    push_digit result c = .error .InvalidDigit := by
  simp [push_digit,value]

theorem push_digit_some {c : UInt8} {x : Nat} (value : to_digit (.ofUInt8 c) = some x) {result : UInt8}
    (fits : result.toNat < 16) : push_digit result c = .ok (.ofNat (result.toNat * 16 + x)) := by
  have small := to_digit_lt value
  have inside : result.toNat * 16 + x < 256 := by omega
  simp [push_digit,value,inside]

/-- What two characters are read as. -/
theorem from_str_radix_pair {a b v : UInt8} :
    from_str_radix [a,b] = .ok v ↔ ∃ y, to_digit (.ofUInt8 b) = some y ∧
      ((∃ x, to_digit (.ofUInt8 a) = some x ∧ v = .ofNat (x * 16 + y)) ∨ a = byte '+' ∧ v = .ofNat y) := by
  by_cases plus : a = byte '+'
  · have unsigned : from_str_radix [a,b] = push_digit 0 b := by simp [from_str_radix,plus]
    have none : to_digit (.ofUInt8 (byte '+')) = none := by decide
    rw [unsigned]
    cases low : to_digit (.ofUInt8 b) with
    | none => simp [push_digit_none low]
    | some y => simp [push_digit_some low,plus,none,eq_comm]
  have plain : from_str_radix [a,b] = push_digit 0 a >>= fun result => push_digit result b := by
    simp [from_str_radix,plus]
  rw [plain]
  cases high : to_digit (.ofUInt8 a) with
  | none =>
    rw [push_digit_none high]
    simp [bind,Except.bind,plus]
  | some x =>
    have value : (UInt8.ofNat x).toNat = x := by simpa using toNat_digits (show 0 < 16 by decide) (to_digit_lt high)
    have first : push_digit 0 a = .ok (.ofNat x) := by simpa using push_digit_some high (show (0 : UInt8).toNat < 16 by decide)
    rw [first]
    change push_digit (.ofNat x) b = .ok v ↔ _
    cases low : to_digit (.ofUInt8 b) with
    | none => simp [push_digit_none low]
    | some y =>
      rw [push_digit_some low (by rw [value]; exact to_digit_lt high),value]
      simp [plus,eq_comm]

/-! ### Texts -/

/-- The text of some bytes. -/
def spell (bs : List UInt8) : List Char := bs.flatMap fun b => [digit (b.toNat / 16),digit (b.toNat % 16)]

/-- Two characters for each byte. -/
inductive Spells : List Char → List UInt8 → Prop where
  | nil : Spells [] []
  | digits {a b : Char} {x y : Nat} {text : List Char} {bs : List UInt8} (high : to_digit a = some x)
      (low : to_digit b = some y) (rest : Spells text bs) : Spells (a :: b :: text) (.ofNat (x * 16 + y) :: bs)
  | plus {b : Char} {y : Nat} {text : List Char} {bs : List UInt8} (low : to_digit b = some y)
      (rest : Spells text bs) : Spells ('+' :: b :: text) (.ofNat y :: bs)

theorem spells_cons {a b : Char} :
    Spells (a :: b :: text) bs ↔ ∃ y bs', to_digit b = some y ∧ Spells text bs' ∧
      ((∃ x, to_digit a = some x ∧ bs = .ofNat (x * 16 + y) :: bs') ∨ a = '+' ∧ bs = .ofNat y :: bs') := by
  constructor
  · intro spells
    cases spells with
    | digits high low rest => exact ⟨_,_,low,rest,.inl ⟨_,high,rfl⟩⟩
    | plus low rest => exact ⟨_,_,low,rest,.inr ⟨rfl,rfl⟩⟩
  · rintro ⟨y,bs',low,rest,⟨x,high,rfl⟩ | ⟨rfl,rfl⟩⟩
    · exact .digits high low rest
    · exact .plus low rest

theorem spells_spell (bs : List UInt8) : Spells (spell bs) bs := by
  induction bs with
  | nil => exact .nil
  | cons b bs ih =>
    have split : b.toNat / 16 * 16 + b.toNat % 16 = b.toNat := by omega
    have bound := b.toNat_lt
    have spelled := Spells.digits (to_digit_digit (b.toNat / 16) (by omega)) (to_digit_digit (b.toNat % 16) (by omega)) ih
    rw [split,UInt8.ofNat_toNat] at spelled
    exact spelled

theorem Spells.length (spells : Spells text bs) : text.length = 2 * bs.length := by
  induction spells with
  | nil => rfl
  | digits high low rest ih => simp [ih]; omega
  | plus low rest ih => simp [ih]; omega

theorem Spells.small (spells : Spells text bs) : ∀ c ∈ text, c.toNat < 128 := by
  induction spells with
  | nil => simp
  | digits high low rest ih =>
    exact List.forall_mem_cons.mpr ⟨isDigit_small (isDigit_of_to_digit high),
      List.forall_mem_cons.mpr ⟨isDigit_small (isDigit_of_to_digit low),ih⟩⟩
  | plus low rest ih =>
    exact List.forall_mem_cons.mpr ⟨by decide,List.forall_mem_cons.mpr ⟨isDigit_small (isDigit_of_to_digit low),ih⟩⟩

/-- Without a plus sign the text consists of digits, and is that of the bytes in lower case. -/
theorem Spells.plain (spells : Spells text bs) (unsigned : '+' ∉ text) :
    (∀ c ∈ text, IsDigit c) ∧ spell bs = text.map Char.toLower := by
  induction spells with
  | nil => exact ⟨by simp,rfl⟩
  | @digits a b x y text bs high low rest ih =>
    obtain ⟨digits,lower⟩ := ih fun member => unsigned (by simp [member])
    refine ⟨List.forall_mem_cons.mpr ⟨isDigit_of_to_digit high,List.forall_mem_cons.mpr ⟨isDigit_of_to_digit low,digits⟩⟩,?_⟩
    have smallX := to_digit_lt high
    have smallY := to_digit_lt low
    have value := toNat_digits smallX smallY
    have left : (x * 16 + y) / 16 = x := by omega
    have right : (x * 16 + y) % 16 = y := by omega
    rw [spell,List.flatMap_cons,value,left,right,digit_of_to_digit high,digit_of_to_digit low,List.map_cons,List.map_cons,← lower]
    rfl
  | plus low rest ih => exact absurd List.mem_cons_self unsigned

/-- Digits spell bytes, if there is an even number of them. -/
theorem spells_of_digits {n : Nat} (even : text.length = 2 * n) (digits : ∀ c ∈ text, IsDigit c) :
    ∃ bs, Spells text bs := by
  induction n generalizing text with
  | zero => exact ⟨[],by rw [List.length_eq_zero_iff.mp even]; exact .nil⟩
  | succ n ih =>
    match text,even with
    | a :: b :: rest,even =>
      obtain ⟨first,others⟩ := List.forall_mem_cons.mp digits
      obtain ⟨second,others⟩ := List.forall_mem_cons.mp others
      obtain ⟨x,_,high,_⟩ := to_digit_some first
      obtain ⟨y,_,low,_⟩ := to_digit_some second
      obtain ⟨bs,spells⟩ := ih (by simp at even; omega) others
      exact ⟨_,.digits high low spells⟩

end Crayon.Hex
