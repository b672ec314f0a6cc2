import Crayon.Hex
import Crayon.Operation

/-!
Object ids as text. An id is shown as 64 hexadecimal digits in lower case, and
that text is read back as the id. The reader counts the bytes of the text and
then hands them, two at a time, to a parser of numbers; so it accepts every text
of 64 digits in either case, but also texts in which a plus sign stands for the
first digit of a byte (`from_str_iff`).
-/
namespace Crayon.ObjectId
open Hex

def to_string (self : ObjectId) : String := .ofList (spell self.bytes.toList)

section
variable (utf8_error : List UInt8 → String)

/-- Reads one byte of the id; a chunk that is not text has an error text of its own. -/
def read_chunk (chunk : List UInt8) : Except String UInt8 :=
  if ByteArray.validateUTF8 ⟨chunk.toArray⟩ then (from_str_radix chunk).mapError IntErrorKind.to_string
  else .error (utf8_error chunk)

/-- Reads the bytes two at a time. -/
def read_chunks : List UInt8 → Except String (List UInt8)
  | a :: b :: rest => do
    let byte ← read_chunk utf8_error [a,b]
    let bytes ← read_chunks rest
    .ok (byte :: bytes)
  | _ => .ok []

def from_str (value : String) : Except String ObjectId :=
  if value.utf8ByteSize ≠ 64 then .error "object id must contain 64 hexadecimal characters"
  else do
    let bytes ← read_chunks utf8_error value.toUTF8.data.toList
    .ok ⟨.ofFn fun i => bytes.getD i 0⟩

end

variable {utf8_error : List UInt8 → String}

theorem read_chunk_ok_iff {a b v : UInt8} : read_chunk utf8_error [a,b] = .ok v ↔ from_str_radix [a,b] = .ok v := by
  unfold read_chunk
  constructor
  · intro read
    split at read
    · cases value : from_str_radix [a,b] with
      | error kind => simp [value,Except.mapError] at read
      | ok v' => simpa [value,Except.mapError] using read
    · cases read
  · intro value
    obtain ⟨y,low,high⟩ := from_str_radix_pair.mp value
    have digit : ∀ {c : UInt8} {x : Nat}, to_digit (.ofUInt8 c) = some x → c.toNat < 128 := fun {c} _ found => by
      rw [← toNat_ofUInt8 c]
      exact isDigit_small (isDigit_of_to_digit found)
    have first : a.toNat < 128 := by
      rcases high with ⟨x,high,_⟩ | ⟨rfl,_⟩
      · exact digit high
      · decide
    rw [if_pos (ByteArray.validateUTF8_eq_true_iff.mpr (validUTF8_pair first (digit low))),value]
    rfl

theorem read_chunks_cons {a b : UInt8} {rest bs : List UInt8} :
    read_chunks utf8_error (a :: b :: rest) = .ok bs ↔
      ∃ v bs', from_str_radix [a,b] = .ok v ∧ read_chunks utf8_error rest = .ok bs' ∧ bs = v :: bs' := by
  rw [read_chunks]
  constructor
  · intro read
    cases first : read_chunk utf8_error [a,b] with
    | error message => simp [first,bind,Except.bind] at read
    | ok v =>
      cases others : read_chunks utf8_error rest with
      | error message => simp [first,others,bind,Except.bind] at read
      | ok bs' =>
        refine ⟨v,bs',read_chunk_ok_iff.mp first,rfl,?_⟩
        simpa [first,others,bind,Except.bind,eq_comm] using read
  · rintro ⟨v,bs',first,others,rfl⟩
    rw [read_chunk_ok_iff.mpr first,others]
    rfl

/-- What is read is what the bytes spell, each taken for a character. -/
theorem read_chunks_ok_iff {n : Nat} {l bs : List UInt8} (even : l.length = 2 * n) :
    read_chunks utf8_error l = .ok bs ↔ Spells (l.map Char.ofUInt8) bs := by
  induction n generalizing l bs with
  | zero =>
    obtain rfl := List.length_eq_zero_iff.mp even
    constructor
    · rintro ⟨⟩
      exact .nil
    · rintro ⟨⟩
      rfl
  | succ n ih =>
    match l,even with
    | a :: b :: rest,even =>
      have rest_even : rest.length = 2 * n := by
        simp only [List.length_cons] at even
        omega
      have plus : a = byte '+' ↔ Char.ofUInt8 a = '+' := by
        constructor
        · rintro rfl
          decide
        · intro same
          have small : a.toNat < 128 := by
            rw [← toNat_ofUInt8,same]
            decide
          rw [← same,(byte_ofUInt8 small).2]
      rw [read_chunks_cons,List.map_cons,List.map_cons,spells_cons]
      simp only [from_str_radix_pair,ih rest_even,plus]
      constructor
      · rintro ⟨v,bs',⟨y,low,high⟩,spells,rfl⟩
        refine ⟨y,bs',low,spells,?_⟩
        rcases high with ⟨x,high,rfl⟩ | ⟨sign,rfl⟩
        · exact .inl ⟨x,high,rfl⟩
        · exact .inr ⟨sign,rfl⟩
      · rintro ⟨y,bs',low,spells,⟨x,high,rfl⟩ | ⟨sign,rfl⟩⟩
        · exact ⟨_,bs',⟨y,low,.inl ⟨x,high,rfl⟩⟩,spells,rfl⟩
        · exact ⟨_,bs',⟨y,low,.inr ⟨sign,rfl⟩⟩,spells,rfl⟩

theorem toUTF8_bytes (value : String) : value.toUTF8.data.toList = Hex.bytes value.toList := by
  rw [Hex.bytes,← List.toList_data_toByteArray (l := value.toList.flatMap String.utf8EncodeChar)]
  exact congrArg (fun array : ByteArray => array.data.toList) String.utf8Encode_toList.symm

theorem utf8ByteSize_bytes (value : String) : value.utf8ByteSize = (Hex.bytes value.toList).length := by
  rw [← toUTF8_bytes]
  rfl

theorem ofFn_getD {bs : List UInt8} (length : bs.length = 32) : (Vector.ofFn fun i : Fin 32 => bs.getD i 0).toList = bs := by
  refine List.ext_getElem (by simp [length]) fun i _ inside => ?_
  simp [inside]

/-- An id is read from the texts that spell its bytes. -/
theorem from_str_iff {s : String} {id : ObjectId} :
    from_str utf8_error s = .ok id ↔ Spells s.toList id.bytes.toList := by
  constructor
  · intro read
    unfold from_str at read
    split at read
    · cases read
    rename_i size
    rw [not_not,utf8ByteSize_bytes] at size
    rw [toUTF8_bytes] at read
    cases chunks : read_chunks utf8_error (Hex.bytes s.toList) with
    | error message => simp [chunks,bind,Except.bind] at read
    | ok bs =>
      have spells := (read_chunks_ok_iff (n := 32) size).mp chunks
      have small : ∀ b ∈ Hex.bytes s.toList, b.toNat < 128 := by
        intro b member
        rw [← toNat_ofUInt8]
        exact spells.small _ (List.mem_map_of_mem member)
      have length : bs.length = 32 := by
        have twice := spells.length
        rw [List.length_map] at twice
        omega
      rw [(text_of_bytes small).2] at spells
      simp only [chunks,bind,Except.bind,Except.ok.injEq] at read
      rw [← read,ofFn_getD length]
      exact spells
  · intro spells
    have small : ∀ b ∈ Hex.bytes s.toList, b.toNat < 128 := by
      rw [bytes_small spells.small]
      intro b member
      obtain ⟨c,inside,rfl⟩ := List.mem_map.mp member
      rw [← toNat_ofUInt8,ofUInt8_byte (spells.small c inside)]
      exact spells.small c inside
    have text := (text_of_bytes small).2
    have size : (Hex.bytes s.toList).length = 2 * 32 := by
      rw [← List.length_map Char.ofUInt8,text,spells.length,Vector.length_toList]
    rw [from_str,utf8ByteSize_bytes,if_neg (not_not.mpr size),toUTF8_bytes,
      (read_chunks_ok_iff size).mpr (by rw [text]; exact spells)]
    have same : (⟨.ofFn fun i => id.bytes.toList.getD i 0⟩ : ObjectId) = id := by
      obtain ⟨bytes⟩ := id
      exact congrArg ObjectId.mk (Vector.toList_inj.mp (ofFn_getD bytes.length_toList))
    exact congrArg Except.ok same

/-- Sixty-four hexadecimal digits. -/
def Hexadecimal (s : String) : Prop := s.toList.length = 64 ∧ ∀ c ∈ s.toList, IsDigit c

/-- The text of an id is read back as the id. A text is read if and only if it consists of sixty-four digits, and is then
    the text of the id up to the case of letters, exactly if it has no plus sign or spells no id. -/
theorem spelled_ids (utf8_error : List UInt8 → String) :
    (∀ id : ObjectId, from_str utf8_error id.to_string = .ok id) ∧
    ∀ s : String, (((∃ id, from_str utf8_error s = .ok id) ↔ Hexadecimal s) ∧
        ∀ id, from_str utf8_error s = .ok id → id.to_string = s.toLower) ↔
      ('+' ∉ s.toList ∨ ¬ ∃ id : ObjectId, Spells s.toList id.bytes.toList) := by
  have no_digit : ¬ IsDigit '+' := by decide
  refine ⟨fun id => ?_,fun s => ⟨fun law => ?_,fun exact => ?_⟩⟩
  · rw [from_str_iff,to_string,String.toList_ofList]
    exact spells_spell _
  · refine Classical.or_iff_not_imp_left.mpr fun signed => ?_
    rintro ⟨id,spells⟩
    exact no_digit ((law.1.mp ⟨id,from_str_iff.mpr spells⟩).2 _ (not_not.mp signed))
  -- what is read has no plus sign, since it spells an id
  · have unsigned : ∀ id, from_str utf8_error s = .ok id → '+' ∉ s.toList := fun id read =>
      exact.resolve_right (not_not.mpr ⟨id,from_str_iff.mp read⟩)
    refine ⟨⟨?_,?_⟩,fun id read => ?_⟩
    · rintro ⟨id,read⟩
      have spells := from_str_iff.mp read
      exact ⟨by rw [spells.length,Vector.length_toList],(spells.plain (unsigned id read)).1⟩
    · rintro ⟨length,digits⟩
      obtain ⟨bs,spells⟩ := spells_of_digits (n := 32) length digits
      have size : bs.length = 32 := by
        have twice := spells.length
        omega
      refine ⟨⟨.ofFn fun i => bs.getD i 0⟩,from_str_iff.mpr ?_⟩
      rw [ofFn_getD size]
      exact spells
    · have lower := (from_str_iff.mp read |>.plain (unsigned id read)).2
      rw [to_string,lower,← String.toList_map,String.ofList_toList]
      rfl

def mixedCase : String := "00112233445566778899AAbbCCddEEff00112233445566778899aaBBccDDeeFF"

theorem mixed_case_spelled : ∃ id, from_str (fun _ => "") mixedCase = .ok id ∧ id.to_string = mixedCase.toLower := by
  have digits : mixedCase.toList.all (fun c => decide (IsDigit c)) = true := by decide +kernel
  obtain ⟨accepted,lower⟩ := ((spelled_ids fun _ => "").2 mixedCase).mpr (.inl (by decide +kernel))
  obtain ⟨id,read⟩ := accepted.mpr ⟨by decide +kernel,fun c member => of_decide_eq_true (List.all_eq_true.mp digits c member)⟩
  exact ⟨id,read,lower id read⟩

/-- A plus sign stands for the first digit of each byte. -/
def signedBytes : String := "+0+1+2+3+4+5+6+7+8+9+a+b+c+d+e+f+0+1+2+3+4+5+6+7+8+9+a+b+c+d+e+f"

theorem signed_bytes_read : from_str (fun _ => "") signedBytes = .ok ⟨.ofFn fun i => .ofNat (i.val % 16)⟩ ∧
    ¬ Hexadecimal signedBytes ∧ (⟨.ofFn fun i => .ofNat (i.val % 16)⟩ : ObjectId).to_string ≠ signedBytes.toLower := by
  refine ⟨by decide +kernel,fun hexadecimal => ?_,by decide +kernel⟩
  have digit := hexadecimal.2 '+' (by decide +kernel)
  revert digit
  decide

end Crayon.ObjectId
