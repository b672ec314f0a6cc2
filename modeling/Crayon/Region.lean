import Mathlib

/-!
Ranges of addresses, and bytes at addresses. A collection of ranges tiles an
interval from 0 when every address of the interval lies in exactly one of them
(`Tiles`); such ranges are apart from each other (`Tiles.pairwise`) and their
lengths add up to the interval's (`Tiles.sum_len`). A tiling grows only at its
end (`Tiles.cut`). A memory keeps, beside its bytes, which ranges were accessed.
-/
namespace Crayon

/-- The addresses from `offset` on, `len` of them. -/
structure Span where
  offset : Nat
  len : Nat
deriving DecidableEq, Repr

namespace Span

/-- The first address after a range. -/
def stop (s : Span) : Nat := s.offset + s.len

def Contains (s : Span) (x : Nat) : Prop := s.offset ≤ x ∧ x < s.stop

instance (s : Span) (x : Nat) : Decidable (s.Contains x) := inferInstanceAs (Decidable (_ ∧ _))

/-- No address lies in both ranges. -/
def Apart (s t : Span) : Prop := ∀ x, s.Contains x → ¬ t.Contains x

/-- Every address of `s` is one of `t`. -/
structure Within (s t : Span) : Prop where
  start : t.offset ≤ s.offset
  stop : s.stop ≤ t.stop

instance (s t : Span) : Decidable (s.Within t) :=
  decidable_of_iff (t.offset ≤ s.offset ∧ s.stop ≤ t.stop) ⟨fun h => ⟨h.1,h.2⟩,fun h => ⟨h.start,h.stop⟩⟩

theorem Within.contains {s t : Span} (inside : s.Within t) {x : Nat} (member : s.Contains x) : t.Contains x :=
  ⟨inside.start.trans member.1,member.2.trans_le inside.stop⟩

/-- How many addresses of an interval from 0 lie in a range that ends inside it. -/
theorem card_contains {s : Span} {top : Nat} (inside : s.stop ≤ top) :
    ((Finset.range top).filter s.Contains).card = s.len := by
  have same : (Finset.range top).filter s.Contains = Finset.Ico s.offset s.stop := by
    ext x
    rw [Finset.mem_filter,Finset.mem_range,Finset.mem_Ico]
    constructor
    · rintro ⟨_,member⟩
      exact member
    · intro member
      exact ⟨member.2.trans_le inside,member⟩
  rw [same,Nat.card_Ico,stop]
  omega

end Span

/-! ### Tilings -/

/-- Every address below `top` lies in exactly one of the ranges, and they end there. -/
structure Tiles (spans : Multiset Span) (top : Nat) : Prop where
  inside : ∀ s ∈ spans, s.stop ≤ top
  once : ∀ x < top, spans.countP (Span.Contains · x) = 1

/-- Ranges that share no address two by two, in any order. -/
theorem pairwise_apart {l : List Span} (atMost : ∀ x, l.countP (Span.Contains · x) ≤ 1) : l.Pairwise Span.Apart := by
  induction l with
  | nil => exact List.Pairwise.nil
  | cons s rest ih =>
    refine List.pairwise_cons.mpr ⟨fun t member x here there => ?_,ih fun x => ?_⟩
    · -- both ranges would be counted at `x`
      have restCounts : 0 < rest.countP (Span.Contains · x) :=
        List.countP_pos_iff.mpr ⟨t,member,by simpa using there⟩
      have counted := atMost x
      rw [List.countP_cons_of_pos (by simpa using here)] at counted
      omega
    · have counted := atMost x
      rw [List.countP_cons] at counted
      omega

namespace Tiles
variable {spans : Multiset Span} {top : Nat}

theorem empty : Tiles 0 0 := ⟨by simp,by simp⟩

/-- A new range at the end goes on with the tiling. -/
theorem cut (tiles : Tiles spans top) (len : Nat) : Tiles (⟨top,len⟩ ::ₘ spans) (top + len) := by
  constructor
  · intro s member
    rcases Multiset.mem_cons.mp member with rfl | old
    · exact le_rfl
    · have := tiles.inside s old
      omega
  · intro x below
    by_cases old : x < top
    · have outside : ¬ Span.Contains ⟨top,len⟩ x := fun member => absurd member.1 (by simpa using old)
      rw [Multiset.countP_cons,if_neg outside,tiles.once x old]
    · have member : Span.Contains ⟨top,len⟩ x := ⟨not_lt.mp old,below⟩
      have none : spans.countP (Span.Contains · x) = 0 := by
        refine Multiset.countP_eq_zero.mpr fun s inside contains => ?_
        have := contains.2.trans_le (tiles.inside s inside)
        omega
      rw [Multiset.countP_cons,if_pos member,none]

/-- No address is counted twice. -/
theorem at_most_once (tiles : Tiles spans top) (x : Nat) : spans.countP (Span.Contains · x) ≤ 1 := by
  by_cases below : x < top
  · exact (tiles.once x below).le
  · refine (Multiset.countP_eq_zero.mpr fun s inside contains => ?_).trans_le (Nat.zero_le 1)
    have := contains.2.trans_le (tiles.inside s inside)
    omega

theorem pairwise (tiles : Tiles spans top) : spans.Pairwise Span.Apart := by
  have atMost := tiles.at_most_once
  induction spans using Quot.ind with
  | mk l => exact ⟨l,rfl,pairwise_apart fun x => by simpa using atMost x⟩

/-- Two ranges of a tiling that are counted apart share no address. -/
theorem apart {s t : Span} {rest : Multiset Span} (tiles : Tiles (s ::ₘ t ::ₘ rest) top) : s.Apart t := by
  intro x here there
  have counted := tiles.at_most_once x
  rw [Multiset.countP_cons,Multiset.countP_cons,if_pos here,if_pos there] at counted
  omega

/-- Counting by address and counting by range give the same total. -/
theorem sum_countP (inside : ∀ s ∈ spans, s.stop ≤ top) :
    ∑ x ∈ Finset.range top, spans.countP (Span.Contains · x) = (spans.map Span.len).sum := by
  induction spans using Multiset.induction with
  | empty => simp
  | cons s rest ih =>
    obtain ⟨here,others⟩ := Multiset.forall_mem_cons.mp inside
    simp only [Multiset.countP_cons,Finset.sum_add_distrib,ih others,Multiset.map_cons,Multiset.sum_cons]
    rw [Finset.sum_boole,Span.card_contains here,Nat.cast_id,Nat.add_comm]

/-- The lengths add up to the length of what is tiled. -/
theorem sum_len (tiles : Tiles spans top) : (spans.map Span.len).sum = top := by
  rw [← sum_countP tiles.inside,Finset.sum_congr rfl fun x member => tiles.once x (Finset.mem_range.mp member)]
  simp

end Tiles

/-! ### Bytes -/

/-- Bytes at addresses, and the ranges that were read or written so far. -/
structure Memory where
  byte : Nat → UInt8
  touched : List Span

namespace Memory

/-- Reads a range. -/
def slice (m : Memory) (span : Span) : List UInt8 := (List.range span.len).map fun i => m.byte (span.offset + i)

/-- Records that a range was accessed. -/
def touch (m : Memory) (span : Span) : Memory := { m with touched := m.touched ++ [span] }

/-- Copies bytes to an address. -/
def write (m : Memory) (offset : Nat) (bytes : List UInt8) : Memory where
  byte i := if offset ≤ i then (bytes[i - offset]?).getD (m.byte i) else m.byte i
  touched := m.touched ++ [⟨offset,bytes.length⟩]

@[simp] theorem byte_touch (m : Memory) (span : Span) : (m.touch span).byte = m.byte := rfl

/-- What lies outside the range written keeps its byte. -/
theorem byte_write_outside (m : Memory) {offset : Nat} {bytes : List UInt8} {i : Nat}
    (outside : ¬ Span.Contains ⟨offset,bytes.length⟩ i) : (m.write offset bytes).byte i = m.byte i := by
  show (if offset ≤ i then (bytes[i - offset]?).getD (m.byte i) else m.byte i) = m.byte i
  split
  · have beyond : bytes.length ≤ i - offset := by
      by_contra inside
      exact outside ⟨by assumption,show i < offset + bytes.length by omega⟩
    rw [List.getElem?_eq_none beyond]
    rfl
  · rfl

/-- A range reads the same where its bytes are the same. -/
theorem slice_congr {m n : Memory} {span : Span} (same : ∀ i, span.Contains i → m.byte i = n.byte i) :
    m.slice span = n.slice span := by
  refine List.map_congr_left fun i member => same _ ?_
  have := List.mem_range.mp member
  exact ⟨Nat.le_add_right _ _,show span.offset + i < span.offset + span.len by omega⟩

/-- What was written can be read. -/
theorem slice_write (m : Memory) (offset : Nat) (bytes : List UInt8) :
    (m.write offset bytes).slice ⟨offset,bytes.length⟩ = bytes := by
  refine List.ext_getElem (by simp [slice]) fun i short _ => ?_
  have inside : i < bytes.length := by simpa [slice] using short
  simp [slice,write,inside]

/-- A range reads as its two parts. -/
theorem slice_append (m : Memory) (offset a b : Nat) :
    m.slice ⟨offset,a + b⟩ = m.slice ⟨offset,a⟩ ++ m.slice ⟨offset + a,b⟩ := by
  simp only [slice,List.range_add,List.map_append,List.map_map]
  congr 1
  exact List.map_congr_left fun i _ => by simp only [Function.comp_apply,Nat.add_assoc]

/-- What is written right after a range is read after it. -/
theorem slice_write_after (m : Memory) (offset n : Nat) (bytes : List UInt8) :
    (m.write (offset + n) bytes).slice ⟨offset,n + bytes.length⟩ = m.slice ⟨offset,n⟩ ++ bytes := by
  rw [slice_append,slice_write]
  congr 1
  refine slice_congr fun i inside => byte_write_outside _ fun touched => ?_
  exact absurd (inside.2.trans_le touched.1) (Nat.lt_irrefl i)

/-- A part of what is read of a range is what is read of a part of it. -/
theorem slice_part (m : Memory) {offset n a b : Nat} (inside : a + b ≤ n) :
    ((m.slice ⟨offset,n⟩).drop a).take b = m.slice ⟨offset + a,b⟩ := by
  obtain ⟨rest,rfl⟩ := Nat.exists_eq_add_of_le inside
  rw [slice_append,slice_append,List.append_assoc,List.drop_left' (by simp [slice]),List.take_left' (by simp [slice])]

end Memory
end Crayon
