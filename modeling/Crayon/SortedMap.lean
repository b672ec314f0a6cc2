import Mathlib

/-!
Finite maps that keep their entries in increasing order of the keys, as ordered
tree maps do, so that a loop over the entries meets the keys in that order and
each of them once (`read_foldl`).
-/
namespace Crayon
universe u v w

/-- The entries of a map, in strictly increasing order of their keys. -/
structure SortedMap (K : Type u) (V : Type v) [LinearOrder K] where
  entries : List (K × V)
  sorted : entries.Pairwise fun a b => a.1 < b.1
deriving DecidableEq

namespace SortedMap
variable {K : Type u} {V : Type v} {W : Type w} [LinearOrder K]

/-- The first value listed for a key. -/
def find (k : K) : List (K × V) → Option V
  | [] => none
  | (k',v) :: rest => if k = k' then some v else find k rest

/-- Puts an entry at its place, in place of the one at the same key if there is one. -/
def place (k : K) (v : V) : List (K × V) → List (K × V)
  | [] => [(k,v)]
  | (k',v') :: rest =>
    if k < k' then (k,v) :: (k',v') :: rest
    else if k = k' then (k,v) :: rest
    else (k',v') :: place k v rest

theorem mem_place {k : K} {v : V} {l : List (K × V)} {e : K × V} (member : e ∈ place k v l) : e = (k,v) ∨ e ∈ l := by
  induction l with
  | nil => simpa [place] using member
  | cons first rest ih =>
    obtain ⟨k',v'⟩ := first
    rw [place] at member
    split at member
    · simpa using member
    · split at member
      · rcases List.mem_cons.mp member with here | later
        · exact .inl here
        · exact .inr (List.mem_cons_of_mem _ later)
      · rcases List.mem_cons.mp member with here | later
        · exact .inr (by simp [here])
        · rcases ih later with same | old
          · exact .inl same
          · exact .inr (List.mem_cons_of_mem _ old)

theorem place_sorted (k : K) (v : V) {l : List (K × V)} (sorted : l.Pairwise fun a b => a.1 < b.1) :
    (place k v l).Pairwise fun a b => a.1 < b.1 := by
  induction l with
  | nil => simp [place]
  | cons first rest ih =>
    obtain ⟨k',v'⟩ := first
    obtain ⟨above,restSorted⟩ := List.pairwise_cons.mp sorted
    rw [place]
    split
    · rename_i below
      refine List.pairwise_cons.mpr ⟨fun e member => ?_,sorted⟩
      rcases List.mem_cons.mp member with rfl | later
      · exact below
      · exact lt_trans below (above e later)
    · split
      · rename_i _ same
        subst same
        exact List.pairwise_cons.mpr ⟨above,restSorted⟩
      · rename_i notBelow different
        refine List.pairwise_cons.mpr ⟨fun e member => ?_,ih restSorted⟩
        rcases mem_place member with rfl | old
        · exact lt_of_le_of_ne (not_lt.mp notBelow) (Ne.symm different)
        · exact above e old

/-- The map with no entries. -/
def empty : SortedMap K V := ⟨[],List.Pairwise.nil⟩

def get (m : SortedMap K V) (k : K) : Option V := find k m.entries

def insert (m : SortedMap K V) (k : K) (v : V) : SortedMap K V :=
  ⟨place k v m.entries,place_sorted k v m.sorted⟩

def remove (m : SortedMap K V) (k : K) : SortedMap K V :=
  ⟨m.entries.filter fun e => e.1 ≠ k,m.sorted.filter _⟩

theorem find_none_of_lt {k : K} {l : List (K × V)} (above : ∀ e ∈ l, k < e.1) : find k l = none := by
  induction l with
  | nil => rfl
  | cons first rest ih =>
    have different : k ≠ first.1 := ne_of_lt (above first (by simp))
    simp [find,different,ih fun e member => above e (List.mem_cons_of_mem _ member)]

theorem find_place (k k' : K) (v : V) (l : List (K × V)) :
    find k' (place k v l) = if k' = k then some v else find k' l := by
  induction l with
  | nil => simp [place,find]
  | cons first rest ih =>
    obtain ⟨k₁,v₁⟩ := first
    rw [place]
    split
    · simp [find]
    · split
      · rename_i _ same
        subst same
        by_cases same : k' = k <;> simp [find,same]
      · rename_i _ different
        by_cases first : k' = k₁
        · subst first
          simp [find,Ne.symm different]
        · simp [find,first,ih]

theorem find_filter (k k' : K) (l : List (K × V)) :
    find k' (l.filter fun e => e.1 ≠ k) = if k' = k then none else find k' l := by
  induction l with
  | nil => simp [find]
  | cons first rest ih =>
    obtain ⟨k₁,v₁⟩ := first
    by_cases dropped : k₁ = k
    · subst dropped
      by_cases same : k' = k₁ <;> simp_all [find]
    · by_cases first : k' = k₁
      · subst first
        simp [find,dropped]
      · simpa [find,dropped,first] using ih

@[simp] theorem get_empty (k : K) : (empty : SortedMap K V).get k = none := rfl
@[simp] theorem get_insert (m : SortedMap K V) (k k' : K) (v : V) :
    (m.insert k v).get k' = if k' = k then some v else m.get k' := find_place k k' v m.entries
@[simp] theorem get_remove (m : SortedMap K V) (k k' : K) :
    (m.remove k).get k' = if k' = k then none else m.get k' := find_filter k k' m.entries

theorem get_of_mem {m : SortedMap K V} {k : K} {v : V} (member : (k,v) ∈ m.entries) : m.get k = some v := by
  obtain ⟨l,sorted⟩ := m
  change (k,v) ∈ l at member
  change find k l = some v
  induction l with
  | nil => simp at member
  | cons first rest ih =>
    obtain ⟨above,restSorted⟩ := List.pairwise_cons.mp sorted
    rcases List.mem_cons.mp member with rfl | later
    · simp [find]
    · have different : k ≠ first.1 := ne_of_gt (above _ later)
      simp [find,different,ih restSorted later]

theorem mem_of_get {m : SortedMap K V} {k : K} {v : V} (found : m.get k = some v) : (k,v) ∈ m.entries := by
  obtain ⟨l,sorted⟩ := m
  change find k l = some v at found
  change (k,v) ∈ l
  induction l with
  | nil => simp [find] at found
  | cons first rest ih =>
    obtain ⟨k₁,v₁⟩ := first
    rw [find] at found
    split at found
    · rename_i same
      cases found
      simp [same]
    · exact List.mem_cons_of_mem _ (ih (List.pairwise_cons.mp sorted).2 found)

theorem mem_entries_iff {m : SortedMap K V} {k : K} {v : V} : (k,v) ∈ m.entries ↔ m.get k = some v :=
  ⟨get_of_mem,mem_of_get⟩

/-- A loop over the entries of a map that changes, at each entry, only what is
    read at its key changes every key of the map once. -/
theorem read_foldl {R : Type*} {X : Type*} (read : R → K → X) (step : R → K × W → R) (update : X → W → X)
    (steps : ∀ r e k, read (step r e) k = if k = e.1 then update (read r k) e.2 else read r k)
    (u : SortedMap K W) (r : R) (k : K) :
    read (u.entries.foldl step r) k = (u.get k).elim (read r k) (update (read r k)) := by
  obtain ⟨l,sorted⟩ := u
  change read (l.foldl step r) k = (find k l).elim _ _
  induction l generalizing r with
  | nil => rfl
  | cons first rest ih =>
    obtain ⟨above,restSorted⟩ := List.pairwise_cons.mp sorted
    obtain ⟨k₁,w₁⟩ := first
    rw [List.foldl_cons,ih (step r (k₁,w₁)) restSorted,steps]
    by_cases same : k = k₁
    · subst same
      simp [find,find_none_of_lt above]
    · simp [find,same]

end SortedMap
end Crayon
