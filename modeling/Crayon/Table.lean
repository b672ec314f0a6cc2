import Mathlib

/-!
Finite tables with no order of their own, as hash tables are: two tables are
equal when they answer every lookup alike. What a program sees of an order it
sees while it traverses a table, so every traversal names the order it takes
(`Traversal`). Quantities summed over a table (`Table.sum`) change only by what
changes at the touched key.
-/
namespace Crayon
universe u v w

/-- A finite map from keys to values; the field `keys` lists exactly the keys
    that have a value. -/
structure Table (K : Type u) (V : Type v) where
  get : K → Option V
  keys : Finset K
  mem_keys : ∀ k, k ∈ keys ↔ (get k).isSome = true

/-- An order in which the elements of every finite set can be traversed. -/
structure Traversal (K : Type u) where
  list : Finset K → List K
  nodup : ∀ s, (list s).Nodup
  mem_list : ∀ s k, k ∈ list s ↔ k ∈ s

namespace Traversal
variable {K : Type u}

/-- The traversal in increasing order of the keys. -/
def increasing [LinearOrder K] : Traversal K where
  list s := Quot.lift (fun l : List K => l.insertionSort (· ≤ ·))
    (fun a b (same : a.Perm b) => List.Perm.eq_of_pairwise' (List.pairwise_insertionSort _ a)
      (List.pairwise_insertionSort _ b) (((List.perm_insertionSort _ a).trans same).trans
        (List.perm_insertionSort _ b).symm)) s.val
  nodup s := by
    obtain ⟨m,distinct⟩ := s
    induction m using Quot.ind with
    | mk l => exact (List.perm_insertionSort _ l).nodup_iff.mpr distinct
  mem_list s k := by
    obtain ⟨m,distinct⟩ := s
    induction m using Quot.ind with
    | mk l => exact (List.perm_insertionSort _ l).mem_iff

end Traversal

namespace Table
variable {K : Type u} {V : Type v} {t : Table K V}

theorem ext_get {a b : Table K V} (same : ∀ k, a.get k = b.get k) : a = b := by
  obtain ⟨f,ks,ofKeys⟩ := a
  obtain ⟨g,ls,ofKeys'⟩ := b
  have getSame : f = g := funext same
  subst getSame
  have keysSame : ks = ls := by
    ext k
    rw [ofKeys,ofKeys']
  subst keysSame
  rfl

theorem mem_keys_iff {k : K} : k ∈ t.keys ↔ ∃ v, t.get k = some v := by
  rw [t.mem_keys,Option.isSome_iff_exists]

theorem get_eq_none_iff {k : K} : t.get k = none ↔ k ∉ t.keys := by
  rw [t.mem_keys,← Option.isNone_iff_eq_none]
  cases t.get k <;> simp

/-- The table with no entries. -/
def empty : Table K V where
  get _ := none
  keys := ∅
  mem_keys k := by simp

instance : Inhabited (Table K V) := ⟨empty⟩

/-- Changes every value. -/
def mapValues (t : Table K V) (f : V → V) : Table K V where
  get k := (t.get k).map f
  keys := t.keys
  mem_keys k := by simp [t.mem_keys]

/-- The values, each rewritten with its key. -/
def keyed {W : Type w} (t : Table K V) (f : K → V → W) : Table K W where
  get k := (t.get k).map (f k)
  keys := t.keys
  mem_keys k := by simp [t.mem_keys]

/-- Keeps the entries whose value passes a test. -/
def retain (t : Table K V) (p : V → Bool) : Table K V where
  get k := (t.get k).filter p
  keys := t.keys.filter fun k => ((t.get k).filter p).isSome = true
  mem_keys k := by
    rw [Finset.mem_filter,t.mem_keys]
    cases t.get k <;> simp

/-- How many entries there are. -/
def len (t : Table K V) : Nat := t.keys.card

/-- Some value passes a test. -/
def any (t : Table K V) (p : V → Bool) : Bool := decide (∃ k ∈ t.keys, (t.get k).any p = true)

/-- The values, in the order of a traversal. -/
def values (t : Table K V) (order : Traversal K) : List V := (order.list t.keys).filterMap t.get

@[simp] theorem get_empty (k : K) : (empty : Table K V).get k = none := rfl
@[simp] theorem keys_empty : (empty : Table K V).keys = ∅ := rfl
@[simp] theorem get_mapValues (t : Table K V) (f : V → V) (k : K) :
    (t.mapValues f).get k = (t.get k).map f := rfl
@[simp] theorem get_keyed {W : Type w} (t : Table K V) (f : K → V → W) (k : K) :
    (t.keyed f).get k = (t.get k).map (f k) := rfl
@[simp] theorem get_retain (t : Table K V) (p : V → Bool) (k : K) :
    (t.retain p).get k = (t.get k).filter p := rfl
@[simp] theorem keys_mapValues (t : Table K V) (f : V → V) : (t.mapValues f).keys = t.keys := rfl

theorem any_iff {p : V → Bool} : t.any p = true ↔ ∃ k v, t.get k = some v ∧ p v = true := by
  simp only [any,decide_eq_true_eq,Option.any_eq_true]
  constructor
  · rintro ⟨k,_,v,found,passes⟩
    exact ⟨k,v,found,passes⟩
  · rintro ⟨k,v,found,passes⟩
    exact ⟨k,mem_keys_iff.mpr ⟨v,found⟩,v,found,passes⟩

theorem mem_values {order : Traversal K} {v : V} : v ∈ t.values order ↔ ∃ k, t.get k = some v := by
  simp only [values,List.mem_filterMap,order.mem_list]
  constructor
  · rintro ⟨k,_,found⟩
    exact ⟨k,found⟩
  · rintro ⟨k,found⟩
    exact ⟨k,mem_keys_iff.mpr ⟨v,found⟩,found⟩

/-- When the values know their keys, a traversal of the values is one of the keys. -/
theorem values_map_key {key : V → K} (keyed : ∀ k v, t.get k = some v → key v = k)
    (order : Traversal K) : (t.values order).map key = order.list t.keys := by
  have known : ∀ k ∈ order.list t.keys, ∃ v, t.get k = some v := fun k member =>
    mem_keys_iff.mp ((order.mem_list _ k).mp member)
  unfold values
  generalize order.list t.keys = keys at known ⊢
  induction keys with
  | nil => rfl
  | cons k rest ih =>
    obtain ⟨⟨v,found⟩,known⟩ := List.forall_mem_cons.mp known
    rw [List.filterMap_cons_some found,List.map_cons,keyed k v found,ih known]

/-- When the values know their keys, the one at a key is found by it. -/
theorem find_values [DecidableEq K] {key : V → K} (keyed : ∀ k v, t.get k = some v → key v = k) (order : Traversal K)
    (k : K) : (t.values order).find? (fun v => key v = k) = t.get k := by
  cases first : (t.values order).find? (fun v => key v = k) with
  | some v =>
    obtain rfl : key v = k := by simpa using List.find?_some first
    obtain ⟨k,found⟩ := mem_values.mp (List.mem_of_find?_eq_some first)
    rw [keyed k v found,found]
  | none =>
    rw [List.find?_eq_none] at first
    cases found : t.get k with
    | none => rfl
    | some v => exact absurd (decide_eq_true (keyed k v found)) (first v (mem_values.mpr ⟨k,found⟩))

theorem nodup_values_key {key : V → K} (keyed : ∀ k v, t.get k = some v → key v = k)
    (order : Traversal K) (p : V → Bool) : (((t.values order).filter p).map key).Nodup := by
  refine List.Nodup.sublist (List.Sublist.map key List.filter_sublist) ?_
  rw [values_map_key keyed]
  exact order.nodup _

variable [DecidableEq K]

instance [DecidableEq V] : DecidableEq (Table K V) := fun a b =>
  decidable_of_iff (a.keys = b.keys ∧ ∀ k ∈ a.keys, a.get k = b.get k) <| by
    constructor
    · rintro ⟨keys,same⟩
      refine ext_get fun k => ?_
      by_cases inside : k ∈ a.keys
      · exact same k inside
      · rw [get_eq_none_iff.mpr inside,get_eq_none_iff.mpr (keys ▸ inside)]
    · rintro rfl
      exact ⟨rfl,fun _ _ => rfl⟩

/-- Adds an entry, in place of the one at the same key if there is one. -/
def insert (t : Table K V) (k : K) (v : V) : Table K V where
  get k' := if k' = k then some v else t.get k'
  keys := Insert.insert k t.keys
  mem_keys k' := by
    by_cases same : k' = k
    · simp [same]
    · simp [same,t.mem_keys]

/-- Drops the entry at a key. -/
def remove (t : Table K V) (k : K) : Table K V where
  get k' := if k' = k then none else t.get k'
  keys := t.keys.erase k
  mem_keys k' := by
    by_cases same : k' = k
    · simp [same]
    · simp [same,t.mem_keys]

/-- Changes the value at a key, if there is one. -/
def modify (t : Table K V) (k : K) (f : V → V) : Table K V where
  get k' := if k' = k then (t.get k').map f else t.get k'
  keys := t.keys
  mem_keys k' := by
    by_cases same : k' = k
    · simp [same,t.mem_keys]
    · simp [same,t.mem_keys]

/-- Adds every entry of `u`, in place of those of `t` at the same keys. -/
def extend (t u : Table K V) : Table K V where
  get k := (u.get k).or (t.get k)
  keys := t.keys ∪ u.keys
  mem_keys k := by
    rw [Finset.mem_union,t.mem_keys,u.mem_keys]
    cases u.get k <;> simp

@[simp] theorem get_insert (t : Table K V) (k k' : K) (v : V) :
    (t.insert k v).get k' = if k' = k then some v else t.get k' := rfl
@[simp] theorem get_remove (t : Table K V) (k k' : K) :
    (t.remove k).get k' = if k' = k then none else t.get k' := rfl
@[simp] theorem get_modify (t : Table K V) (k k' : K) (f : V → V) :
    (t.modify k f).get k' = if k' = k then (t.get k').map f else t.get k' := rfl
theorem get_modify_of {k : K} {v : V} (found : t.get k = some v) (f : V → V) (k' : K) :
    (t.modify k f).get k' = if k' = k then some (f v) else t.get k' := by
  by_cases same : k' = k
  · simp [same,found]
  · simp [same]
theorem modify_eq_insert {k : K} {v : V} (found : t.get k = some v) (f : V → V) : t.modify k f = t.insert k (f v) :=
  ext_get (get_modify_of found f)
theorem insert_insert (t : Table K V) (k : K) (v w : V) : (t.insert k v).insert k w = t.insert k w :=
  ext_get fun k' => by by_cases same : k' = k <;> simp [same]
theorem modify_insert (t : Table K V) (k : K) (v : V) (f : V → V) : (t.insert k v).modify k f = t.insert k (f v) :=
  ext_get fun k' => by by_cases same : k' = k <;> simp [same]
theorem modify_modify (t : Table K V) (k : K) (f g : V → V) :
    (t.modify k f).modify k g = t.modify k fun v => g (f v) :=
  ext_get fun k' => by
    by_cases same : k' = k
    · cases found : t.get k <;> simp [same,found]
    · simp [same]
theorem remove_of_absent {k : K} (absent : t.get k = none) : t.remove k = t := by
  refine ext_get fun k' => ?_
  rw [get_remove]
  split
  · rename_i same
    rw [same,absent]
  · rfl

theorem remove_modify (t : Table K V) (k : K) (f : V → V) : (t.modify k f).remove k = t.remove k :=
  ext_get fun k' => by by_cases same : k' = k <;> simp [same]
theorem keyed_insert {W : Type w} (t : Table K V) (f : K → V → W) (k : K) (v : V) :
    (t.insert k v).keyed f = (t.keyed f).insert k (f k v) :=
  ext_get fun k' => by by_cases same : k' = k <;> simp [same]
@[simp] theorem get_extend (t u : Table K V) (k : K) :
    (t.extend u).get k = (u.get k).or (t.get k) := rfl
@[simp] theorem keys_insert (t : Table K V) (k : K) (v : V) : (t.insert k v).keys = Insert.insert k t.keys := rfl
@[simp] theorem keys_modify (t : Table K V) (k : K) (f : V → V) : (t.modify k f).keys = t.keys := rfl
@[simp] theorem keys_remove (t : Table K V) (k : K) : (t.remove k).keys = t.keys.erase k := rfl

/-! ### Sums over a table -/
section
variable {M : Type w} [AddCommMonoid M] {t : Table K V}

/-- What each entry contributes, summed over the table. -/
def sum (t : Table K V) (f : V → M) : M := ∑ k ∈ t.keys, (t.get k).elim 0 f

/-- Only the contributions count: entries that contribute nothing may come and go. -/
theorem sum_eq_of_contributions {t u : Table K V} {f g : V → M}
    (same : ∀ k, (t.get k).elim 0 f = (u.get k).elim 0 g) : t.sum f = u.sum g := by
  have left : t.sum f = ∑ k ∈ t.keys ∪ u.keys, (t.get k).elim 0 f := by
    refine Finset.sum_subset Finset.subset_union_left fun k _ outside => ?_
    rw [get_eq_none_iff.mpr outside]
    rfl
  have right : u.sum g = ∑ k ∈ t.keys ∪ u.keys, (u.get k).elim 0 g := by
    refine Finset.sum_subset Finset.subset_union_right fun k _ outside => ?_
    rw [get_eq_none_iff.mpr outside]
    rfl
  rw [left,right]
  exact Finset.sum_congr rfl fun k _ => same k

/-- What a sum is made of: the contribution at one key, and that of the rest. -/
theorem sum_eq_add_remove {k : K} {v : V} (found : t.get k = some v) (f : V → M) :
    t.sum f = f v + (t.remove k).sum f := by
  have inside : k ∈ t.keys := mem_keys_iff.mpr ⟨v,found⟩
  rw [sum,← Finset.add_sum_erase _ _ inside,found]
  refine congrArg (f v + ·) (Finset.sum_congr rfl fun k' member => ?_)
  simp [(Finset.mem_erase.mp member).1]

/-- Putting a value at a key moves a sum by what is there before and after. -/
theorem sum_insert (t : Table K V) (k : K) (v : V) (f : V → M) :
    (t.insert k v).sum f + (t.get k).elim 0 f = t.sum f + f v := by
  have after : ((t.insert k v).remove k).sum f = (t.remove k).sum f :=
    sum_eq_of_contributions fun k' => by by_cases same : k' = k <;> simp [same]
  have before : t.sum f = (t.get k).elim 0 f + (t.remove k).sum f := by
    cases found : t.get k with
    | some old => exact sum_eq_add_remove found f
    | none =>
      rw [Option.elim_none,zero_add]
      exact sum_eq_of_contributions fun k' => by by_cases same : k' = k <;> simp [same,found]
  rw [before,sum_eq_add_remove (k := k) (v := v) (by simp),after]
  ac_rfl

theorem sum_insert_new {k : K} (absent : t.get k = none) (v : V) (f : V → M) :
    (t.insert k v).sum f = f v + t.sum f := by
  have moved := sum_insert t k v f
  rw [absent,Option.elim_none,add_zero] at moved
  rw [moved,add_comm]

/-- Changing one value moves a sum by what that value contributes. -/
theorem sum_modify {k : K} {v : V} (found : t.get k = some v) (g : V → V) (f : V → M) :
    (t.modify k g).sum f + f v = t.sum f + f (g v) := by
  rw [modify_eq_insert found,← sum_insert t k (g v) f,found]
  rfl

/-- A sum is that of what a test keeps and that of the rest. -/
theorem sum_retain (t : Table K V) (p : V → Bool) (f : V → M) :
    t.sum f = (t.retain p).sum f + t.sum fun v => if p v then 0 else f v := by
  have kept : (t.retain p).sum f = t.sum fun v => if p v then f v else 0 := by
    refine sum_eq_of_contributions fun k => ?_
    rw [get_retain]
    cases t.get k with
    | none => rfl
    | some v => cases holds : p v <;> simp [Option.filter_some,holds]
  rw [kept,sum,sum,sum,← Finset.sum_add_distrib]
  refine Finset.sum_congr rfl fun k _ => ?_
  cases t.get k with
  | none => simp
  | some v => cases holds : p v <;> simp [holds]

theorem le_sum {k : K} {v : V} (found : t.get k = some v) {f : V → Int}
    (nonneg : ∀ k v, t.get k = some v → 0 ≤ f v) : f v ≤ t.sum f := by
  rw [sum_eq_add_remove found]
  have rest : 0 ≤ (t.remove k).sum f := by
    refine Finset.sum_nonneg fun k' _ => ?_
    rw [get_remove]
    split
    · exact le_rfl
    · cases other : t.get k' with
      | none => exact le_rfl
      | some v' => exact nonneg k' v' other
  omega

/-- A sum falls by what one contribution falls by, if no other one grows. -/
theorem sum_add_le {t u : Table K V} {f : V → Nat} {k : K} {c : Nat} (here : (u.get k).elim 0 f + c ≤ (t.get k).elim 0 f)
    (elsewhere : ∀ j, j ≠ k → (u.get j).elim 0 f ≤ (t.get j).elim 0 f) : u.sum f + c ≤ t.sum f := by
  have all : ∀ w : Table K V, w.keys ⊆ Insert.insert k (t.keys ∪ u.keys) →
      w.sum f = (w.get k).elim 0 f + ∑ j ∈ (Insert.insert k (t.keys ∪ u.keys)).erase k, (w.get j).elim 0 f := by
    intro w inside
    rw [sum,Finset.sum_subset inside,← Finset.add_sum_erase _ _ (Finset.mem_insert_self ..)]
    intro j _ outside
    rw [get_eq_none_iff.mpr outside]
    rfl
  have rest : ∑ j ∈ (Insert.insert k (t.keys ∪ u.keys)).erase k, (u.get j).elim 0 f ≤
      ∑ j ∈ (Insert.insert k (t.keys ∪ u.keys)).erase k, (t.get j).elim 0 f :=
    Finset.sum_le_sum fun j member => elsewhere j (Finset.ne_of_mem_erase member)
  rw [all t (fun j member => Finset.mem_insert_of_mem (Finset.mem_union_left _ member)),
    all u (fun j member => Finset.mem_insert_of_mem (Finset.mem_union_right _ member))]
  omega

/-- A sum over the values does not depend on the order in which they come. -/
theorem sum_values (t : Table K V) (order : Traversal K) (f : V → Nat) : ((t.values order).map f).sum = t.sum f := by
  have listed : (order.list t.keys).toFinset = t.keys := by
    ext k
    rw [List.mem_toFinset,order.mem_list]
  have entries : ∀ l : List K, ((l.filterMap t.get).map f).sum = (l.map fun k => (t.get k).elim 0 f).sum := by
    intro l
    induction l with
    | nil => rfl
    | cons k l ih => cases found : t.get k <;> simp [found,ih]
  rw [values,entries,sum,← listed,List.sum_toFinset _ (order.nodup _),listed]

omit [DecidableEq K] in
/-- How many entries pass a test. -/
theorem sum_toNat (t : Table K V) (p : V → Bool) :
    (t.sum fun v => (p v).toNat) = (t.keys.filter fun k => (t.get k).any p = true).card := by
  rw [Finset.card_filter,sum]
  refine Finset.sum_congr rfl fun k _ => ?_
  cases t.get k with
  | none => rfl
  | some v => cases holds : p v <;> simp [holds]

omit [DecidableEq K] in
theorem sum_le_len (t : Table K V) {f : V → Nat} (one : ∀ v, f v ≤ 1) : t.sum f ≤ t.len := by
  rw [len,Finset.card_eq_sum_ones]
  refine Finset.sum_le_sum fun k _ => ?_
  cases t.get k with
  | none => exact Nat.zero_le 1
  | some v => exact one v

omit [DecidableEq K] in
theorem sum_add (t : Table K V) (f g : V → Nat) : t.sum f + t.sum g = t.sum fun v => f v + g v := by
  rw [sum,sum,← Finset.sum_add_distrib]
  refine Finset.sum_congr rfl fun k _ => ?_
  cases t.get k <;> rfl

end

/-! ### Parts of a table -/
section
variable {t u : Table K V}

omit [DecidableEq K] in
theorem keys_subset_of_part (part : ∀ k v, u.get k = some v → t.get k = some v) : u.keys ⊆ t.keys := by
  intro k member
  obtain ⟨v,found⟩ := mem_keys_iff.mp member
  exact mem_keys_iff.mpr ⟨v,part k v found⟩

omit [DecidableEq K] in
theorem sum_le_of_part (part : ∀ k v, u.get k = some v → t.get k = some v) (f : V → Nat) : u.sum f ≤ t.sum f := by
  refine le_trans (Finset.sum_le_sum fun k member => ?_) (Finset.sum_le_sum_of_subset (keys_subset_of_part part))
  obtain ⟨v,found⟩ := mem_keys_iff.mp member
  rw [found,part k v found]

/-- A part that lacks an entry lacks its contribution. -/
theorem sum_add_le_of_part (part : ∀ k v, u.get k = some v → t.get k = some v) {k : K} {v : V} (found : t.get k = some v)
    (gone : u.get k = none) (f : V → Nat) : u.sum f + f v ≤ t.sum f := by
  have rest : u.sum f ≤ (t.remove k).sum f := by
    refine sum_le_of_part (fun k' v' there => ?_) f
    have other : k' ≠ k := by
      rintro rfl
      rw [gone] at there
      cases there
    rw [get_remove,if_neg other]
    exact part k' v' there
  rw [sum_eq_add_remove found]
  omega

end
end Table
end Crayon
