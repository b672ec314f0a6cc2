import Crayon.Allocation

/-!
The high-water mark of the arena. A slot is cut at the top only when the free list
of its size is empty, after the reservations that ran out have been reaped; and
every slot that is given back goes to the list of its own size. So the slots of a
size are those in use and those on its list, and the number of slots ever cut of a
size is the largest number of them that were in use at once.
-/
namespace Crayon.Arena.Alloc
variable {a a' b : Alloc} {k slot : UInt64} {id : ObjectId} {e : Entry} {cut : Option UInt64}

/-- How many entries have a slot of a size. -/
def in_use (a : Alloc) (k : UInt64) : Nat := a.live.sum fun e => if e.slot = k then 1 else 0

/-- How many slots of a size can be used again. -/
def spare (a : Alloc) (k : UInt64) : Nat := ((a.free.get k).getD []).length

/-- The slot that is cut for an object: the object is not there, the free list of the size is empty, and
    there is room at the top. -/
def cut_for (a : Alloc) (id : ObjectId) (slot : UInt64) : Option UInt64 :=
  if a.live.get id = none ∧ (a.free.get slot).bind List.getLast? = none ∧ (a.allocate slot).isOk = true then some slot else none

/-- The slots of each size before and after an operation that cuts one of the given size, or none. -/
structure Counted (cut : Option UInt64) (a a' : Alloc) : Prop where
  slots : ∀ k, a'.in_use k + a'.spare k = a.in_use k + a.spare k + if cut = some k then 1 else 0
  top : a'.top.toNat = a.top.toNat + cut.elim 0 UInt64.toNat
  tight : ∀ k, cut = some k → a'.spare k = 0

theorem counted_refl (a : Alloc) : Counted none a a := ⟨by simp,by simp,by simp⟩

theorem Counted.after (quiet : Counted none a b) (counted : Counted cut b a') : Counted cut a a' where
  slots k := by
    have first := quiet.slots k
    have second := counted.slots k
    simp only [reduceCtorEq,if_false,Nat.add_zero] at first
    omega
  top := by
    have first := quiet.top
    have second := counted.top
    simp only [Option.elim_none,Nat.add_zero] at first
    omega
  tight := counted.tight

/-- What changes in an entry beside its slot does not count. -/
theorem Counted.modify {f : Entry → Entry} (counted : Counted cut a b) (same : ∀ e, (f e).slot = e.slot) :
    Counted cut a { b with live := b.live.modify id f } := by
  have uses : ∀ k, in_use { b with live := b.live.modify id f } k = b.in_use k := by
    intro k
    refine Table.sum_eq_of_contributions fun other => ?_
    rw [Table.get_modify]
    split
    · cases b.live.get other <;> simp [same]
    · rfl
  refine ⟨fun k => ?_,counted.top,counted.tight⟩
  rw [uses]
  exact counted.slots k

/-- A slot that is given back can be used again. -/
theorem recycle_counted (found : a.live.get id = some e) : Counted none a (a.recycle id e) where
  slots k := by
    have used : a.in_use k = (if e.slot = k then 1 else 0) + (a.recycle id e).in_use k := Table.sum_eq_add_remove found _
    rw [used,spare,spare,recycle,Table.get_insert]
    by_cases same : k = e.slot
    · simp [same]
      omega
    · simp [same,Ne.symm same]
  top := rfl
  tight := by simp

theorem reap_counted (order : Traversal ObjectId) (now : Instant) (a : Alloc) : Counted none a (a.reap order now) := by
  unfold reap
  generalize (order.list a.live.keys).filter _ = ids
  induction ids generalizing a with
  | nil => exact counted_refl a
  | cons id rest ih =>
    rw [List.foldl_cons]
    cases found : a.live.get id with
    | none => exact ih a
    | some e => exact (recycle_counted found).after (ih (a.recycle id e))

theorem in_use_insert (absent : a.live.get id = none) (k : UInt64) :
    in_use { a with live := a.live.insert id e } k = (if e.slot = k then 1 else 0) + a.in_use k :=
  Table.sum_insert_new absent e _

/-- A new entry takes a slot of its size from the free list, and has one cut only if there is none. -/
theorem allocate_counted {offset : UInt64} (absent : a.live.get id = none) (done : a.allocate slot = .ok (offset,a'))
    (sized : e.slot = slot) : Counted (a.cut_for id slot) a { a' with live := a'.live.insert id e } := by
  cases last : (a.free.get slot).bind List.getLast? with
  | some off =>
    have uncut : a.cut_for id slot = none := by simp [cut_for,last]
    obtain ⟨offs,listed,last⟩ := Option.bind_eq_some_iff.mp last
    obtain ⟨rest,rfl⟩ := List.getLast?_eq_some_iff.mp last
    simp only [allocate,listed,Option.bind_some,last] at done
    obtain ⟨rfl,rfl⟩ := Prod.mk.inj (Except.ok.inj done)
    rw [uncut]
    refine ⟨fun k => ?_,rfl,by simp⟩
    have used : in_use { a with free := a.free.modify slot List.dropLast, live := a.live.insert id e } k =
        (if e.slot = k then 1 else 0) + a.in_use k := in_use_insert absent k
    rw [used,sized,spare,spare,Table.get_modify_of listed]
    by_cases same : k = slot
    · simp [same,listed]
      omega
    · simp [same,Ne.symm same]
  | none =>
    have cut : a.cut_for id slot = some slot := by simp [cut_for,absent,last,done,Except.isOk,Except.toBool]
    have none_left : a.spare slot = 0 := by
      cases listed : a.free.get slot with
      | none => simp [spare,listed]
      | some offs =>
        rw [listed,Option.bind_some,List.getLast?_eq_none_iff] at last
        simp [spare,listed,last]
    simp only [allocate,last] at done
    cases added : checked_add a.top slot with
    | none => simp [added] at done
    | some next =>
      obtain ⟨rfl,exact⟩ := ArenaStore.checked_add_some added
      simp only [added] at done
      split at done
      · cases done
      obtain ⟨rfl,rfl⟩ := Prod.mk.inj (Except.ok.inj done)
      rw [cut]
      refine ⟨fun k => ?_,exact,fun k same => ?_⟩
      · have used : in_use { a with top := a.top + slot, live := a.live.insert id e } k =
            (if e.slot = k then 1 else 0) + a.in_use k := in_use_insert absent k
        rw [used,sized]
        by_cases same : slot = k
        · simp [same,spare]
          omega
        · simp [same,spare]
      · obtain rfl := Option.some.inj same
        exact none_left

end Crayon.Arena.Alloc

namespace Crayon.ArenaStore
open Arena Command
variable {order : Traversal ObjectId} {op : Op} {s s' : ArenaStore} {k : UInt64}

/-- The slot that an operation cuts. -/
def Op.cut (order : Traversal ObjectId) (s : ArenaStore) : Op → Option UInt64
  | .reserve id size _ _ _ now _ _ => (s.alloc.reap order now).cut_for id (slot_for size)
  | .put id bytes _ _ now _ _ => (s.alloc.reap order now).cut_for id (slot_for bytes.len)
  | _ => none

theorem reserve_counted (order : Traversal ObjectId) (s : ArenaStore) (id : ObjectId) (size : UInt64) (codec : Codec) (checksum : Checksum) (mode : ArenaWriteMode)
    (now later : Instant) (fresh : RequestId) :
    Alloc.Counted ((s.alloc.reap order now).cut_for id (slot_for size)) s.alloc
      (Outcome.state (reserve order id size codec checksum mode now later fresh s)).alloc := by
  refine (Alloc.reap_counted order now s.alloc).after ?_
  simp only [reserve,bind_apply,modify_apply,get_apply]
  generalize s.alloc.reap order now = a
  cases found : a.live.get id with
  | some e =>
    have uncut : a.cut_for id (slot_for size) = none := by simp [Alloc.cut_for,found]
    rw [uncut]
    by_cases same : e.size = size ∧ e.codec = codec ∧ e.checksum = checksum ∧ e.mode = mode
    · simp only [ensure_of same,bind_apply,pure_apply,Outcome.state_ok]
      exact Alloc.counted_refl a
    · simp only [ensure_not same,bind_apply,err_apply,Outcome.state_error]
      exact Alloc.counted_refl a
  | none =>
    cases taken : a.allocate (slot_for size) with
    | error error =>
      have uncut : a.cut_for id (slot_for size) = none := by simp [Alloc.cut_for,taken,Except.isOk,Except.toBool]
      rw [uncut]
      simp only [lift_error,bind_apply,err_apply,Outcome.state_error]
      exact Alloc.counted_refl a
    | ok pair =>
      obtain ⟨offset,a'⟩ := pair
      simp only [lift_ok,bind_apply,pure_apply,modify_apply,Outcome.state_ok]
      exact Alloc.allocate_counted found taken rfl

/-- Operations that reserve nothing leave the number of slots as it is. -/
theorem Moves.counted (moves : Moves op s s') (unsized : op.size = none) : Alloc.Counted none s.alloc s'.alloc := by
  refine moves.keeps (P := fun t => Alloc.Counted none s.alloc t.alloc) (fun {t t'} move before => ?_) (Alloc.counted_refl _)
  cases move with
  | cut absent reserved => cases reserved.size.symm.trans unsized
  | reuse absent reserved => cases reserved.size.symm.trans unsized
  | recycle found => exact before.after (Alloc.recycle_counted found)
  | commit found => exact before.modify fun _ => rfl
  | progress found => exact before.modify fun _ => rfl
  | write => exact before
  | read => exact before

theorem apply_counted (order : Traversal ObjectId) (op : Op) (s : ArenaStore) :
    Alloc.Counted (op.cut order s) s.alloc (Outcome.state (apply order op s)).alloc := by
  have quiet : op.size = none → op.cut order s = none →
      Alloc.Counted (op.cut order s) s.alloc (Outcome.state (apply order op s)).alloc := by
    intro unsized uncut
    rw [uncut]
    exact (apply_ends order op s).moves.counted unsized
  cases op with
  | reserve id size codec checksum mode now later fresh =>
    rw [apply,state_map]
    exact reserve_counted order s id size codec checksum mode now later fresh
  | put id bytes codec checksum now later fresh =>
    rw [apply,state_map]
    have counted := reserve_counted order s id bytes.len codec checksum .Direct now later fresh
    obtain ⟨s₁,reserved,_,_,⟨ran,_⟩ | ⟨e,_,_,_,⟨_,ran⟩ | ⟨_,ran⟩⟩⟩ := put_cases order id bytes codec checksum now later fresh s <;>
      rw [reserved] at counted <;> rw [ran]
    · exact counted
    · exact counted
    · exact counted.modify fun _ => rfl
  | _ => exact quiet rfl rfl

/-! ### Runs -/

variable (token : String)

/-- How many slots of a size a run has cut. -/
def cuts (k : UInt64) : Steps → Nat
  | [] => 0
  | (order,op) :: earlier => cuts k earlier + if op.cut order (after (new token) earlier) = some k then 1 else 0

/-- The largest number of slots of a size that were in use in a state of a run. -/
def peak (k : UInt64) : Steps → Nat
  | [] => (after (new token) []).alloc.in_use k
  | step :: earlier => max (peak k earlier) ((after (new token) (step :: earlier)).alloc.in_use k)

theorem peak_isGreatest (k : UInt64) (steps : Steps) :
    IsGreatest { n | ∃ earlier, earlier <:+ steps ∧ (after (new token) earlier).alloc.in_use k = n } (peak token k steps) := by
  induction steps with
  | nil => exact ⟨⟨[],List.suffix_rfl,rfl⟩,by rintro n ⟨earlier,suffix,rfl⟩; rw [List.suffix_nil.mp suffix]; rfl⟩
  | cons step earlier ih =>
    obtain ⟨⟨top,suffix,reached⟩,highest⟩ := ih
    constructor
    · rcases max_choice (peak token k earlier) ((after (new token) (step :: earlier)).alloc.in_use k) with before | now
      · exact ⟨top,suffix.trans (List.suffix_cons _ _),reached.trans before.symm⟩
      · exact ⟨step :: earlier,List.suffix_rfl,now.symm⟩
    · rintro n ⟨part,within,rfl⟩
      rcases List.suffix_cons_iff.mp within with rfl | within
      · exact le_max_right _ _
      · exact (highest ⟨part,within,rfl⟩).trans (le_max_left _ _)

/-- All slots ever cut are in use or on the free list of their size. -/
theorem cuts_eq_slots (k : UInt64) (steps : Steps) :
    cuts token k steps = (after (new token) steps).alloc.in_use k + (after (new token) steps).alloc.spare k := by
  induction steps with
  | nil => rfl
  | cons step earlier ih =>
    obtain ⟨order,op⟩ := step
    have counted := (apply_counted order op (after (new token) earlier)).slots k
    rw [cuts,ih,after,counted]

theorem cuts_eq_peak (k : UInt64) (steps : Steps) : cuts token k steps = peak token k steps := by
  induction steps with
  | nil => rfl
  | cons step earlier ih =>
    have now := cuts_eq_slots token k (step :: earlier)
    obtain ⟨order,op⟩ := step
    rw [peak,← ih]
    by_cases cut : op.cut order (after (new token) earlier) = some k
    · -- None can be used again, so all slots of the size are in use now.
      have none_left := (apply_counted order op (after (new token) earlier)).tight k cut
      rw [← after] at none_left
      rw [none_left] at now
      simp only [cuts,if_pos cut] at now ⊢
      omega
    · simp only [cuts,if_neg cut] at now ⊢
      omega

theorem used_bytes_eq_cuts (steps : Steps) :
    (after (new token) steps).used_bytes.toNat = ∑ k : UInt64, k.toNat * cuts token k steps := by
  induction steps with
  | nil => simp [after,used_bytes,new,cuts]
  | cons step earlier ih =>
    obtain ⟨order,op⟩ := step
    have top := (apply_counted order op (after (new token) earlier)).top
    have added : ∑ k : UInt64, k.toNat * (if op.cut order (after (new token) earlier) = some k then 1 else 0) =
        (op.cut order (after (new token) earlier)).elim 0 UInt64.toNat := by
      cases op.cut order (after (new token) earlier) with
      | none => simp
      | some k => simp
    simp only [used_bytes] at ih ⊢
    simp only [cuts,Nat.mul_add,Finset.sum_add_distrib]
    rw [after,top,ih,added]

/-- Of every size as many slots are cut as were ever in use at once, so that the high-water mark is the sum of
    these peaks; and it stays as it is for as long as no size exceeds its peak. -/
theorem used_bytes_peak (steps : Steps) :
    (∀ k, IsGreatest { n | ∃ earlier, earlier <:+ steps ∧ (after (new token) earlier).alloc.in_use k = n } (cuts token k steps)) ∧
    (after (new token) steps).used_bytes.toNat = ∑ k : UInt64, k.toNat * peak token k steps ∧
    ∀ later : Steps, (∀ part, part <:+ later → ∀ k, (after (new token) (part ++ steps)).alloc.in_use k ≤ peak token k steps) →
      (after (new token) (later ++ steps)).used_bytes = (after (new token) steps).used_bytes := by
  have total : ∀ steps, (after (new token) steps).used_bytes.toNat = ∑ k : UInt64, k.toNat * peak token k steps := by
    intro steps
    rw [used_bytes_eq_cuts]
    exact Finset.sum_congr rfl fun k _ => by rw [cuts_eq_peak]
  refine ⟨fun k => ?_,total steps,fun later within => ?_⟩
  · rw [cuts_eq_peak]
    exact peak_isGreatest token k steps
  · have level : ∀ k, peak token k (later ++ steps) = peak token k steps := by
      intro k
      induction later with
      | nil => rfl
      | cons step later ih =>
        rw [List.cons_append,peak,ih fun part suffix => within part (suffix.trans (List.suffix_cons _ _)),← List.cons_append]
        exact max_eq_left (within _ List.suffix_rfl k)
    refine UInt64.toNat_inj.mp ?_
    rw [total,total]
    exact Finset.sum_congr rfl fun k _ => by rw [level]

end Crayon.ArenaStore
