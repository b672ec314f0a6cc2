import Crayon.Resources

/-!
Needs that are taken off a worker's available resources and given back later, in
any order and with others taken in between. What is left names each quantity as
what was there at first less what is still out (`Lent.amount`), whether a set
writes its zeros down or not; so every need that is out can be given back, and
when nothing is out everything is there again.
-/
namespace Crayon.ResourceSet
open Command

/-! ### Taking and giving back once -/

/-- The subtraction is made in full or not at all. -/
theorem subtract_atomic (self need : ResourceSet) :
    Outcome.Atomic self (fun _ _ => self.can_fit need = true) (subtract need self) := by
  by_cases fits : self.can_fit need = true
  · obtain ⟨rest,ran,_⟩ := subtract_ok fits
    rw [ran]
    exact fits
  · simp [subtract,ensure_not fits]

theorem add_capped_atomic (self returned total : ResourceSet) :
    Outcome.Atomic self (fun _ _ => True) (add_capped returned total self) := by
  rcases add_capped_cases self returned total with ⟨next,ran⟩ | ⟨message,refused⟩
  · rw [ran]
    trivial
  · rw [refused]
    rfl

theorem get_eq_of_amount {self other : ResourceSet} {name : String} (same : self.amount name = other.amount name) :
    self.get name = other.get name :=
  congrArg ResourceQuantity.mk (Int64.toInt_inj.mp same)

/-! ### Loans -/

/-- What is left of the available resources, and the needs that are out: needs are taken off one after the other
    and given back in any order. -/
inductive Lent (total available : ResourceSet) : Multiset ResourceSet → ResourceSet → Prop where
  | start : Lent total available 0 available
  | take {out : Multiset ResourceSet} {self need rest : ResourceSet} (lent : Lent total available out self)
      (nonneg : need.NonNegative) (taken : subtract need self = .ok () rest) : Lent total available (need ::ₘ out) rest
  | give {out : Multiset ResourceSet} {self need next : ResourceSet} (lent : Lent total available (need ::ₘ out) self)
      (given : add_capped need total self = .ok () next) : Lent total available out next

/-- The quantity of a resource that the needs name together. -/
def owed (out : Multiset ResourceSet) (name : String) : Int := (out.map fun need => need.amount name).sum

@[simp] theorem owed_zero (name : String) : owed 0 name = 0 := rfl

@[simp] theorem owed_cons (need : ResourceSet) (out : Multiset ResourceSet) (name : String) :
    owed (need ::ₘ out) name = need.amount name + owed out name := by
  simp [owed]

theorem owed_nonneg {out : Multiset ResourceSet} (nonneg : ∀ need ∈ out, need.NonNegative) (name : String) :
    0 ≤ owed out name := by
  refine Multiset.sum_nonneg fun q member => ?_
  obtain ⟨need,there,rfl⟩ := Multiset.mem_map.mp member
  exact nonneg need there name

section
variable {total available self self' : ResourceSet} {out : Multiset ResourceSet}

theorem Lent.nonneg (lent : Lent total available out self) : ∀ need ∈ out, need.NonNegative := by
  induction lent with
  | start => simp
  | take lent nonneg taken ih => exact Multiset.forall_mem_cons.mpr ⟨nonneg,ih⟩
  | give lent given ih => exact fun need there => ih need (Multiset.mem_cons_of_mem there)

/-- A need that is out fits beside what is left, and what is still out with it. -/
theorem returnable {need : ResourceSet} (within : ∀ name, available.amount name ≤ total.amount name)
    (outNonneg : ∀ need ∈ out, need.NonNegative)
    (balance : ∀ name, self.amount name + owed (need ::ₘ out) name = available.amount name) (name : String) :
    self.amount name + need.amount name ≤ total.amount name := by
  have rest := owed_nonneg outNonneg name
  have sum := balance name
  have cap := within name
  rw [owed_cons] at sum
  omega

/-- What is left and what is out are together what was there at first. -/
theorem Lent.amount (lent : Lent total available out self) (nonneg : available.NonNegative)
    (within : ∀ name, available.amount name ≤ total.amount name) :
    self.NonNegative ∧ ∀ name, self.amount name + owed out name = available.amount name := by
  induction lent with
  | start => exact ⟨nonneg,by simp⟩
  | @take out self need rest lent needs taken ih =>
    obtain ⟨low,balance⟩ := ih
    have fits : self.can_fit need = true := by
      have atomic := subtract_atomic self need
      rwa [taken] at atomic
    have after := subtract_amount low needs fits taken
    refine ⟨fun name => ?_,fun name => ?_⟩
    · have enough := can_fit_amount low fits name
      rw [after name]
      omega
    · rw [owed_cons,after name,← balance name]
      omega
  | @give out self need next lent given ih =>
    obtain ⟨low,balance⟩ := ih
    have needs := lent.nonneg need (Multiset.mem_cons_self need out)
    have others : ∀ other ∈ out, other.NonNegative := fun other there =>
      lent.nonneg other (Multiset.mem_cons_of_mem there)
    obtain ⟨next',ran,after⟩ := add_capped_ok low needs (returnable within others balance)
    obtain rfl : next' = next := (EStateM.Result.ok.inj (ran.symm.trans given)).2
    refine ⟨fun name => ?_,fun name => ?_⟩
    · rw [after name]
      exact Int.add_nonneg (low name) (needs name)
    · rw [after name,← balance name,owed_cons]
      omega

theorem Lent.returns {need : ResourceSet} (lent : Lent total available (need ::ₘ out) self)
    (nonneg : available.NonNegative) (within : ∀ name, available.amount name ≤ total.amount name) :
    ∃ next, add_capped need total self = .ok () next := by
  obtain ⟨low,balance⟩ := lent.amount nonneg within
  have needs := lent.nonneg need (Multiset.mem_cons_self need out)
  have others : ∀ other ∈ out, other.NonNegative := fun other there => lent.nonneg other (Multiset.mem_cons_of_mem there)
  obtain ⟨next,ran,_⟩ := add_capped_ok low needs (returnable within others balance)
  exact ⟨next,ran⟩

/-- What is left is told by what is out. -/
theorem Lent.unique (lent : Lent total available out self) (lent' : Lent total available out self')
    (nonneg : available.NonNegative) (within : ∀ name, available.amount name ≤ total.amount name) (name : String) :
    self.get name = self'.get name := by
  have left := (lent.amount nonneg within).2 name
  have right := (lent'.amount nonneg within).2 name
  exact get_eq_of_amount (by omega)

/-! ### Lists of needs -/

/-- Takes needs off one after the other. -/
def takes : List ResourceSet → Command Error ResourceSet Unit
  | [] => pure ()
  | need :: needs => do
    subtract need
    takes needs

/-- Gives needs back one after the other. -/
def gives (total : ResourceSet) : List ResourceSet → Command Error ResourceSet Unit
  | [] => pure ()
  | need :: needs => do
    add_capped need total
    gives total needs

theorem Lent.takes {needs : List ResourceSet} {rest : ResourceSet} (lent : Lent total available out self)
    (nonneg : ∀ need ∈ needs, need.NonNegative) (ran : takes needs self = .ok () rest) :
    Lent total available (↑needs + out) rest := by
  induction needs generalizing self out with
  | nil =>
    obtain rfl : self = rest := (EStateM.Result.ok.inj ran).2
    simpa using lent
  | cons need needs ih =>
    rw [ResourceSet.takes,bind_apply] at ran
    cases taken : subtract need self with
    | error fault left =>
      rw [taken] at ran
      cases ran
    | ok _ left =>
      rw [taken] at ran
      have later := ih (lent.take (nonneg need List.mem_cons_self) taken)
        (fun other there => nonneg other (List.mem_cons_of_mem _ there)) ran
      rwa [Multiset.add_cons,← Multiset.cons_add,Multiset.cons_coe] at later

theorem Lent.gives {needs : List ResourceSet} (lent : Lent total available (↑needs + out) self)
    (nonneg : available.NonNegative) (within : ∀ name, available.amount name ≤ total.amount name) :
    ∃ after, gives total needs self = .ok () after ∧ Lent total available out after := by
  induction needs generalizing self with
  | nil => exact ⟨self,rfl,by simpa using lent⟩
  | cons need needs ih =>
    rw [← Multiset.cons_coe,Multiset.cons_add] at lent
    obtain ⟨next,given⟩ := lent.returns nonneg within
    obtain ⟨after,ran,rest⟩ := ih (lent.give given)
    refine ⟨after,?_,rest⟩
    rw [ResourceSet.gives,bind_apply,given]
    exact ran

end

/-- Needs that were taken off can be given back in any order, and then everything is there again; on the way what
    is left depends on nothing but what is out; and what is refused changes nothing. -/
theorem loans_return {total available : ResourceSet} (nonneg : available.NonNegative)
    (within : ∀ name, available.amount name ≤ total.amount name) :
    (∀ needs rest, (∀ need ∈ needs, need.NonNegative) → takes needs available = .ok () rest → ∀ order, order.Perm needs →
      ∃ after, gives total order rest = .ok () after ∧ ∀ name, after.get name = available.get name) ∧
    (∀ out self need, Lent total available (need ::ₘ out) self →
      ∃ next, add_capped need total self = .ok () next) ∧
    (∀ out self self', Lent total available out self → Lent total available out self' →
      ∀ name, self.get name = self'.get name) ∧
    (∀ need self fault self', subtract need self = .error fault self' → self' = self) ∧
    ∀ need self fault self', add_capped need total self = .error fault self' → self' = self := by
  refine ⟨fun needs rest needsNonneg taken order same => ?_,fun out self need lent => lent.returns nonneg within,
    fun out self self' lent lent' => lent.unique lent' nonneg within,fun need self fault self' refused => ?_,
    fun need self fault self' refused => ?_⟩
  · have lent := (Lent.start : Lent total available 0 available).takes needsNonneg taken
    rw [← Multiset.coe_eq_coe.mpr same] at lent
    obtain ⟨after,ran,given⟩ := lent.gives nonneg within
    exact ⟨after,ran,given.unique .start nonneg within⟩
  · have atomic := subtract_atomic self need
    rw [refused] at atomic
    match fault,atomic with
    | .Err _,same => exact same
  · have atomic := add_capped_atomic self need total
    rw [refused] at atomic
    match fault,atomic with
    | .Err _,same => exact same

def twoCpus : ResourceSet := ⟨SortedMap.empty.insert "cpu" ⟨2000⟩⟩

/-- A need that names a quantity of nothing. -/
def halfCpu : ResourceSet := ⟨(SortedMap.empty.insert "cpu" ⟨500⟩).insert "gpu" ⟨0⟩⟩

theorem half_cpus_return : ∃ rest after, takes [halfCpu,halfCpu] twoCpus = .ok () rest ∧
    gives twoCpus [halfCpu,halfCpu] rest = .ok () after ∧ ∀ name, after.get name = twoCpus.get name := by
  have nonneg : halfCpu.NonNegative := nonNegative_of_entries (by decide)
  have full : twoCpus.NonNegative := nonNegative_of_entries (by decide)
  have ran : takes [halfCpu,halfCpu] twoCpus = .ok () (Outcome.state (takes [halfCpu,halfCpu] twoCpus)) := by rfl
  obtain ⟨after,given,same⟩ := (@loans_return twoCpus twoCpus full fun _ => le_rfl).1 [halfCpu,halfCpu] _
    (by simp [nonneg]) ran [halfCpu,halfCpu] .rfl
  exact ⟨_,after,ran,given,same⟩

end Crayon.ResourceSet
