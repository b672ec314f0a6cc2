import Crayon.Operation
import Crayon.SortedMap

/-!
Named quantities of resources, in thousandths of a unit, and how a worker's
available resources shrink by what a task needs and grow back to at most the
worker's total. Quantities are signed 64-bit integers: comparisons and the
addition are exact, the subtraction wraps around.
-/
namespace Crayon

structure ResourceQuantity where
  milli : Int64
deriving DecidableEq, Repr

instance : Inhabited ResourceQuantity := ⟨⟨0⟩⟩

structure ResourceSet where
  map : SortedMap String ResourceQuantity
deriving DecidableEq

namespace ResourceSet
open Command

/-- The set that names no resource. -/
def default : ResourceSet := ⟨.empty⟩

def get (self : ResourceSet) (name : String) : ResourceQuantity := (self.map.get name).getD ⟨0⟩

def can_fit (self needed : ResourceSet) : Bool :=
  needed.map.entries.all fun (name,value) => decide (value.milli ≤ (self.get name).milli)

/-- Writes a quantity, where zero is written by dropping the entry. -/
def put (self : ResourceSet) (name : String) (quantity : Int64) : ResourceSet :=
  if quantity = 0 then ⟨self.map.remove name⟩ else ⟨self.map.insert name ⟨quantity⟩⟩

/-- Takes one needed quantity off. -/
def subtract_one (entry : String × ResourceQuantity) (self : ResourceSet) : ResourceSet :=
  self.put entry.1 ((self.get entry.1).milli - entry.2.milli)

def subtract (needed : ResourceSet) : Command Error ResourceSet Unit := do
  let self ← MonadState.get
  ensure (self.can_fit needed = true) (.InvalidResource "insufficient resources")
  needed.map.entries.foldlM (fun _ entry => modify (subtract_one entry)) ()

/-- The exact sum, when it is in range. -/
def checked_add (a b : Int64) : Option Int64 :=
  if -2^63 ≤ a.toInt + b.toInt ∧ a.toInt + b.toInt < 2^63 then some (a + b) else none

/-- Returns one quantity to `next`, up to the total. -/
def add_one (total next : ResourceSet) (entry : String × ResourceQuantity) : Except Error ResourceSet :=
  match checked_add (next.get entry.1).milli entry.2.milli with
  | none => .error (.InvalidResource "resource overflow")
  | some quantity =>
    if quantity > (total.get entry.1).milli then .error (.InvalidResource "resource release exceeds worker total")
    else .ok (next.put entry.1 quantity)

def add_capped (returned total : ResourceSet) : Command Error ResourceSet Unit := do
  let self ← MonadState.get
  let next ← lift (returned.map.entries.foldlM (add_one total) self)
  set next

/-- A quantity as an integer. -/
def amount (self : ResourceSet) (name : String) : Int := (self.get name).milli.toInt

/-- No quantity is below zero. -/
def NonNegative (self : ResourceSet) : Prop := ∀ name, 0 ≤ self.amount name

@[simp] theorem get_put (self : ResourceSet) (name other : String) (quantity : Int64) :
    (self.put name quantity).get other = if other = name then ⟨quantity⟩ else self.get other := by
  unfold put get
  by_cases zero : quantity = 0
  · by_cases same : other = name <;> simp [zero,same]
  · by_cases same : other = name <;> simp [zero,same]

theorem amount_range (self : ResourceSet) (name : String) : -2^63 ≤ self.amount name ∧ self.amount name < 2^63 :=
  ⟨Int64.le_toInt _,Int64.toInt_lt _⟩

/-- Only the quantities that are written down have to be looked at. -/
theorem nonNegative_of_entries {self : ResourceSet} (entries : ∀ entry ∈ self.map.entries, 0 ≤ entry.2.milli.toInt) :
    self.NonNegative := by
  intro name
  unfold amount get
  cases found : self.map.get name with
  | none => exact le_rfl
  | some value => exact entries (name,value) (SortedMap.mem_entries_iff.mpr found)

variable {self needed : ResourceSet}

theorem can_fit_iff :
    self.can_fit needed = true ↔
      ∀ name value, needed.map.get name = some value → value.milli.toInt ≤ self.amount name := by
  simp only [can_fit,List.all_eq_true,decide_eq_true_eq,Prod.forall,SortedMap.mem_entries_iff,Int64.le_iff_toInt_le,
    amount]

/-- For quantities that are not negative, fitting is fitting at every name. -/
theorem can_fit_amount (nonneg : self.NonNegative) (fits : self.can_fit needed = true)
    (name : String) : needed.amount name ≤ self.amount name := by
  unfold amount get
  cases found : needed.map.get name with
  | none => exact nonneg name
  | some value => exact can_fit_iff.mp fits name value found

/-! ### What the two operations compute -/

/-- Once the needed resources fit, the subtraction succeeds, and each needed
    quantity is taken off once. -/
theorem subtract_ok (fits : self.can_fit needed = true) :
    ∃ rest, subtract needed self = .ok () rest ∧ ∀ name,
      rest.get name = (needed.map.get name).elim (self.get name) fun value => ⟨(self.get name).milli - value.milli⟩ := by
  refine ⟨needed.map.entries.foldl (fun self e => subtract_one e self) self,?_,?_⟩
  · simp only [subtract,bind_apply,get_apply,ensure_of fits,pure_apply]
    exact foldlM_modify subtract_one _ _
  · intro name
    refine SortedMap.read_foldl get _ (fun q (value : ResourceQuantity) => ⟨q.milli - value.milli⟩) ?_ _ _ _
    intro self e other
    by_cases same : other = e.1 <;> simp [subtract_one,same]

/-- The amounts after a subtraction that cannot wrap around. -/
theorem subtract_amount {self needed rest : ResourceSet} (nonneg : self.NonNegative) (needs : needed.NonNegative)
    (fits : self.can_fit needed = true) (ran : subtract needed self = .ok () rest) (name : String) :
    rest.amount name = self.amount name - needed.amount name := by
  obtain ⟨rest',ran',read⟩ := subtract_ok fits
  rw [ran] at ran'
  cases ran'
  have within := can_fit_amount nonneg fits name
  have low := needs name
  have range := self.amount_range name
  unfold amount at *
  rw [read name]
  unfold get at *
  cases found : needed.map.get name with
  | none => simp
  | some value =>
    rw [found] at within low
    simp only [Option.elim_some,Option.getD_some,Int64.toInt_sub] at *
    exact Int.bmod_eq_of_le (by omega) (by omega)

/-- Returning amounts that stay within the total succeeds, and adds each once. -/
theorem add_capped_ok {self returned total : ResourceSet} (nonneg : self.NonNegative) (gives : returned.NonNegative)
    (capped : ∀ name, self.amount name + returned.amount name ≤ total.amount name) :
    ∃ next, add_capped returned total self = .ok () next ∧
      ∀ name, next.amount name = self.amount name + returned.amount name := by
  suffices loop : ∃ next, returned.map.entries.foldlM (add_one total) self = .ok next ∧
      ∀ name, next.amount name = self.amount name + returned.amount name by
    obtain ⟨next,ran,read⟩ := loop
    exact ⟨next,by simp [add_capped,ran],read⟩
  obtain ⟨⟨l,sorted⟩⟩ := returned
  have entry : ∀ name, (⟨⟨l,sorted⟩⟩ : ResourceSet).amount name =
      ((SortedMap.find name l).getD ⟨0⟩).milli.toInt := fun _ => rfl
  simp only [NonNegative,entry] at gives capped ⊢
  clear entry
  induction l generalizing self with
  | nil => exact ⟨self,rfl,fun name => by simp [SortedMap.find]⟩
  | cons first rest ih =>
    obtain ⟨above,restSorted⟩ := List.pairwise_cons.mp sorted
    obtain ⟨name₁,value₁⟩ := first
    have absent := SortedMap.find_none_of_lt above
    have here := capped name₁
    have low := gives name₁
    have base := nonneg name₁
    have range := total.amount_range name₁
    simp only [SortedMap.find,if_true,Option.getD_some] at here low
    have exact : (self.get name₁).milli.toInt + value₁.milli.toInt < 2^63 := by unfold amount at here range; omega
    have sum : ((self.get name₁).milli + value₁.milli).toInt = self.amount name₁ + value₁.milli.toInt := by
      rw [Int64.toInt_add]
      unfold amount at *
      exact Int.bmod_eq_of_le (by omega) (by omega)
    have added : add_one total self (name₁,value₁) = .ok (self.put name₁ ((self.get name₁).milli + value₁.milli)) := by
      have inRange : checked_add (self.get name₁).milli value₁.milli = some ((self.get name₁).milli + value₁.milli) :=
        if_pos ⟨by unfold amount at base; omega,exact⟩
      have notAbove : ¬ (self.get name₁).milli + value₁.milli > (total.get name₁).milli := by
        rw [gt_iff_lt,Int64.lt_iff_toInt_lt,sum]
        exact not_lt.mpr here
      simp [add_one,inRange,notAbove]
    have after : ∀ name, (self.put name₁ ((self.get name₁).milli + value₁.milli)).amount name =
        if name = name₁ then self.amount name₁ + value₁.milli.toInt else self.amount name := by
      intro name
      unfold amount at sum ⊢
      by_cases same : name = name₁ <;> simp [same,sum]
    have stillNonneg : (self.put name₁ ((self.get name₁).milli + value₁.milli)).NonNegative := by
      intro name
      rw [after name]
      have other := nonneg name
      split <;> omega
    have restGives : ∀ name, 0 ≤ ((SortedMap.find name rest).getD ⟨0⟩).milli.toInt := by
      intro name
      by_cases same : name = name₁
      · subst same; simp [absent]
      · simpa [SortedMap.find,same] using gives name
    have restCapped : ∀ name, (self.put name₁ ((self.get name₁).milli + value₁.milli)).amount name +
        ((SortedMap.find name rest).getD ⟨0⟩).milli.toInt ≤ total.amount name := by
      intro name
      rw [after name]
      by_cases same : name = name₁
      · subst same; simpa [absent] using here
      · simpa [SortedMap.find,same] using capped name
    obtain ⟨next,ran,read⟩ := ih stillNonneg restSorted restGives restCapped
    refine ⟨next,by rw [List.foldlM_cons,added]; exact ran,fun name => ?_⟩
    rw [read name,after name]
    by_cases same : name = name₁
    · subst same; simp [SortedMap.find,absent]
    · simp [SortedMap.find,same]

/-- Returning resources succeeds, or is refused and changes nothing. -/
theorem add_capped_cases (self returned total : ResourceSet) :
    (∃ next, add_capped returned total self = .ok () next) ∨
      ∃ message, add_capped returned total self = .error (.Err (.InvalidResource message)) self := by
  suffices loop : ∀ (l : List (String × ResourceQuantity)) (self : ResourceSet),
      (∃ next, l.foldlM (add_one total) self = .ok next) ∨
        ∃ message, l.foldlM (add_one total) self = .error (.InvalidResource message) by
    rcases loop returned.map.entries self with ⟨next,ran⟩ | ⟨message,failed⟩
    · exact .inl ⟨next,by simp [add_capped,ran]⟩
    · exact .inr ⟨message,by simp [add_capped,failed]⟩
  intro l
  induction l with
  | nil => exact fun self => .inl ⟨self,rfl⟩
  | cons entry rest ih =>
    intro self
    have one : (∃ next, add_one total self entry = .ok next) ∨
        ∃ message, add_one total self entry = .error (.InvalidResource message) := by
      unfold add_one
      cases checked_add (self.get entry.1).milli entry.2.milli with
      | none => exact .inr ⟨_,rfl⟩
      | some quantity => by_cases beyond : quantity > (total.get entry.1).milli <;> simp [beyond]
    rcases one with ⟨next,ran⟩ | ⟨message,failed⟩
    · rw [List.foldlM_cons,ran]
      exact ih next
    · exact .inr ⟨message,by rw [List.foldlM_cons,failed]; rfl⟩

end ResourceSet
end Crayon
