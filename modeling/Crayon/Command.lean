import Mathlib

/-!
Commands on a mutable state that can stop early, by an error they return or by a
fault that ends the program, and that leave behind whatever they wrote until
then. A program that mutates its state through `&mut` and returns errors with
`?` behaves so: nothing is rolled back. Loops over a list are total once their
body is (`foldlM_ends`), and an outcome is read with `Outcome.state`; commands
that make steps of some relation make them in sequence (`steps_bind`).
-/
namespace Crayon
universe u v

/-- Why a command stopped before its end. -/
inductive Fault (ε : Type u) where
  /-- The command returned this error. -/
  | Err (error : ε)
  /-- An index, an `unwrap` or a checked arithmetic step panicked. -/
  | Panic
  /-- A loop ran past the bound given for it. -/
  | Diverge
deriving DecidableEq, Repr

/-- A command that keeps its state when it stops. -/
abbrev Command (ε σ α : Type u) := EStateM (Fault ε) σ α

/-- What a command ends with: a value or a fault, and the state either way. -/
abbrev Outcome (ε σ α : Type u) := EStateM.Result (Fault ε) σ α

namespace Outcome
variable {ε σ α : Type u} {outcome : Outcome ε σ α}

/-- The state left behind. -/
def state : Outcome ε σ α → σ
  | .ok _ s => s
  | .error _ s => s

@[simp] theorem state_ok (a : α) (s : σ) : state (.ok a s : Outcome ε σ α) = s := rfl
@[simp] theorem state_error (f : Fault ε) (s : σ) : state (.error f s : Outcome ε σ α) = s := rfl

/-- The value returned, if one was. -/
def value? : Outcome ε σ α → Option α
  | .ok a _ => some a
  | .error _ _ => none

theorem eq_ok {a : α} (returned : outcome.value? = some a) : outcome = .ok a outcome.state := by
  cases outcome with
  | ok a' s =>
    cases returned
    rfl
  | error f s => cases returned

/-- The command neither panicked nor ran past a bound. -/
def Clean : Outcome ε σ α → Prop
  | .ok _ _ => True
  | .error (.Err _) _ => True
  | .error _ _ => False

@[simp] theorem clean_ok (a : α) (s : σ) : Clean (.ok a s : Outcome ε σ α) ↔ True := Iff.rfl
@[simp] theorem clean_err (e : ε) (s : σ) : Clean (.error (.Err e) s : Outcome ε σ α) ↔ True := Iff.rfl
@[simp] theorem clean_panic (s : σ) : Clean (.error .Panic s : Outcome ε σ α) ↔ False := Iff.rfl
@[simp] theorem clean_diverge (s : σ) : Clean (.error .Diverge s : Outcome ε σ α) ↔ False := Iff.rfl

/-- The command returned a value and `Q` holds, or it returned an error and changed nothing. -/
def Atomic (s : σ) (Q : α → σ → Prop) : Outcome ε σ α → Prop
  | .ok a s' => Q a s'
  | .error (.Err _) s' => s' = s
  | .error _ _ => False

@[simp] theorem atomic_ok (s : σ) (Q : α → σ → Prop) (a : α) (s' : σ) :
    Atomic s Q (.ok a s' : Outcome ε σ α) ↔ Q a s' := Iff.rfl
@[simp] theorem atomic_err (s : σ) (Q : α → σ → Prop) (e : ε) : Atomic s Q (.error (.Err e) s : Outcome ε σ α) ↔ True :=
  iff_true_intro rfl

/-- An atomic command returns, or fails and changes nothing. -/
theorem Atomic.returned_or_failed {s : σ} {Q : α → σ → Prop} (atomic : Atomic s Q outcome) :
    (∃ a s', outcome = .ok a s' ∧ Q a s') ∨ ∃ e, outcome = .error (.Err e) s := by
  cases outcome with
  | ok a s' => exact .inl ⟨a,s',rfl,atomic⟩
  | error fault s' =>
    cases fault with
    | Err e =>
      obtain rfl : s' = s := atomic
      exact .inr ⟨e,rfl⟩
    | _ => exact atomic.elim

theorem Atomic.mono {s : σ} {Q R : α → σ → Prop} (atomic : Atomic s Q outcome)
    (weaker : ∀ a s', Q a s' → R a s') : Atomic s R outcome := by
  match outcome,atomic with
  | .ok a s',holds => exact weaker a s' holds
  | .error (.Err _) _,same => exact same

/-- The command returned a value and `Q` holds, or it returned an error that `R` holds of and changed nothing. -/
def Ends (s : σ) (Q : α → σ → Prop) (R : ε → Prop) : Outcome ε σ α → Prop
  | .ok a s' => Q a s'
  | .error (.Err e) s' => s' = s ∧ R e
  | .error _ _ => False

@[simp] theorem ends_ok (s : σ) (Q : α → σ → Prop) (R : ε → Prop) (a : α) (s' : σ) :
    Ends s Q R (.ok a s' : Outcome ε σ α) ↔ Q a s' := Iff.rfl
@[simp] theorem ends_err (s : σ) (Q : α → σ → Prop) (R : ε → Prop) (e : ε) :
    Ends s Q R (.error (.Err e) s : Outcome ε σ α) ↔ R e := and_iff_right rfl

theorem Ends.atomic {s : σ} {Q : α → σ → Prop} {R : ε → Prop} (ends : Ends s Q R outcome) : Atomic s Q outcome := by
  match outcome,ends with
  | .ok _ _,holds => exact holds
  | .error (.Err _) _,⟨same,_⟩ => exact same

end Outcome

namespace Command
open Relation (ReflTransGen)
variable {ε σ τ α β : Type u} {m : Command ε σ α} {f : α → Command ε σ β} {r : σ → σ → Prop}

/-- Stops with an error. -/
def err (e : ε) : Command ε σ α := throw (.Err e)

/-- Stops with a panic. -/
def panic : Command ε σ α := throw .Panic

/-- The value of a lookup, or the given error. -/
def ok_or (o : Option α) (e : ε) : Command ε σ α :=
  match o with
  | some a => pure a
  | none => err e

/-- The value of a lookup, or a panic. -/
def unwrap (o : Option α) : Command ε σ α :=
  match o with
  | some a => pure a
  | none => panic

/-- Goes on only when the condition holds. -/
def ensure (c : Prop) [Decidable c] (e : ε) : Command ε σ PUnit := if c then pure ⟨⟩ else err e

/-- Goes on with the value of a computation that has no state. -/
def lift (r : Except ε α) : Command ε σ α :=
  match r with
  | .ok a => pure a
  | .error e => err e

/-- Runs a command on a part of the state, in place. -/
def within (part : σ → τ) (put : τ → σ → σ) (m : Command ε τ α) : Command ε σ α := fun s =>
  match m (part s) with
  | .ok a t => .ok a (put t s)
  | .error f t => .error f (put t s)

/-- Runs a command on a local copy; what it left there is lost when it stops. -/
def onCopy (copy : τ) (m : Command ε τ PUnit) : Command ε σ τ := fun s =>
  match m copy with
  | .ok _ t => .ok t s
  | .error f _ => .error f s

/-- Runs a command and tells whether it returned a value; a panic is passed on. -/
def is_ok {σ α : Type} {ε : Type} (m : Command ε σ α) : Command ε σ Bool := fun s =>
  match m s with
  | .ok _ s' => .ok true s'
  | .error (.Err _) s' => .ok false s'
  | .error f s' => .error f s'

/-- Runs a command and keeps its value if it returned one; a panic is passed on. -/
def ok {σ α : Type} {ε : Type} (m : Command ε σ α) : Command ε σ (Option α) := fun s =>
  match m s with
  | .ok a s' => .ok (some a) s'
  | .error (.Err _) s' => .ok none s'
  | .error f s' => .error f s'

/-- Runs a command and keeps what it returned, a value or an error; a panic is passed on. -/
def attempt {σ α : Type} {ε : Type} (m : Command ε σ α) : Command ε σ (Except ε α) := fun s =>
  match m s with
  | .ok a s' => .ok (.ok a) s'
  | .error (.Err e) s' => .ok (.error e) s'
  | .error f s' => .error f s'

@[simp] theorem pure_apply (a : α) (s : σ) : (pure a : Command ε σ α) s = .ok a s := rfl
@[simp] theorem bind_apply (m : Command ε σ α) (f : α → Command ε σ β) (s : σ) :
    (m >>= f) s = match m s with
      | .ok a s' => f a s'
      | .error e s' => .error e s' := by
  change EStateM.bind m f s = _
  unfold EStateM.bind
  cases m s <;> rfl
@[simp] theorem map_apply (f : α → β) (m : Command ε σ α) (s : σ) :
    (f <$> m) s = match m s with
      | .ok a s' => .ok (f a) s'
      | .error e s' => .error e s' := by
  change EStateM.map f m s = _
  unfold EStateM.map
  cases m s <;> rfl
@[simp] theorem get_apply (s : σ) : (get : Command ε σ σ) s = .ok s s := rfl
@[simp] theorem set_apply (s s' : σ) : (set s' : Command ε σ PUnit) s = .ok ⟨⟩ s' := rfl
@[simp] theorem modify_apply (f : σ → σ) (s : σ) : (modify f : Command ε σ PUnit) s = .ok ⟨⟩ (f s) := rfl
@[simp] theorem throw_apply (f : Fault ε) (s : σ) : (throw f : Command ε σ α) s = .error f s := rfl
@[simp] theorem err_apply (e : ε) (s : σ) : (err e : Command ε σ α) s = .error (.Err e) s := rfl
@[simp] theorem panic_apply (s : σ) : (panic : Command ε σ α) s = .error .Panic s := rfl
@[simp] theorem ok_or_some (a : α) (e : ε) : (ok_or (some a) e : Command ε σ α) = pure a := rfl
@[simp] theorem ok_or_none (e : ε) : (ok_or none e : Command ε σ α) = err e := rfl
@[simp] theorem unwrap_some (a : α) : (unwrap (some a) : Command ε σ α) = pure a := rfl
@[simp] theorem unwrap_none : (unwrap none : Command ε σ α) = panic := rfl
@[simp] theorem lift_ok (a : α) : (lift (.ok a) : Command ε σ α) = pure a := rfl
@[simp] theorem lift_error (e : ε) : (lift (.error e) : Command ε σ α) = err e := rfl

@[simp] theorem ite_apply (c : Prop) [Decidable c] (m n : Command ε σ α) (s : σ) :
    (if c then m else n) s = if c then m s else n s := by split <;> rfl

theorem ensure_of {c : Prop} [Decidable c] (holds : c) (e : ε) : (ensure c e : Command ε σ PUnit) = pure ⟨⟩ :=
  if_pos holds
theorem ensure_not {c : Prop} [Decidable c] (fails : ¬ c) (e : ε) : (ensure c e : Command ε σ PUnit) = err e :=
  if_neg fails

/-- A sequence of commands that ends with a value has run all of them. -/
theorem bind_ok {s s'' : σ} {b : β} (ran : (m >>= f) s = .ok b s'') :
    ∃ a s', m s = .ok a s' ∧ f a s' = .ok b s'' := by
  rw [bind_apply] at ran
  cases first : m s with
  | ok a s' =>
    rw [first] at ran
    exact ⟨a,s',rfl,ran⟩
  | error fault s' =>
    rw [first] at ran
    cases ran

/-- A result that was lifted, if the command went on. -/
theorem lift_eq {r : Except ε α} {s s' : σ} {a : α} (ran : lift r s = .ok a s') : r = .ok a ∧ s' = s := by
  cases r with
  | ok a' =>
    obtain ⟨rfl,rfl⟩ := EStateM.Result.ok.inj ran
    exact ⟨rfl,rfl⟩
  | error e => cases ran

theorem within_ok {part : σ → τ} {put : τ → σ → σ} {m : Command ε τ α} {s s' : σ} {a : α}
    (ran : within part put m s = .ok a s') : ∃ t, m (part s) = .ok a t ∧ s' = put t s := by
  rw [within] at ran
  cases inner : m (part s) with
  | ok a' t =>
    rw [inner] at ran
    obtain ⟨rfl,rfl⟩ := EStateM.Result.ok.inj ran
    exact ⟨t,rfl,rfl⟩
  | error fault t =>
    rw [inner] at ran
    cases ran

theorem attempt_ok {σ α ε : Type} {m : Command ε σ α} {s s' : σ} {a : α} (ran : attempt m s = .ok (.ok a) s') :
    m s = .ok a s' := by
  rw [attempt] at ran
  cases first : m s with
  | ok a' t =>
    rw [first] at ran
    obtain ⟨same,rfl⟩ := EStateM.Result.ok.inj ran
    rw [Except.ok.inj same]
  | error fault t =>
    rw [first] at ran
    cases fault <;> cases ran

theorem atomic_map {s : σ} {Q : β → σ → Prop} (f : α → β)
    (atomic : Outcome.Atomic s (fun a => Q (f a)) (m s)) : Outcome.Atomic s Q ((m >>= fun a => pure (f a)) s) := by
  rw [bind_apply]
  match m s,atomic with
  | .ok _ _,holds => exact holds
  | .error (.Err _) _,same => exact same

/-! ### The state left behind -/

/-- What follows a command and changes nothing leaves the state as the command did. -/
theorem state_bind (quiet : ∀ a s, Outcome.state (f a s) = s) (s : σ) :
    Outcome.state ((m >>= f) s) = Outcome.state (m s) := by
  rw [bind_apply]
  cases m s with
  | ok a s' => exact quiet a s'
  | error e s' => rfl

/-- After a command that changes nothing, what follows starts from the same state, if it runs at all. -/
theorem state_after {s : σ} (quiet : Outcome.state (m s) = s) (f : α → Command ε σ β) :
    Outcome.state ((m >>= f) s) = s ∨ ∃ a, Outcome.state ((m >>= f) s) = Outcome.state (f a s) := by
  rw [bind_apply]
  cases ran : m s with
  | ok a t =>
    rw [ran] at quiet
    obtain rfl : t = s := quiet
    exact .inr ⟨a,rfl⟩
  | error fault t =>
    rw [ran] at quiet
    exact .inl quiet

theorem state_map (f : α → β) (m : Command ε σ α) (s : σ) : Outcome.state ((f <$> m) s) = Outcome.state (m s) := by
  rw [map_apply]
  cases m s <;> rfl

theorem state_attempt {σ α ε : Type} (m : Command ε σ α) (s : σ) : Outcome.state (attempt m s) = Outcome.state (m s) := by
  unfold attempt
  cases m s with
  | ok a s' => rfl
  | error fault s' => cases fault <;> rfl

theorem state_within (part : σ → τ) (put : τ → σ → σ) (m : Command ε τ α) (s : σ) :
    Outcome.state (within part put m s) = put (Outcome.state (m (part s))) s := by
  unfold within
  cases m (part s) <;> rfl

/-- Commands in sequence make the steps of the first and then those of the second. -/
theorem steps_bind {s : σ} (first : ReflTransGen r s (Outcome.state (m s)))
    (rest : ∀ a s', m s = .ok a s' → ReflTransGen r s' (Outcome.state (f a s'))) :
    ReflTransGen r s (Outcome.state ((m >>= f) s)) := by
  rw [bind_apply]
  cases ran : m s with
  | ok a s' =>
    rw [ran] at first
    exact first.trans (rest a s' ran)
  | error fault s' =>
    rw [ran] at first
    exact first

theorem steps_attempt {σ α ε : Type} {r : σ → σ → Prop} {m : Command ε σ α} {s : σ}
    (steps : ReflTransGen r s (Outcome.state (m s))) :
    ReflTransGen r s (Outcome.state (attempt m s)) := by
  rw [state_attempt]
  exact steps

/-- What comes after a command that changes nothing makes all the steps. -/
theorem steps_after {s : σ} (quiet : ∀ t, Outcome.state (m t) = t)
    (rest : ∀ a, m s = .ok a s → ReflTransGen r s (Outcome.state (f a s))) :
    ReflTransGen r s (Outcome.state ((m >>= f) s)) := by
  refine steps_bind (by rw [quiet]) fun a t ran => ?_
  have same := quiet s
  rw [ran] at same
  obtain rfl : t = s := same
  exact rest a ran

/-- A loop over a list ends normally when its body does, and what the body
    carries from each element to the rest holds at the end. -/
theorem foldlM_ends {γ δ : Type u} (body : δ → γ → Command ε σ δ) (I : List γ → δ → σ → Prop)
    (step : ∀ x rest d s, I (x :: rest) d s → ∃ d' s', body d x s = .ok d' s' ∧ I rest d' s') :
    ∀ (xs : List γ) (d : δ) (s : σ), I xs d s → ∃ d' s', xs.foldlM body d s = .ok d' s' ∧ I [] d' s' := by
  intro xs
  induction xs with
  | nil => intro d s start; exact ⟨d,s,rfl,start⟩
  | cons x rest ih =>
    intro d s start
    obtain ⟨d₁,s₁,ran,kept⟩ := step x rest d s start
    obtain ⟨d₂,s₂,ranRest,last⟩ := ih d₁ s₁ kept
    exact ⟨d₂,s₂,by rw [List.foldlM_cons,bind_apply,ran]; exact ranRest,last⟩

/-- A loop that only updates the state is the fold of its updates. -/
theorem foldlM_modify {γ : Type u} (f : γ → σ → σ) (xs : List γ) (s : σ) :
    (xs.foldlM (fun (_ : PUnit) x => (modify (f x) : Command ε σ PUnit)) ⟨⟩) s =
      .ok ⟨⟩ (xs.foldl (fun s x => f x s) s) := by
  induction xs generalizing s with
  | nil => rfl
  | cons x rest ih => exact ih (f x s)

end Command

/-- What is computed in sequence is computed step by step. -/
theorem except_bind_ok {ε α β : Type} {first : Except ε α} {next : α → Except ε β} {b : β} (ran : (first >>= next) = .ok b) :
    ∃ a, first = .ok a ∧ next a = .ok b := by
  cases first with
  | error error => cases ran
  | ok a => exact ⟨a,rfl,ran⟩

end Crayon
