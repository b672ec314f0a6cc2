import Mathlib

/-!
Jobs that are tried a bounded number of times. A job is accepted once and waits;
it is sent out when it is due, comes back when the attempt has ended, and is then
due after a pause, unless it is over. Whoever watches sees the attempts go out in
order (`Steps.numbered`), no more of them than allowed (`Steps.bounded`), each after
the pause that follows the end of the one before (`Steps.paused`), and none after an
end that was final (`Steps.final`).
-/
namespace Crayon.Attempts

inductive Job where
  /-- Not accepted yet. -/
  | unknown
  /-- Waits, after `made` attempts of at most `limit`, and is not to be sent before `due`. -/
  | idle (made limit due : Nat)
  /-- The attempt `made` is under way. -/
  | out (made limit : Nat)
  /-- Is not tried any more. -/
  | closed
  | gone
deriving DecidableEq, Repr

/-- What is seen of a job in one step. -/
inductive Mark where
  | quiet
  /-- The job was accepted, for at most so many attempts. -/
  | accepted (limit : Nat)
  | sent (attempt now : Nat)
  /-- The attempt ended without success; a final end is one after which the job is not tried again. -/
  | ended (attempt now : Nat) (final : Bool)
deriving DecidableEq, Repr

/-- One step of a job. The pause depends on when an attempt ended, and which. -/
inductive Step (pause : Nat → Nat → Nat) : Job → Mark → Job → Prop where
  | stay (job : Job) : Step pause job .quiet job
  | accept (limit due : Nat) : Step pause .unknown (.accepted limit) (.idle 0 limit due)
  | send {made limit due now : Nat} (room : made < limit) (timely : due ≤ now) :
      Step pause (.idle made limit due) (.sent (made + 1) now) (.out (made + 1) limit)
  | retry {made limit : Nat} (now : Nat) (room : made < limit) :
      Step pause (.out made limit) (.ended made now false) (.idle made limit (pause now made))
  | give_up {made limit : Nat} (now : Nat) (final : Bool) : Step pause (.out made limit) (.ended made now final) .closed
  | finish {made limit : Nat} : Step pause (.out made limit) .quiet .closed
  | drop {made limit due : Nat} : Step pause (.idle made limit due) .quiet .closed
  | forget (job : Job) : Step pause job .quiet .gone

/-- What was seen of a job, the last mark first, and what became of it. -/
inductive Steps (pause : Nat → Nat → Nat) : List Mark → Job → Prop where
  | start : Steps pause [] .unknown
  | step {marks : List Mark} {job job' : Job} {mark : Mark} (steps : Steps pause marks job) (step : Step pause job mark job') :
      Steps pause (mark :: marks) job'

/-- The attempt that was sent out, if one was. -/
def Mark.attempt? : Mark → Option Nat
  | .sent attempt _ => some attempt
  | _ => none

/-- The attempts sent out, in the order of time. -/
def attempts (marks : List Mark) : List Nat := marks.reverse.filterMap Mark.attempt?

@[simp] theorem attempts_cons (mark : Mark) (marks : List Mark) :
    attempts (mark :: marks) = attempts marks ++ mark.attempt?.toList := by
  cases found : mark.attempt? <;> simp [attempts,found]

/-- How what was seen of a job accords with where it is. -/
def Accords (pause : Nat → Nat → Nat) (marks : List Mark) : Job → Prop
  | .unknown => attempts marks = [] ∧ (∀ l, .accepted l ∉ marks) ∧ ∀ k t final, .ended k t final ∉ marks
  | .idle made limit due => attempts marks = List.range' 1 made ∧ (∀ l, .accepted l ∈ marks ↔ l = limit) ∧
      (∀ k t final, .ended k t final ∈ marks → k ≤ made ∧ final = false ∧ (k = made → due = pause t made)) ∧
      (made ≠ 0 → ∃ t final, .ended made t final ∈ marks)
  | .out made limit => attempts marks = List.range' 1 made ∧ (∀ l, .accepted l ∈ marks ↔ l = limit) ∧
      ∀ k t final, .ended k t final ∈ marks → k < made ∧ final = false
  | .closed | .gone => ∃ n, attempts marks = List.range' 1 n

section
variable {pause : Nat → Nat → Nat} {marks : List Mark} {job job' : Job} {mark : Mark}

theorem Accords.numbered (accords : Accords pause marks job) : ∃ n, attempts marks = List.range' 1 n := by
  cases job with
  | unknown => exact ⟨0,accords.1⟩
  | idle made limit due => exact ⟨made,accords.1⟩
  | out made limit => exact ⟨made,accords.1⟩
  | closed => exact accords
  | gone => exact accords

/-- A step after which the job is not tried any more sends nothing out. -/
theorem Accords.numbered_cons (accords : Accords pause marks job) (unsent : mark.attempt? = none) :
    ∃ n, attempts (mark :: marks) = List.range' 1 n := by
  obtain ⟨n,numbered⟩ := accords.numbered
  exact ⟨n,by simp [unsent,numbered]⟩

theorem Step.accords (step : Step pause job mark job') (accords : Accords pause marks job) :
    Accords pause (mark :: marks) job' := by
  cases step with
  | stay =>
    cases job with
    | unknown => simpa [Accords,Mark.attempt?] using accords
    | idle made limit due => simpa [Accords,Mark.attempt?] using accords
    | out made limit => simpa [Accords,Mark.attempt?] using accords
    | closed => exact accords.numbered_cons rfl
    | gone => exact accords.numbered_cons rfl
  | accept limit due =>
    obtain ⟨none,unaccepted,unended⟩ := accords
    refine ⟨by simp [Mark.attempt?,none],fun l => by simp [unaccepted],fun k t final member => ?_,fun some => absurd rfl some⟩
    exact absurd (by simpa using member) (unended k t final)
  | @send made limit due now room timely =>
    obtain ⟨numbered,accepted,ends,_⟩ := accords
    refine ⟨by simp [Mark.attempt?,numbered,List.range'_1_concat,Nat.add_comm],by simpa using accepted,fun k t final member => ?_⟩
    obtain ⟨below,unfinal,_⟩ := ends k t final (by simpa using member)
    exact ⟨Nat.lt_succ_of_le below,unfinal⟩
  | @retry made limit now room =>
    obtain ⟨numbered,accepted,ends⟩ := accords
    refine ⟨by simp [Mark.attempt?,numbered],by simpa using accepted,fun k t final member => ?_,
      fun _ => ⟨now,false,List.mem_cons_self⟩⟩
    rcases List.mem_cons.mp member with last | earlier
    · cases last
      exact ⟨Nat.le_refl _,rfl,fun _ => rfl⟩
    · obtain ⟨below,unfinal⟩ := ends k t final earlier
      exact ⟨Nat.le_of_lt below,unfinal,fun same => absurd same (Nat.ne_of_lt below)⟩
  | give_up now final => exact accords.numbered_cons rfl
  | finish => exact accords.numbered_cons rfl
  | drop => exact accords.numbered_cons rfl
  | forget => exact accords.numbered_cons rfl

theorem Steps.accords (steps : Steps pause marks job) : Accords pause marks job := by
  induction steps with
  | start => exact ⟨rfl,nofun,nofun⟩
  | step steps step ih => exact step.accords ih

/-- The attempts go out in order, without gaps. -/
theorem Steps.numbered (steps : Steps pause marks job) : ∃ n, attempts marks = List.range' 1 n := steps.accords.numbered

section
variable {earlier : List Mark} {attempt now : Nat}

/-- An attempt goes out when the job waits for it, and is due. -/
theorem Steps.sent (steps : Steps pause (.sent attempt now :: earlier) job) :
    ∃ made limit due, Steps pause earlier (.idle made limit due) ∧ attempt = made + 1 ∧ made < limit ∧ due ≤ now := by
  cases steps with
  | step before step =>
    cases step with
    | send room timely => exact ⟨_,_,_,before,rfl,room,timely⟩

/-- No more attempts go out than the job was accepted for. -/
theorem Steps.bounded (steps : Steps pause (.sent attempt now :: earlier) job) :
    ∃ limit, .accepted limit ∈ earlier ∧ attempt ≤ limit := by
  obtain ⟨made,limit,due,before,rfl,room,_⟩ := steps.sent
  exact ⟨limit,(before.accords.2.1 limit).mpr rfl,room⟩

/-- Between two attempts the first one ends, and the pause after its end has passed before the
    second goes out. -/
theorem Steps.paused {k : Nat} (steps : Steps pause (.sent (k + 1) now :: earlier) job) :
    (k ≠ 0 → ∃ t final, .ended k t final ∈ earlier) ∧ ∀ t final, .ended k t final ∈ earlier → pause t k ≤ now := by
  obtain ⟨made,limit,due,before,next,_,timely⟩ := steps.sent
  obtain rfl := Nat.succ.inj next
  obtain ⟨_,_,ends,ended⟩ := before.accords
  refine ⟨ended,fun t final member => ?_⟩
  rw [← (ends k t final member).2.2 rfl]
  exact timely

/-- After a final end no attempt goes out. -/
theorem Steps.final (steps : Steps pause (.sent attempt now :: earlier) job) (k t : Nat) : .ended k t true ∉ earlier := by
  intro member
  obtain ⟨_,_,_,before,_⟩ := steps.sent
  exact absurd (before.accords.2.2.1 k t true member).2.1 Bool.true_eq_false.mp

/-- The job is over when its last attempt ends. -/
theorem Steps.exhausted {limit t : Nat} {final : Bool} (steps : Steps pause (.ended limit t final :: earlier) job)
    (accepted : .accepted limit ∈ earlier) : job = .closed := by
  cases steps with
  | step before step =>
    cases step with
    | retry now room =>
      obtain rfl := (before.accords.2.1 limit).mp accepted
      exact absurd room (Nat.lt_irrefl _)
    | give_up => rfl

end
end
end Crayon.Attempts
