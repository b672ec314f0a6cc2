import Mathlib

/-!
Waiting for something by looking again and again. A waiter that finds it is not there
yet sleeps until it is notified, but for a slice of time at most, and looks again, up to
a deadline (`long_poll`). If nothing becomes ready without a notification (`Prompt`), it
stops at the first instant at which it is ready, or else at the deadline (`Stops`).
-/
namespace Crayon.Polling

/-! ### Sleeping -/

/-- Sleeps from an instant on until a notification, for some time at most. -/
def park (rings : Nat → Bool) : Nat → Nat → Nat
  | t,0 => t
  | t,n + 1 => if rings (t + 1) then t + 1 else park rings (t + 1) n

section
variable {rings : Nat → Bool} {t n : Nat}

theorem park_bounds (rings : Nat → Bool) (t n : Nat) : t ≤ park rings t n ∧ park rings t n ≤ t + n := by
  induction n generalizing t with
  | zero => exact ⟨le_rfl,le_rfl⟩
  | succ n ih =>
    rw [park]
    split
    · omega
    · have := ih (t + 1)
      omega

theorem lt_park (rings : Nat → Bool) (t : Nat) (positive : 0 < n) : t < park rings t n := by
  obtain ⟨n,rfl⟩ := Nat.exists_eq_add_one.mpr positive
  rw [park]
  split
  · exact Nat.lt_succ_self t
  · exact (park_bounds rings (t + 1) n).1

/-- No notification is slept through. -/
theorem silent_before_park {v : Nat} (after : t < v) (before : v < park rings t n) : rings v = false := by
  induction n generalizing t with
  | zero =>
    rw [park] at before
    omega
  | succ n ih =>
    rw [park] at before
    split at before
    · omega
    · rename_i silent
      rcases Nat.lt_or_eq_of_le after with later | rfl
      · exact ih later before
      · simpa using silent

end

/-! ### Looking again -/

section
variable (ready rings : Nat → Bool)

/-- Looks at once and after every sleep, until it is ready or the deadline is reached; tells when. -/
def long_poll (slice : Nat) (positive : 0 < slice) (deadline t : Nat) : Nat :=
  if ready t then t
  else if deadline ≤ t then t
  else long_poll slice positive deadline (park rings t (min (deadline - t) slice))
termination_by deadline - t
decreasing_by
  have later := lt_park rings t (n := min (deadline - t) slice) (by omega)
  omega

/-- In a span of time nothing becomes ready without a notification. -/
def Prompt (start deadline : Nat) : Prop :=
  ∀ t u, start ≤ t → t ≤ u → u ≤ deadline → ready t = false → ready u = true → ∃ v, t < v ∧ v ≤ u ∧ rings v = true

/-- The first instant from a start on at which it is ready. -/
structure First (start r : Nat) : Prop where
  from_start : start ≤ r
  now : ready r = true
  before : ∀ t, start ≤ t → t < r → ready t = false

/-- A wait ends at an instant: at the first one at which it is ready, or at the deadline. -/
structure Stops (start deadline stop : Nat) : Prop where
  from_start : start ≤ stop
  in_time : stop ≤ deadline
  before : ∀ t, start ≤ t → t < stop → ready t = false
  done : ready stop = true ∨ stop = deadline

variable {ready rings} {start deadline stop r : Nat}

/-- It stops at the first instant at which it is ready, or else at the deadline, whatever happens afterwards. -/
theorem long_poll_eq_min {slice : Nat} {positive : 0 < slice} (prompt : Prompt ready rings start (min r deadline))
    (from_start : start ≤ r) (in_time : start ≤ deadline)
    (before : ∀ t, start ≤ t → t < r → t ≤ deadline → ready t = false) (now : r ≤ deadline → ready r = true) :
    long_poll ready rings slice positive deadline start = min r deadline := by
  fun_induction long_poll ready rings slice positive deadline start with
  | case1 t ready_now =>
    rcases Nat.lt_or_eq_of_le from_start with early | rfl
    · rw [before t le_rfl early in_time] at ready_now
      cases ready_now
    · omega
  | case2 t later passed => omega
  | case3 t later early ih =>
    have bounds := park_bounds rings t (min (deadline - t) slice)
    have woken : park rings t (min (deadline - t) slice) ≤ r := by
      -- While it slept, it was not notified, so that nothing became ready.
      by_contra asleep
      obtain ⟨v,afterwards,until_then,rung⟩ := prompt t r le_rfl from_start (by omega) (by simpa using later) (now (by omega))
      have silent : rings v = false := silent_before_park afterwards (Nat.lt_of_le_of_lt until_then (Nat.lt_of_not_le asleep))
      rw [silent] at rung
      cases rung
    exact ih (fun u v after => prompt u v (Nat.le_trans bounds.1 after)) woken (by omega)
      (fun u after => before u (Nat.le_trans bounds.1 after))

/-- What is ready at some time is ready at a first time. -/
theorem exists_first {t : Nat} (after : start ≤ t) (now : ready t = true) : ∃ r, r ≤ t ∧ First ready start r := by
  have exists_ready : ∃ n, ready (start + n) = true := ⟨t - start,by rwa [Nat.add_sub_cancel' after]⟩
  refine ⟨start + Nat.find exists_ready,?_,Nat.le_add_right _ _,Nat.find_spec exists_ready,fun u from_start before => ?_⟩
  · have least := Nat.find_min' exists_ready (m := t - start) (by rwa [Nat.add_sub_cancel' after])
    omega
  · have unready := Nat.find_min exists_ready (m := u - start) (by omega)
    rw [Nat.add_sub_cancel' from_start] at unready
    simpa using unready

theorem long_poll_stops {slice : Nat} {positive : 0 < slice} (prompt : Prompt ready rings start deadline)
    (in_time : start ≤ deadline) : Stops ready start deadline (long_poll ready rings slice positive deadline start) := by
  by_cases some_time : ∃ t, start ≤ t ∧ t ≤ deadline ∧ ready t = true
  · obtain ⟨t,after,before,now⟩ := some_time
    obtain ⟨r,by_t,first⟩ := exists_first after now
    have least : min r deadline = r := Nat.min_eq_left (Nat.le_trans by_t before)
    rw [long_poll_eq_min (fun u v from_start order in_time => prompt u v from_start order (by omega)) first.from_start in_time
      (fun u after early _ => first.before u after early) fun _ => first.now,least]
    exact ⟨first.from_start,Nat.le_trans by_t before,first.before,.inl first.now⟩
  · have never : ∀ t, start ≤ t → t ≤ deadline → ready t = false := fun t after before => by
      by_contra now
      exact some_time ⟨t,after,before,by simpa using now⟩
    have least : min (deadline + 1) deadline = deadline := Nat.min_eq_right (Nat.le_succ _)
    rw [long_poll_eq_min (least.symm ▸ prompt) (Nat.le_succ_of_le in_time) in_time (fun t after _ => never t after)
      fun impossible => by omega,least]
    exact ⟨in_time,le_rfl,fun t after before => never t after (Nat.le_of_lt before),.inr rfl⟩

theorem Stops.first (stops : Stops ready start deadline stop) (first : First ready start r) (in_time : r ≤ deadline) :
    stop = r := by
  rcases Nat.lt_trichotomy stop r with early | same | late
  · have unready := first.before stop stops.from_start early
    rcases stops.done with ready | passed
    · rw [unready] at ready
      cases ready
    · omega
  · exact same
  · have unready := stops.before r first.from_start late
    rw [first.now] at unready
    cases unready

theorem First.unique {r' : Nat} (first : First ready start r) (first' : First ready start r') : r = r' := by
  rcases Nat.lt_trichotomy r r' with early | same | late
  · cases first.now.symm.trans (first'.before r first.from_start early)
  · exact same
  · cases first'.now.symm.trans (first.before r' first'.from_start late)

theorem Stops.never_of (stops : Stops ready start deadline stop) (later : ready stop = false) :
    stop = deadline ∧ ∀ t, start ≤ t → t ≤ deadline → ready t = false := by
  have ended : stop = deadline := stops.done.resolve_left (by simp [later])
  refine ⟨ended,fun t after before => ?_⟩
  rcases Nat.lt_or_eq_of_le before with early | rfl
  · exact stops.before t after (by omega)
  · rw [← ended]
    exact later

end
end Crayon.Polling
