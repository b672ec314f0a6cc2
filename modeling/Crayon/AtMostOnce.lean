import Mathlib

/-!
Calls that are carried out at most once. A server remembers how it answered the
calls that it carried out, each under a key that its caller chose and until a
time of its own, and answers a repeated call from memory. It may forget what has
expired, and refuse to carry a call out when it has no room to remember it. What
it remembers lasts as long as no call is made past its time (`Steps.remembers`),
so calls that are repeated in time are carried out once (`Steps.once`).
-/
namespace Crayon.AtMostOnce
universe u v w
variable {κ : Type u} {β : Type v} {ρ : Type w}

/-- What is remembered of a call: what it asked for, the answer, and until when that counts. -/
structure Record (β : Type v) (ρ : Type w) where
  body : β
  reply : ρ
  expires : Nat

/-- For each key what is remembered under it. -/
abbrev Log (κ : Type u) (β : Type v) (ρ : Type w) := κ → Option (Record β ρ)

structure Call (κ : Type u) (β : Type v) where
  now : Nat
  key : κ
  body : β
  /-- Until when the answer is to be remembered. -/
  expires : Nat

inductive Answer (ρ : Type w) where
  | replayed (reply : ρ)
  | conflict
  | refused
  | performed (reply : ρ)

/-- Only what has expired is forgotten. -/
def Forgets (now : Nat) (log log' : Log κ β ρ) : Prop :=
  ∀ key, log' key = log key ∨ log' key = none ∧ ∀ r, log key = some r → r.expires ≤ now

theorem Forgets.trans {now : Nat} {log₁ log₂ log₃ : Log κ β ρ} (first : Forgets now log₁ log₂)
    (second : Forgets now log₂ log₃) : Forgets now log₁ log₃ := by
  intro key
  rcases second key with same | ⟨gone,lapsed⟩
  · rw [same]
    exact first key
  · rcases first key with same' | ⟨_,lapsed'⟩
    · exact .inr ⟨gone,same' ▸ lapsed⟩
    · exact .inr ⟨gone,lapsed'⟩

/-- What still counts is not forgotten. -/
theorem Forgets.kept {now : Nat} {log log' : Log κ β ρ} (forgets : Forgets now log log') {key : κ} {r : Record β ρ}
    (found : log key = some r) (live : now < r.expires) : log' key = some r := by
  rcases forgets key with same | ⟨_,lapsed⟩
  · rw [same]
    exact found
  · exact absurd (lapsed r found) (Nat.not_le.mpr live)

section
variable [DecidableEq κ]

/-- How the server answers a call, and what it remembers then. -/
inductive Step (log : Log κ β ρ) (call : Call κ β) : Answer ρ → Log κ β ρ → Prop where
  | replayed {r : Record β ρ} (found : log call.key = some r) (live : call.now < r.expires) (same : r.body = call.body) :
      Step log call (.replayed r.reply) log
  | conflict {r : Record β ρ} (found : log call.key = some r) (live : call.now < r.expires) (other : r.body ≠ call.body) :
      Step log call .conflict log
  | refused {log' : Log κ β ρ} (lapsed : ∀ r, log call.key = some r → r.expires ≤ call.now)
      (forgets : Forgets call.now log log') : Step log call .refused log'
  | performed {log' : Log κ β ρ} (reply : ρ) (lapsed : ∀ r, log call.key = some r → r.expires ≤ call.now)
      (forgets : Forgets call.now log log') :
      Step log call (.performed reply) (Function.update log' call.key (some ⟨call.body,reply,call.expires⟩))

/-- Calls one after the other, the last one first. -/
inductive Steps (first : Log κ β ρ) : List (Call κ β × Answer ρ) → Log κ β ρ → Prop where
  | start : Steps first [] first
  | step {past : List (Call κ β × Answer ρ)} {log log' : Log κ β ρ} {call : Call κ β} {answer : Answer ρ}
      (steps : Steps first past log) (step : Step log call answer log') : Steps first ((call,answer) :: past) log'

variable {log log' first : Log κ β ρ} {call : Call κ β} {answer : Answer ρ} {past : List (Call κ β × Answer ρ)}

/-- What is remembered lasts, whatever is called in its time. -/
theorem Step.kept (step : Step log call answer log') {key : κ} {r : Record β ρ} (found : log key = some r)
    (live : call.now < r.expires) : log' key = some r := by
  cases step with
  | replayed | conflict => exact found
  | refused lapsed forgets => exact forgets.kept found live
  | performed reply lapsed forgets =>
    have apart : key ≠ call.key := by
      rintro rfl
      exact absurd (lapsed r found) (Nat.not_le.mpr live)
    rw [Function.update_of_ne apart]
    exact forgets.kept found live

/-- A call under a key that counts is answered from memory. -/
theorem Step.held (step : Step log call answer log') {r : Record β ρ} (found : log call.key = some r)
    (live : call.now < r.expires) :
    log' = log ∧ (r.body = call.body ∧ answer = .replayed r.reply ∨ r.body ≠ call.body ∧ answer = .conflict) := by
  cases step with
  | replayed found' live' same =>
    rw [found] at found'
    cases found'
    exact ⟨rfl,.inl ⟨same,rfl⟩⟩
  | conflict found' live' other =>
    rw [found] at found'
    cases found'
    exact ⟨rfl,.inr ⟨other,rfl⟩⟩
  | refused lapsed forgets => exact absurd (lapsed r found) (Nat.not_le.mpr live)
  | performed reply lapsed forgets => exact absurd (lapsed r found) (Nat.not_le.mpr live)

/-- A call that was carried out is remembered as long as no call is made past its time. -/
theorem Steps.remembers {later earlier : List (Call κ β × Answer ρ)} {reply : ρ}
    (steps : Steps first (later ++ (call,.performed reply) :: earlier) log)
    (timely : ∀ turn ∈ later, turn.1.now < call.expires) : log call.key = some ⟨call.body,reply,call.expires⟩ := by
  induction later generalizing log with
  | nil =>
    obtain _ | ⟨_,step⟩ := steps
    cases step with
    | performed _ lapsed forgets => rw [Function.update_self]
  | cons turn later ih =>
    obtain _ | ⟨steps,step⟩ := steps
    exact step.kept (ih steps fun turn member => timely turn (List.mem_cons_of_mem _ member)) (timely _ List.mem_cons_self)

/-- The call was carried out. -/
def performs (key : κ) : Call κ β × Answer ρ → Bool
  | (call,.performed _) => call.key = key
  | _ => false

/-- A key belongs to one body, and once a call under it was carried out, it is repeated in time: from then on
    nothing is called past its time. -/
def Timely : List (Call κ β × Answer ρ) → Prop
  | [] => True
  | (call,_) :: past => Timely past ∧ (∀ turn ∈ past, turn.1.key = call.key → turn.1.body = call.body) ∧
      ∀ later turn earlier, past = later ++ turn :: earlier → performs call.key turn = true →
        call.now < turn.1.expires ∧ ∀ between ∈ later, between.1.now < turn.1.expires

theorem performs_iff {key : κ} {turn : Call κ β × Answer ρ} :
    performs key turn = true ↔ turn.1.key = key ∧ ∃ reply, turn.2 = .performed reply := by
  obtain ⟨call,answer⟩ := turn
  cases answer <;> simp [performs]

/-- What was not carried out is not remembered. -/
theorem Steps.unknown {key : κ} (steps : Steps (fun _ => none) past log) (none : past.countP (performs key) = 0) :
    log key = .none := by
  induction steps with
  | start => rfl
  | @step past log log' call answer steps step ih =>
    rw [List.countP_cons] at none
    have before := ih (by omega)
    cases step with
    | replayed | conflict => exact before
    | refused lapsed forgets =>
      rcases forgets key with same | ⟨gone,_⟩
      · rw [same]
        exact before
      · exact gone
    | performed reply lapsed forgets =>
      have apart : key ≠ call.key := by
        rintro rfl
        simp [performs] at none
      rw [Function.update_of_ne apart]
      rcases forgets key with same | ⟨gone,_⟩
      · rw [same]
        exact before
      · exact gone

/-- Calls that are repeated in time are carried out at most once, and get the first answer or are refused. -/
theorem Steps.once (steps : Steps (fun _ => none) past log) (timely : Timely past) (key : κ) :
    (past.countP (performs key) = 0 ∧ ∀ turn ∈ past, turn.1.key = key → turn.2 = .refused) ∨
      past.countP (performs key) = 1 ∧ ∃ reply, ∀ turn ∈ past, turn.1.key = key →
        turn.2 = .refused ∨ turn.2 = .replayed reply ∨ turn.2 = .performed reply := by
  induction steps with
  | start => exact .inl ⟨rfl,by simp⟩
  | @step past log log' call answer steps step ih =>
    obtain ⟨timely,owned,prompt⟩ := timely
    by_cases mine : call.key = key
    swap
    · have uncounted : ¬ performs key (call,answer) = true := fun done => mine (performs_iff.mp done).1
      rw [List.countP_cons_of_neg uncounted]
      refine (ih timely).imp (And.imp_right fun all => ?_) (And.imp_right ?_)
      · exact List.forall_mem_cons.mpr ⟨fun same => absurd same mine,all⟩
      · rintro ⟨reply,all⟩
        exact ⟨reply,List.forall_mem_cons.mpr ⟨fun same => absurd same mine,all⟩⟩
    subst mine
    rcases ih timely with ⟨none,all⟩ | ⟨one,reply,all⟩
    · have unknown := steps.unknown none
      cases step with
      | replayed found => rw [unknown] at found; cases found
      | conflict found => rw [unknown] at found; cases found
      | refused lapsed forgets =>
        refine .inl ⟨by rw [List.countP_cons_of_neg (by simp [performs])]; exact none,?_⟩
        exact List.forall_mem_cons.mpr ⟨fun _ => rfl,all⟩
      | performed reply lapsed forgets =>
        refine .inr ⟨by rw [List.countP_cons_of_pos (by simp [performs]),none],reply,?_⟩
        exact List.forall_mem_cons.mpr ⟨fun _ => .inr (.inr rfl),fun turn member same => .inl (all turn member same)⟩
    · -- The call was carried out before, and is still remembered.
      obtain ⟨turn,member,done⟩ := List.countP_pos_iff.mp (by omega : 0 < past.countP (performs call.key))
      obtain ⟨later,earlier,rfl⟩ := List.append_of_mem member
      obtain ⟨live,between⟩ := prompt later turn earlier rfl done
      obtain ⟨first,answered⟩ := turn
      obtain ⟨same,reply',rfl⟩ := performs_iff.mp done
      have answer' : reply' = reply := by
        rcases all _ member same with other | other | other <;> cases other
        rfl
      subst answer'
      change first.key = call.key at same
      have found := steps.remembers between
      rw [same] at found
      obtain ⟨_,⟨_,rfl⟩ | ⟨other,_⟩⟩ := step.held found live
      · refine .inr ⟨by rw [List.countP_cons_of_neg (by simp [performs])]; exact one,reply',?_⟩
        exact List.forall_mem_cons.mpr ⟨fun _ => .inr (.inl rfl),all⟩
      · exact absurd (owned _ member same) other

end

end Crayon.AtMostOnce
