import Mathlib

/-! Executable transition systems: runs over a list of events, and properties that
every step of a run preserves, possibly under a condition on the step. -/

set_option autoImplicit false

namespace Eamerald.Foundation

universe u v

/-- An event either cannot happen in a state or determines the next one. -/
structure Machine (σ : Type u) (ε : Type v) where
  step : σ → ε → Option σ

namespace Machine

variable {σ : Type u} {ε : Type v} (machine : Machine σ ε) {condition : σ → ε → Prop} {state : σ}
  {events : List ε} {rest : List ε} {final : σ} {first : List ε} {other : σ → ε → Prop}

def run (state : σ) : List ε → Option σ
  | [] => some state
  | event :: rest => (machine.step state event).bind fun next => run next rest

/-- Every step of the run meets the condition. -/
def Respects (condition : σ → ε → Prop) (state : σ) : List ε → Prop
  | [] => True
  | event :: rest => ∀ next, machine.step state event = some next →
      condition state event ∧ Respects condition next rest

instance decidableRespects (condition : σ → ε → Prop)
    [decidable : ∀ state event, Decidable (condition state event)] (state : σ) :
    (events : List ε) → Decidable (machine.Respects condition state events)
  | [] => .isTrue trivial
  | event :: rest =>
      match stepped : machine.step state event with
      | none => .isTrue fun next found => by simp [stepped] at found
      | some next =>
          have := decidableRespects condition next rest
          decidable_of_iff (condition state event ∧ machine.Respects condition next rest)
            ⟨fun both other found => by cases stepped.symm.trans found; exact both,
              fun all => all next stepped⟩

variable {machine}

@[simp] theorem run_nil (state : σ) : machine.run state [] = some state := rfl

theorem run_cons {event : ε} : machine.run state (event :: rest) = some final ↔
      ∃ next, machine.step state event = some next ∧ machine.run next rest = some final :=
  Option.bind_eq_some_iff

theorem run_append : machine.run state (first ++ rest) = some final ↔
      ∃ middle, machine.run state first = some middle ∧ machine.run middle rest = some final := by
  induction first generalizing state with
  | nil => simp
  | cons event first ih =>
      simp only [List.cons_append, run_cons, ih]
      constructor
      · intro found
        obtain ⟨next, stepped, middle, ran, finished⟩ := found
        exact ⟨middle, ⟨next, stepped, ran⟩, finished⟩
      · intro found
        obtain ⟨middle, ⟨next, stepped, ran⟩, finished⟩ := found
        exact ⟨next, stepped, middle, ran, finished⟩

theorem respects_cons {next : σ} {event : ε}
    (stepped : machine.step state event = some next) (met : condition state event)
    (later : machine.Respects condition next rest) : machine.Respects condition state (event :: rest) := by
  intro other found
  cases stepped.symm.trans found
  exact ⟨met, later⟩

theorem Respects.of_append (respects : machine.Respects condition state (first ++ rest)) :
    machine.Respects condition state first := by
  induction first generalizing state with
  | nil => exact trivial
  | cons event first ih =>
      intro next stepped
      obtain ⟨met, later⟩ := respects next stepped
      exact ⟨met, ih later⟩

theorem Respects.after {middle : σ} (respects : machine.Respects condition state (first ++ rest))
    (ran : machine.run state first = some middle) : machine.Respects condition middle rest := by
  induction first generalizing state with
  | nil =>
      cases ran
      exact respects
  | cons event first ih =>
      obtain ⟨next, stepped, remaining⟩ := run_cons.mp ran
      exact ih (respects next stepped).2 remaining

theorem Respects.and (respects : machine.Respects condition state events)
    (always : ∀ event ∈ events, ∀ state, other state event) :
    machine.Respects (fun state event => condition state event ∧ other state event) state events := by
  induction events generalizing state with
  | nil => exact trivial
  | cons event rest ih =>
      intro next stepped
      obtain ⟨met, later⟩ := respects next stepped
      exact ⟨⟨met, always event List.mem_cons_self state⟩,
        ih later fun other member => always other (List.mem_cons_of_mem event member)⟩

/-- What every step meeting the condition preserves holds at the end of every run
whose steps meet it. -/
theorem invariant_of_run {invariant : σ → Prop}
    (keeps : ∀ state event next, invariant state → condition state event →
      machine.step state event = some next → invariant next) (holds : invariant state)
    (respects : machine.Respects condition state events)
    (ran : machine.run state events = some final) : invariant final := by
  induction events generalizing state with
  | nil =>
      cases ran
      exact holds
  | cons event rest ih =>
      obtain ⟨next, stepped, remaining⟩ := run_cons.mp ran
      obtain ⟨met, later⟩ := respects next stepped
      exact ih (keeps state event next holds met stepped) later remaining

theorem invariant_of_steps (invariant : σ → Prop)
    (keeps : ∀ state event next, invariant state → machine.step state event = some next →
      invariant next) (holds : invariant state)
    (ran : machine.run state events = some final) : invariant final := by
  induction events generalizing state with
  | nil =>
      cases ran
      exact holds
  | cons event rest ih =>
      obtain ⟨next, stepped, remaining⟩ := run_cons.mp ran
      exact ih (keeps state event next holds stepped) remaining

/-- Conditions that agree under an invariant are met by the same runs. -/
theorem respects_iff (invariant : σ → Prop)
    (agree : ∀ state event, invariant state → (condition state event ↔ other state event))
    (keeps : ∀ state event next, invariant state → condition state event →
      machine.step state event = some next → invariant next) (holds : invariant state) :
    machine.Respects condition state events ↔ machine.Respects other state events := by
  induction events generalizing state with
  | nil => exact Iff.rfl
  | cons event rest ih =>
      constructor
      · intro respects next stepped
        obtain ⟨met, later⟩ := respects next stepped
        exact ⟨(agree state event holds).mp met,
          (ih (keeps state event next holds met stepped)).mp later⟩
      · intro respects next stepped
        obtain ⟨met, later⟩ := respects next stepped
        have first := (agree state event holds).mpr met
        exact ⟨first, (ih (keeps state event next holds first stepped)).mpr later⟩

theorem exists_final (machine : Machine σ ε) (state : σ) (events : List ε) (check : σ → Bool)
    (passes : (machine.run state events).any check = true) :
    ∃ final, machine.run state events = some final ∧ check final = true := by
  cases ran : machine.run state events with
  | none =>
      rw [ran] at passes
      cases passes
  | some final =>
      rw [ran] at passes
      exact ⟨final, rfl, passes⟩

section Termination

def Stuck (machine : Machine σ ε) (state : σ) : Prop := ∀ event, machine.step state event = none

variable {rank : σ → Nat}
  (decreases : ∀ state event next, machine.step state event = some next → rank next < rank state)

include decreases

theorem length_le_rank (ran : machine.run state events = some final) : events.length ≤ rank state := by
  induction events generalizing state with
  | nil => exact Nat.zero_le _
  | cons event rest ih =>
      obtain ⟨next, stepped, remaining⟩ := run_cons.mp ran
      exact Nat.succ_le_of_lt ((ih remaining).trans_lt (decreases state event next stepped))

theorem exists_stuck (state : σ) :
    ∃ events final, machine.run state events = some final ∧ machine.Stuck final := by
  induction size : rank state using Nat.strong_induction_on generalizing state with
  | _ size ih =>
      by_cases stuck : machine.Stuck state
      · exact ⟨[], state, rfl, stuck⟩
      · simp only [Stuck, not_forall] at stuck
        obtain ⟨event, enabled⟩ := stuck
        obtain ⟨next, stepped⟩ := Option.ne_none_iff_exists'.mp enabled
        obtain ⟨events, final, ran, last⟩ :=
          ih (rank next) (size ▸ decreases state event next stepped) next rfl
        exact ⟨event :: events, final, run_cons.mpr ⟨next, stepped, ran⟩, last⟩

end Termination

end Machine

end Eamerald.Foundation
