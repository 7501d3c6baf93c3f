import Mathlib

/-! A procedure made of stages. Each stage commits a new state or fails and leaves the
state as it is; the procedure stops at the first failure, and what was committed before
it stays. -/

set_option autoImplicit false

namespace Eamerald.Foundation

universe u v

abbrev Stage (ε : Type u) (σ : Type v) := σ → Except ε σ

def runStages {ε : Type u} {σ : Type v} : List (Stage ε σ) → σ → Except ε Unit × σ
  | [], state => (.ok (), state)
  | stage :: rest, state =>
      match stage state with
      | .error error => (.error error, state)
      | .ok next => runStages rest next

section Runs

variable {ε : Type u} {σ : Type v} {stage : Stage ε σ} {first rest : List (Stage ε σ)}
  {state next final : σ} {holds : σ → Prop} {stages : List (Stage ε σ)}

theorem runStages_cons_ok (committed : stage state = .ok next) :
    runStages (stage :: rest) state = runStages rest next := by
  rw [runStages, committed]

theorem runStages_cons_error {error : ε} (failed : stage state = .error error) :
    runStages (stage :: rest) state = (.error error, state) := by
  rw [runStages, failed]

theorem runStages_cons_iff : runStages (stage :: rest) state = (.ok (), final) ↔
      ∃ next, stage state = .ok next ∧ runStages rest next = (.ok (), final) := by
  cases committed : stage state with
  | error error => simp [runStages_cons_error committed]
  | ok next => simp [runStages_cons_ok committed]

theorem runStages_append (ran : runStages first state = (.ok (), next)) :
    runStages (first ++ rest) state = runStages rest next := by
  induction first generalizing state with
  | nil =>
      cases ran
      rfl
  | cons stage first ih =>
      obtain ⟨middle, committed, remaining⟩ := runStages_cons_iff.mp ran
      rw [List.cons_append, runStages_cons_ok committed]
      exact ih remaining

theorem exists_of_runStages_append (ran : runStages (first ++ rest) state = (.ok (), final)) :
    ∃ middle, runStages first state = (.ok (), middle) ∧ runStages rest middle = (.ok (), final) := by
  induction first generalizing state with
  | nil => exact ⟨state, rfl, ran⟩
  | cons stage first ih =>
      obtain ⟨next, committed, remaining⟩ := runStages_cons_iff.mp ran
      obtain ⟨middle, reached, finished⟩ := ih remaining
      exact ⟨middle, runStages_cons_iff.mpr ⟨next, committed, reached⟩, finished⟩

theorem runStages_keeps
    (keeps : ∀ stage ∈ stages, ∀ state next, stage state = .ok next → holds state → holds next)
    (start : holds state) (ran : runStages stages state = (.ok (), final)) : holds final := by
  induction stages generalizing state with
  | nil =>
      cases ran
      exact start
  | cons stage stages ih =>
      obtain ⟨next, committed, remaining⟩ := runStages_cons_iff.mp ran
      exact ih (fun later member => keeps later (List.mem_cons_of_mem stage member))
        (keeps stage List.mem_cons_self state next committed start) remaining

theorem foldlM_keeps {α : Type v} {body : σ → α → Except ε σ} {items : List α}
    (keeps : ∀ item ∈ items, ∀ state next, body state item = .ok next → holds state → holds next)
    (start : holds state) (ran : items.foldlM body state = .ok final) : holds final := by
  induction items generalizing state with
  | nil =>
      cases ran
      exact start
  | cons item items ih =>
      rw [List.foldlM_cons] at ran
      cases looped : body state item with
      | error error =>
          rw [looped] at ran
          cases ran
      | ok next =>
          rw [looped] at ran
          exact ih (fun later member => keeps later (List.mem_cons_of_mem item member))
            (keeps item List.mem_cons_self state next looped start) ran

theorem exists_runStages
    (commits : ∀ stage ∈ stages, ∀ state, holds state → ∃ next, stage state = .ok next ∧ holds next)
    (start : holds state) : ∃ final, runStages stages state = (.ok (), final) ∧ holds final := by
  induction stages generalizing state with
  | nil => exact ⟨state, rfl, start⟩
  | cons stage stages ih =>
      obtain ⟨next, committed, kept⟩ := commits stage List.mem_cons_self state start
      obtain ⟨final, ran, held⟩ :=
        ih (fun later member => commits later (List.mem_cons_of_mem stage member)) kept
      exact ⟨final, runStages_cons_iff.mpr ⟨next, committed, ran⟩, held⟩

theorem exists_committed {done : Nat} {reached : σ}
    (whole : runStages stages state = (.ok (), final)) (short : done < stages.length)
    (ran : runStages (stages.take done) state = (.ok (), reached)) :
    ∃ stage next, stages[done]? = some stage ∧ stage reached = .ok next ∧
      runStages (stages.take (done + 1)) state = (.ok (), next) := by
  have split : stages.take done ++ stages.drop done = stages := List.take_append_drop done stages
  rw [← split, runStages_append ran, List.drop_eq_getElem_cons short] at whole
  obtain ⟨next, committed, _⟩ := runStages_cons_iff.mp whole
  refine ⟨stages[done], next, List.getElem?_eq_getElem short, committed, ?_⟩
  rw [List.take_succ_eq_append_getElem short, runStages_append ran]
  exact runStages_cons_iff.mpr ⟨next, committed, rfl⟩

end Runs

end Eamerald.Foundation
