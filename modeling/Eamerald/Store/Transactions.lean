import Eamerald.Store.Interface

/-! Transactions that the engine may fail to begin or to commit. -/

set_option autoImplicit false

namespace Eamerald.Store

open Foundation

variable {μ σ α : Type}

/-- `withTx` of Postgres, and `Update` of Bolt. Whatever fails, nothing is left behind. -/
def withTx (begins commits : Except Err PUnit) (backend : Backend μ σ) (body : Tx μ α) (state : σ) :
    Except Err α × σ :=
  match begins with
  | .error error => (.error error, state)
  | .ok _ =>
      match body.run backend state with
      | (.error error, _) => (.error error, state)
      | (.ok value, written) =>
          match commits with
          | .error error => (.error error, state)
          | .ok _ => (.ok value, written)

variable {begins commits : Except Err PUnit} {backend : Backend μ σ} {body : Tx μ α}
  {state after : σ}

theorem withTx_clean {value : α} (ran : body.run backend state = (.ok value, after)) :
    withTx (.ok ⟨⟩) (.ok ⟨⟩) backend body state = (.ok value, after) := by
  simp [withTx, ran]

theorem withTx_cases (begins commits : Except Err PUnit) :
    (∃ error, withTx begins commits backend body state = (.error error, state)) ∨
      commits = .ok ⟨⟩ ∧ ∃ value after, body.run backend state = (.ok value, after) ∧
        withTx begins commits backend body state = (.ok value, after) := by
  unfold withTx
  cases begins with
  | error error => exact .inl ⟨error, rfl⟩
  | ok _ =>
      cases outcome : body.run backend state with
      | mk answer written =>
          cases answer with
          | error error => exact .inl ⟨error, rfl⟩
          | ok value =>
              cases commits with
              | error error => exact .inl ⟨error, rfl⟩
              | ok _ => exact .inr ⟨rfl, value, written, rfl, rfl⟩

theorem withTx_ok {value : α} (ran : withTx begins commits backend body state = (.ok value, after)) :
    commits = .ok ⟨⟩ ∧ body.run backend state = (.ok value, after) := by
  rcases withTx_cases begins commits with ⟨error, failed⟩ | ⟨committed, _, _, outcome, done⟩
  · cases failed.symm.trans ran
  · cases done.symm.trans ran
    exact ⟨committed, outcome⟩

theorem withTx_error {error : Err}
    (ran : withTx begins commits backend body state = (.error error, after)) : after = state := by
  rcases withTx_cases begins commits with ⟨_, failed⟩ | ⟨_, _, _, _, done⟩
  · exact (Prod.mk.inj (failed.symm.trans ran)).2.symm
  · cases done.symm.trans ran

end Eamerald.Store
