import Eamerald.Foundation.Program

/-! Transactions on a store that refuses some of their statements. After a refusal the
transaction goes on as if the statement had not been issued, or it is aborted: then
every later statement is refused and the commit rolls back. -/

set_option autoImplicit false

namespace Eamerald.Foundation

/-- The refused statements by number, and the errors of a refused or aborted transaction. -/
structure Refusals (ε : Type) where
  refuses : Nat → Bool
  refusal : ε
  aborts : Bool
  closed : ε
  rollback : ε

structure Attempt (σ : Type) where
  state : σ
  issued : Nat := 0
  aborted : Bool := false

variable {Op : Type → Type} {ε σ α β : Type}

def Handler.refusing (handler : Handler Op ε σ) (refusals : Refusals ε) :
    Handler Op ε (Attempt σ) where
  exec op attempt :=
    if attempt.aborted then (.error refusals.closed, { attempt with issued := attempt.issued + 1 })
    else if refusals.refuses attempt.issued then
      (.error refusals.refusal,
        { attempt with issued := attempt.issued + 1, aborted := refusals.aborts })
    else
      ((handler.exec op attempt.state).1,
        { attempt with state := (handler.exec op attempt.state).2, issued := attempt.issued + 1 })

def Refusals.transact (refusals : Refusals ε) (handler : Handler Op ε σ) (program : Program Op ε α)
    (state : σ) : Except ε α × σ :=
  match program.run (handler.refusing refusals) { state } with
  | (.error error, _) => (.error error, state)
  | (.ok value, attempt) =>
      if attempt.aborted then (.error refusals.rollback, state) else (.ok value, attempt.state)

def Refusals.Spares (refusals : Refusals ε) (before after : Nat) : Prop :=
  ∀ n < after, before ≤ n → refusals.refuses n = false

namespace Refusals

variable {refusals : Refusals ε}

theorem Spares.of_eq {before after : Nat} (same : before = after) : refusals.Spares before after :=
  fun _ upper lower => absurd (Nat.lt_of_lt_of_le upper (same ▸ lower)) (Nat.lt_irrefl _)

theorem Spares.cons {before after : Nat} (first : refusals.refuses before = false)
    (rest : refusals.Spares (before + 1) after) : refusals.Spares before after := by
  intro n upper lower
  rcases Nat.eq_or_lt_of_le lower with rfl | later
  · exact first
  · exact rest n upper later

end Refusals

section Execution

variable {handler : Handler Op ε σ} {refusals : Refusals ε} {attempt : Attempt σ}

theorem exec_of_refused (op : Op β) (fresh : attempt.aborted = false)
    (refused : refusals.refuses attempt.issued = true) :
    (handler.refusing refusals).exec op attempt = (.error refusals.refusal,
      { attempt with issued := attempt.issued + 1, aborted := refusals.aborts }) := by
  simp [Handler.refusing, fresh, refused]

theorem exec_of_spared (op : Op β) (fresh : attempt.aborted = false)
    (spared : refusals.refuses attempt.issued = false) :
    (handler.refusing refusals).exec op attempt = ((handler.exec op attempt.state).1,
      { attempt with state := (handler.exec op attempt.state).2, issued := attempt.issued + 1 }) := by
  simp [Handler.refusing, fresh, spared]

theorem issued_exec (op : Op β) (attempt : Attempt σ) :
    ((handler.refusing refusals).exec op attempt).2.issued = attempt.issued + 1 := by
  simp only [Handler.refusing]
  split
  · rfl
  · split <;> rfl

theorem aborted_exec (op : Op β) (aborted : attempt.aborted = true) :
    ((handler.refusing refusals).exec op attempt).2.aborted = true := by
  simp [Handler.refusing, aborted]

theorem unaborted_exec (op : Op β) (continues : refusals.aborts = false) (fresh : attempt.aborted = false) :
    ((handler.refusing refusals).exec op attempt).2.aborted = false := by
  cases refused : refusals.refuses attempt.issued with
  | true => rw [exec_of_refused op fresh refused, continues]
  | false => rw [exec_of_spared op fresh refused, fresh]

theorem holds_exec {invariant : σ → Prop} (keeps : ∀ {β : Type} (op : Op β) (state : σ), invariant state →
      invariant (handler.exec op state).2) (op : Op β) (holds : invariant attempt.state) :
    invariant ((handler.refusing refusals).exec op attempt).2.state := by
  simp only [Handler.refusing]
  split
  · exact holds
  · split
    · exact holds
    · exact keeps op attempt.state holds

end Execution

namespace Program

variable (handler : Handler Op ε σ) (refusals : Refusals ε) {attempt : Attempt σ}
  (program : Program Op ε α)

theorem issued_le_run (attempt : Attempt σ) :
    attempt.issued ≤ (program.run (handler.refusing refusals) attempt).2.issued := by
  induction program generalizing attempt with
  | done result => exact Nat.le_refl _
  | call op next ih =>
      have later := ih ((handler.refusing refusals).exec op attempt).1
        ((handler.refusing refusals).exec op attempt).2
      rw [issued_exec] at later
      exact Nat.le_of_succ_le later

theorem aborted_run (aborted : attempt.aborted = true) :
    (program.run (handler.refusing refusals) attempt).2.aborted = true := by
  induction program generalizing attempt with
  | done result => exact aborted
  | call op next ih => exact ih _ (aborted_exec op aborted)

theorem unaborted_run (continues : refusals.aborts = false) (fresh : attempt.aborted = false) :
    (program.run (handler.refusing refusals) attempt).2.aborted = false := by
  induction program generalizing attempt with
  | done result => exact fresh
  | call op next ih => exact ih _ (unaborted_exec op continues fresh)

theorem holds_run {invariant : σ → Prop} (keeps : ∀ {β : Type} (op : Op β) (state : σ), invariant state →
      invariant (handler.exec op state).2) (holds : invariant attempt.state) :
    invariant (program.run (handler.refusing refusals) attempt).2.state := by
  induction program generalizing attempt with
  | done result => exact holds
  | call op next ih => exact ih _ (holds_exec keeps op holds)

variable {handler refusals program} {answer : Except ε α} {after : Attempt σ}

theorem run_refusing (ran : program.run (handler.refusing refusals) attempt = (answer, after))
    (fresh : attempt.aborted = false) : (refusals.Spares attempt.issued after.issued ∧ after.aborted = false ∧
        program.run handler attempt.state = (answer, after.state)) ∨
      (∃ n < after.issued, attempt.issued ≤ n ∧ refusals.refuses n = true) ∧
        (refusals.aborts = true → after.aborted = true) := by
  induction program generalizing attempt with
  | done result =>
      cases ran
      exact .inl ⟨.of_eq rfl, fresh, rfl⟩
  | call op next ih =>
      rw [run_call] at ran
      cases refused : refusals.refuses attempt.issued with
      | true =>
          rw [exec_of_refused op fresh refused] at ran
          have later := issued_le_run handler refusals (next (.error refusals.refusal))
            { attempt with issued := attempt.issued + 1, aborted := refusals.aborts }
          rw [ran] at later
          refine .inr ⟨⟨attempt.issued, later, Nat.le_refl _, refused⟩, ?_⟩
          intro aborts
          rw [aborts] at ran
          rw [← congrArg (·.2.aborted) ran]
          exact aborted_run handler refusals (next (.error refusals.refusal)) rfl
      | false =>
          rw [exec_of_spared op fresh refused] at ran
          rcases ih _ ran fresh with ⟨spared, unaborted, same⟩ | ⟨⟨n, upper, lower, hit⟩, aborts⟩
          · exact .inl ⟨spared.cons refused, unaborted, same⟩
          · exact .inr ⟨⟨n, upper, Nat.le_of_succ_le lower, hit⟩, aborts⟩

theorem run_of_spared (ran : program.run (handler.refusing refusals) attempt = (answer, after))
    (fresh : attempt.aborted = false) (spared : refusals.Spares attempt.issued after.issued) :
    program.run handler attempt.state = (answer, after.state) := by
  rcases run_refusing ran fresh with ⟨_, _, same⟩ | ⟨⟨n, upper, lower, hit⟩, _⟩
  · exact same
  · rw [spared n upper lower] at hit
    cases hit

theorem run_of_transact {value : α} {state written : σ} (aborts : refusals.aborts = true)
    (committed : refusals.transact handler program state = (.ok value, written)) :
    program.run handler state = (.ok value, written) := by
  unfold Refusals.transact at committed
  cases ran : program.run (handler.refusing refusals) { state } with
  | mk answer after =>
      rw [ran] at committed
      cases answer with
      | error error => cases committed
      | ok result =>
          rcases run_refusing ran rfl with ⟨_, unaborted, same⟩ | ⟨_, aborted⟩
          · simp only [unaborted, Bool.false_eq_true, ↓reduceIte] at committed
            cases committed
            exact same
          · simp only [aborted aborts, ↓reduceIte] at committed
            cases committed

/-- The program ends with the first error that a statement answers. -/
def Transparent : Program Op ε α → Prop
  | .done _ => True
  | .call _ next => (∀ error, next (.error error) = .done (.error error)) ∧
      ∀ value, (next (.ok value)).Transparent

theorem Transparent.lift (op : Op α) : (lift op : Program Op ε α).Transparent :=
  ⟨fun _ => rfl, fun _ => trivial⟩

theorem Transparent.bind {program : Program Op ε α} {next : α → Program Op ε β}
    (first : program.Transparent) (continues : ∀ value, (next value).Transparent) :
    (program >>= next).Transparent := by
  induction program with
  | done result =>
      cases result with
      | ok value => exact continues value
      | error error => exact trivial
  | call op resume ih =>
      refine ⟨?_, ?_⟩
      · intro error
        change (resume (.error error)).bind next = _
        rw [first.1 error]
        rfl
      · intro value
        exact ih _ (first.2 value)

theorem Transparent.each {items : List β} {body : β → Program Op ε PUnit}
    (turns : ∀ item, (body item).Transparent) : (each items body).Transparent := by
  induction items with
  | nil => exact trivial
  | cons item rest ih => exact (turns item).bind fun _ => ih

theorem Transparent.run_refusing (transparent : program.Transparent)
    (ran : program.run (handler.refusing refusals) attempt = (answer, after))
    (fresh : attempt.aborted = false) : (refusals.Spares attempt.issued after.issued ∧
        program.run handler attempt.state = (answer, after.state)) ∨ answer = .error refusals.refusal ∧
        ∃ n < after.issued, attempt.issued ≤ n ∧ refusals.refuses n = true := by
  induction program generalizing attempt with
  | done result =>
      cases ran
      exact .inl ⟨.of_eq rfl, rfl⟩
  | call op next ih =>
      rw [run_call] at ran
      cases refused : refusals.refuses attempt.issued with
      | true =>
          rw [exec_of_refused op fresh refused, transparent.1] at ran
          cases ran
          exact .inr ⟨rfl, attempt.issued, Nat.lt_succ_self _, Nat.le_refl _, refused⟩
      | false =>
          rw [exec_of_spared op fresh refused] at ran
          rw [run_call]
          cases answered : (handler.exec op attempt.state).1 with
          | error error =>
              rw [answered, transparent.1] at ran
              rw [transparent.1]
              cases ran
              exact .inl ⟨.cons refused (.of_eq rfl), rfl⟩
          | ok value =>
              rw [answered] at ran
              rcases ih _ (transparent.2 value) ran fresh with ⟨spared, same⟩ | ⟨failed, n, upper, lower, hit⟩
              · exact .inl ⟨spared.cons refused, same⟩
              · exact .inr ⟨failed, n, upper, Nat.le_of_succ_le lower, hit⟩

end Program

end Eamerald.Foundation
