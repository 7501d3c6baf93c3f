import Mathlib

/-! Programs over an interface of operations. A program is the tree of calls
it makes; a handler gives the calls their meaning on a state. One program can
then be run in one go against one backend and call by call against another. -/

set_option autoImplicit false

namespace Eamerald.Foundation

theorem except_bind_eq_ok {ε α β : Type} {first : Except ε α} {next : α → Except ε β} {value : β} :
    (first >>= next) = .ok value ↔ ∃ middle, first = .ok middle ∧ next middle = .ok value := by
  cases first with
  | error error =>
      constructor
      · intro failed
        cases failed
      · intro found
        obtain ⟨_, failed, _⟩ := found
        cases failed
  | ok middle =>
      constructor
      · intro continued
        exact ⟨middle, rfl, continued⟩
      · intro found
        obtain ⟨_, same, continued⟩ := found
        cases same
        exact continued

theorem except_mapError_eq_ok {ε δ α : Type} {outcome : Except ε α} {wrap : ε → δ} {value : α} :
    outcome.mapError wrap = .ok value ↔ outcome = .ok value := by
  cases outcome <;> simp [Except.mapError]

/-- A result or an error, or an operation and how to go on with its answer. -/
inductive Program (Op : Type → Type) (ε α : Type) : Type 1 where
  | done (result : Except ε α)
  | call {β : Type} (op : Op β) (next : Except ε β → Program Op ε α)

/-- The meaning of every operation on states `σ`. A failing operation still
determines the state it leaves behind. -/
structure Handler (Op : Type → Type) (ε σ : Type) where
  exec : {β : Type} → Op β → σ → Except ε β × σ

namespace Program

variable {Op : Type → Type} {ε σ α β : Type} (handler : Handler Op ε σ) (program : Program Op ε α)
  (next : α → Program Op ε β)

def bind (program : Program Op ε α) (next : α → Program Op ε β) : Program Op ε β :=
  match program with
  | .done (.ok value) => next value
  | .done (.error error) => .done (.error error)
  | .call op resume => .call op fun answer => (resume answer).bind next

instance : Monad (Program Op ε) where
  pure value := .done (.ok value)
  bind := Program.bind

instance : MonadExcept ε (Program Op ε) where
  throw error := .done (.error error)
  tryCatch program handle := go program handle
where
  go {α : Type} (program : Program Op ε α) (handle : ε → Program Op ε α) : Program Op ε α :=
    match program with
    | .done (.ok value) => .done (.ok value)
    | .done (.error error) => handle error
    | .call op resume => .call op fun answer => go (resume answer) handle

def lift (op : Op α) : Program Op ε α := .call op .done

def attempt : Program Op ε α → Program Op ε (Except ε α)
  | .done result => .done (.ok result)
  | .call op next => .call op fun answer => (next answer).attempt

def each (items : List β) (body : β → Program Op ε PUnit) : Program Op ε PUnit :=
  match items with
  | [] => .done (.ok ⟨⟩)
  | item :: rest => (body item).bind fun _ => each rest body

/-- Perform every operation by a program over another interface. -/
def through {Lower : Type → Type} (interpret : {β : Type} → Op β → Program Lower ε β) :
    Program Op ε α → Program Lower ε α
  | .done result => .done result
  | .call op next => (interpret op).attempt.bind fun answer => (next answer).through interpret

def run (handler : Handler Op ε σ) : Program Op ε α → σ → Except ε α × σ
  | .done result, state => (result, state)
  | .call op next, state =>
      run handler (next (handler.exec op state).1) (handler.exec op state).2

def commit (handler : Handler Op ε σ) (program : Program Op ε α) (state : σ) :
    Except ε α × σ :=
  match program.run handler state with
  | (.ok value, written) => (.ok value, written)
  | (.error error, _) => (.error error, state)

@[simp] theorem run_done (result : Except ε α) (state : σ) :
    (done result : Program Op ε α).run handler state = (result, state) := rfl

@[simp] theorem run_call (op : Op β) (next : Except ε β → Program Op ε α) (state : σ) :
    (call op next).run handler state =
      (next (handler.exec op state).1).run handler (handler.exec op state).2 := rfl

@[simp] theorem run_pure (value : α) (state : σ) :
    (pure value : Program Op ε α).run handler state = (.ok value, state) := rfl

@[simp] theorem run_throw (error : ε) (state : σ) :
    (throw error : Program Op ε α).run handler state = (.error error, state) := rfl

@[simp] theorem run_lift (op : Op α) (state : σ) :
    (lift op : Program Op ε α).run handler state = handler.exec op state := rfl

theorem done_ok_bind (value : α) (next : α → Program Op ε β) :
    ((done (.ok value) : Program Op ε α) >>= next) = next value := rfl

theorem bind_eq : program >>= next = program.bind next := rfl

theorem bind_assoc {γ : Type} (last : β → Program Op ε γ) :
    (program.bind next).bind last = program.bind fun value => (next value).bind last := by
  induction program with
  | done result => cases result <;> rfl
  | call op resume ih => exact congrArg (call op) (funext ih)

theorem run_bind (state : σ) :
    (program.bind next).run handler state =
      match program.run handler state with
      | (.ok value, middle) => (next value).run handler middle
      | (.error error, middle) => (.error error, middle) := by
  induction program generalizing state with
  | done result => cases result <;> rfl
  | call op resume ih => exact ih _ _

@[simp] theorem run_attempt (state : σ) : program.attempt.run handler state =
      (.ok (program.run handler state).1, (program.run handler state).2) := by
  induction program generalizing state with
  | done result => rfl
  | call op next ih => exact ih _ _

@[simp] theorem run_through {Lower : Type → Type} (handler : Handler Lower ε σ)
    (interpret : {β : Type} → Op β → Program Lower ε β) (program : Program Op ε α) (state : σ) :
    (program.through interpret).run handler state =
      program.run ⟨fun op => (interpret op).run handler⟩ state := by
  induction program generalizing state with
  | done result => rfl
  | call op next ih =>
      rw [through, run_bind, run_attempt]
      exact ih _ _

theorem run_each_attempt_cons (item : β) (rest : List β) (body : β → Program Op ε α) (state : σ) :
    (each (item :: rest) fun item => do let _ ← (body item).attempt).run handler state =
      (each rest fun item => do let _ ← (body item).attempt).run handler
        ((body item).run handler state).2 := by
  simp only [each, bind_eq, run_bind, run_attempt]
  rfl

variable {handler program next}

theorem run_bind_ok {before after : σ} {value : β}
    (ran : (program >>= next).run handler before = (.ok value, after)) :
    ∃ middle state, program.run handler before = (.ok middle, state) ∧
      (next middle).run handler state = (.ok value, after) := by
  rw [bind_eq, run_bind] at ran
  cases first : program.run handler before with
  | mk outcome state =>
      rw [first] at ran
      cases outcome with
      | error error => cases ran
      | ok middle => exact ⟨middle, state, rfl, ran⟩

theorem run_check_ok {check : Except ε α} {before after : σ} {value : β}
    (ran : ((done check : Program Op ε α) >>= next).run handler before = (.ok value, after)) :
    ∃ middle, check = .ok middle ∧ (next middle).run handler before = (.ok value, after) := by
  cases check with
  | error error => cases ran
  | ok middle => exact ⟨middle, rfl, ran⟩

theorem commit_ok {state written : σ} {value : α} : program.commit handler state = (.ok value, written) ↔
      program.run handler state = (.ok value, written) := by
  unfold commit
  split <;> simp_all

theorem commit_error {state written : σ} {error : ε}
    (failed : program.commit handler state = (.error error, written)) : written = state := by
  unfold commit at failed
  split at failed <;> simp_all

end Program

structure Contract (Op : Type → Type) (ε : Type) where
  requires : {β : Type} → Op β → Prop
  ensures : {β : Type} → Op β → Except ε β → Prop

def Handler.Honours {Op : Type → Type} {ε σ : Type} (handler : Handler Op ε σ)
    (contract : Contract Op ε) (invariant : σ → Prop) : Prop :=
  ∀ {β : Type} (op : Op β) (state : σ), invariant state → contract.requires op →
    invariant (handler.exec op state).2 ∧ contract.ensures op (handler.exec op state).1

namespace Program

variable {Op : Type → Type} {ε σ α β : Type} {contract : Contract Op ε} {program : Program Op ε α}
  {result : Except ε α → Prop} {next : α → Program Op ε β} {first : Except ε α → Prop}
  {handler : Handler Op ε σ}

/-- As long as answers are as ensured, operations are called as required, and it ends in `result`. -/
def Meets (contract : Contract Op ε) (result : Except ε α → Prop) : Program Op ε α → Prop
  | .done outcome => result outcome
  | .call op next => contract.requires op ∧
      ∀ answer, contract.ensures op answer → (next answer).Meets contract result

theorem Meets.mono {weak strong : Except ε α → Prop} (meets : program.Meets contract strong)
    (weaker : ∀ outcome, strong outcome → weak outcome) : program.Meets contract weak := by
  induction program with
  | done outcome => exact weaker outcome meets
  | call op next ih => exact ⟨meets.1, fun answer ensured => ih answer (meets.2 answer ensured)⟩

theorem Meets.lift {op : Op α} (allowed : contract.requires op) :
    (lift op : Program Op ε α).Meets contract (contract.ensures op) :=
  ⟨allowed, fun _ ensured => ensured⟩

theorem Meets.bind {result : Except ε β → Prop} (meets : program.Meets contract first)
    (continues : ∀ value, first (.ok value) → (next value).Meets contract result)
    (fails : ∀ error, first (.error error) → result (.error error)) :
    (program >>= next).Meets contract result := by
  induction program with
  | done outcome =>
      cases outcome with
      | ok value => exact continues value meets
      | error error => exact fails error meets
  | call op resume ih =>
      exact ⟨meets.1, fun answer ensured => ih answer (meets.2 answer ensured)⟩

theorem Meets.attempt (meets : program.Meets contract first) :
    program.attempt.Meets contract fun outcome => ∃ inner, outcome = .ok inner ∧ first inner := by
  induction program with
  | done outcome => exact ⟨outcome, rfl, meets⟩
  | call op next ih => exact ⟨meets.1, fun answer ensured => ih answer (meets.2 answer ensured)⟩

theorem Meets.each {items : List β} {body : β → Program Op ε PUnit}
    (turns : ∀ item ∈ items, (body item).Meets contract fun _ => True) :
    (each items body).Meets contract fun _ => True := by
  induction items with
  | nil => exact trivial
  | cons item rest ih =>
      refine Meets.bind (turns item List.mem_cons_self) ?_ fun _ _ => trivial
      intro _ _
      exact ih fun other member => turns other (List.mem_cons_of_mem item member)

/-- The program stays within the preconditions, whatever it ends in. -/
abbrev Within (contract : Contract Op ε) (program : Program Op ε α) : Prop :=
  program.Meets contract fun _ => True

theorem Meets.within (meets : program.Meets contract result) : program.Within contract :=
  meets.mono fun _ _ => trivial

theorem Within.done (outcome : Except ε α) : (done outcome : Program Op ε α).Within contract := trivial

theorem Within.lift {op : Op α} (allowed : contract.requires op) : (lift op : Program Op ε α).Within contract :=
  (Meets.lift allowed).within

theorem Within.bind (first : program.Within contract)
    (continues : ∀ value, (next value).Within contract) : (program >>= next).Within contract :=
  Meets.bind first (fun value _ => continues value) fun _ _ => trivial

theorem Within.attempt (within : program.Within contract) : program.attempt.Within contract :=
  (Meets.attempt within).within

theorem Meets.run {invariant : σ → Prop}
    (honours : handler.Honours contract invariant) (meets : program.Meets contract result)
    {state : σ} (holds : invariant state) :
    invariant (program.run handler state).2 ∧ result (program.run handler state).1 := by
  induction program generalizing state with
  | done outcome => exact ⟨holds, meets⟩
  | call op next ih =>
      obtain ⟨kept, ensured⟩ := honours op state holds meets.1
      exact ih _ (meets.2 _ ensured) kept

theorem Meets.commit {invariant : σ → Prop}
    (honours : handler.Honours contract invariant) (meets : program.Meets contract result)
    {state : σ} (holds : invariant state) : invariant (program.commit handler state).2 := by
  have kept := (meets.run honours holds).1
  unfold Program.commit
  split <;> simp_all

end Program

end Eamerald.Foundation
