import Eamerald.Foundation.Program
import Eamerald.Foundation.Runs

/-! Transactions that run side by side. A transaction sees what others have
committed, with its own writes on top, and is committed when its program ends
without an error. It may have to wait: before it begins for the lock of the one
writer, before a write for the lock of the row. A schedule is the list of the
sessions that move next. -/

set_option autoImplicit false

namespace Eamerald.Foundation

inductive Lock (ρ : Type) where
  | writer
  | row (key : ρ)
deriving DecidableEq

/-- The locks of a transaction: for beginning, and for each operation. -/
structure Isolation (Op : Type → Type) (ρ : Type) where
  begins : Option (Lock ρ)
  locks : {β : Type} → Op β → Option ρ

/-- A session keeps its program, what is left of it, and its writes as a function of the state. -/
inductive Session (Op : Type → Type) (ε σ α : Type) : Type 1 where
  | absent
  | waiting (program : Program Op ε α)
  | running (program rest : Program Op ε α) (writes : σ → σ)
  | ended (outcome : Except ε α)

structure Sessions (Op : Type → Type) (ε σ α ρ : Type) : Type 1 where
  state : σ
  owner : Lock ρ → Option Nat := fun _ => none
  session : Nat → Session Op ε σ α

namespace Sessions

variable {Op : Type → Type} {ε σ α ρ : Type}

def start (state : σ) (programs : Nat → Option (Program Op ε α)) : Sessions Op ε σ α ρ where
  state
  session me :=
    match programs me with
    | none => .absent
    | some program => .waiting program

def put (sessions : Sessions Op ε σ α ρ) (me : Nat) (session : Session Op ε σ α) :
    Sessions Op ε σ α ρ :=
  { sessions with session := Function.update sessions.session me session }

variable [DecidableEq ρ]

def acquire (sessions : Sessions Op ε σ α ρ) (me : Nat) :
    Option (Lock ρ) → Option (Sessions Op ε σ α ρ)
  | none => some sessions
  | some lock =>
      if sessions.owner lock = none ∨ sessions.owner lock = some me then
        some { sessions with owner := Function.update sessions.owner lock (some me) }
      else none

def release (sessions : Sessions Op ε σ α ρ) (me : Nat) : Sessions Op ε σ α ρ :=
  { sessions with
    owner := fun lock => if sessions.owner lock = some me then none else sessions.owner lock }

def step (handler : Handler Op ε σ) (isolation : Isolation Op ρ) (sessions : Sessions Op ε σ α ρ)
    (me : Nat) : Option (Sessions Op ε σ α ρ) :=
  match sessions.session me with
  | .absent => none
  | .waiting program => do
      let locked ← sessions.acquire me isolation.begins
      return locked.put me (.running program program id)
  | .running program (.call op next) writes => do
      let locked ← sessions.acquire me ((isolation.locks op).map .row)
      return locked.put me (.running program (next (handler.exec op (writes locked.state)).1)
        fun state => (handler.exec op (writes state)).2)
  | .running _ (.done outcome) writes =>
      let committed := match outcome with
        | .ok _ => writes sessions.state
        | .error _ => sessions.state
      some (({ sessions with state := committed }.release me).put me (.ended outcome))
  | .ended _ => none

def machine (handler : Handler Op ε σ) (isolation : Isolation Op ρ) :
    Machine (Sessions Op ε σ α ρ) Nat :=
  ⟨step handler isolation⟩

end Sessions

end Eamerald.Foundation
