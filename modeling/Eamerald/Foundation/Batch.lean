import Eamerald.Foundation.Program
import Eamerald.Foundation.Runs

/-! Transaction functions that are run in batches. The functions of several calls
may share a transaction; when one of them fails, or the commit does, everything is
rolled back and the functions are run again, the failed one by itself. A function
here reads its items from a source that cannot be rewound and counts them outside
the transaction, so that another run of it finds nothing left to do. -/

set_option autoImplicit false

namespace Eamerald.Foundation

section Consumers

variable {Op : Type → Type} {ε σ ι : Type}

/-- Handle the items one by one. A failing item is counted and does not end the loop. -/
def consume (handler : Handler Op ε σ) (handle : ι → Program Op ε PUnit) :
    List ι → σ → List (ι × Except ε PUnit) × σ
  | [], state => ([], state)
  | item :: rest, state =>
      let (outcome, next) := (handle item).run handler state
      let (entries, final) := consume handler handle rest next
      ((item, outcome) :: entries, final)

structure Consumer (ε ι : Type) where
  unread : List ι
  counted : List (ι × Except ε PUnit) := []
  runs : Nat := 0
  finish : Nat → Except ε PUnit := fun _ => .ok ⟨⟩

def Consumer.drained (consumer : Consumer ε ι) (entries : List (ι × Except ε PUnit)) :
    Consumer ε ι :=
  { consumer with
    unread := []
    counted := consumer.counted ++ entries
    runs := consumer.runs + 1 }

inductive Call (ε : Type) where
  | waiting
  | solo
  | returned (outcome : Except ε PUnit)

def Call.isWaiting {ε : Type} : Call ε → Bool
  | .waiting => true
  | _ => false

def Call.isSolo {ε : Type} : Call ε → Bool
  | .solo => true
  | _ => false

def Call.acknowledged {ε : Type} : Call ε → Bool
  | .returned (.ok _) => true
  | _ => false

theorem Call.eq_of_acknowledged {ε : Type} {call : Call ε} (acknowledged : call.acknowledged) :
    call = .returned (.ok ⟨⟩) := by
  match call, acknowledged with
  | .returned (.ok _), _ => rfl

/-- The log is the history of the committed items. -/
structure Batch (ε ι σ : Type) where
  store : σ
  consumers : Nat → Consumer ε ι
  calls : Nat → Call ε := fun _ => .waiting
  log : List (ι × Except ε PUnit) := []

/-- A transaction of several calls or of one, with the answer to its commit, or another try. -/
inductive BatchEvent (ε : Type) where
  | shared (members : List Nat) (commit : Except ε PUnit)
  | retried (members : List Nat)
  | solo (call : Nat) (commit : Except ε PUnit)

/-- A transaction in progress, and the call whose function failed in it. -/
structure Shared (ε ι σ : Type) where
  state : σ
  consumers : Nat → Consumer ε ι
  entries : List (ι × Except ε PUnit) := []
  failed : Option Nat := none

end Consumers

namespace Batch

variable {Op : Type → Type} {ε σ ι : Type} (handler : Handler Op ε σ)
  (handle : ι → Program Op ε PUnit)

def runMembers : List Nat → Shared ε ι σ → Shared ε ι σ
  | [], shared => shared
  | call :: rest, shared =>
      let consumer := shared.consumers call
      let (entries, state) := consume handler handle consumer.unread shared.state
      let ran : Shared ε ι σ :=
        { shared with
          state
          consumers := Function.update shared.consumers call (consumer.drained entries)
          entries := shared.entries ++ entries }
      match consumer.finish consumer.runs with
      | .ok _ => runMembers rest ran
      | .error _ => { ran with failed := some call }

def Ready (batch : Batch ε ι σ) (members : List Nat) : Prop :=
  members.Nodup ∧ ∀ call ∈ members, (batch.calls call).isWaiting = true

instance (batch : Batch ε ι σ) (members : List Nat) : Decidable (batch.Ready members) :=
  inferInstanceAs (Decidable (_ ∧ _))

/-- The calls in the list return the outcome. -/
def answer (batch : Batch ε ι σ) (members : List Nat) (outcome : Except ε PUnit) : Nat → Call ε :=
  fun call => if call ∈ members then .returned outcome else batch.calls call

def begin (batch : Batch ε ι σ) : Shared ε ι σ := ⟨batch.store, batch.consumers, [], none⟩

def step (batch : Batch ε ι σ) : BatchEvent ε → Option (Batch ε ι σ)
  | .shared members commit =>
      if batch.Ready members then
        let shared := runMembers handler handle members batch.begin
        match shared.failed, commit with
        | some call, _ => some
            { batch with
              consumers := shared.consumers
              calls := Function.update batch.calls call .solo }
        | none, .error error => some
            { batch with
              consumers := shared.consumers
              calls := batch.answer members (.error error) }
        | none, .ok _ => some
            { store := shared.state
              consumers := shared.consumers
              calls := batch.answer members (.ok ⟨⟩)
              log := batch.log ++ shared.entries }
      else none
  | .retried members =>
      if batch.Ready members then
        some { batch with consumers := (runMembers handler handle members batch.begin).consumers }
      else none
  | .solo call commit =>
      if (batch.calls call).isSolo then
        let consumer := batch.consumers call
        let (entries, state) := consume handler handle consumer.unread batch.store
        let consumers := Function.update batch.consumers call (consumer.drained entries)
        match (do consumer.finish consumer.runs; commit) with
        | .ok _ => some
            { store := state
              consumers
              calls := Function.update batch.calls call (.returned (.ok ⟨⟩))
              log := batch.log ++ entries }
        | .error error => some
            { batch with
              consumers
              calls := Function.update batch.calls call (.returned (.error error)) }
      else none

def machine : Machine (Batch ε ι σ) (BatchEvent ε) := ⟨step handler handle⟩

end Batch

end Eamerald.Foundation
