import Eamerald.Directory.Importer
import Eamerald.Directory.Simple
import Eamerald.Foundation.BatchProperties
import Eamerald.Store.Transactions
import Eamerald.Bolt.Tx
import Eamerald.Postgres.Tx

/-! The receive loop of an import, and imports whose stream breaks off. The loop
leaves its transaction without an error when the context of the stream is done, so
that it is for the transaction wrapper to notice; only the one of Postgres does. -/

set_option autoImplicit false

namespace Eamerald.Directory

open Foundation Store

section Loop

variable {μ : Type} (library : Library μ)

inductive Turn (μ : Type) where
  | request (received : Received μ)
  | failure (error : Err)

def Turn.request? {μ : Type} : Turn μ → Option (Received μ)
  | .request received => some received
  | .failure _ => none

/-- The loop up to the turn in which the context is found done or the stream at its end. -/
def receiveLoop (ending : StreamEnd) :
    List (Turn μ) → Counters → List ImportStatus → Tx μ (Counters × List ImportStatus)
  | [], counters, statuses =>
      match ending with
      | .done => return (counters, statuses)
      | .eof sent => do
          Program.done sent
          return (counters, statuses)
  | .failure _ :: rest, counters, statuses => receiveLoop ending rest counters statuses
  | .request received :: rest, counters, statuses => do
      let outcome ← (importHandler library received.model received.now received.request).attempt
      receiveLoop ending rest (countRequest received.request outcome counters)
        (statuses ++ (importStatus? received.request outcome).toList)

def importCall (turns : List (Turn μ)) (ending : StreamEnd) : Tx μ (Counters × List ImportStatus) :=
  receiveLoop library ending turns {} []

def handleReceived (received : Received μ) : Tx μ PUnit :=
  importHandler library received.model received.now received.request

end Loop

section Runs

variable {μ σ : Type} {library : Library μ} {backend : Backend μ σ}

def countEntry (entry : Received μ × Except Err PUnit) (counters : Counters) : Counters :=
  countRequest entry.1.request entry.2 counters

def entryStatus (entry : Received μ × Except Err PUnit) : Option ImportStatus :=
  importStatus? entry.1.request entry.2

def StreamEnd.outcome : StreamEnd → Except Err PUnit
  | .done => .ok ⟨⟩
  | .eof sent => sent

theorem run_receiveLoop (ending : StreamEnd) (turns : List (Turn μ)) (counters : Counters)
    (statuses : List ImportStatus) (state : σ) :
    (receiveLoop library ending turns counters statuses).run backend state =
      let handled := consume backend (handleReceived library) (turns.filterMap Turn.request?) state
      (ending.outcome.map fun _ =>
        (handled.1.foldl (fun counters entry => countEntry entry counters) counters,
          statuses ++ handled.1.filterMap entryStatus), handled.2) := by
  induction turns generalizing counters statuses state with
  | nil =>
      cases ending with
      | done => simp [receiveLoop, consume, StreamEnd.outcome, Except.map]
      | eof sent =>
          cases sent <;>
            simp [receiveLoop, consume, StreamEnd.outcome, Except.map, Program.bind_eq,
              Program.run_bind]
  | cons turn turns ih =>
      cases turn with
      | failure error => exact ih counters statuses state
      | request received =>
          simp only [receiveLoop, Program.bind_eq, Program.run_bind, Program.run_attempt, ih]
          simp only [List.filterMap_cons, Turn.request?, consume, handleReceived, List.foldl_cons,
            countEntry]
          cases reported : importStatus? received.request ((importHandler library received.model
            received.now received.request).run backend state).1 with
          | none => simp [entryStatus, reported]
          | some status => simp [entryStatus, reported]

theorem importCall_eq (library : Library μ) (turns : List (Turn μ)) (ending : StreamEnd) :
    importCall library turns ending = importStream library (turns.filterMap Turn.request?) ending := by
  have loops (counters : Counters) (statuses : List ImportStatus) :
      receiveLoop library ending turns counters statuses =
        (importRequests library (turns.filterMap Turn.request?) counters statuses).bind
          (receiveLoop library ending [] · ·).uncurry := by
    induction turns generalizing counters statuses with
    | nil => rfl
    | cons turn turns ih =>
        cases turn with
        | failure error => exact ih counters statuses
        | request received =>
            refine Eq.trans ?_ (Program.bind_assoc _ _ _).symm
            exact congrArg (Program.bind _) (funext fun outcome => ih _ _)
  refine (loops {} []).trans (congrArg (Program.bind _) (funext fun result => ?_))
  cases ending with
  | done => rfl
  | eof sent => rfl

theorem run_importStream (requests : List (Received μ)) (ending : StreamEnd) (state : σ) :
    (importStream library requests ending).run backend state =
      let handled := consume backend (handleReceived library) requests state
      (ending.outcome.map fun _ =>
        (handled.1.foldl (fun counters entry => countEntry entry counters) {},
          handled.1.filterMap entryStatus), handled.2) := by
  have received : (requests.map Turn.request).filterMap Turn.request? = requests := by
    rw [List.filterMap_map]
    exact List.filterMap_some
  have whole := importCall_eq library (requests.map Turn.request) ending
  rw [received] at whole
  rw [← whole, importCall, run_receiveLoop, received]
  rfl

end Runs

section Interruption

variable {ω μ : Type} [Wire ω μ]

end Interruption

end Eamerald.Directory
