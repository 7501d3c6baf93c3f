import Eamerald.Directory.Entries
import Eamerald.Directory.Operations

/-! Operations taken apart into steps. An import handles its requests one after the other in a
transaction, and a synchronisation its rows; each of them has a time of its own. All other
operations are one step. -/

set_option autoImplicit false

namespace Eamerald.Directory

open Foundation Store

inductive Step (μ : Type) where
  | transaction (operation : Operation μ)
  | request (received : Received μ)
  | row (applied : Datasync.Applied μ)

namespace Step

variable {μ σ : Type} (library : Library μ) (backend : Backend μ σ)

def time : Step μ → Option Timestamp
  | .transaction (.setObject _ _ now _) | .transaction (.deleteObject _ _ now _)
  | .transaction (.setRelation _ _ now _) | .transaction (.deleteRelation _ _ now _)
  | .transaction (.setManifest _ _ now) | .transaction (.syncManifest _ _ now)
  | .transaction (.deleteManifest _ now) => some now
  | .transaction (.importStream _ _) | .transaction (.subscriber _) | .transaction (.diff _ _) => none
  | .request received => some received.now
  | .row applied => some applied.now

def perform : Step μ → σ → Except Err PUnit × σ
  | .transaction operation, state => update backend (operation.program library) state
  | .request received, state =>
      (importHandler library received.model received.now received.request).run backend state
  | .row applied, state => (Datasync.apply library applied).run backend state

def sets : Step μ → Option Entry
  | .transaction (.setObject _ _ _ object) => some (.object object)
  | .transaction (.setRelation _ _ _ relation) => some (.relation relation)
  | .transaction _ => none
  | .request ⟨_, _, ⟨.set, .object object⟩⟩ => object.map .object
  | .request ⟨_, _, ⟨.set, .relation relation⟩⟩ => relation.map .relation
  | .request _ => none
  | .row ⟨_, _, .object object⟩ => object.map .object
  | .row ⟨_, _, .relation relation⟩ => relation.map .relation

end Step

def Operation.steps {μ : Type} : Operation μ → List (Step μ)
  | .importStream requests (.eof (.ok _)) | .importStream requests .done => requests.map .request
  | .importStream _ (.eof (.error _)) => []
  | .subscriber rows => rows.map .row
  | operation => [.transaction operation]

section Runs

variable {μ σ : Type} (library : Library μ) (backend : Backend μ σ)

def runSteps (steps : List (Step μ)) (state : σ) : σ :=
  steps.foldl (fun state step => (step.perform library backend state).2) state

theorem importRequests_eq_runSteps (requests : List (Received μ)) (counters : Counters)
    (statuses : List ImportStatus) (state : σ) :
    ∃ result, (importRequests library requests counters statuses).run backend state =
      (.ok result, runSteps library backend (requests.map .request) state) := by
  induction requests generalizing counters statuses state with
  | nil => exact ⟨_, rfl⟩
  | cons received rest ih =>
      simp only [importRequests, Program.bind_eq, Program.run_bind, Program.run_attempt]
      exact ih _ _ _

theorem subscriber_eq_runSteps (rows : List (Datasync.Applied μ)) (state : σ) :
    (Datasync.subscriber library rows).run backend state =
      (.ok ⟨⟩, runSteps library backend (rows.map .row) state) := by
  induction rows generalizing state with
  | nil => rfl
  | cons applied rest ih =>
      unfold Datasync.subscriber at ih ⊢
      rw [Program.run_each_attempt_cons]
      exact ih _

theorem update_program (operation : Operation μ) (state : σ) :
    (update backend (operation.program library) state).2 = runSteps library backend operation.steps state := by
  cases operation with
  | importStream requests ending =>
      obtain ⟨result, ran⟩ := importRequests_eq_runSteps library backend requests {} [] state
      cases ending with
      | done =>
          have finished : (Operation.program library (.importStream requests .done)).run backend state =
              (.ok ⟨⟩, runSteps library backend (requests.map .request) state) :=
            (Program.run_bind ..).trans (by
              rw [importStream, Program.bind_eq, Program.run_bind, ran]
              rfl)
          rw [update, Program.commit, finished]
          rfl
      | eof sent =>
          have finished : (Operation.program library (.importStream requests (.eof sent))).run backend state =
              (sent, runSteps library backend (requests.map .request) state) :=
            (Program.run_bind ..).trans (by
              rw [importStream, Program.bind_eq, Program.run_bind, ran]
              cases sent with
              | ok _ => rfl
              | error error => rfl)
          rw [update, Program.commit, finished]
          cases sent with
          | ok _ => rfl
          | error error => rfl
  | subscriber rows =>
      have ran := subscriber_eq_runSteps library backend rows state
      rw [update, Program.commit, Operation.program, ran]
      rfl
  | _ => rfl

theorem runSteps_append (earlier later : List (Step μ)) (state : σ) :
    runSteps library backend (earlier ++ later) state =
      runSteps library backend later (runSteps library backend earlier state) :=
  List.foldl_append

theorem runOperations_eq (operations : List (Operation μ)) (state : σ) :
    runOperations library backend operations state =
      runSteps library backend (operations.flatMap Operation.steps) state := by
  induction operations generalizing state with
  | nil => rfl
  | cons operation rest ih =>
      rw [List.flatMap_cons, runSteps_append, ← update_program]
      exact ih _

end Runs

end Eamerald.Directory
