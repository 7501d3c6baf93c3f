import Eamerald.Authorizer.Access
import Eamerald.Directory.Reader

/-! The access API of the directory: single evaluations, batches of them, and the search for
the actions that a subject may perform. A batch runs its checks in a pool of workers, within
one transaction. -/

set_option autoImplicit false

namespace Eamerald.Directory

open Foundation Store Authorizer

structure ChecksRequest where
  default : Option CheckRequest := none
  checks : List CheckRequest := []

def CheckRequest.zero : CheckRequest := ⟨[], [], [], [], [], false⟩

/-- The parts of the model library that serve batches: defaults, the pool, and the permissions. -/
structure BatchLibrary (μ : Type) extends Library μ where
  checkRequests : CheckRequest → List CheckRequest → List CheckRequest
  runPool : List CheckRequest → (CheckRequest → Tx μ CheckResponse) → Tx μ (List CheckResponse)
  availablePermissions : μ → (objectType subjectType : GoString) → Except Err (List GoString)

section Checks

variable {μ σ : Type} (library : BatchLibrary μ)

def checkError (error : Err) : CheckResponse := { check := false, reason := some error }

/-- What a worker does with a request. Unlike `check`, it does not validate the request. -/
def checkJob (model : μ) (request : CheckRequest) : Tx μ CheckResponse :=
  match library.validateCheck model request with
  | .error error => return checkError error
  | .ok _ => do
      match ← (execCheck library.toLibrary model request).attempt with
      | .error error => return checkError error
      | .ok response => return response

def execChecks (model : μ) (request : ChecksRequest) : Tx μ (List CheckResponse) :=
  library.runPool (library.checkRequests (request.default.getD .zero) request.checks)
    (checkJob library model)

def checks (backend : Backend μ σ) (model : μ) (request : ChecksRequest) (state : σ) :
    Except Err (List CheckResponse) :=
  view backend (execChecks library model request) state

end Checks

section Messages

structure Decision where
  decision : Bool
  reason : Option Err
deriving DecidableEq

structure ActionSearchRequest where
  subject : Option Subject := none
  resource : Option Resource := none

def extractCheck (request : EvaluationRequest) : CheckRequest where
  objectType := (request.resource.map Resource.type).getD []
  objectId := (request.resource.map Resource.id).getD []
  relation := (request.action.map Action.name).getD []
  subjectType := (request.subject.map Subject.type).getD []
  subjectId := (request.subject.map Subject.id).getD []

def extractChecks (request : EvaluationsRequest) : CheckRequest × List CheckRequest :=
  ({ objectType := (request.resource.map Resource.type).getD []
     objectId := (request.resource.map Resource.id).getD []
     relation := (request.action.map Action.name).getD []
     subjectType := (request.subject.map Subject.type).getD []
     subjectId := (request.subject.map Subject.id).getD [] },
    request.evaluations.map extractCheck)

def extractDecisions (responses : List CheckResponse) : List Decision :=
  responses.map fun response => ⟨response.check, response.reason⟩

end Messages

section Service

variable {μ σ : Type} (library : BatchLibrary μ) (backend : Backend μ σ) (model : μ)

def evaluation (request : EvaluationRequest) (state : σ) : Decision :=
  let response := check library.toLibrary backend model (extractCheck request) state
  ⟨response.check, response.reason⟩

def evaluations (request : EvaluationsRequest) (state : σ) : Except Err (List Decision) := do
  let (defCheck, requests) := extractChecks request
  let responses ← checks library backend model ⟨some defCheck, requests⟩ state
  return extractDecisions responses

def actionSearch (request : ActionSearchRequest) (state : σ) : Except Err (List GoString) := do
  let objectType := (request.resource.map Resource.type).getD []
  let objectId := (request.resource.map Resource.id).getD []
  let subjectType := (request.subject.map Subject.type).getD []
  let subjectId := (request.subject.map Subject.id).getD []
  let permissions ← library.availablePermissions model objectType subjectType
  let requests := permissions.map fun name => { CheckRequest.zero with relation := name }
  let responses ← checks library backend model
    ⟨some { objectType, objectId, relation := [], subjectType, subjectId }, requests⟩ state
  return (permissions.zip responses).filterMap fun (name, response) =>
    if response.check then some name else none

end Service

end Eamerald.Directory
