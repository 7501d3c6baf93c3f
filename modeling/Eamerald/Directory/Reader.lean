import Eamerald.Directory.Relation
import Eamerald.Bolt.Database

/-! The reader service: single relation lookup and authorization checks. An
evaluation that fails answers with a negative response, so the error alone
determines the response. -/

set_option autoImplicit false

namespace Eamerald.Directory

open Foundation Store

structure GetRelationResponse where
  result : Relation
  objects : Named Object := ∅
  notModified : Bool := false

def strKey (object : Object) : GoString := object.type ++ ':' :: object.id

section Lookup

variable {μ : Type}

/-- The stored object, or a bare one with the same type and id. -/
def endpoint (objectType objectId : GoString) : Tx μ Object := do
  match ← (Program.lift (TxOp.getObject objectType objectId)).attempt with
  | .ok object => return object
  | .error _ => return { type := objectType, id := objectId }

def getWithObjects : List Relation → Named Object → Tx μ (Named Object)
  | [], objects => return objects
  | relation :: rest, objects => do
      let subject ← endpoint relation.subjectType relation.subjectId
      let objects := objects.insert (strKey subject) subject
      let object ← endpoint relation.objectType relation.objectId
      getWithObjects rest (objects.insert (strKey object) object)

def presentRelation (request : GetRelationRequest) (ifNoneMatch : List GoString)
    (relation : Relation) : Tx μ GetRelationResponse := do
  if relation.etag ∈ ifNoneMatch then return { result := relation, notModified := true }
  if request.withObjects then
    return { result := relation, objects := ← getWithObjects [relation] ∅ }
  return { result := relation }

def lookupRelation (request : GetRelationRequest) (ifNoneMatch : List GoString)
    (direction : Direction) (filter : RelationFilter) : Tx μ GetRelationResponse := do
  let iterator ← Program.lift (.scanRelations direction filter [])
  match iterator.values with
  | [] => throw Bolt.errKeyNotFound
  | [relation] => presentRelation request ifNoneMatch relation
  | _ => throw Bolt.errMultipleResults

def getRelation (library : Library μ) (model : μ) (ifNoneMatch : List GoString)
    (request : GetRelationRequest) : Tx μ GetRelationResponse := do
  Program.done (library.getRelationRequest request)
  let pattern := library.safeGetRelation request
  Program.done (library.validateRelations model pattern)
  let (direction, filter) ← Program.done (pattern.pathAndFilter library)
  lookupRelation request ifNoneMatch direction filter

end Lookup

section Checks

variable {μ : Type} (library : Library μ)

def readRelations {β : Type} : RelationQuery β → Tx μ β
  | .relations ident out =>
      let (direction, filter, valueFilter) := (relationIdentifier ident).filter library
      Program.lift (.scanRelationsFiltered direction filter valueFilter out)

def relationIdentifierExist (direction : Direction) (objectType objectId : GoString) :
    Tx μ Bool := do
  match ← (Program.lift (TxOp.relationsExistForObject direction objectType objectId)).attempt with
  | .ok found => return found
  | .error _ => return false

def notFound (role : String) (objectType objectId : GoString) : Err :=
  .derr .objectNotFound (role.toList ++ ' ' :: (objectType ++ ':' :: objectId))

def relationIdentifiersExist (request : CheckRequest) : Tx μ Unit := do
  if !(← relationIdentifierExist .bySubject request.subjectType request.subjectId) then
    throw (notFound "subject" request.subjectType request.subjectId)
  if !(← relationIdentifierExist .byObject request.objectType request.objectId) then
    throw (notFound "object" request.objectType request.objectId)

def execCheck (model : μ) (request : CheckRequest) : Tx μ CheckResponse := do
  relationIdentifiersExist request
  (library.check model request).through (readRelations library)

def check {σ : Type} (backend : Backend μ σ) (model : μ) (request : CheckRequest) (state : σ) :
    CheckResponse :=
  match library.checkRequest request with
  | .error error => { reason := some error }
  | .ok _ =>
      match library.validateCheck model request with
      | .error error => { reason := some ((library.unwrap error).getD error) }
      | .ok _ =>
          match view backend (execCheck library model request) state with
          | .ok response => response
          | .error error => { reason := some error }

end Checks

end Eamerald.Directory
