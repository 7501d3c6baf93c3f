import Eamerald.Directory.Library

/-! The writer service. A call is validated against the cached model before its
transaction begins; the If-Match header is compared inside it. -/

set_option autoImplicit false

namespace Eamerald.Directory

open Foundation Store

section Metadata

variable {μ : Type}

/-- Timestamps and etag of the stored instance, or of a new one. -/
def updateMetadataObject (now : Timestamp) (object : Object) : Tx μ Object := do
  match ← (Program.lift (TxOp.getObject object.type object.id)).attempt with
  | .ok current =>
      return { object with
        createdAt := current.createdAt
        updatedAt := some now
        etag := if current.etag ≠ [] then current.etag else object.etag }
  | .error error =>
      if error.isNotFound then
        return { object with createdAt := some now, updatedAt := some now, etag := [] }
      else throw error

def updateMetadataRelation (now : Timestamp) (relation : Relation) : Tx μ Relation := do
  match ← (Program.lift (TxOp.getRelationExact relation.ident)).attempt with
  | .ok current =>
      return { relation with
        createdAt := current.createdAt
        updatedAt := some now
        etag := if current.etag ≠ [] then current.etag else relation.etag }
  | .error error =>
      if error.isNotFound then
        return { relation with createdAt := some now, updatedAt := some now, etag := [] }
      else throw error

end Metadata

section Messages

def objectMismatch (object : Object) : Err :=
  .derr .hashMismatch ("for object with type [".toList ++ object.type ++ "] and id [".toList ++
    object.id ++ "]".toList)

def relationMismatch (relation : Relation) : Err :=
  .derr .hashMismatch ("for relation with objectType [".toList ++ relation.objectType ++
    "], objectId [".toList ++ relation.objectId ++ "], relation [".toList ++ relation.relation ++
    "], subjectType [".toList ++ relation.subjectType ++ "], SubjectId [".toList ++
    relation.subjectId ++ "]".toList)

end Messages

section Relations

variable {μ : Type}

def relationsByObject (direction : Direction) (objectType objectId : GoString) :
    Tx μ (List Relation) := do
  let iterator ← Program.lift
    (.scanRelations direction (objectOnlyFilter direction objectType objectId) [])
  return iterator.values

/-- Delete every relation the scan finds. The matches are collected first. -/
def deleteRelationsWithPrefix (direction : Direction) (objectType objectId : GoString) :
    Tx μ PUnit := do
  let relations ← relationsByObject direction objectType objectId
  Program.each relations fun relation => Program.lift (.deleteRelation relation.ident)

end Relations

section Service

variable {μ : Type} (library : Library μ) (model : μ)

def validateSetObject (object : Object) : Except Err GoString := do
  library.setObjectRequest object
  library.validateObject model object
  return library.hashObject object

def setObjectTx (etag ifMatch : GoString) (now : Timestamp) (object : Object) : Tx μ Object := do
  let updated ← updateMetadataObject now object
  if ifMatch ≠ [] ∧ updated.etag ≠ [] ∧ ifMatch ≠ updated.etag then
    throw (objectMismatch updated)
  if etag = updated.etag then return updated
  Program.lift (.setObject { updated with etag })

def setObject (ifMatch : GoString) (now : Timestamp) (object : Object) : Tx μ Object := do
  let etag ← Program.done (validateSetObject library model object)
  setObjectTx etag ifMatch now object

def deleteObject (ifMatch : GoString) (now : Timestamp) (request : DeleteObjectRequest) :
    Tx μ Unit := do
  Program.done (library.deleteObjectRequest request)
  Program.done (library.validateObjectIdentifier model ⟨request.objectType, request.objectId⟩)
  if ifMatch ≠ [] then
    let updated ← updateMetadataObject now { type := request.objectType, id := request.objectId }
    if ifMatch ≠ updated.etag then throw (objectMismatch updated)
  Program.lift (.deleteObject request.objectType request.objectId)
  if request.withRelations then
    deleteRelationsWithPrefix .bySubject request.objectType request.objectId
    deleteRelationsWithPrefix .byObject request.objectType request.objectId

def validateSetRelation (relation : Relation) : Except Err GoString := do
  library.setRelationRequest relation
  library.validateRelation model relation.ident
  return library.hashRelation relation.ident

def setRelationTx (etag ifMatch : GoString) (now : Timestamp) (relation : Relation) :
    Tx μ Relation := do
  let updated ← updateMetadataRelation now relation
  if ifMatch ≠ [] ∧ updated.etag ≠ [] ∧ ifMatch ≠ updated.etag then
    throw (relationMismatch updated)
  if etag = updated.etag then return updated
  Program.lift (.setRelation { updated with etag })

def setRelation (ifMatch : GoString) (now : Timestamp) (relation : Relation) :
    Tx μ Relation := do
  let etag ← Program.done (validateSetRelation library model relation)
  setRelationTx etag ifMatch now relation

def deleteRelation (ifMatch : GoString) (now : Timestamp) (ident : RelationIdentifier) :
    Tx μ Unit := do
  Program.done (library.deleteRelationRequest ident)
  Program.done (library.validateRelation model ident)
  if ifMatch ≠ [] then
    let relation : Relation :=
      { objectType := ident.objectType, objectId := ident.objectId, relation := ident.relation,
        subjectType := ident.subjectType, subjectId := ident.subjectId,
        subjectRelation := ident.subjectRelation }
    let updated ← updateMetadataRelation now relation
    if ifMatch ≠ updated.etag then throw (relationMismatch relation)
  Program.lift (.deleteRelation ident)

end Service

end Eamerald.Directory
