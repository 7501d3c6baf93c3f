import Eamerald.Api.Messages
import Eamerald.Foundation.Program

/-! The backend-agnostic transaction interface. Every service is written as a
program over these operations; BoltDB and Postgres each give them a meaning. -/

set_option autoImplicit false

namespace Eamerald.Store

open Foundation

inductive Direction where
  | byObject
  | bySubject
deriving DecidableEq, Repr

def Direction.anchor (direction : Direction) (ident : RelationIdentifier) : ObjectIdentifier :=
  match direction with
  | .byObject => ident.object
  | .bySubject => ident.subject

/-- Empty fields are unset; the flag tells an explicitly empty subject relation apart. -/
structure RelationFilter where
  objectType : GoString := []
  objectId : GoString := []
  relation : GoString := []
  subjectType : GoString := []
  subjectId : GoString := []
  subjectRelation : GoString := []
  hasSubjectRelation : Bool := false
deriving DecidableEq, Repr

def objectOnlyFilter (direction : Direction) (objectType objectId : GoString) : RelationFilter :=
  match direction with
  | .bySubject => { subjectType := objectType, subjectId := objectId }
  | .byObject => { objectType, objectId }

structure Row (α : Type) where
  value : α
  token : GoString

/-- A forward iterator, as the rows `Next` still yields and what `Close` reports. -/
structure Iterator (α : Type) where
  rows : List (Row α)
  closeError : Option Err := none

def Iterator.values {α : Type} (iterator : Iterator α) : List α := iterator.rows.map (·.value)

inductive TxOp (μ : Type) : Type → Type where
  | getObject (objectType objectId : GoString) : TxOp μ Object
  | setObject (object : Object) : TxOp μ Object
  | deleteObject (objectType objectId : GoString) : TxOp μ Unit
  | scanObjects (objectType pageToken : GoString) : TxOp μ (Iterator Object)
  | getRelationExact (ident : RelationIdentifier) : TxOp μ Relation
  | setRelation (relation : Relation) : TxOp μ Relation
  | deleteRelation (ident : RelationIdentifier) : TxOp μ Unit
  | scanRelations (direction : Direction) (filter : RelationFilter) (pageToken : GoString) :
      TxOp μ (Iterator Relation)
  | scanRelationsFiltered (direction : Direction) (filter : RelationFilter)
      (valueFilter : RelationIdentifier → Bool) (out : List RelationIdentifier) :
      TxOp μ (List RelationIdentifier)
  | relationsExistForObject (direction : Direction) (objectType objectId : GoString) : TxOp μ Bool
  | manifestExists : TxOp μ Bool
  | getManifestMetadata : TxOp μ Metadata
  | getManifestBody : TxOp μ Body
  | getManifestModel : TxOp μ μ
  | setManifest (metadata : Metadata) (body : Body) : TxOp μ Unit
  | setManifestModel (model : μ) : TxOp μ Unit
  | deleteManifest : TxOp μ Unit

abbrev Tx (μ α : Type) := Program (TxOp μ) Err α

abbrev Backend (μ σ : Type) := Handler (TxOp μ) Err σ

def view {μ σ α : Type} (backend : Backend μ σ) (body : Tx μ α) (state : σ) : Except Err α :=
  (body.run backend state).1

/-- `Update` keeps the writes exactly when the code returned no error. -/
def update {μ σ α : Type} (backend : Backend μ σ) (body : Tx μ α) (state : σ) :
    Except Err α × σ :=
  body.commit backend state

end Eamerald.Store
