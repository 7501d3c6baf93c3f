import Eamerald.Directory.Stats

/-! The libraries the services call: the request validators, the model library
with its typed views of messages, and its evaluation engine. They are parameters
of the services; what a result relies on is stated as a hypothesis where it is
used. The engine is given a reader for stored relations, so an evaluation is a
program whose only operation is to query that reader. -/

set_option autoImplicit false

namespace Eamerald.Directory

open Foundation

structure SafeRelation where
  ident : RelationIdentifier
  hasSubjectRelation : Bool
deriving DecidableEq, Repr

structure GetRelationRequest where
  objectType : GoString := []
  objectId : GoString := []
  relation : GoString := []
  subjectType : GoString := []
  subjectId : GoString := []
  subjectRelation : GoString := []
  withObjects : Bool := false
deriving DecidableEq, Repr

structure CheckRequest where
  objectType : GoString
  objectId : GoString
  relation : GoString
  subjectType : GoString
  subjectId : GoString
  trace : Bool := false
deriving DecidableEq, Repr

/-- The context of a negative answer is the reason for it. -/
structure CheckResponse where
  check : Bool := false
  trace : List GoString := []
  reason : Option Err := none
deriving DecidableEq, Repr

structure DeleteObjectRequest where
  objectType : GoString
  objectId : GoString
  withRelations : Bool := false
deriving DecidableEq, Repr

inductive RelationQuery : Type → Type where
  | relations (pattern : RelationIdentifier) (out : List RelationIdentifier) :
      RelationQuery (List RelationIdentifier)

structure Library (μ : Type) where
  getRelationRequest : GetRelationRequest → Except Err Unit
  checkRequest : CheckRequest → Except Err Unit
  setObjectRequest : Object → Except Err Unit
  deleteObjectRequest : DeleteObjectRequest → Except Err Unit
  setRelationRequest : Relation → Except Err Unit
  deleteRelationRequest : RelationIdentifier → Except Err Unit
  deleteManifestRequest : Except Err Unit
  object : Object → Except Err Unit
  relation : Relation → Except Err Unit
  body : Body → Except Err Unit
  metadata : Metadata → Except Err Unit
  safeGetRelation : GetRelationRequest → SafeRelation
  isComplete : ObjectIdentifier → Bool
  hashObject : Object → GoString
  hashRelation : RelationIdentifier → GoString
  hashManifest : Bytes → GoString
  quote : GoString → GoString
  unwrap : Err → Option Err
  errorText : Err → GoString
  fresh : μ
  load : Bytes → Except Err μ
  etag : μ → GoString
  withMetadata : μ → Metadata → μ
  canUpdate : μ → μ → Stats → Except Err Unit
  validateObject : μ → Object → Except Err Unit
  validateObjectIdentifier : μ → ObjectIdentifier → Except Err Unit
  validateRelation : μ → RelationIdentifier → Except Err Unit
  validateRelations : μ → SafeRelation → Except Err Unit
  validateCheck : μ → CheckRequest → Except Err Unit
  check : μ → CheckRequest → Program RelationQuery Err CheckResponse

end Eamerald.Directory
