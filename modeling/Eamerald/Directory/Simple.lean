import Eamerald.Directory.Library
import Eamerald.Bolt.KeyProperties

/-! A small model library, to run the services with. A model declares object
types and the subjects each relation admits; relations are granted directly or
to all subjects of a type. Its manifests list one-letter object types. -/

set_option autoImplicit false

namespace Eamerald.Directory.Simple

open Foundation

structure Rule where
  objectType : GoString
  relation : GoString
  subjectType : GoString
  subjectRelation : GoString := []
deriving DecidableEq, Repr

structure Model where
  metadata : Metadata := {}
  objectTypes : List GoString := []
  rules : List Rule := []
deriving DecidableEq, Repr

def require (condition : Bool) (message : String) : Except Err Unit :=
  if condition then .ok () else .error (.rejected message.toList none)

def plainId (id : GoString) : Bool := id ≠ [] && id.all fun char => !isSpace char

def plainName (name : GoString) : Bool := decide (Bolt.PlainName name)

def names (ident : RelationIdentifier) : Bool :=
  plainName ident.objectType && plainName ident.relation && plainName ident.subjectType &&
    plainName ident.subjectRelation

def wildcard (subjectType subjectId : GoString) : GoString :=
  if subjectId = ['*'] then subjectType ++ [':', '*'] else subjectType

/-- A rule is still in use when relations of its kind are counted. -/
def inUse (stats : Stats) (rule : Rule) : Bool :=
  match stats[rule.objectType]? with
  | none => false
  | some objectType =>
      match objectType.relations[rule.relation]? with
      | none => false
      | some relation =>
          match relation.subjectTypes[rule.subjectType]? with
          | none => false
          | some subjectType =>
              if rule.subjectRelation = [] then 0 < subjectType.count
              else 0 < (subjectType.subjectRelations[rule.subjectRelation]?.getD 0)

def canUpdate (current next : Model) (stats : Stats) : Bool :=
  (current.objectTypes.all fun name =>
    next.objectTypes.contains name || !(0 < ((stats[name]?.map ObjectTypeStats.objCount).getD 0))) &&
  current.rules.all fun rule => rule ∈ next.rules || !inUse stats rule

def grants (model : Model) (request : CheckRequest) : Program RelationQuery Err CheckResponse := do
  let direct ← Program.lift (.relations ⟨request.objectType, request.objectId, request.relation,
    request.subjectType, request.subjectId, []⟩ [])
  if direct ≠ [] then return { check := true }
  let rule : Rule := ⟨request.objectType, request.relation, request.subjectType ++ [':', '*'], []⟩
  if rule ∉ model.rules then return { check := false }
  let everyone ← Program.lift (.relations ⟨request.objectType, request.objectId, request.relation,
    request.subjectType, ['*'], []⟩ [])
  return { check := decide (everyone ≠ []) }

def validateRelation (model : Model) (ident : RelationIdentifier) : Except Err Unit :=
  require (decide (⟨ident.objectType, ident.relation, wildcard ident.subjectType ident.subjectId,
    ident.subjectRelation⟩ ∈ model.rules)) "invalid relation"

def library : Library Model where
  getRelationRequest request := require
    (plainName request.objectType && plainName request.relation && plainName request.subjectType)
    "invalid request"
  checkRequest request := require (plainId request.objectId && plainId request.subjectId)
    "invalid request"
  setObjectRequest object := require (plainName object.type && plainId object.id) "invalid object"
  deleteObjectRequest request :=
    require (plainName request.objectType && plainId request.objectId) "invalid object"
  setRelationRequest relation := require (names relation.ident) "invalid relation"
  deleteRelationRequest ident := require (names ident) "invalid relation"
  deleteManifestRequest := .ok ()
  object object := require (plainName object.type && plainId object.id) "invalid object"
  relation relation := require (names relation.ident) "invalid relation"
  body _ := .ok ()
  metadata _ := .ok ()
  safeGetRelation request :=
    ⟨⟨request.objectType, request.objectId, request.relation, request.subjectType,
      request.subjectId, request.subjectRelation⟩, decide (request.subjectRelation ≠ [])⟩
  isComplete ident := ident.objectType ≠ [] && ident.objectId ≠ []
  hashObject object := object.displayName ++ ['#']
  hashRelation ident := Bolt.objKeyOf ident
  hashManifest data := '#' :: data.map fun byte => Char.ofNat byte.toNat
  quote text := '"' :: text ++ ['"']
  unwrap _ := none
  errorText _ := "error".toList
  fresh := {}
  load data := .ok { objectTypes := data.map fun byte => [Char.ofNat byte.toNat] }
  etag model := model.metadata.etag
  withMetadata model metadata := { model with metadata }
  canUpdate current next stats := require (canUpdate current next stats) "model in use"
  validateObject model object :=
    require (model.objectTypes.contains object.type) "invalid object type"
  validateObjectIdentifier model ident :=
    require (model.objectTypes.contains ident.objectType) "invalid object type"
  validateRelation := validateRelation
  validateRelations model pattern :=
    require (pattern.ident.objectType = [] || model.objectTypes.contains pattern.ident.objectType)
      "invalid object type"
  validateCheck model request :=
    require (model.objectTypes.contains request.objectType &&
      model.objectTypes.contains request.subjectType) "invalid object type"
  check := grants

def viewersModel : Model :=
  { objectTypes := ["doc".toList, "user".toList]
    rules := [⟨"doc".toList, "viewer".toList, "user".toList, []⟩] }

def viewer (objectId subjectId : String) : Relation :=
  { objectType := "doc".toList, objectId := objectId.toList, relation := "viewer".toList,
    subjectType := "user".toList, subjectId := subjectId.toList, subjectRelation := [] }

end Eamerald.Directory.Simple
