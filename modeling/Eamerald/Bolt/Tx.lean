import Eamerald.Bolt.Database

/-! The transaction operations over BoltDB buckets. -/

set_option autoImplicit false

namespace Eamerald.Bolt

open Foundation Store

variable {ω μ : Type} [Wire ω μ]

def metadataKey : Key := "metadata".toList

def bodyKey : Key := "body".toList

def modelKey : Key := "model".toList

def getObject (objectType objectId : GoString) (db : BoltDB ω) : Except Err Object :=
  get Wire.object .objects (objectKey objectType objectId) db

def setObject (object : Object) (db : BoltDB ω) : Except Err Object × BoltDB ω :=
  set Wire.object .objects (objectKey object.type object.id) object db

def deleteObject (objectType objectId : GoString) (db : BoltDB ω) : Except Err Unit × BoltDB ω :=
  deleteKey .objects (objectKey objectType objectId) db

def scanObjects (objectType pageToken : GoString) (db : BoltDB ω) :
    Except Err (Iterator Object) :=
  scanIterator Wire.object .zero .objects
    (if objectType ≠ [] then objectKey objectType [] else []) pageToken db

def getRelationExact (ident : RelationIdentifier) (db : BoltDB ω) : Except Err Relation :=
  get Wire.relation .relationsObj (objKeyOf ident) db

def setRelation (relation : Relation) (db : BoltDB ω) : Except Err Relation × BoltDB ω :=
  match set Wire.relation .relationsObj (objKeyOf relation.ident) relation db with
  | (.error error, db) => (.error error, db)
  | (.ok objRel, db) =>
      match set Wire.relation .relationsSub (subKeyOf relation.ident) relation db with
      | (.error error, db) => (.error error, db)
      | (.ok _, db) => (.ok objRel, db)

def deleteRelation (ident : RelationIdentifier) (db : BoltDB ω) : Except Err Unit × BoltDB ω :=
  match deleteKey .relationsObj (objKeyOf ident) db with
  | (.error error, db) => (.error error, db)
  | (.ok _, db) => deleteKey .relationsSub (subKeyOf ident) db

def scanRelations (direction : Direction) (filter : RelationFilter) (pageToken : GoString)
    (db : BoltDB ω) : Except Err (Iterator Relation) :=
  scanIterator Wire.relation .zero (directionPath direction) (scanPrefix direction filter)
    pageToken db

def scanRelationsFiltered (direction : Direction) (filter : RelationFilter)
    (valueFilter : RelationIdentifier → Bool) (out : List RelationIdentifier) (db : BoltDB ω) :
    Except Err (List RelationIdentifier) :=
  scanWithFilter (directionPath direction) (scanPrefix direction filter) valueFilter out db

def relationsExistForObject (direction : Direction) (objectType objectId : GoString)
    (db : BoltDB ω) : Except Err Bool :=
  keyPrefixExists (directionPath direction)
    (scanPrefix direction (objectOnlyFilter direction objectType objectId)) db

def manifestExists (db : BoltDB ω) : Bool := (db.bucket .manifest).isSome

def setManifest (metadata : Metadata) (body : Body) (db : BoltDB ω) : Except Err Unit × BoltDB ω :=
  match set Wire.metadata .manifest metadataKey metadata (createBucket .manifest db) with
  | (.error error, db) => (.error error, db)
  | (.ok _, db) =>
      match set Wire.body .manifest bodyKey body db with
      | (.error error, db) => (.error error, db)
      | (.ok _, db) => (.ok (), db)

def setManifestModel (model : μ) (db : BoltDB ω) : Except Err Unit × BoltDB ω :=
  match set Wire.model .manifest modelKey model db with
  | (.error error, db) => (.error error, db)
  | (.ok _, db) => (.ok (), db)

def deleteManifest (db : BoltDB ω) : BoltDB ω :=
  [Path.manifest, .objects, .relationsObj, .relationsSub].foldl
    (fun db path => createBucket path (deleteBucket path db)) db

def backend : Backend μ (BoltDB ω) where
  exec
    | .getObject objectType objectId, db => (getObject objectType objectId db, db)
    | .setObject object, db => setObject object db
    | .deleteObject objectType objectId, db => deleteObject objectType objectId db
    | .scanObjects objectType pageToken, db => (scanObjects objectType pageToken db, db)
    | .getRelationExact ident, db => (getRelationExact ident db, db)
    | .setRelation relation, db => setRelation relation db
    | .deleteRelation ident, db => deleteRelation ident db
    | .scanRelations direction filter pageToken, db =>
        (scanRelations direction filter pageToken db, db)
    | .scanRelationsFiltered direction filter valueFilter out, db =>
        (scanRelationsFiltered direction filter valueFilter out db, db)
    | .relationsExistForObject direction objectType objectId, db =>
        (relationsExistForObject direction objectType objectId db, db)
    | .manifestExists, db => (.ok (manifestExists db), db)
    | .getManifestMetadata, db => (get Wire.metadata .manifest metadataKey db, db)
    | .getManifestBody, db => (get Wire.body .manifest bodyKey db, db)
    | .getManifestModel, db => (get Wire.model .manifest modelKey db, db)
    | .setManifest metadata body, db => setManifest metadata body db
    | .setManifestModel model, db => setManifestModel model db
    | .deleteManifest, db => (.ok (), deleteManifest db)

def emptyDB : BoltDB ω := ⟨fun _ => some ∅⟩

end Eamerald.Bolt
