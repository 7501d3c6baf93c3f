import Eamerald.Bolt.Tx
import Eamerald.Directory.Library
import Eamerald.Foundation.Stages

/-! The schema migrations of the BoltDB file. A migration is a list of steps, and each
step is one transaction: it reads the backup of the file as it was and writes the file.
Up to version 0.0.6 values are protojson texts, from 0.0.7 on they are protobuf messages;
version 0.0.9 moves the manifest one bucket up. -/

set_option autoImplicit false

namespace Eamerald.Migrations

open Foundation
open Bolt (Key Bucket metadataKey bodyKey modelKey objKeyOf subKeyOf)
open Directory (Library)

/-- The first path of the manifest, `_manifest/default/0.0.1`, lies inside the second. -/
inductive Path where
  | system
  | manifestV1
  | manifestV2
  | objects
  | relationsObj
  | relationsSub
deriving DecidableEq, Repr

@[ext] structure File (ω : Type) where
  bucket : Path → Option (Bucket ω)

/-- The patch number: all schema versions are 0.0.n. -/
abbrev Version := Nat

def baseVersion : Version := 4

def reqVersion : Version := 9

/-- The encodings of the older files, the text of a version, and the empty value. -/
structure Texts (ω : Type) where
  object : Codec ω Object
  relation : Codec ω Relation
  metadata : Codec ω Metadata
  body : Codec ω Body
  version : Codec ω Version
  blank : ω

def errNotExist : Err := .engine "file does not exist"

def versionKey : Key := "version".toList

section Buckets

variable {ω : Type}

def File.empty : File ω := ⟨fun _ => none⟩

def File.assign (file : File ω) (path : Path) (bucket : Option (Bucket ω)) : File ω :=
  ⟨Function.update file.bucket path bucket⟩

def File.ensure (file : File ω) (path : Path) : File ω :=
  file.assign path (some ((file.bucket path).getD ∅))

def File.create (file : File ω) : Path → File ω
  | .manifestV1 => (file.ensure .manifestV2).ensure .manifestV1
  | path => file.ensure path

def File.delete (file : File ω) : Path → File ω
  | .manifestV2 => (file.assign .manifestV2 none).assign .manifestV1 none
  | path => file.assign path none

def setBucket (file : File ω) (path : Path) : Except Err (Bucket ω) :=
  match file.bucket path with
  | none => .error errNotExist
  | some bucket => .ok bucket

def setKey (path : Path) (key : Key) (value : ω) (file : File ω) : Except Err (File ω) := do
  let bucket ← setBucket file path
  let written ← Bolt.put bucket key value
  return file.assign path (some written)

/-- There is no version when the text stored is none. -/
def getVersion (texts : Texts ω) (file : File ω) : Option Version :=
  match file.bucket .system with
  | none => some baseVersion
  | some bucket =>
      match bucket[versionKey]? with
      | none => some baseVersion
      | some value => (texts.version.unmarshal value).toOption

/-- Writes nothing when the system bucket is missing. -/
def setVersion (texts : Texts ω) (version : Version) : Stage Err (File ω) := fun file =>
  match file.bucket .system with
  | none => .ok file
  | some bucket => do
      let written ← Bolt.put bucket versionKey (texts.version.marshal version)
      return file.assign .system (some written)

end Buckets

/-- A step gets the backup, which is missing when a new file is made, and the file. -/
abbrev Step (ω : Type) := Option (File ω) → Stage Err (File ω)

section Steps

variable {ω : Type}

def createBucket (path : Path) : Step ω := fun _ rw => .ok (rw.create path)

def deleteBucket (path : Path) : Step ω := fun _ rw => .ok (rw.delete path)

variable {μ : Type} [Wire ω μ] (library : Library μ)

def loadModelV1 (ro : File ω) : Except Err μ :=
  match ro.bucket .manifestV1 with
  | none => .error Bolt.errPathNotFound
  | some bucket =>
      match bucket[bodyKey]? with
      | none => .error Bolt.errKeyNotFound
      | some value => do
          let body ← Wire.body.unmarshal value
          library.load body.data

def migrateModelV1 : Step ω
  | none, rw => .ok rw
  | some ro, rw => do
      let model ← loadModelV1 library ro
      match rw.bucket .manifestV1 with
      | none => .error Bolt.errPathNotFound
      | some bucket => do
          let written ← Bolt.put bucket modelKey (Wire.model.marshal model)
          return rw.assign .manifestV1 (some written)

/-- The steps of the versions that only load the model anew: 0.0.4, 0.0.5, 0.0.6, 0.0.8. -/
def reload : List (Step ω) :=
  [createBucket .system,
    createBucket .manifestV1,
    migrateModelV1 library,
    createBucket .objects,
    createBucket .relationsObj,
    createBucket .relationsSub]

end Steps

namespace Mig007

variable {ω : Type}

def errSyntax : Err := .engine "proto: syntax error (line 1:1): unexpected token"

/-- No text at all is not a message. -/
def reencode {M : Type} (text wire : Codec ω M) : Option ω → Except Err ω
  | none => .error errSyntax
  | some value => do
      let message ← text.unmarshal value
      return wire.marshal message

variable {μ : Type} [Wire ω μ] (texts : Texts ω)

def updateManifest (path : Path) : Step ω
  | none, rw => .ok rw
  | some ro, rw => do
      let bucket ← setBucket ro path
      let body ← reencode texts.body Wire.body bucket[bodyKey]?
      let rw ← setKey path bodyKey body rw
      let metadata ← reencode texts.metadata Wire.metadata bucket[metadataKey]?
      let rw ← setKey path metadataKey metadata rw
      setKey path modelKey (bucket[modelKey]?.getD texts.blank) rw

def updateObject (rw : File ω) (entry : Key × ω) : Except Err (File ω) := do
  let value ← reencode texts.object Wire.object (some entry.2)
  setKey .objects entry.1 value rw

def updateEncodingObjects : Step ω
  | none, rw => .ok rw
  | some ro, rw => do
      let bucket ← setBucket ro .objects
      bucket.toList.foldlM (updateObject texts) rw

/-- The keys are made anew from the relation. -/
def updateRelation (rw : File ω) (entry : Key × ω) : Except Err (File ω) := do
  let relation ← texts.relation.unmarshal entry.2
  let value := Wire.relation.marshal relation
  let rw ← setKey .relationsObj (objKeyOf relation.ident) value rw
  setKey .relationsSub (subKeyOf relation.ident) value rw

def updateEncodingRelations : Step ω
  | none, rw => .ok rw
  | some ro, rw => do
      let bucket ← setBucket ro .relationsObj
      bucket.toList.foldlM (updateRelation texts) rw

def fnMap : List (Step ω) :=
  [deleteBucket .system,
    createBucket .system,
    deleteBucket .manifestV1,
    createBucket .manifestV1,
    updateManifest texts .manifestV1,
    deleteBucket .objects,
    createBucket .objects,
    updateEncodingObjects texts,
    deleteBucket .relationsObj,
    createBucket .relationsObj,
    deleteBucket .relationsSub,
    createBucket .relationsSub,
    updateEncodingRelations texts]

end Mig007

namespace Mig009

variable {ω : Type}

/-- A gRPC status, which has no error code of its own. -/
def errMissing (key : Key) : Err :=
  .aserto ⟨"", .notFound, 404, String.ofList (key ++ " not found".toList)⟩

def copyKey (source : Bucket ω) (key : Key) (target : Bucket ω) : Except Err (Bucket ω) :=
  match source[key]? with
  | none => .error (errMissing key)
  | some value => Bolt.put target key value

def updateManifest (oldPath newPath : Path) : Step ω
  | none, rw => .ok rw
  | some ro, rw => do
      let source ← setBucket ro oldPath
      let target ← setBucket rw newPath
      let target ← copyKey source bodyKey target
      let target ← copyKey source modelKey target
      let target ← copyKey source metadataKey target
      return rw.assign newPath (some target)

def fnMap : List (Step ω) :=
  [createBucket .system,
    deleteBucket .manifestV1,
    createBucket .manifestV2,
    updateManifest .manifestV1 .manifestV2,
    createBucket .objects,
    createBucket .relationsObj,
    createBucket .relationsSub]

end Mig009

section Migrate

variable {ω μ : Type} [Wire ω μ] (library : Library μ) (texts : Texts ω)

def migMap : Version → Option (List (Step ω))
  | 4 | 5 | 6 | 8 => some (reload library)
  | 7 => some (Mig007.fnMap texts)
  | 9 => some Mig009.fnMap
  | _ => none

/-- The transactions that take a file to a version. The last one writes the version. -/
def stagesTo (version : Version) (ro : Option (File ω)) : Except Err (List (Stage Err (File ω))) :=
  match migMap library texts version with
  | none => .error errNotExist
  | some steps => .ok (steps.map (· ro) ++ [setVersion texts version])

/-- What is on disk: the file, unless it was never made, and the backups that can be read. -/
structure Disk (ω : Type) where
  file : Option (File ω) := none
  backups : Version → Option (File ω) := fun _ => none

def Disk.opened {ω : Type} (disk : Disk ω) : File ω := disk.file.getD .empty

/-- The backup of a version is written over the one of an earlier attempt. -/
def Disk.backUp {ω : Type} (disk : Disk ω) (version : Version) : Disk ω :=
  ⟨some disk.opened, Function.update disk.backups version (some disk.opened)⟩

def migrateNext (current : Version) (disk : Disk ω) : Except Err Unit × Disk ω :=
  match stagesTo library texts (current + 1) (some disk.opened) with
  | .error error => (.error error, disk.backUp current)
  | .ok stages =>
      let ran := runStages stages disk.opened
      (ran.1, { disk.backUp current with file := some ran.2 })

/-- The loop of `Migrate`, for at most the given number of passes. A missing version makes
it panic, and the panic is recovered. -/
def migrateLoop : Nat → Version → Disk ω → Except Err Unit × Disk ω
  | 0, _, disk => (.error (.engine "out of passes"), disk)
  | passes + 1, current, disk =>
      match migrateNext library texts current disk with
      | (.error error, disk) => (.error error, disk)
      | (.ok _, disk) =>
          match getVersion texts disk.opened with
          | none => (.ok (), disk)
          | some version =>
              if version = reqVersion then (.ok (), disk) else migrateLoop passes version disk

/-- Every pass raises the version, so as many passes as the version asked for are enough. -/
def migrate (disk : Disk ω) : Except Err Unit × Disk ω :=
  match getVersion texts disk.opened with
  | none => (.ok (), disk)
  | some current =>
      if current = reqVersion then (.ok (), disk)
      else migrateLoop library texts reqVersion current disk

end Migrate

end Eamerald.Migrations
