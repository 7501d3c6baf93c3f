import Eamerald.Directory.Library
import Eamerald.Bolt.Database

/-! The model service and its store transactions. Setting a manifest reads the
model cache twice, for the If-Match header and for the check of what is in use,
and replaces the cached model after its transaction; deleting one reads and
writes the store only. -/

set_option autoImplicit false

namespace Eamerald.Directory

open Foundation Store

section Stored

variable {μ : Type} (library : Library μ)

/-- Report a failure under a message of one's own. -/
def reporting {α : Type} (context : String) (program : Tx μ α) : Tx μ α := do
  match ← program.attempt with
  | .ok value => return value
  | .error error =>
      throw (.derr .unknown (context.toList ++ ": ".toList ++ library.errorText error))

def manifestExists : Tx μ Bool := do
  match ← (Program.lift (TxOp.manifestExists (μ := μ))).attempt with
  | .ok found => return found
  | .error _ => return false

def getManifest : Tx μ (Metadata × Body) := do
  if !(← manifestExists) then throw Bolt.errPathNotFound
  let metadata ← Program.lift .getManifestMetadata
  let body ← Program.lift .getManifestBody
  return (metadata, body)

def setModel (metadata : Metadata) (model : μ) : Tx μ Unit :=
  Program.lift (.setManifestModel (library.withMetadata model metadata))

def setManifestTx (cached next : μ) (metadata : Metadata) (data : Bytes) : Tx μ Unit := do
  let stats ← reporting library "failed to calculate stats" calculateStats
  Program.done (library.canUpdate cached next stats)
  reporting library "failed to set manifest" (Program.lift (.setManifest metadata ⟨data⟩))
  reporting library "failed to set model" (setModel library metadata next)

/-- A header without a manifest to compare it with is no error. -/
def ifMatchStored (ifMatch : GoString) : Tx μ Bool :=
  if ifMatch = [] then return true
  else do
    match ← getManifest.attempt with
    | .error _ => return false
    | .ok (stored, _) =>
        if ifMatch ≠ stored.etag then throw (.derr .hashMismatch []) else return true

def deleteManifestTx (ifMatch : GoString) (empty : μ) (metadata : Metadata) : Tx μ Unit := do
  if ← ifMatchStored ifMatch then
    reporting library "failed to delete manifest" (Program.lift .deleteManifest)
    reporting library "failed to set manifest" (Program.lift (.setManifest metadata ⟨[]⟩))
    reporting library "failed to set model" (setModel library metadata empty)

end Stored

/-- The messages of a set call: bodies among others, how receiving ended, and whether
the response could be sent. -/
structure ManifestStream where
  messages : List (Option Body)
  received : Except Err PUnit := .ok ⟨⟩
  sendAndClose : Except Err PUnit := .ok ⟨⟩

section Service

variable {μ : Type} (library : Library μ)

/-- The If-Match header against the cached model. -/
def ifMatchCached (ifMatch : GoString) (cached : μ) : Bool :=
  ifMatch = [] || ifMatch = library.etag cached

/-- Collect the bodies. Every body hashes all data received so far. -/
def receiveBodies : List (Option Body) → Bytes → Bytes → Except Err (Bytes × Bytes)
  | [], data, hashed => .ok (data, hashed)
  | none :: rest, data, hashed => receiveBodies rest data hashed
  | some body :: rest, data, hashed => do
      library.body body
      let data := data ++ body.data
      receiveBodies rest data (hashed ++ data)

structure Prepared (μ : Type) where
  metadata : Metadata
  data : Bytes
  model : μ

def loadManifest (data : Bytes) : Except Err μ :=
  match library.load data with
  | .ok model => .ok model
  | .error error => .error (.derr .invalidArgument (library.errorText error))

def prepareManifest (stream : ManifestStream) (now : Timestamp) : Except Err (Prepared μ) := do
  let (data, hashed) ← receiveBodies library stream.messages [] []
  stream.received
  stream.sendAndClose
  let metadata : Metadata := { updatedAt := some now, etag := library.hashManifest hashed }
  library.metadata metadata
  let model ← loadManifest library data
  return { metadata, data, model }

def prepareDelete (now : Timestamp) : Except Err (Metadata × μ) := do
  library.deleteManifestRequest
  let model ← loadManifest library []
  return ({ updatedAt := some now, etag := library.hashManifest [] }, model)

def prepareSync (remote : Bytes) (now : Timestamp) : Except Err (Prepared μ) := do
  let metadata : Metadata := { updatedAt := some now, etag := library.hashManifest remote }
  library.metadata metadata
  let model ← loadManifest library remote
  return { metadata, data := remote, model }

def localEtag : Tx μ GoString := do
  match ← getManifest.attempt with
  | .ok (metadata, _) => return metadata.etag
  | .error error =>
      if error.isNotFound then return [] else throw (.engine "failed to get manifest")

/-- The manifest that a get call sends, which is empty when there is none. -/
def serveManifest : Tx μ (Metadata × Body) := do
  match ← getManifest.attempt with
  | .ok stored => return stored
  | .error error =>
      if error.isNotFound then return ({}, ⟨[]⟩) else throw (.engine "failed to get manifest")

def loadModel : Tx μ (Option μ) := do
  if !(← Program.lift .manifestExists) then return none
  match ← (Program.lift TxOp.getManifestModel).attempt with
  | .ok model => return some model
  | .error error => if error.isNotFound then return none else throw error

def startupModel {σ : Type} (backend : Backend μ σ) (state : σ) : Except Err μ := do
  let loaded ← view backend loadModel state
  return loaded.getD library.fresh

end Service

end Eamerald.Directory
