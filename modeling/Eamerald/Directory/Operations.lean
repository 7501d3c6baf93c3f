import Eamerald.Datasync.Handlers
import Eamerald.Directory.Manifest

/-! Whole write calls as transactions, and runs of them. A call is validated
against whatever model is cached when it runs, which is part of the operation. -/

set_option autoImplicit false

namespace Eamerald.Directory

open Foundation Store

inductive Operation (μ : Type) where
  | setObject (model : μ) (ifMatch : GoString) (now : Timestamp) (object : Object)
  | deleteObject (model : μ) (ifMatch : GoString) (now : Timestamp) (request : DeleteObjectRequest)
  | setRelation (model : μ) (ifMatch : GoString) (now : Timestamp) (relation : Relation)
  | deleteRelation (model : μ) (ifMatch : GoString) (now : Timestamp) (ident : RelationIdentifier)
  | importStream (requests : List (Received μ)) (ending : StreamEnd)
  | subscriber (rows : List (Datasync.Applied μ))
  | diff (model : μ) (exported : GoString → Bool)
  | setManifest (cached : μ) (stream : ManifestStream) (now : Timestamp)
  | syncManifest (cached : μ) (remote : Bytes) (now : Timestamp)
  | deleteManifest (ifMatch : GoString) (now : Timestamp)

section Programs

variable {μ : Type} (library : Library μ)

def Operation.program : Operation μ → Tx μ PUnit
  | .setObject model ifMatch now object => do
      let _ ← Directory.setObject library model ifMatch now object
  | .deleteObject model ifMatch now request => Directory.deleteObject library model ifMatch now request
  | .setRelation model ifMatch now relation => do
      let _ ← Directory.setRelation library model ifMatch now relation
  | .deleteRelation model ifMatch now ident =>
      Directory.deleteRelation library model ifMatch now ident
  | .importStream requests ending => do
      let _ ← Directory.importStream library requests ending
  | .subscriber rows => Datasync.subscriber library rows
  | .diff model exported => Datasync.diff library model exported
  | .setManifest cached stream now => do
      let prepared ← Program.done (prepareManifest library stream now)
      setManifestTx library cached prepared.model prepared.metadata prepared.data
  | .syncManifest cached remote now => do
      let prepared ← Program.done (prepareSync library remote now)
      setManifestTx library cached prepared.model prepared.metadata prepared.data
  | .deleteManifest ifMatch now => do
      let (metadata, empty) ← Program.done (prepareDelete library now)
      deleteManifestTx library ifMatch empty metadata

def runOperations {σ : Type} (backend : Backend μ σ) (operations : List (Operation μ))
    (state : σ) : σ :=
  operations.foldl (fun state operation => (update backend (operation.program library) state).2)
    state

end Programs

section Ids

def barFree (id : GoString) : Prop := '|' ∉ id

def BarFreeMessage : ImportMessage → Prop
  | .object (some object) => barFree object.id
  | .relation (some relation) => barFree relation.objectId ∧ barFree relation.subjectId
  | _ => True

def BarFreeRow : Datasync.Row → Prop
  | .object (some object) => barFree object.id
  | .relation (some relation) => barFree relation.objectId ∧ barFree relation.subjectId
  | _ => True

/-- No object or subject id that the operation is given contains a bar. -/
def Operation.BarFree {μ : Type} : Operation μ → Prop
  | .setObject _ _ _ object => barFree object.id
  | .deleteObject _ _ _ request => barFree request.objectId
  | .setRelation _ _ _ relation => barFree relation.objectId ∧ barFree relation.subjectId
  | .deleteRelation _ _ _ ident => barFree ident.objectId ∧ barFree ident.subjectId
  | .importStream requests _ => ∀ received ∈ requests, BarFreeMessage received.request.message
  | .subscriber rows => ∀ applied ∈ rows, BarFreeRow applied.row
  | .diff _ _ => True
  | .setManifest _ _ _ => True
  | .syncManifest _ _ _ => True
  | .deleteManifest _ _ => True

end Ids

end Eamerald.Directory
