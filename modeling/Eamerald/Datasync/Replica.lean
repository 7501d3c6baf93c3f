import Eamerald.Concurrency.Process
import Eamerald.Datasync.Sync
import Eamerald.Directory.Engines
import Eamerald.Directory.RoundTrip

/-! A whole synchronisation of an edge with its hub: the manifest first, then the rows
under the model that is cached by then. -/

set_option autoImplicit false

namespace Eamerald.Datasync

open Foundation Store Directory

structure Replica (ω μ : Type) where
  edge : Edge ω
  cache : μ

section Manifest

variable {ω μ : Type} [Wire ω μ] (library : Library μ)

/-- The manifest of the hub is not looked at when its etag is the stored one. -/
def syncManifest (remote : Metadata × Body) (now : Timestamp) (replica : Replica ω μ) :
    Except Err Unit × Replica ω μ :=
  match view Bolt.backend (localEtag (μ := μ)) replica.edge.db with
  | .error error => (.error error, replica)
  | .ok etag =>
      if etag = remote.1.etag then (.ok (), replica)
      else
        match prepareSync library remote.2.data now with
        | .error error => (.error error, replica)
        | .ok prepared =>
            match update Bolt.backend (Concurrency.manifestTx library replica.cache prepared)
              replica.edge.db with
            | (.error error, db) => (.error error, { replica with edge := { replica.edge with db } })
            | (.ok _, db) => (.ok (), { edge := { replica.edge with db }
                                        cache := Concurrency.publishedModel library prepared })

end Manifest

section Directory

variable {ω μ φ : Type} [Wire ω μ] (library : Library μ) (filters : FilterLibrary φ)

def incoming (model : μ) (clock : Nat → Timestamp) : List ExportMessage → List (Incoming μ)
  | [] => []
  | message :: rest =>
      let later := incoming model (fun index => clock (index + 1)) rest
      match message with
      | .object object => .row ⟨model, clock 0, .object (some object)⟩ :: later
      | .relation relation => .row ⟨model, clock 0, .relation (some relation)⟩ :: later
      | .stats _ => .unknown :: later

def directoryRun (model : μ) (clock : Nat → Timestamp) (ending : Except Err Unit)
    (sent : List ExportMessage) : Run μ where
  mode := Mode.manifest.set .diff
  hub _ := { messages := incoming model clock sent, ending }
  diffModel := model

/-- `Sync.Run` against a hub that does not change meanwhile. -/
def Replica.sync (source : Engine ω) (hub : source.State) (now : Timestamp)
    (clock : Nat → Timestamp) (replica : Replica ω μ) : Except Err Unit × Replica ω μ :=
  match view source.backend (serveManifest (μ := μ)) hub with
  | .error error => (.error error, replica)
  | .ok remote =>
      match syncManifest library remote now replica with
      | (.error error, replica) => (.error error, replica)
      | (.ok _, replica) =>
          let result := exportResult (μ := μ) source.backend allData {} hub
          let ran := syncDirectory library filters
            (directoryRun replica.cache clock result.1 result.2.sent) replica.edge
          (ran.1, { replica with edge := ran.2 })

end Directory

end Eamerald.Datasync
