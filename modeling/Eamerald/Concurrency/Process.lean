import Eamerald.Directory.Operations
import Eamerald.Directory.Simple
import Eamerald.Bolt.Tx
import Eamerald.Foundation.Runs

/-! One directory process on a Bolt file: the store, the model cache, and the
calls in progress. A write transaction is one step, except that an import keeps
its transaction open while it receives requests; nobody else writes meanwhile.
Validation, header check, commit and cache update of a call are separate steps,
between which other calls may run. -/

set_option autoImplicit false

namespace Eamerald.Concurrency

open Foundation Store Directory

/-- How far a call is. A set call remembers the model it was validated against. -/
inductive Phase (μ : Type) where
  | idle
  | setObject (model : μ) (etag ifMatch : GoString) (object : Object)
  | setRelation (model : μ) (etag ifMatch : GoString) (relation : Relation)
  | importing
  | checked (ifMatch : GoString)
  | prepared (ifMatch : GoString) (manifest : Prepared μ)
  | publishing (model : μ)
  | finished (outcome : Except Err Unit)

structure Process (ω μ : Type) where
  store : Bolt.BoltDB ω
  cache : μ
  writer : Option (Nat × Bolt.BoltDB ω) := none
  calls : Nat → Phase μ := fun _ => .idle

inductive Event where
  | setObject (call : Nat) (ifMatch : GoString) (object : Object)
  | setRelation (call : Nat) (ifMatch : GoString) (relation : Relation)
  | commitData (call : Nat) (now : Timestamp)
  | importBegin (call : Nat)
  | importRequest (call : Nat) (now : Timestamp) (request : ImportRequest)
  | importEnd (call : Nat) (ending : StreamEnd)
  | setManifest (call : Nat) (ifMatch : GoString)
  | receiveManifest (call : Nat) (stream : ManifestStream) (now : Timestamp)
  | syncManifest (call : Nat) (remoteEtag : GoString) (remote : Bytes) (now : Timestamp)
  | commitManifest (call : Nat)
  | publish (call : Nat)
  | deleteManifest (call : Nat) (ifMatch : GoString) (now : Timestamp)

def Event.call : Event → Nat
  | .setObject call _ _ | .setRelation call _ _ | .commitData call _ | .importBegin call
  | .importRequest call _ _ | .importEnd call _ | .setManifest call _ | .receiveManifest call _ _
  | .syncManifest call _ _ _ | .commitManifest call | .publish call | .deleteManifest call _ _ =>
      call

section Steps

variable {ω μ : Type} [Wire ω μ] (library : Library μ)

def Process.advance (process : Process ω μ) (call : Nat) (phase : Phase μ) : Process ω μ :=
  { process with calls := Function.update process.calls call phase }

def Process.finish {α : Type} (process : Process ω μ) (call : Nat) (outcome : Except Err α) :
    Process ω μ :=
  process.advance call (.finished (outcome.map fun _ => ()))

def Process.proceed {α : Type} (process : Process ω μ) (call : Nat) (outcome : Except Err α)
    (next : α → Phase μ) : Process ω μ :=
  match outcome with
  | .ok value => process.advance call (next value)
  | .error error => process.advance call (.finished (.error error))

def syncPhase (remoteEtag : GoString) (remote : Bytes) (now : Timestamp) (store : Bolt.BoltDB ω) :
    Except Err (Phase μ) := do
  let etag ← view Bolt.backend (localEtag (μ := μ)) store
  if etag = remoteEtag then return .finished (.ok ())
  let manifest ← prepareSync library remote now
  return .prepared [] manifest

def dataTx (now : Timestamp) : Phase μ → Option (Tx μ PUnit)
  | .setObject _ etag ifMatch object => some do let _ ← setObjectTx etag ifMatch now object
  | .setRelation _ etag ifMatch relation => some do let _ ← setRelationTx etag ifMatch now relation
  | _ => none

def manifestTx (cache : μ) (manifest : Prepared μ) : Tx μ Unit :=
  setManifestTx library cache manifest.model manifest.metadata manifest.data

def deleteTx (ifMatch : GoString) (now : Timestamp) : Tx μ Unit := do
  let (metadata, empty) ← Program.done (prepareDelete library now)
  deleteManifestTx library ifMatch empty metadata

def publishedModel (manifest : Prepared μ) : μ :=
  library.withMetadata manifest.model manifest.metadata

def Process.step (process : Process ω μ) : Event → Option (Process ω μ)
  | .setObject call ifMatch object =>
      match process.calls call with
      | .idle => some (process.proceed call (validateSetObject library process.cache object)
          fun etag => .setObject process.cache etag ifMatch object)
      | _ => none
  | .setRelation call ifMatch relation =>
      match process.calls call with
      | .idle => some (process.proceed call (validateSetRelation library process.cache relation)
          fun etag => .setRelation process.cache etag ifMatch relation)
      | _ => none
  | .commitData call now =>
      match process.writer, dataTx now (process.calls call) with
      | none, some body =>
          let result := update Bolt.backend body process.store
          some ({ process with store := result.2 }.finish call result.1)
      | _, _ => none
  | .importBegin call =>
      match process.writer, process.calls call with
      | none, .idle =>
          some ({ process with writer := some (call, process.store) }.advance call .importing)
      | _, _ => none
  | .importRequest call now request =>
      match process.writer, process.calls call with
      | some (owner, view), .importing =>
          if owner = call then
            let result := (importHandler library process.cache now request).run Bolt.backend view
            some { process with writer := some (call, result.2) }
          else none
      | _, _ => none
  | .importEnd call ending =>
      match process.writer, process.calls call with
      | some (owner, view), .importing =>
          if owner = call then
            match ending with
            | .eof (.error error) =>
                some ({ process with writer := none }.finish (α := Unit) call (.error error))
            | _ => some ({ process with store := view, writer := none }.finish call (.ok ()))
          else none
      | _, _ => none
  | .setManifest call ifMatch =>
      match process.calls call with
      | .idle =>
          if ifMatchCached library ifMatch process.cache then
            some (process.advance call (.checked ifMatch))
          else some (process.finish (α := Unit) call (.error (.derr .hashMismatch [])))
      | _ => none
  | .receiveManifest call stream now =>
      match process.calls call with
      | .checked ifMatch =>
          some (process.proceed call (prepareManifest library stream now) (.prepared ifMatch))
      | _ => none
  | .syncManifest call remoteEtag remote now =>
      match process.calls call with
      | .idle => some (process.proceed call
          (syncPhase library remoteEtag remote now process.store) id)
      | _ => none
  | .commitManifest call =>
      match process.writer, process.calls call with
      | none, .prepared _ manifest =>
          let result := update Bolt.backend (manifestTx library process.cache manifest) process.store
          some ({ process with store := result.2 }.proceed call result.1
            fun _ => .publishing (publishedModel library manifest))
      | _, _ => none
  | .publish call =>
      match process.calls call with
      | .publishing model => some ({ process with cache := model }.finish call (.ok ()))
      | _ => none
  | .deleteManifest call ifMatch now =>
      match process.writer, process.calls call with
      | none, .idle =>
          let result := update Bolt.backend (deleteTx library ifMatch now) process.store
          some ({ process with store := result.2 }.finish call result.1)
      | _, _ => none

def machine : Machine (Process ω μ) Event := ⟨Process.step library⟩

def startup (store : Bolt.BoltDB ω) : Except Err (Process ω μ) := do
  let cache ← startupModel library Bolt.backend store
  return { store, cache }

end Steps

section Simple

def freshProcess : Process (Blob Simple.Model) Simple.Model :=
  { store := Bolt.emptyDB, cache := {} }

def manifestCall (call : Nat) (ifMatch : GoString) (types : Bytes) : List Event :=
  [.setManifest call ifMatch, .receiveManifest call ⟨[some ⟨types⟩], .ok ⟨⟩, .ok ⟨⟩⟩ ⟨1, 0⟩,
    .commitManifest call, .publish call]

end Simple

end Eamerald.Concurrency
