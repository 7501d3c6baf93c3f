import Eamerald.Directory.ImportIsolation

/-! `migrate-to-postgres`. The manifest of a BoltDB directory is set on a Postgres one,
and then its rows are exported as lines of JSON into a pipe that an import reads. The
client of the import ignores the status messages it receives. -/

set_option autoImplicit false

namespace Eamerald.Command

open Foundation Store Directory

structure JsonLines (L : Type) where
  encodeObject : Object → Except Err L
  encodeRelation : Relation → Except Err L
  unmarshalObject : L → Option Object
  unmarshalRelation : L → Option Relation
  length : L → Nat
  quote : L → GoString

/-- A line reads as what was written, and as a message of the other kind its fields are
unknown and discarded. -/
structure JsonLines.Lawful {L : Type} (json : JsonLines L) : Prop where
  object : ∀ {object line}, json.encodeObject object = .ok line →
    json.unmarshalObject line = some object
  relation : ∀ {relation line}, json.encodeRelation relation = .ok line →
    json.unmarshalRelation line = some relation
  noRelation : ∀ {object line relation}, json.encodeObject object = .ok line →
    json.unmarshalRelation line = some relation → relation.objectType = []
  noObject : ∀ {relation line object}, json.encodeRelation relation = .ok line →
    json.unmarshalObject line = some object → object.type = []

section Client

variable {L : Type} (json : JsonLines L)

def exportToFile (ending : Except Err Unit) : List ExportMessage → List L × Except Err Unit
  | [] => ([], ending)
  | .object object :: rest =>
      match json.encodeObject object with
      | .error error => ([], .error error)
      | .ok line =>
          let (lines, outcome) := exportToFile ending rest
          (line :: lines, outcome)
  | .relation relation :: rest =>
      match json.encodeRelation relation with
      | .error error => ([], .error error)
      | .ok line =>
          let (lines, outcome) := exportToFile ending rest
          (line :: lines, outcome)
  | .stats _ :: rest => exportToFile ending rest

def max16Mb : Nat := 16 * 1024 * 1024

def objectLine (line : L) : Option ImportRequest :=
  match json.unmarshalObject line with
  | none => none
  | some object =>
      if object.type ≠ [] ∧ object.id ≠ [] then some ⟨.set, .object (some object)⟩ else none

def relationLine (line : L) : Option ImportRequest :=
  match json.unmarshalRelation line with
  | none => none
  | some relation =>
      if relation.objectType ≠ [] ∧ relation.objectId ≠ [] ∧ relation.relation ≠ [] ∧
          relation.subjectType ≠ [] ∧ relation.subjectId ≠ [] then
        some ⟨.set, .relation (some relation)⟩
      else none

def importFromReader (ending : Except Err Unit) : List L → List ImportRequest × Except Err Unit
  | [] => ([], ending)
  | line :: rest =>
      if max16Mb ≤ json.length line then ([], .error (.engine "bufio.Scanner: token too long"))
      else
        match (objectLine json line).or (relationLine json line) with
        | none => ([], .error (.rejected ("unknown type ".toList ++ json.quote line) none))
        | some request =>
            let (requests, outcome) := importFromReader ending rest
            (request :: requests, outcome)

def blockSize : Nat := 1024 * 64

def manifestBlocks (data : Bytes) : ManifestStream :=
  { messages := (data.toChunks blockSize).map fun block => some ⟨block⟩ }

end Client

/-- The clock, how many messages the export can send, and which statements the server refuses. -/
structure Conditions where
  setAt : Timestamp
  clock : Nat → Timestamp
  breaks : Option (Nat × Err) := none
  begins : Except Err PUnit := .ok ⟨⟩
  refuses : Nat → Bool := fun _ => false
  text : String := ""

def received {μ : Type} (model : μ) (clock : Nat → Timestamp) : List ImportRequest → List (Received μ)
  | [] => []
  | request :: rest => ⟨model, clock rest.length, request⟩ :: received model clock rest

section Command

variable {ω μ L : Type} [Wire ω μ] (library : Library μ) (json : JsonLines L)
  (source target : Engine ω) (conditions : Conditions)

def copyManifest (cached : μ) (data : Bytes) (destination : target.State) :
    Except Err μ × target.State :=
  match prepareManifest library (manifestBlocks data) conditions.setAt with
  | .error error => (.error error, destination)
  | .ok prepared =>
      let stored := update target.backend
        (setManifestTx library cached prepared.model prepared.metadata prepared.data) destination
      (stored.1.map fun _ => library.withMetadata prepared.model prepared.metadata, stored.2)

/-- An error of the sender cancels the import, which is then not committed. -/
def importFromFile (model : μ) (requests : List ImportRequest) (sent : Except Err Unit)
    (destination : target.State) : Except Err Unit × target.State :=
  match sent, conditions.begins with
  | .error error, _ => (.error error, destination)
  | .ok _, .error error => (.error error, destination)
  | .ok _, .ok _ =>
      let imported := (target.refusals conditions.refuses conditions.text).transact target.backend
        (importStream library (received model conditions.clock requests) (.eof (.ok ⟨⟩))) destination
      (imported.1.map fun _ => (), imported.2)

def migrateData (model : μ) (origin : source.State) (destination : target.State) :
    Except Err Unit × target.State :=
  let exported := exportResult (μ := μ) source.backend allData { breaks := conditions.breaks } origin
  let written := exportToFile json exported.1 exported.2.sent
  let sent := importFromReader json written.2 written.1
  importFromFile library target conditions model sent.1 sent.2 destination

def migrate (origin : source.State) (destination : target.State) : Except Err Unit × target.State :=
  match startupModel library source.backend origin, startupModel library target.backend destination with
  | .error error, _ => (.error error, destination)
  | .ok _, .error error => (.error error, destination)
  | .ok _, .ok cached =>
      match view source.backend (serveManifest (μ := μ)) origin with
      | .error error => (.error error, destination)
      | .ok (_, body) =>
          match copyManifest library target conditions cached body.data destination with
          | (.error error, copied) => (.error error, copied)
          | (.ok model, copied) => migrateData library json source target conditions model origin copied

def migrateToPostgres (server : Postgres.Server ω) (origin : Bolt.BoltDB ω)
    (destination : Postgres.Tables ω) : Except Err Unit × Postgres.Tables ω :=
  migrate library json .bolt (.postgres server) conditions origin destination

end Command

end Eamerald.Command
