import Eamerald.Api.Wire
import Eamerald.Bolt.Keys
import Eamerald.Foundation.PrefixScan

/-! The BoltDB file as its buckets, and the generic accessors over them. A bucket
is an ordered map from keys to encoded values; a write is refused for a blank
key and for a key longer than the engine accepts. -/

set_option autoImplicit false

namespace Eamerald.Bolt

open Foundation

def errPathNotFound : Err := .aserto ⟨"E20050", .notFound, 404, "path not found"⟩

def errKeyNotFound : Err := .aserto ⟨"E20051", .notFound, 404, "key not found"⟩

def errMultipleResults : Err :=
  .aserto ⟨"E20053", .failedPrecondition, 417, "multiple results for singleton request"⟩

inductive Path where
  | manifest
  | objects
  | relationsObj
  | relationsSub
deriving DecidableEq, Repr

def directionPath : Store.Direction → Path
  | .bySubject => .relationsSub
  | .byObject => .relationsObj

abbrev Bucket (ω : Type) := Std.ExtTreeMap Key ω

@[ext] structure BoltDB (ω : Type) where
  bucket : Path → Option (Bucket ω)

section Buckets

variable {ω : Type}

def BoltDB.assign (db : BoltDB ω) (path : Path) (bucket : Option (Bucket ω)) : BoltDB ω :=
  ⟨Function.update db.bucket path bucket⟩

def setBucket (db : BoltDB ω) (path : Path) : Except Err (Bucket ω) :=
  match db.bucket path with
  | some bucket => .ok bucket
  | none => .error errPathNotFound

def createBucket (path : Path) (db : BoltDB ω) : BoltDB ω :=
  match db.bucket path with
  | some _ => db
  | none => db.assign path (some ∅)

def deleteBucket (path : Path) (db : BoltDB ω) : BoltDB ω := db.assign path none

def maxKeySize : Nat := 32768

def put (bucket : Bucket ω) (key : Key) (value : ω) : Except Err (Bucket ω) :=
  if key = [] then .error (.engine "key required")
  else if maxKeySize < byteLength key then .error (.engine "key too large")
  else .ok (bucket.insert key value)

def setKey (path : Path) (key : Key) (value : ω) (db : BoltDB ω) : Except Err Unit × BoltDB ω :=
  match setBucket db path with
  | .error error => (.error error, db)
  | .ok bucket =>
      match put bucket key value with
      | .error error => (.error error, db)
      | .ok written => (.ok (), db.assign path (some written))

def deleteKey (path : Path) (key : Key) (db : BoltDB ω) : Except Err Unit × BoltDB ω :=
  match setBucket db path with
  | .error error => (.error error, db)
  | .ok bucket => (.ok (), db.assign path (some (bucket.erase key)))

def getKey (path : Path) (key : Key) (db : BoltDB ω) : Except Err ω :=
  match setBucket db path with
  | .error error => .error error
  | .ok bucket =>
      match bucket[key]? with
      | none => .error errKeyNotFound
      | some value => .ok value

def get {M : Type} (codec : Codec ω M) (path : Path) (key : Key) (db : BoltDB ω) : Except Err M :=
  match getKey path key db with
  | .error error => .error error
  | .ok value => codec.unmarshal value

def set {M : Type} (codec : Codec ω M) (path : Path) (key : Key) (message : M) (db : BoltDB ω) :
    Except Err M × BoltDB ω :=
  match setKey path key (codec.marshal message) db with
  | (.error error, db) => (.error error, db)
  | (.ok _, db) => (.ok message, db)

end Buckets

section Scanning

variable {ω : Type}

/-- Without a page token a scan starts at the key filter. A value that does not decode is nil. -/
def scanIterator {M : Type} (codec : Codec ω M) (zero : M) (path : Path) (keyFilter : Key)
    (pageToken : GoString) (db : BoltDB ω) : Except Err (Store.Iterator M) :=
  match setBucket db path with
  | .error error => .error error
  | .ok bucket =>
      let startToken := if pageToken = [] then keyFilter else pageToken
      .ok { rows := (scan bucket startToken keyFilter).map fun entry =>
              ⟨(codec.unmarshal entry.2).toOption.getD zero, entry.1⟩ }

def collectFiltered {μ : Type} [Wire ω μ] (valueFilter : RelationIdentifier → Bool) :
    List (Key × ω) → List RelationIdentifier → Except Err (List RelationIdentifier)
  | [], results => .ok results
  | entry :: rest, results =>
      match Wire.unmarshalVT entry.2 .zero with
      | .error error => .error error
      | .ok ident =>
          collectFiltered valueFilter rest
            (if valueFilter ident then results ++ [ident] else results)

def scanWithFilter {μ : Type} [Wire ω μ] (path : Path) (keyFilter : Key)
    (valueFilter : RelationIdentifier → Bool) (out : List RelationIdentifier) (db : BoltDB ω) :
    Except Err (List RelationIdentifier) :=
  match setBucket db path with
  | .error error => .error error
  | .ok bucket => collectFiltered valueFilter (scan bucket keyFilter keyFilter) out

def keyPrefixExists (path : Path) (keyFilter : Key) (db : BoltDB ω) : Except Err Bool :=
  match setBucket db path with
  | .error error => .error error
  | .ok bucket =>
      .ok ((seek bucket keyFilter).head?.any fun entry => decide (keyFilter <+: entry.1))

end Scanning

end Eamerald.Bolt
