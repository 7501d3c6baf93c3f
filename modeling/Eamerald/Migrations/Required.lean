import Eamerald.Directory.Listing
import Eamerald.Migrations.Schema

/-! `Migrate` for any required version and any bytes under the version key. A version that
does not parse is a nil pointer, and the display name of an object without properties cannot
be moved; both make it panic, and a deferred call recovers from any panic. -/

set_option autoImplicit false

namespace Eamerald.Migrations

open Foundation
open Bolt (Key Bucket)
open Directory (Library propDisplayName)

inductive Fault where
  | error (error : Err)
  | panic
deriving DecidableEq

structure Semver where
  major : Nat := 0
  minor : Nat := 0
  patch : Nat
  pre : GoString := []
  metadata : GoString := []
deriving DecidableEq, Repr

namespace Semver

def release (patch : Nat) : Semver := { patch }

/-- Build metadata does not count. -/
def equal (version other : Semver) : Bool :=
  version.major = other.major && version.minor = other.minor && version.patch = other.patch &&
    version.pre = other.pre

/-- What comes after a prerelease is its release. -/
def incPatch (version : Semver) : Semver :=
  { version with
    patch := if version.pre = [] then version.patch + 1 else version.patch
    pre := []
    metadata := [] }

end Semver

/-- Versions as values: a release is read as it was written. -/
structure VersionTexts (ω : Type) where
  parse : ω → Option Semver
  print : Semver → ω
  parse_print : ∀ patch, parse (print (.release patch)) = some (.release patch)

section Versions

variable {ω : Type} (versions : VersionTexts ω)

/-- `GetVersion`: a version that does not parse is nil. -/
def currentVersion (file : File ω) : Option Semver :=
  match file.bucket .system with
  | none => some (.release baseVersion)
  | some bucket =>
      match bucket[versionKey]? with
      | none => some (.release baseVersion)
      | some value => versions.parse value

/-- `SetVersion` writes nothing when the system bucket is missing. -/
def storeVersion (version : Semver) : Stage Fault (File ω) := fun file =>
  match file.bucket .system with
  | none => .ok file
  | some bucket => do
      let written ← (Bolt.put bucket versionKey (versions.print version)).mapError .error
      return file.assign .system (some written)

end Versions

/-- A step that may panic. -/
abbrev FaultyStep (ω : Type) := Option (File ω) → Stage Fault (File ω)

def Step.faulty {ω : Type} (step : Step ω) : FaultyStep ω := fun ro rw => (step ro rw).mapError .error

namespace Mig010

def setField (fields : List (GoString × PropertyValue)) (name : GoString) (value : PropertyValue) :
    List (GoString × PropertyValue) :=
  if (fields.lookup name).isSome then
    fields.map fun field => if field.1 = name then (name, value) else field
  else fields ++ [(name, value)]

/-- The display name moves into the property bag, which must be there. -/
def patchObjectWrite (object : Object) : Except Fault Object :=
  if object.displayName = [] then .ok object
  else
    match object.properties with
    | none => .error .panic
    | some fields => .ok { object with
        properties := some (setField fields propDisplayName (.string object.displayName))
        displayName := [] }

variable {ω μ : Type} [Wire ω μ]

def updateObject (rw : File ω) (entry : Key × ω) : Except Fault (File ω) := do
  let object ← (Wire.object.unmarshal entry.2).mapError .error
  let patched ← patchObjectWrite object
  (setKey .objects entry.1 (Wire.object.marshal patched) rw).mapError .error

def updateObjects : FaultyStep ω
  | none, rw => .ok rw
  | some ro, rw => do
      let bucket ← (setBucket ro .objects).mapError .error
      bucket.toList.foldlM updateObject rw

def fnMap : List (FaultyStep ω) :=
  [(createBucket .system).faulty,
    (createBucket .manifestV2).faulty,
    (createBucket .objects).faulty,
    updateObjects,
    (createBucket .relationsObj).faulty,
    (createBucket .relationsSub).faulty]

end Mig010

/-- What the system refuses: reading the version again after a number of passes, and the
operations of every pass. -/
structure Environment where
  getCurrent : Nat → Option Err := fun _ => none
  refuses : Nat → Nat → Option Err := fun _ _ => none

def disturb {σ : Type} (refuses : Nat → Option Err) : Nat → List (Stage Fault σ) → List (Stage Fault σ)
  | _, [] => []
  | index, stage :: rest =>
      (fun state =>
        match refuses index with
        | some error => .error (.error error)
        | none => stage state) :: disturb refuses (index + 1) rest

section Migrate

variable {ω μ : Type} [Wire ω μ] (library : Library μ) (texts : Texts ω) (versions : VersionTexts ω)

def registered (version : Semver) : Option (List (FaultyStep ω)) :=
  if version = .release version.patch then
    if version.patch = 10 then some Mig010.fnMap
    else (migMap library texts version.patch).map (List.map Step.faulty)
  else none

/-- `execute`, on the backup that was just made. -/
def execute (next : Semver) (file : File ω) : List (Stage Fault (File ω)) :=
  match registered library texts next with
  | none => [fun _ => .error (.error errNotExist)]
  | some steps => steps.map (· (some file))

/-- Open, back up, open the backup, migrate, set the version, sync. -/
def passStages (next : Semver) (file : File ω) : List (Stage Fault (File ω)) :=
  [.ok, .ok, .ok] ++ (execute library texts next file ++ [storeVersion versions next, .ok])

variable (environment : Environment) (required : Semver)

/-- The loop of `Migrate`, if it ends within a number of passes. -/
def loopTo : Nat → Nat → Semver → File ω → Option (Except Fault Unit × File ω)
  | 0, _, _, _ => none
  | fuel + 1, pass, current, file =>
      match runStages (disturb (environment.refuses pass) 0
        (passStages library texts versions current.incPatch file)) file with
      | (.error fault, file) => some (.error fault, file)
      | (.ok _, file) =>
          match environment.getCurrent (pass + 1) with
          | some error => some (.error (.error error), file)
          | none =>
              match currentVersion versions file with
              | none => some (.error .panic, file)
              | some version =>
                  if version.equal required then some (.ok (), file)
                  else loopTo fuel (pass + 1) version file

/-- A panic becomes a normal return. -/
def recovered : Except Fault Unit → Except Err Unit
  | .ok _ => .ok ()
  | .error (.error error) => .error error
  | .error .panic => .ok ()

/-- `Migrate`, if its loop ends within a number of passes. -/
def migrateTo (fuel : Nat) (file : File ω) : Option (Except Err Unit × File ω) :=
  match environment.getCurrent 0 with
  | some error => some (.error error, file)
  | none =>
      match currentVersion versions file with
      | none => some (recovered (.error .panic), file)
      | some current =>
          if current.equal required then some (.ok (), file)
          else (loopTo library texts versions environment required fuel 0 current file).map
            fun ran => (recovered ran.1, ran.2)

end Migrate

end Eamerald.Migrations
