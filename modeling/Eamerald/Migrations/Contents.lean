import Eamerald.Directory.Layouts
import Eamerald.Migrations.Schema

/-! What a file of a given version holds, independently of how that version encodes it
and of where it keeps the manifest; and what each step of the migrations does with it. -/

set_option autoImplicit false

namespace Eamerald.Migrations

open Foundation Store
open Bolt (Key Bucket metadataKey bodyKey modelKey objKeyOf subKeyOf objectPlace maxKeySize)
open Directory (Library)

/-- The rows of a directory under their keys, with the relations in both orders, and the
manifest if one was set. -/
structure Contents where
  objects : Key → Option Object
  relations : Key → Option Relation
  subjects : Key → Option Relation
  manifest : Option (Metadata × Body)

def Contents.empty : Contents := ⟨fun _ => none, fun _ => none, fun _ => none, none⟩

/-- Every relation is in both orders, and all keys are such as the engine accepts. -/
structure Contents.Coherent (contents : Contents) : Prop where
  mirrored : ∀ relation, contents.relations (objKeyOf relation.ident) = some relation ↔
    contents.subjects (subKeyOf relation.ident) = some relation
  objects_fit : ∀ place object, contents.objects place = some object →
    byteLength place ≤ maxKeySize
  relations_fit : ∀ place relation, contents.relations place = some relation →
    byteLength place ≤ maxKeySize

structure Codecs (ω : Type) where
  object : Codec ω Object
  relation : Codec ω Relation
  metadata : Codec ω Metadata
  body : Codec ω Body

section WellFormed

variable {ω μ : Type} [Wire ω μ] (library : Library μ) (texts : Texts ω)

def codecsOf (version : Version) : Codecs ω :=
  if version < 7 then ⟨texts.object, texts.relation, texts.metadata, texts.body⟩
  else ⟨Wire.object, Wire.relation, Wire.metadata, Wire.body⟩

def manifestPath (version : Version) : Path := if version < 9 then .manifestV1 else .manifestV2

/-- The bucket is there and has exactly these rows, each under its own key. -/
def Keeps {M : Type} (codec : Codec ω M) (key : M → Key) (rows : Key → Option M)
    (bucket : Option (Bucket ω)) : Prop :=
  ∃ found, bucket = some found ∧ Decodes codec key found ∧ rowAt codec found = rows

/-- A manifest that was set has its metadata, a body that loads, and a model. -/
def KeepsManifest (codecs : Codecs ω) (bucket : Option (Bucket ω)) :
    Option (Metadata × Body) → Prop
  | none => ∀ found, bucket = some found → ∀ key ∈ [bodyKey, metadataKey, modelKey], found[key]? = none
  | some (metadata, body) => ∃ found, bucket = some found ∧
      rowAt codecs.body found bodyKey = some body ∧
      rowAt codecs.metadata found metadataKey = some metadata ∧
      found[modelKey]?.isSome ∧ ∃ model, library.load body.data = .ok model

structure WellFormed (version : Version) (contents : Contents) (file : File ω) : Prop where
  versioned : getVersion texts file = some version
  objects : Keeps (codecsOf texts version).object (fun object => objectPlace object.ident)
    contents.objects (file.bucket .objects)
  relations : Keeps (codecsOf texts version).relation (fun relation => objKeyOf relation.ident)
    contents.relations (file.bucket .relationsObj)
  subjects : Keeps (codecsOf texts version).relation (fun relation => subKeyOf relation.ident)
    contents.subjects (file.bucket .relationsSub)
  manifest : KeepsManifest library (codecsOf texts version) (file.bucket (manifestPath version))
    contents.manifest
  coherent : contents.Coherent

end WellFormed

section Buckets

variable {ω : Type} {file : File ω} {path other : Path} {bucket : Bucket ω}

@[simp] theorem bucket_assign (file : File ω) (path other : Path) (bucket : Option (Bucket ω)) :
    (file.assign path bucket).bucket other = if other = path then bucket else file.bucket other :=
  Function.update_apply ..

@[simp] theorem bucket_ensure (file : File ω) (path other : Path) : (file.ensure path).bucket other =
      if other = path then some ((file.bucket path).getD ∅) else file.bucket other :=
  bucket_assign ..

theorem assign_assign (file : File ω) (path : Path) (first second : Option (Bucket ω)) :
    (file.assign path first).assign path second = file.assign path second := by
  ext1
  exact Function.update_idem ..

theorem assign_of_bucket (found : file.bucket path = some bucket) : file.assign path (some bucket) = file := by
  ext1
  rw [← found]
  exact Function.update_eq_self ..

theorem setBucket_of_some (found : file.bucket path = some bucket) : setBucket file path = .ok bucket := by
  rw [setBucket, found]

theorem setBucket_of_none (missing : file.bucket path = none) : setBucket file path = .error errNotExist := by
  rw [setBucket, missing]

theorem setKey_of_fits (found : file.bucket path = some bucket) {key : Key} (value : ω)
    (present : key ≠ []) (fits : byteLength key ≤ maxKeySize) :
    setKey path key value file = .ok (file.assign path (some (bucket.insert key value))) := by
  simp [setKey, setBucket_of_some found, Bolt.put_of_fits value present fits, bind, Except.bind,
    pure, Except.pure]

theorem bucket_create (file : File ω) (path other : Path) :
    (file.create path).bucket other = file.bucket other ∨
      file.bucket other = none ∧ (file.create path).bucket other = some ∅ := by
  have ensured (file : File ω) (path other : Path) :
      (file.ensure path).bucket other = file.bucket other ∨
        file.bucket other = none ∧ (file.ensure path).bucket other = some ∅ := by
    by_cases same : other = path
    · subst same
      cases found : file.bucket other <;> simp [found]
    · simp [same]
  cases path with
  | manifestV1 =>
      rcases ensured (file.ensure .manifestV2) .manifestV1 other with kept | ⟨missing, made⟩
      · rw [File.create, kept]
        exact ensured file .manifestV2 other
      · rcases ensured file .manifestV2 other with kept | ⟨_, made⟩
        · exact .inr ⟨kept.symm.trans missing, ‹_›⟩
        · exact absurd (made.symm.trans missing) nofun
  | system | manifestV2 | objects | relationsObj | relationsSub => exact ensured file _ other

theorem bucket_create_of_some (path : Path) (found : file.bucket other = some bucket) :
    (file.create path).bucket other = some bucket := by
  rcases bucket_create file path other with kept | ⟨missing, _⟩
  · exact kept.trans found
  · exact absurd (found.symm.trans missing) nofun

end Buckets

section Versions

variable {ω : Type} {texts : Texts ω} {file : File ω}

theorem getVersion_congr {other : File ω} (same : other.bucket .system = file.bucket .system) :
    getVersion texts other = getVersion texts file := by
  rw [getVersion, getVersion, same]

theorem getVersion_create (path : Path) : getVersion texts (file.create path) = getVersion texts file := by
  rcases bucket_create file path .system with kept | ⟨missing, made⟩
  · exact getVersion_congr kept
  · simp [getVersion, missing, made]

theorem exists_system {version : Version} (found : getVersion texts file = some version)
    (later : version ≠ baseVersion) : ∃ bucket, file.bucket .system = some bucket := by
  cases there : file.bucket .system with
  | some bucket => exact ⟨bucket, rfl⟩
  | none =>
      rw [getVersion, there] at found
      cases found
      exact absurd rfl later

theorem setVersion_ok (texts : Texts ω) {bucket : Bucket ω}
    (there : file.bucket .system = some bucket) (version : Version) :
    ∃ next, setVersion texts version file = .ok next ∧ getVersion texts next = some version ∧
      ∀ path, path ≠ .system → next.bucket path = file.bucket path := by
  have written : Bolt.put bucket versionKey (texts.version.marshal version) =
      .ok (bucket.insert versionKey (texts.version.marshal version)) :=
    Bolt.put_of_fits _ (by decide) (by decide)
  refine ⟨file.assign .system (some (bucket.insert versionKey (texts.version.marshal version))),
    ?_, ?_, ?_⟩
  · simp [setVersion, there, written, bind, Except.bind, pure, Except.pure]
  · simp [getVersion, Except.toOption]
  · intro path different
    simp [different]

end Versions

section Steps

variable {ω μ : Type} {library : Library μ} {texts : Texts ω} {version : Version}
  {contents : Contents} {file : File ω}

theorem rowAt_eq_some {M : Type} {codec : Codec ω M} {bucket : Bucket ω} {key : Key} {row : M} :
    rowAt codec bucket key = some row ↔
      ∃ value, bucket[key]? = some value ∧ codec.unmarshal value = .ok row := by
  unfold rowAt
  cases found : bucket[key]? with
  | none => simp
  | some value => cases decoded : codec.unmarshal value <;> simp [decoded, Except.toOption]

theorem Keeps.create {M : Type} {codec : Codec ω M} {key : M → Key} {rows : Key → Option M}
    {path : Path} (keeps : Keeps codec key rows (file.bucket path)) (made : Path) :
    Keeps codec key rows ((file.create made).bucket path) := by
  obtain ⟨bucket, found, rest⟩ := keeps
  exact ⟨bucket, bucket_create_of_some made found, rest⟩

theorem KeepsManifest.create {codecs : Codecs ω} {manifest : Option (Metadata × Body)} {path : Path}
    (keeps : KeepsManifest library codecs (file.bucket path) manifest) (made : Path) :
    KeepsManifest library codecs ((file.create made).bucket path) manifest := by
  rcases bucket_create file made path with kept | ⟨missing, fresh⟩
  · rw [kept]
    exact keeps
  · cases manifest with
    | none =>
        intro bucket found key _
        rw [fresh] at found
        cases found
        simp
    | some manifest =>
        obtain ⟨bucket, found, _⟩ := keeps
        exact absurd (found.symm.trans missing) nofun

variable [Wire ω μ]

theorem codecsOf_of_lt (old : version < 7) :
    codecsOf texts version = ⟨texts.object, texts.relation, texts.metadata, texts.body⟩ :=
  if_pos old

theorem codecsOf_of_le (new : 7 ≤ version) :
    codecsOf texts version = ⟨Wire.object, Wire.relation, Wire.metadata, Wire.body⟩ :=
  if_neg (Nat.not_lt.mpr new)

theorem WellFormed.create (formed : WellFormed library texts version contents file) (made : Path) :
    WellFormed library texts version contents (file.create made) where
  versioned := (getVersion_create made).trans formed.versioned
  objects := formed.objects.create made
  relations := formed.relations.create made
  subjects := formed.subjects.create made
  manifest := formed.manifest.create made
  coherent := formed.coherent

theorem WellFormed.setVersion (formed : WellFormed library texts version contents file)
    (later : version ≠ baseVersion) {next : Version} (codecs : codecsOf texts next = codecsOf texts version)
    (place : manifestPath next = manifestPath version) :
    ∃ after, Migrations.setVersion texts next file = .ok after ∧
      WellFormed library texts next contents after := by
  obtain ⟨bucket, there⟩ := exists_system formed.versioned later
  obtain ⟨after, written, versioned, kept⟩ := setVersion_ok texts there next
  refine ⟨after, written, versioned, ?_, ?_, ?_, ?_, formed.coherent⟩
  · rw [kept _ (by decide), codecs]
    exact formed.objects
  · rw [kept _ (by decide), codecs]
    exact formed.relations
  · rw [kept _ (by decide), codecs]
    exact formed.subjects
  · rw [kept _ (by unfold manifestPath; split <;> decide), codecs, place]
    exact formed.manifest

end Steps

end Eamerald.Migrations
