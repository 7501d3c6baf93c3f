import Eamerald.Directory.Simple
import Eamerald.Migrations.Passes

/-! The whole migration. It reaches the required version with the contents unchanged
exactly when the file has version 0.0.6 or a later one and a manifest was set. -/

set_option autoImplicit false

namespace Eamerald.Migrations

open Foundation Store
open Bolt (Key Bucket metadataKey bodyKey modelKey objKeyOf subKeyOf objectPlace maxKeySize)
open Directory (Library Simple.library)

/-! Encoded values of both kinds, and files of every version with an object, a relation and,
where one was set, a manifest. -/

section Samples

inductive Value (μ : Type) where
  | wire (blob : Blob μ)
  | text (blob : Blob μ)
  | version (version : Version)
  | blank

variable {μ : Type}

def Value.ofWire : Value μ → Except Err (Blob μ)
  | .wire blob => .ok blob
  | _ => .error Blob.mismatch

def Value.ofText : Value μ → Except Err (Blob μ)
  | .text blob => .ok blob
  | _ => .error Mig007.errSyntax

def wireCodec {M : Type} (codec : Codec (Blob μ) M) : Codec (Value μ) M where
  marshal message := .wire (codec.marshal message)
  unmarshal value := value.ofWire.bind codec.unmarshal
  unmarshal_marshal message := codec.unmarshal_marshal message

def textCodec {M : Type} (codec : Codec (Blob μ) M) : Codec (Value μ) M where
  marshal message := .text (codec.marshal message)
  unmarshal value := value.ofText.bind codec.unmarshal
  unmarshal_marshal message := codec.unmarshal_marshal message

instance : Wire (Value μ) μ where
  object := wireCodec Wire.object
  relation := wireCodec Wire.relation
  metadata := wireCodec Wire.metadata
  body := wireCodec Wire.body
  model := wireCodec Wire.model
  unmarshalVT value ident := value.ofWire.bind (Wire.unmarshalVT · ident)
  unmarshalVT_marshal message := Wire.unmarshalVT_marshal message

def plainTexts : Texts (Value μ) where
  object := textCodec Wire.object
  relation := textCodec Wire.relation
  metadata := textCodec Wire.metadata
  body := textCodec Wire.body
  version :=
    { marshal := .version
      unmarshal := fun | .version version => .ok version | _ => .error Mig007.errSyntax
      unmarshal_marshal := fun _ => rfl }
  blank := .blank

theorem plainTexts_apart : (plainTexts : Texts (Value μ)).Apart := by
  intro value body decoded
  cases value with
  | text blob => exact ⟨_, rfl⟩
  | wire blob => cases decoded
  | version version => cases decoded
  | blank => cases decoded

def letter : Object := { type := ['a'], id := ['1'] }

def viewed : Relation := Directory.Simple.viewer "1" "2"

def lettersManifest : Metadata × Body := ({ etag := ['#'] }, ⟨[97]⟩)

def sampleContents (manifest : Option (Metadata × Body)) : Contents where
  objects := Function.update (fun _ => none) (objectPlace letter.ident) (some letter)
  relations := Function.update (fun _ => none) (objKeyOf viewed.ident) (some viewed)
  subjects := Function.update (fun _ => none) (subKeyOf viewed.ident) (some viewed)
  manifest := manifest

def sampleManifest (codecs : Codecs (Value Directory.Simple.Model)) :
    Option (Metadata × Body) → Bucket (Value Directory.Simple.Model)
  | none => ∅
  | some (metadata, body) =>
      (((∅ : Bucket _).insert bodyKey (codecs.body.marshal body)).insert metadataKey
        (codecs.metadata.marshal metadata)).insert modelKey (Wire.model.marshal {})

def sampleFile (version : Version) (manifest : Option (Metadata × Body)) :
    File (Value Directory.Simple.Model) where
  bucket
    | .system => some ((∅ : Bucket _).insert versionKey (plainTexts.version.marshal version))
    | .manifestV1 => some (sampleManifest (codecsOf plainTexts version) manifest)
    | .manifestV2 => some ∅
    | .objects => some ((∅ : Bucket _).insert (objectPlace letter.ident)
        ((codecsOf plainTexts version).object.marshal letter))
    | .relationsObj => some ((∅ : Bucket _).insert (objKeyOf viewed.ident)
        ((codecsOf plainTexts version).relation.marshal viewed))
    | .relationsSub => some ((∅ : Bucket _).insert (subKeyOf viewed.ident)
        ((codecsOf plainTexts version).relation.marshal viewed))

theorem rowAt_empty {ω M : Type} (codec : Codec ω M) : rowAt codec (∅ : Bucket ω) = fun _ => none := by
  funext place
  simp [rowAt]

theorem keeps_single {ω M : Type} (codec : Codec ω M) (key : M → Key) (row : M) :
    Keeps codec key (Function.update (fun _ => none) (key row) (some row))
      (some ((∅ : Bucket ω).insert (key row) (codec.marshal row))) := by
  refine ⟨_, rfl, (decodes_empty codec key).insert row, ?_⟩
  rw [rowAt_insert, rowAt_empty]

theorem sampleContents_coherent (manifest : Option (Metadata × Body)) : (sampleContents manifest).Coherent where
  mirrored relation := by
    simp only [sampleContents, Function.update_apply]
    constructor
    · intro found
      split at found
      · cases found
        exact if_pos rfl
      · cases found
    · intro found
      split at found
      · cases found
        exact if_pos rfl
      · cases found
  objects_fit place object found := by
    simp only [sampleContents, Function.update_apply] at found
    split at found
    · rename_i same
      subst same
      decide
    · cases found
  relations_fit place relation found := by
    simp only [sampleContents, Function.update_apply] at found
    split at found
    · rename_i same
      subst same
      decide
    · cases found

theorem sampleFile_formed {version : Version} (old : version < 9) (manifest : Option (Metadata × Body)) :
    WellFormed Simple.library plainTexts version (sampleContents manifest) (sampleFile version manifest) where
  versioned := by simp [getVersion, sampleFile, Except.toOption]
  objects := keeps_single _ _ letter
  relations := keeps_single _ _ viewed
  subjects := keeps_single _ (fun relation => subKeyOf relation.ident) viewed
  manifest := by
    rw [manifestPath, if_pos old]
    cases manifest with
    | none =>
        intro bucket found key _
        cases found
        simp [sampleManifest]
    | some manifest =>
        refine ⟨_, rfl, ?_, ?_, ?_, _, rfl⟩
        · rw [sampleManifest, rowAt_congr (getElem?_insert_of_ne _ (by decide)),
            rowAt_congr (getElem?_insert_of_ne _ (by decide))]
          exact rowAt_insert_self _ bodyKey manifest.2
        · rw [sampleManifest, rowAt_congr (getElem?_insert_of_ne _ (by decide))]
          exact rowAt_insert_self _ metadataKey manifest.1
        · simp [sampleManifest]
  coherent := sampleContents_coherent manifest

end Samples

section Migrate

variable {ω μ : Type} [Wire ω μ] {library : Library μ} {texts : Texts ω} {version : Nat}
  {contents : Contents} {disk : Disk ω} {file final : File ω} {stages : List (Stage Err (File ω))}

theorem opened_of_file (stored : disk.file = some file) : disk.opened = file := by
  rw [Disk.opened, stored]
  rfl

theorem migrateNext_of_runs {outcome : Except Err Unit} (stored : disk.file = some file)
    (planned : stagesTo library texts (version + 1) (some file) = .ok stages)
    (ran : runStages stages file = (outcome, final)) : migrateNext library texts version disk =
      (outcome, { disk.backUp version with file := some final }) := by
  rw [migrateNext, opened_of_file stored, planned]
  dsimp only
  rw [ran]

theorem migrateLoop_keeps (low : 6 ≤ version) (high : version ≤ 8) (stored : disk.file = some file)
    (formed : WellFormed library texts version contents file) (isSet : contents.manifest.isSome)
    {passes : Nat} (enough : 9 ≤ version + passes) :
    ∃ after final, migrateLoop library texts passes version disk = (.ok (), after) ∧
      after.file = some final ∧ WellFormed library texts reqVersion contents final := by
  induction passes generalizing version disk file with
  | zero => omega
  | succ passes ih =>
      obtain ⟨stages, next, planned, ran, kept⟩ := pass_keeps low high formed isSet
      have passed := migrateNext_of_runs stored planned ran
      let after : Disk ω := { disk.backUp version with file := some next }
      have there : after.file = some next := rfl
      have versioned : getVersion texts after.opened = some (version + 1) := by
        rw [opened_of_file there]
        exact kept.versioned
      by_cases done : version + 1 = reqVersion
      · refine ⟨after, next, ?_, there, done ▸ kept⟩
        rw [migrateLoop, passed]
        dsimp only
        rw [versioned]
        exact if_pos done
      · have below : version + 1 ≤ 8 := by
          have : version + 1 ≠ 9 := done
          omega
        obtain ⟨last, final, looped, found, formed⟩ :=
          ih (by omega) below there kept (by omega)
        refine ⟨last, final, ?_, found, formed⟩
        rw [migrateLoop, passed]
        dsimp only
        rw [versioned]
        exact (if_neg done).trans looped

theorem migrateLoop_fails {error : Err} {passes : Nat} (stored : disk.file = some file)
    (planned : stagesTo library texts (version + 1) (some file) = .ok stages)
    (ran : runStages stages file = (.error error, final)) :
    (migrateLoop library texts passes version disk).1 ≠ .ok () := by
  cases passes with
  | zero => exact nofun
  | succ passes =>
      rw [migrateLoop, migrateNext_of_runs stored planned ran]
      exact nofun

theorem migrate_of_lt (stored : disk.file = some file) (high : version ≤ 8)
    (formed : WellFormed library texts version contents file) :
    migrate library texts disk = migrateLoop library texts reqVersion version disk := by
  rw [migrate, opened_of_file stored, formed.versioned]
  have different : version ≠ 9 := by omega
  exact if_neg different

/-- The migration succeeds, and the file of the required version has the same contents. -/
def Preserves (library : Library μ) (texts : Texts ω) (contents : Contents) (disk : Disk ω) : Prop :=
  ∃ after final, migrate library texts disk = (.ok (), after) ∧ after.file = some final ∧
    WellFormed library texts reqVersion contents final

theorem preserves_of_set (low : 6 ≤ version) (high : version ≤ 8) (stored : disk.file = some file)
    (formed : WellFormed library texts version contents file) (isSet : contents.manifest.isSome) :
    Preserves library texts contents disk := by
  obtain ⟨after, final, looped, found, kept⟩ :=
    migrateLoop_keeps low high stored formed isSet
      (show 9 ≤ version + reqVersion from Nat.le_add_left 9 version)
  exact ⟨after, final, (migrate_of_lt stored high formed).trans looped, found, kept⟩

theorem set_of_migrates (apart : texts.Apart) (low : 4 ≤ version) (high : version ≤ 8)
    (stored : disk.file = some file) (formed : WellFormed library texts version contents file)
    (migrates : (migrate library texts disk).1 = .ok ()) : 6 ≤ version ∧ contents.manifest.isSome := by
  by_contra excluded
  obtain ⟨stages, error, reached, planned, ran⟩ := pass_fails apart low high formed excluded
  rw [migrate_of_lt stored high formed] at migrates
  exact migrateLoop_fails stored planned ran migrates

theorem migrate_preserves_iff (apart : texts.Apart) (low : 4 ≤ version) (high : version ≤ 8)
    (stored : disk.file = some file) (formed : WellFormed library texts version contents file) :
    Preserves library texts contents disk ↔ 6 ≤ version ∧ contents.manifest.isSome := by
  constructor
  · intro preserved
    obtain ⟨after, final, migrated, _⟩ := preserved
    exact set_of_migrates apart low high stored formed (by rw [migrated])
  · intro condition
    exact preserves_of_set condition.1 high stored formed condition.2

end Migrate

theorem sample_preserved :
    Preserves Simple.library plainTexts (sampleContents (some lettersManifest))
      { file := some (sampleFile 6 (some lettersManifest)) } :=
  (migrate_preserves_iff plainTexts_apart (by decide) (by decide) rfl
    (sampleFile_formed (by decide) _)).mpr ⟨by decide, rfl⟩

/-- A file of version 0.0.5 with a manifest, and one of version 0.0.8 without. -/
theorem samples_not_migrated :
    (WellFormed Simple.library plainTexts 5 (sampleContents (some lettersManifest))
        (sampleFile 5 (some lettersManifest)) ∧
      ¬Preserves Simple.library plainTexts (sampleContents (some lettersManifest))
        { file := some (sampleFile 5 (some lettersManifest)) }) ∧
    WellFormed Simple.library plainTexts 8 (sampleContents none) (sampleFile 8 none) ∧
      ¬Preserves Simple.library plainTexts (sampleContents none)
        { file := some (sampleFile 8 none) } := by
  have fails {contents : Contents} {disk : Disk (Value Directory.Simple.Model)}
      (failed : (migrate Simple.library plainTexts disk).1.isOk = false) :
      ¬Preserves Simple.library plainTexts contents disk := by
    intro preserved
    obtain ⟨after, final, migrated, _⟩ := preserved
    rw [migrated] at failed
    cases failed
  exact ⟨⟨sampleFile_formed (by decide) _, fails (by decide +kernel)⟩,
    sampleFile_formed (by decide) _, fails (by decide +kernel)⟩

section Opened

variable {ω μ : Type} [Wire ω μ] {library : Library μ} {texts : Texts ω} {contents : Contents}
  {file : File ω}

def File.current (file : File ω) : Bolt.BoltDB ω where
  bucket
    | .manifest => file.bucket .manifestV2
    | .objects => file.bucket .objects
    | .relationsObj => file.bucket .relationsObj
    | .relationsSub => file.bucket .relationsSub

/-- A file of the required version is a sound store with the rows that the file holds. -/
theorem WellFormed.opened (formed : WellFormed library texts reqVersion contents file) :
    Bolt.Filed file.current ∧ (Bolt.contents file.current).objects = contents.objects ∧
      (Bolt.contents file.current).relations = contents.relations := by
  have codecs : codecsOf texts reqVersion = _ := codecsOf_of_le (by decide)
  obtain ⟨objects, objectsFound, objectsDecode, objectsAre⟩ := codecs ▸ formed.objects
  obtain ⟨relations, relationsFound, relationsDecode, relationsAre⟩ := codecs ▸ formed.relations
  obtain ⟨subjects, subjectsFound, _⟩ := formed.subjects
  have objectsHere : file.current.bucket .objects = some objects := objectsFound
  have relationsHere : file.current.bucket .relationsObj = some relations := relationsFound
  refine ⟨⟨⟨objects, objectsHere, objectsDecode⟩, ⟨relations, relationsHere, relationsDecode⟩,
    subjects, subjectsFound⟩, ?_, ?_⟩
  · exact (Bolt.rowsOf_of_some objectsHere).trans objectsAre
  · exact (Bolt.rowsOf_of_some relationsHere).trans relationsAre

/-- It serves the manifest that the file holds. -/
theorem WellFormed.serves (formed : WellFormed library texts reqVersion contents file)
    {metadata : Metadata} {body : Body} (isSet : contents.manifest = some (metadata, body)) :
    Bolt.get Wire.metadata .manifest metadataKey file.current = .ok metadata ∧
      Bolt.get Wire.body .manifest bodyKey file.current = .ok body := by
  have codecs : codecsOf texts reqVersion = _ := codecsOf_of_le (by decide)
  have manifest := formed.manifest
  rw [isSet, codecs] at manifest
  obtain ⟨bucket, found, storedBody, storedMetadata, _⟩ := manifest
  have here : file.current.bucket .manifest = some bucket := found
  obtain ⟨bodyValue, bodyFound, bodyDecoded⟩ := rowAt_eq_some.mp storedBody
  obtain ⟨metadataValue, metadataFound, metadataDecoded⟩ := rowAt_eq_some.mp storedMetadata
  constructor
  · rw [Bolt.get_of_some metadataKey here, metadataFound]
    exact metadataDecoded
  · rw [Bolt.get_of_some bodyKey here, bodyFound]
    exact bodyDecoded

/-- A file with a manifest, of a version from 0.0.6 on, is migrated to one that the directory opens
with the same rows, and serves with the same manifest. -/
theorem migrated_served {version : Version} (low : 6 ≤ version) (high : version ≤ 8) {disk : Disk ω}
    (stored : disk.file = some file) (formed : WellFormed library texts version contents file)
    {metadata : Metadata} {body : Body} (isSet : contents.manifest = some (metadata, body)) :
    ∃ after final, migrate library texts disk = (.ok (), after) ∧ after.file = some final ∧
      Bolt.Filed final.current ∧ (Bolt.contents final.current).objects = contents.objects ∧
      (Bolt.contents final.current).relations = contents.relations ∧
      Bolt.get Wire.metadata .manifest metadataKey final.current = .ok metadata ∧
      Bolt.get Wire.body .manifest bodyKey final.current = .ok body := by
  obtain ⟨after, final, migrated, found, kept⟩ :=
    preserves_of_set low high stored formed (Option.isSome_iff_exists.mpr ⟨_, isSet⟩)
  obtain ⟨filed, objects, relations⟩ := kept.opened
  exact ⟨after, final, migrated, found, filed, objects, relations, kept.serves isSet⟩

theorem sample_served : ∃ final : File (Value Directory.Simple.Model), Bolt.Filed final.current ∧
    Bolt.get Wire.body .manifest bodyKey final.current = .ok lettersManifest.2 := by
  obtain ⟨_, final, _, _, filed, _, _, _, served⟩ := migrated_served (by decide) (by decide)
    (show Disk.file { file := some (sampleFile 6 (some lettersManifest)) } = _ from rfl)
    (sampleFile_formed (by decide) _) rfl
  exact ⟨final, filed, served⟩

end Opened

end Eamerald.Migrations
