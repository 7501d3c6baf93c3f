import Eamerald.Migrations.Contents
import Eamerald.Migrations.Required

/-! The passes of `Migrate`. A pass that succeeds leaves the version it is for, since every
migration makes the system bucket; the only one that panics is the last, on an object that
it cannot patch. -/

set_option autoImplicit false

namespace Eamerald.Migrations

open Foundation Store
open Bolt (Key Bucket)
open Directory (Library)

variable {path : Path}

section Disturbance

variable {σ : Type} {refuses : Nat → Option Err} {index : Nat} {stages : List (Stage Fault σ)}
  {state final : σ}

theorem runStages_of_disturb (ran : runStages (disturb refuses index stages) state = (.ok (), final)) :
    runStages stages state = (.ok (), final) := by
  induction stages generalizing index state with
  | nil => exact ran
  | cons stage rest ih =>
      obtain ⟨next, committed, remaining⟩ := runStages_cons_iff.mp ran
      cases refused : refuses index with
      | some error =>
          rw [refused] at committed
          cases committed
      | none =>
          rw [refused] at committed
          exact runStages_cons_iff.mpr ⟨next, committed, ih remaining⟩

theorem panic_of_disturb (ran : runStages (disturb refuses index stages) state = (.error .panic, final)) :
    runStages stages state = (.error .panic, final) := by
  induction stages generalizing index state with
  | nil => exact ran
  | cons stage rest ih =>
      rw [disturb, runStages] at ran
      cases refused : refuses index with
      | some error =>
          rw [refused] at ran
          cases ran
      | none =>
          rw [refused] at ran
          cases committed : stage state with
          | error fault =>
              rw [committed] at ran
              rw [runStages_cons_error committed]
              exact ran
          | ok next =>
              rw [committed] at ran
              rw [runStages_cons_ok committed]
              exact ih ran

theorem disturb_calm (index : Nat) (stages : List (Stage Fault σ)) :
    disturb (fun _ => none) index stages = stages := by
  induction stages generalizing index with
  | nil => rfl
  | cons stage rest ih => exact congrArg (stage :: ·) (ih (index + 1))

end Disturbance

section System

variable {ω : Type} {file next : File ω}

def HasSystem (file : File ω) : Prop := (file.bucket .system).isSome = true

theorem faulty_ok {step : Step ω} {ro : Option (File ω)} (ran : step.faulty ro file = .ok next) :
    step ro file = .ok next :=
  except_mapError_eq_ok.mp ran

theorem hasSystem_create (path : Path) (has : HasSystem file) : HasSystem (file.create path) := by
  unfold HasSystem at has ⊢
  cases path with
  | system => simp [File.create]
  | _ => simpa [File.create] using has

theorem hasSystem_delete (other : path ≠ .system) (has : HasSystem file) : HasSystem (file.delete path) := by
  unfold HasSystem at has ⊢
  cases path with
  | system => exact absurd rfl other
  | _ => simpa [File.delete] using has

theorem hasSystem_assign (other : path ≠ .system) (bucket : Option (Bucket ω))
    (has : HasSystem file) : HasSystem (file.assign path bucket) := by
  unfold HasSystem at has ⊢
  rw [bucket_assign, if_neg other.symm]
  exact has

theorem hasSystem_setKey (other : path ≠ .system) {key : Key} {value : ω}
    (ran : setKey path key value file = .ok next) (has : HasSystem file) : HasSystem next := by
  obtain ⟨bucket, _, writing⟩ := except_bind_eq_ok.mp ran
  obtain ⟨written, _, made⟩ := except_bind_eq_ok.mp writing
  cases made
  exact hasSystem_assign other _ has

/-- A step after which the system bucket is there if it was before. -/
def KeepsSystem (step : FaultyStep ω) : Prop :=
  ∀ ro file next, step ro file = .ok next → HasSystem file → HasSystem next

theorem keepsSystem_faulty {step : Step ω}
    (keeps : ∀ ro file next, step ro file = .ok next → HasSystem file → HasSystem next) :
    KeepsSystem step.faulty :=
  fun ro file next ran => keeps ro file next (faulty_ok ran)

theorem keepsSystem_of_backup {step : FaultyStep ω} (idle : ∀ file, step none file = .ok file)
    (keeps : ∀ ro file next, step (some ro) file = .ok next → HasSystem file → HasSystem next) :
    KeepsSystem step := by
  intro ro file next ran has
  cases ro with
  | none =>
      cases (idle file).symm.trans ran
      exact has
  | some ro => exact keeps ro file next ran has

theorem keepsSystem_create (path : Path) : KeepsSystem (createBucket path : Step ω).faulty := by
  refine keepsSystem_faulty fun ro file next ran has => ?_
  cases ran
  exact hasSystem_create path has

theorem keepsSystem_delete (other : path ≠ .system) : KeepsSystem (deleteBucket path : Step ω).faulty := by
  refine keepsSystem_faulty fun ro file next ran has => ?_
  cases ran
  exact hasSystem_delete other has

end System

section Steps

variable {ω μ : Type} [Wire ω μ] {library : Library μ} {texts : Texts ω}
  {steps : List (FaultyStep ω)}

theorem keepsSystem_migrateModelV1 : KeepsSystem (migrateModelV1 library : Step ω).faulty := by
  refine keepsSystem_of_backup (fun _ => rfl) fun ro file next ran has => ?_
  replace ran := faulty_ok ran
  obtain ⟨model, _, writing⟩ := except_bind_eq_ok.mp ran
  cases found : file.bucket .manifestV1 with
  | none =>
      rw [found] at writing
      cases writing
  | some bucket =>
      rw [found] at writing
      obtain ⟨written, _, made⟩ := except_bind_eq_ok.mp writing
      cases made
      exact hasSystem_assign (by decide) _ has

theorem keepsSystem_mig007_updateManifest :
    KeepsSystem (Mig007.updateManifest texts .manifestV1 : Step ω).faulty := by
  refine keepsSystem_of_backup (fun _ => rfl) fun ro file next ran has => ?_
  replace ran := faulty_ok ran
  obtain ⟨bucket, _, continued⟩ := except_bind_eq_ok.mp ran
  obtain ⟨body, _, continued⟩ := except_bind_eq_ok.mp continued
  obtain ⟨first, bodySet, continued⟩ := except_bind_eq_ok.mp continued
  obtain ⟨metadata, _, continued⟩ := except_bind_eq_ok.mp continued
  obtain ⟨second, metadataSet, modelSet⟩ := except_bind_eq_ok.mp continued
  have other : Path.manifestV1 ≠ .system := by decide
  exact hasSystem_setKey other modelSet
    (hasSystem_setKey other metadataSet (hasSystem_setKey other bodySet has))

theorem keepsSystem_updateEncodingObjects :
    KeepsSystem (Mig007.updateEncodingObjects texts : Step ω).faulty := by
  refine keepsSystem_of_backup (fun _ => rfl) fun ro file next ran has => ?_
  replace ran := faulty_ok ran
  obtain ⟨bucket, _, looped⟩ := except_bind_eq_ok.mp ran
  refine foldlM_keeps (fun entry _ before after updated kept => ?_) has looped
  obtain ⟨value, _, written⟩ := except_bind_eq_ok.mp updated
  exact hasSystem_setKey (by decide) written kept

theorem keepsSystem_updateEncodingRelations :
    KeepsSystem (Mig007.updateEncodingRelations texts : Step ω).faulty := by
  refine keepsSystem_of_backup (fun _ => rfl) fun ro file next ran has => ?_
  replace ran := faulty_ok ran
  obtain ⟨bucket, _, looped⟩ := except_bind_eq_ok.mp ran
  refine foldlM_keeps (fun entry _ before after updated kept => ?_) has looped
  obtain ⟨relation, _, continued⟩ := except_bind_eq_ok.mp updated
  obtain ⟨middle, objSet, subSet⟩ := except_bind_eq_ok.mp continued
  exact hasSystem_setKey (by decide) subSet (hasSystem_setKey (by decide) objSet kept)

theorem keepsSystem_mig009_updateManifest :
    KeepsSystem (Mig009.updateManifest .manifestV1 .manifestV2 : Step ω).faulty := by
  refine keepsSystem_of_backup (fun _ => rfl) fun ro file next ran has => ?_
  replace ran := faulty_ok ran
  obtain ⟨source, _, continued⟩ := except_bind_eq_ok.mp ran
  obtain ⟨target, _, continued⟩ := except_bind_eq_ok.mp continued
  obtain ⟨_, _, continued⟩ := except_bind_eq_ok.mp continued
  obtain ⟨_, _, continued⟩ := except_bind_eq_ok.mp continued
  obtain ⟨_, _, made⟩ := except_bind_eq_ok.mp continued
  cases made
  exact hasSystem_assign (by decide) _ has

theorem keepsSystem_updateObjects : KeepsSystem (Mig010.updateObjects : FaultyStep ω) := by
  refine keepsSystem_of_backup (fun _ => rfl) fun ro file next ran has => ?_
  obtain ⟨bucket, _, looped⟩ := except_bind_eq_ok.mp ran
  refine foldlM_keeps (fun entry _ before after updated kept => ?_) has looped
  obtain ⟨object, _, continued⟩ := except_bind_eq_ok.mp updated
  obtain ⟨patched, _, written⟩ := except_bind_eq_ok.mp continued
  exact hasSystem_setKey (by decide) (except_mapError_eq_ok.mp written) kept

/-- A migration makes the system bucket and leaves it there. -/
structure MakesSystem (steps : List (FaultyStep ω)) : Prop where
  makes : ∃ before after, steps = before ++ (createBucket .system).faulty :: after ∧
    ∀ step ∈ after, KeepsSystem step

theorem MakesSystem.hasSystem (makes : MakesSystem steps) {ro : Option (File ω)} {file final : File ω}
    (ran : runStages (steps.map (· ro)) file = (.ok (), final)) : HasSystem final := by
  obtain ⟨before, after, rfl, keeps⟩ := makes.makes
  rw [List.map_append, List.map_cons] at ran
  obtain ⟨middle, _, remaining⟩ := exists_of_runStages_append ran
  obtain ⟨next, made, rest⟩ := runStages_cons_iff.mp remaining
  cases made
  refine runStages_keeps ?_ ?_ rest
  · intro stage member state next committed has
    obtain ⟨step, found, rfl⟩ := List.mem_map.mp member
    exact keeps step found ro state next committed has
  · simp [HasSystem, File.create]

theorem makesSystem_reload : MakesSystem ((reload library : List (Step ω)).map Step.faulty) := by
  refine ⟨[], _, rfl, ?_⟩
  simp only [List.map_cons, List.map_nil, List.forall_mem_cons]
  exact ⟨keepsSystem_create _, keepsSystem_migrateModelV1, keepsSystem_create _, keepsSystem_create _,
    keepsSystem_create _, nofun⟩

theorem makesSystem_mig007 : MakesSystem ((Mig007.fnMap texts : List (Step ω)).map Step.faulty) := by
  refine ⟨[(deleteBucket .system).faulty], _, rfl, ?_⟩
  simp only [List.map_cons, List.map_nil, List.forall_mem_cons]
  exact ⟨keepsSystem_delete (by decide), keepsSystem_create _, keepsSystem_mig007_updateManifest,
    keepsSystem_delete (by decide), keepsSystem_create _, keepsSystem_updateEncodingObjects,
    keepsSystem_delete (by decide), keepsSystem_create _, keepsSystem_delete (by decide),
    keepsSystem_create _, keepsSystem_updateEncodingRelations, nofun⟩

theorem makesSystem_mig009 : MakesSystem ((Mig009.fnMap : List (Step ω)).map Step.faulty) := by
  refine ⟨[], _, rfl, ?_⟩
  simp only [List.map_cons, List.map_nil, List.forall_mem_cons]
  exact ⟨keepsSystem_delete (by decide), keepsSystem_create _, keepsSystem_mig009_updateManifest,
    keepsSystem_create _, keepsSystem_create _, keepsSystem_create _, nofun⟩

theorem makesSystem_mig010 : MakesSystem (Mig010.fnMap : List (FaultyStep ω)) := by
  refine ⟨[], _, rfl, ?_⟩
  simp only [List.forall_mem_cons]
  exact ⟨keepsSystem_create _, keepsSystem_create _, keepsSystem_updateObjects, keepsSystem_create _,
    keepsSystem_create _, nofun⟩

theorem migMap_cases {version : Nat} {steps : List (Step ω)}
    (known : migMap library texts version = some steps) :
    4 ≤ version ∧ version ≤ 9 ∧ MakesSystem (steps.map Step.faulty) := by
  unfold migMap at known
  split at known
  · cases known
    exact ⟨by decide, by decide, makesSystem_reload⟩
  · cases known
    exact ⟨by decide, by decide, makesSystem_reload⟩
  · cases known
    exact ⟨by decide, by decide, makesSystem_reload⟩
  · cases known
    exact ⟨by decide, by decide, makesSystem_reload⟩
  · cases known
    exact ⟨by decide, by decide, makesSystem_mig007⟩
  · cases known
    exact ⟨by decide, by decide, makesSystem_mig009⟩
  · cases known

theorem registered_cases {version : Semver} (found : registered library texts version = some steps) :
    ∃ patch, version = .release patch ∧ 4 ≤ patch ∧ patch ≤ 10 ∧ MakesSystem steps := by
  unfold registered at found
  split at found
  · rename_i released
    refine ⟨version.patch, released, ?_⟩
    split at found
    · rename_i ten
      cases found
      exact ⟨by omega, by omega, makesSystem_mig010⟩
    · obtain ⟨plain, known, rfl⟩ := Option.map_eq_some_iff.mp found
      obtain ⟨low, high, makes⟩ := migMap_cases known
      exact ⟨low, high.trans (by decide), makes⟩
  · cases found

end Steps

section Passes

variable {ω μ : Type} [Wire ω μ] {library : Library μ} {texts : Texts ω} {versions : VersionTexts ω}
  {next : Semver} {ro file final : File ω}

theorem execute_ok (ran : runStages (execute library texts next ro) file = (.ok (), final)) :
    HasSystem final ∧ ∃ patch, next = .release patch ∧ 4 ≤ patch ∧ patch ≤ 10 := by
  unfold execute at ran
  cases found : registered library texts next with
  | none =>
      rw [found] at ran
      cases ran
  | some steps =>
      rw [found] at ran
      obtain ⟨patch, released, low, high, makes⟩ := registered_cases found
      exact ⟨makes.hasSystem ran, patch, released, low, high⟩

variable (versions) in
theorem storeVersion_ok (has : HasSystem file) (patch : Nat) :
    ∃ after, storeVersion versions (.release patch) file = .ok after ∧
      currentVersion versions after = some (.release patch) := by
  obtain ⟨bucket, found⟩ := Option.isSome_iff_exists.mp has
  have written : Bolt.put bucket versionKey (versions.print (.release patch)) =
      .ok (bucket.insert versionKey (versions.print (.release patch))) :=
    Bolt.put_of_fits _ (by decide) (by decide)
  refine ⟨file.assign .system (some (bucket.insert versionKey (versions.print (.release patch)))), ?_, ?_⟩
  · simp [storeVersion, found, written, Except.mapError, bind, Except.bind, pure, Except.pure]
  · simp [currentVersion, versions.parse_print]

theorem pass_ok (ran : runStages (passStages library texts versions next file) file = (.ok (), final)) :
    (∃ patch, next = .release patch ∧ 4 ≤ patch ∧ patch ≤ 10) ∧ currentVersion versions final = some next := by
  obtain ⟨middle, executed, setting⟩ := exists_of_runStages_append
    (show runStages (execute library texts next file ++ _) file = (.ok (), final) from ran)
  obtain ⟨has, patch, rfl, low, high⟩ := execute_ok executed
  refine ⟨⟨patch, rfl, low, high⟩, ?_⟩
  obtain ⟨after, stored, versioned⟩ := storeVersion_ok versions has patch
  rw [runStages_cons_ok stored] at setting
  cases setting
  exact versioned

end Passes

section Panics

variable {ω μ : Type} [Wire ω μ]

def Unpatchable (entry : Key × ω) : Prop :=
  ∃ object, Wire.object.unmarshal entry.2 = .ok object ∧ object.displayName ≠ [] ∧
    object.properties = none

/-- A value that the last migration can rewrite, under a key that the engine accepts. -/
def Patchable (entry : Key × ω) : Prop :=
  (entry.1 ≠ [] ∧ byteLength entry.1 ≤ Bolt.maxKeySize) ∧
    ∃ object, Wire.object.unmarshal entry.2 = .ok object ∧
      (object.displayName = [] ∨ object.properties ≠ none)

/-- All values before an object that cannot be patched can be rewritten. -/
def Stops (entries : List (Key × ω)) : Prop :=
  ∃ before entry after, entries = before ++ entry :: after ∧ (∀ earlier ∈ before, Patchable earlier) ∧
    Unpatchable entry

theorem stops_cons {entry : Key × ω} {rest : List (Key × ω)} :
    Stops (entry :: rest) ↔ Unpatchable entry ∨ Patchable entry ∧ Stops rest := by
  constructor
  · rintro ⟨before, found, after, same, patchable, unpatchable⟩
    cases before with
    | nil =>
        cases same
        exact .inl unpatchable
    | cons first before =>
        cases same
        exact .inr ⟨patchable entry List.mem_cons_self, before, found, after, rfl,
          fun earlier member => patchable earlier (List.mem_cons_of_mem _ member), unpatchable⟩
  · rintro (unpatchable | ⟨first, before, found, after, rfl, patchable, unpatchable⟩)
    · exact ⟨[], entry, rest, rfl, nofun, unpatchable⟩
    · exact ⟨entry :: before, found, after, rfl, List.forall_mem_cons.mpr ⟨first, patchable⟩, unpatchable⟩

omit [Wire ω μ] in
theorem setKey_of_unfit {file : File ω} {bucket : Bucket ω}
    (found : file.bucket path = some bucket) {key : Key} (value : ω)
    (unfit : ¬ (key ≠ [] ∧ byteLength key ≤ Bolt.maxKeySize)) :
    ∃ error, setKey path key value file = .error error := by
  obtain ⟨error, refused⟩ : ∃ error, Bolt.put bucket key value = .error error := by
    unfold Bolt.put
    by_cases empty : key = []
    · exact ⟨_, if_pos empty⟩
    · have large : Bolt.maxKeySize < byteLength key := by
        by_contra fits
        exact unfit ⟨empty, not_lt.mp fits⟩
      exact ⟨_, by rw [if_neg empty, if_pos large]⟩
  exact ⟨error, by simp [setKey, setBucket_of_some found, refused, bind, Except.bind]⟩

theorem updateObject_cases {rw : File ω} (found : (rw.bucket .objects).isSome) (entry : Key × ω) :
    (∃ next, Mig010.updateObject rw entry = .ok next ∧ (next.bucket .objects).isSome ∧
        Patchable entry ∧ ¬ Unpatchable entry) ∨
      (Mig010.updateObject rw entry = .error .panic ∧ Unpatchable entry) ∨
      ∃ error, Mig010.updateObject rw entry = .error (.error error) ∧ ¬ Patchable entry ∧
        ¬ Unpatchable entry := by
  obtain ⟨bucket, there⟩ := Option.isSome_iff_exists.mp found
  unfold Mig010.updateObject
  cases decoded : Wire.object.unmarshal entry.2 with
  | error error =>
      refine .inr (.inr ⟨error, rfl, ?_, ?_⟩)
      · rintro ⟨_, object, same, _⟩
        cases decoded.symm.trans same
      · rintro ⟨object, same, _⟩
        cases decoded.symm.trans same
  | ok object =>
      by_cases stuck : object.displayName ≠ [] ∧ object.properties = none
      · refine .inr (.inl ⟨?_, object, decoded, stuck⟩)
        simp [Mig010.patchObjectWrite, stuck.1, stuck.2, Except.mapError, bind, Except.bind]
      · have possible : ¬ Unpatchable entry := by
          rintro ⟨other, same, stops⟩
          cases decoded.symm.trans same
          exact stuck stops
        have movable : object.displayName = [] ∨ object.properties ≠ none := by
          by_contra neither
          rw [not_or, not_not] at neither
          exact stuck neither
        obtain ⟨patched, moved⟩ : ∃ patched, Mig010.patchObjectWrite object = .ok patched := by
          unfold Mig010.patchObjectWrite
          split
          · exact ⟨_, rfl⟩
          · rename_i named
            cases properties : object.properties with
            | none => exact absurd ⟨named, properties⟩ stuck
            | some fields => exact ⟨_, rfl⟩
        by_cases fits : entry.1 ≠ [] ∧ byteLength entry.1 ≤ Bolt.maxKeySize
        · have written := setKey_of_fits there (Wire.object.marshal patched) fits.1 fits.2
          left
          exists rw.assign .objects (some (bucket.insert entry.1 (Wire.object.marshal patched)))
          refine ⟨?_, by simp, ⟨fits, object, decoded, movable⟩, possible⟩
          simp [moved, written, Except.mapError, bind, Except.bind]
        · obtain ⟨error, refused⟩ := setKey_of_unfit there (Wire.object.marshal patched) fits
          refine .inr (.inr ⟨error, ?_, fun patchable => fits patchable.1, possible⟩)
          simp [moved, refused, Except.mapError, bind, Except.bind]

theorem updateObjects_panic_iff {rw : File ω} (found : (rw.bucket .objects).isSome) (entries : List (Key × ω)) :
    entries.foldlM Mig010.updateObject rw = .error Fault.panic ↔ Stops entries := by
  induction entries generalizing rw with
  | nil =>
      constructor
      · intro ran
        cases ran
      · rintro ⟨before, entry, after, same, _⟩
        simp at same
  | cons entry rest ih =>
      rw [List.foldlM_cons, stops_cons]
      rcases updateObject_cases found entry with
        ⟨next, updated, there, patchable, possible⟩ | ⟨panics, unpatchable⟩ | ⟨error, failed, no, neither⟩
      · rw [updated]
        have later := ih there
        simp only [possible, patchable, true_and, false_or]
        exact later
      · rw [panics]
        simp only [unpatchable, true_or, iff_true]
        rfl
      · rw [failed]
        simp only [no, neither, false_and, or_self, iff_false]
        exact nofun

variable {library : Library μ} {texts : Texts ω} {versions : VersionTexts ω} {next : Semver}
  {ro file final : File ω}

def preparedFor10 (file : File ω) : File ω := ((file.create .system).create .manifestV2).create .objects

theorem runStages_pass10 : runStages (passStages library texts versions (.release 10) file) file =
      runStages (Mig010.updateObjects (some file) :: [(createBucket .relationsObj).faulty (some file),
        (createBucket .relationsSub).faulty (some file), storeVersion versions (.release 10), .ok])
        (preparedFor10 file) := rfl

theorem faulty_ne_panic (step : Step ω) (ro : Option (File ω)) (file : File ω) :
    step.faulty ro file ≠ .error .panic := by
  unfold Step.faulty
  cases step ro file <;> exact nofun

theorem storeVersion_ne_panic (version : Semver) (file : File ω) :
    storeVersion versions version file ≠ .error .panic := by
  unfold storeVersion
  split
  · exact nofun
  · rename_i bucket _
    cases Bolt.put bucket versionKey (versions.print version) <;> exact nofun

theorem ne_panic_of_stages {stages : List (Stage Fault (File ω))}
    (calm : ∀ stage ∈ stages, ∀ file, stage file ≠ .error .panic) :
    runStages stages file ≠ (.error .panic, final) := by
  induction stages generalizing file with
  | nil => exact nofun
  | cons stage rest ih =>
      intro ran
      cases committed : stage file with
      | error fault =>
          rw [runStages_cons_error committed] at ran
          cases ran
          exact calm stage List.mem_cons_self _ committed
      | ok next =>
          rw [runStages_cons_ok committed] at ran
          exact ih (fun later member => calm later (List.mem_cons_of_mem _ member)) ran

theorem calm_of_not_ten (other : next ≠ .release 10) :
    ∀ stage ∈ passStages library texts versions next ro, ∀ file, stage file ≠ .error .panic := by
  have executes : ∀ stage ∈ execute library texts next ro, ∀ file, stage file ≠ .error .panic := by
    unfold execute registered
    by_cases released : next = .release next.patch
    · have different : next.patch ≠ 10 := by
        intro ten
        rw [ten] at released
        exact other released
      rw [if_pos released, if_neg different]
      cases migMap library texts next.patch with
      | none => simp
      | some steps =>
          intro stage member file
          simp only [Option.map_some, List.map_map, List.mem_map] at member
          obtain ⟨step, _, rfl⟩ := member
          exact faulty_ne_panic step _ file
    · rw [if_neg released]
      simp
  unfold passStages
  simp only [List.cons_append, List.nil_append, List.forall_mem_cons, List.forall_mem_append]
  exact ⟨nofun, nofun, nofun, executes, storeVersion_ne_panic next, nofun, nofun⟩

theorem updateObjects_some (ro rw : File ω) :
    Mig010.updateObjects (some ro) rw = (do
      let bucket ← (setBucket ro .objects).mapError .error
      bucket.toList.foldlM Mig010.updateObject rw) := rfl

theorem updateObjects_panic_iff_stops : Mig010.updateObjects (some file) (preparedFor10 file) = .error .panic ↔
      ∃ bucket, file.bucket .objects = some bucket ∧ Stops bucket.toList := by
  have there : ((preparedFor10 file).bucket .objects).isSome := by simp [preparedFor10, File.create]
  rw [updateObjects_some]
  cases found : file.bucket .objects with
  | none =>
      rw [setBucket_of_none found]
      simp only [reduceCtorEq, false_and, exists_false, iff_false]
      intro ran
      cases ran
  | some bucket =>
      rw [setBucket_of_some found]
      simp only [Option.some.injEq, exists_eq_left']
      exact updateObjects_panic_iff there bucket.toList

theorem pass_panic_iff : runStages (passStages library texts versions next file) file = (.error .panic, final) ↔
      next = .release 10 ∧ final = preparedFor10 file ∧
        ∃ bucket, file.bucket .objects = some bucket ∧ Stops bucket.toList := by
  by_cases ten : next = .release 10
  · subst ten
    rw [runStages_pass10, ← updateObjects_panic_iff_stops]
    cases updated : Mig010.updateObjects (some file) (preparedFor10 file) with
    | error fault =>
        rw [runStages_cons_error updated]
        simp [Prod.ext_iff, and_comm, eq_comm]
    | ok next =>
        rw [runStages_cons_ok updated]
        simp only [reduceCtorEq, and_false, iff_false]
        refine ne_panic_of_stages ?_
        simp only [List.forall_mem_cons]
        exact ⟨faulty_ne_panic _ _, faulty_ne_panic _ _, storeVersion_ne_panic _, nofun, nofun⟩
  · simp only [ten, false_and, iff_false]
    exact ne_panic_of_stages (calm_of_not_ten ten)

end Panics

end Eamerald.Migrations
