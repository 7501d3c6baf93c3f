import Eamerald.Migrations.Preservation
import Eamerald.Migrations.RequiredPasses

/-! `Migrate` always ends. It returns without an error only if the file then has the required
version, unless it panics. -/

set_option autoImplicit false

namespace Eamerald.Migrations

open Foundation Store
open Bolt (Key Bucket objectPlace)
open Directory (Library Simple.library)

section Loop

variable {ω μ : Type} [Wire ω μ] (library : Library μ) (texts : Texts ω) (versions : VersionTexts ω)
  (required : Semver) {result : Except Fault Unit × File ω}

/-- The versions and the files that a run without failures of the system passes through, with
passes still to come. -/
inductive Visits (start : File ω) : Semver → File ω → Prop where
  | start {current : Semver} :
      currentVersion versions start = some current → Visits start current start
  | pass {current version : Semver} {file next : File ω} :
      Visits start current file →
      runStages (passStages library texts versions current.incPatch file) file = (.ok (), next) →
      currentVersion versions next = some version → version.equal required = false →
      Visits start version next

variable {library texts versions required} {environment : Environment} {fuel pass : Nat}
  {current : Semver} {start file final : File ω}

variable (library texts versions environment required pass current file) in
/-- A pass fails, cannot read the version, reaches the required one, or the loop goes on. -/
theorem loopTo_cases : (∃ fault next, runStages (disturb (environment.refuses pass) 0
        (passStages library texts versions current.incPatch file)) file = (.error fault, next) ∧
      ∀ fuel, loopTo library texts versions environment required (fuel + 1) pass current file =
        some (.error fault, next)) ∨
    ∃ next, runStages (passStages library texts versions current.incPatch file) file = (.ok (), next) ∧
      currentVersion versions next = some current.incPatch ∧
      ((∃ error, ∀ fuel, loopTo library texts versions environment required (fuel + 1) pass current file =
          some (.error (.error error), next)) ∨ (current.incPatch.equal required = true ∧
          ∀ fuel, loopTo library texts versions environment required (fuel + 1) pass current file =
            some (.ok (), next)) ∨ (current.incPatch.equal required = false ∧
          ∀ fuel, loopTo library texts versions environment required (fuel + 1) pass current file =
            loopTo library texts versions environment required fuel (pass + 1) current.incPatch next)) := by
  cases passed : runStages (disturb (environment.refuses pass) 0
      (passStages library texts versions current.incPatch file)) file with
  | mk outcome next =>
      cases outcome with
      | error fault => exact .inl ⟨fault, next, rfl, fun fuel => by rw [loopTo, passed]⟩
      | ok _ =>
          right
          have ran := runStages_of_disturb passed
          have versioned := (pass_ok ran).2
          refine ⟨next, ran, versioned, ?_⟩
          cases reread : environment.getCurrent (pass + 1) with
          | some error => exact .inl ⟨error, fun fuel => by rw [loopTo, passed]; simp only [reread]⟩
          | none =>
              right
              cases same : current.incPatch.equal required with
              | true => exact .inl ⟨rfl, fun fuel => by rw [loopTo, passed]; simp [reread, versioned, same]⟩
              | false => exact .inr ⟨rfl, fun fuel => by rw [loopTo, passed]; simp [reread, versioned, same]⟩

theorem loopTo_ok (ran : loopTo library texts versions environment required fuel pass current file =
      some (.ok (), final)) :
    ∃ version, currentVersion versions final = some version ∧ version.equal required = true := by
  induction fuel generalizing pass current file with
  | zero => cases ran
  | succ fuel ih =>
      rcases loopTo_cases library texts versions required environment pass current file with
        ⟨fault, next, _, ended⟩ | ⟨next, _, versioned, ⟨error, ended⟩ | ⟨same, ended⟩ | ⟨_, continues⟩⟩
      · cases (ended fuel).symm.trans ran
      · cases (ended fuel).symm.trans ran
      · cases (ended fuel).symm.trans ran
        exact ⟨_, versioned, same⟩
      · exact ih ((continues fuel).symm.trans ran)

theorem loopTo_panic (visits : Visits library texts versions required start current file)
    (ran : loopTo library texts versions environment required fuel pass current file =
      some (.error .panic, final)) :
    ∃ version reached, Visits library texts versions required start version reached ∧
      runStages (passStages library texts versions version.incPatch reached) reached =
        (.error .panic, final) := by
  induction fuel generalizing pass current file with
  | zero => cases ran
  | succ fuel ih =>
      rcases loopTo_cases library texts versions required environment pass current file with
        ⟨fault, next, failed, ended⟩ | ⟨next, passed, versioned, ⟨error, ended⟩ | ⟨_, ended⟩ | ⟨more, continues⟩⟩
      · cases (ended fuel).symm.trans ran
        exact ⟨current, file, visits, panic_of_disturb failed⟩
      · cases (ended fuel).symm.trans ran
      · cases (ended fuel).symm.trans ran
      · exact ih (visits.pass passed versioned more) ((continues fuel).symm.trans ran)

theorem loopTo_succ
    (ran : loopTo library texts versions environment required fuel pass current file = some result) :
    loopTo library texts versions environment required (fuel + 1) pass current file = some result := by
  induction fuel generalizing pass current file with
  | zero => cases ran
  | succ fuel ih =>
      rcases loopTo_cases library texts versions required environment pass current file with
        ⟨fault, next, _, ended⟩ | ⟨next, _, _, ⟨error, ended⟩ | ⟨_, ended⟩ | ⟨_, continues⟩⟩
      · exact (ended _).trans ((ended fuel).symm.trans ran)
      · exact (ended _).trans ((ended fuel).symm.trans ran)
      · exact (ended _).trans ((ended fuel).symm.trans ran)
      · exact (continues _).trans (ih ((continues fuel).symm.trans ran))

theorem loopTo_ends (patch : Nat) (enough : 11 - patch ≤ fuel) (known : patch ≤ 10) :
    ∃ result, loopTo library texts versions environment required fuel pass (.release patch) file =
      some result := by
  induction fuel generalizing pass patch file with
  | zero => omega
  | succ fuel ih =>
      rcases loopTo_cases library texts versions required environment pass (.release patch) file with
        ⟨fault, next, _, ended⟩ | ⟨next, passed, _, ⟨error, ended⟩ | ⟨_, ended⟩ | ⟨_, continues⟩⟩
      · exact ⟨_, ended fuel⟩
      · exact ⟨_, ended fuel⟩
      · exact ⟨_, ended fuel⟩
      · obtain ⟨⟨later, released, _, high⟩, _⟩ := pass_ok passed
        have following : later = patch + 1 := (congrArg Semver.patch released).symm
        rw [continues]
        exact ih (patch + 1) (by omega) (by omega)

theorem loopTo_ends_any : ∃ result,
    loopTo library texts versions environment required 8 pass current file = some result := by
  rcases loopTo_cases library texts versions required environment pass current file with
    ⟨fault, next, _, ended⟩ | ⟨next, passed, _, ⟨error, ended⟩ | ⟨_, ended⟩ | ⟨_, continues⟩⟩
  · exact ⟨_, ended 7⟩
  · exact ⟨_, ended 7⟩
  · exact ⟨_, ended 7⟩
  · obtain ⟨⟨patch, released, low, high⟩, _⟩ := pass_ok passed
    rw [continues 7, released]
    exact loopTo_ends patch (by omega) high

theorem loopTo_calm_of_error {fault : Fault}
    (failed : runStages (passStages library texts versions current.incPatch file) file = (.error fault, final))
    (pass : Nat) :
    loopTo library texts versions {} required 1 pass current file = some (.error fault, final) := by
  have calm : runStages (disturb (({} : Environment).refuses pass) 0
      (passStages library texts versions current.incPatch file)) file = (.error fault, final) := by
    rw [show ({} : Environment).refuses pass = fun _ => none from rfl, disturb_calm, failed]
  rw [loopTo, calm]

theorem Visits.loopTo {version : Semver} {reached : File ω}
    (visits : Visits library texts versions required start version reached)
    (begins : currentVersion versions start = some current)
    (ran : ∀ pass, Migrations.loopTo library texts versions {} required fuel pass version reached =
      some result) :
    ∃ fuel, ∀ pass, Migrations.loopTo library texts versions {} required fuel pass current start =
      some result := by
  induction visits generalizing fuel with
  | start same =>
      cases begins.symm.trans same
      exact ⟨fuel, ran⟩
  | @pass earlier version file next _ passed versioned more ih =>
      have ranEarlier (pass : Nat) : Migrations.loopTo library texts versions {} required (fuel + 1) pass
          earlier file = some result := by
        have calm : runStages (disturb (({} : Environment).refuses pass) 0
            (passStages library texts versions earlier.incPatch file)) file = (.ok (), next) := by
          rw [show ({} : Environment).refuses pass = fun _ => none from rfl, disturb_calm, passed]
        rw [Migrations.loopTo, calm]
        simp [versioned, more, ran (pass + 1)]
      exact ih ranEarlier

end Loop

section Truth

variable {ω μ : Type} [Wire ω μ]

/-- `Migrate` ends, and when it returns no error the file has the required version. -/
structure TellsTruth (library : Library μ) (texts : Texts ω) (versions : VersionTexts ω)
    (environment : Environment) (required : Semver) (file : File ω) : Prop where
  terminates : ∃ result, ∀ fuel, 8 ≤ fuel →
    migrateTo library texts versions environment required fuel file = some result
  truthful : ∀ fuel final,
    migrateTo library texts versions environment required fuel file = some (.ok (), final) →
      ∃ version, currentVersion versions final = some version ∧ version.equal required = true

variable {library : Library μ} {texts : Texts ω} {versions : VersionTexts ω} {environment : Environment}
  {required current : Semver} {file final : File ω}

theorem migrateTo_terminates : ∃ result, ∀ fuel, 8 ≤ fuel →
    migrateTo library texts versions environment required fuel file = some result := by
  unfold migrateTo
  cases environment.getCurrent 0 with
  | some error => exact ⟨_, fun _ _ => rfl⟩
  | none =>
      cases currentVersion versions file with
      | none => exact ⟨_, fun _ _ => rfl⟩
      | some current =>
          dsimp only
          split
          · exact ⟨_, fun _ _ => rfl⟩
          · obtain ⟨result, ended⟩ : ∃ result,
                loopTo library texts versions environment required 8 0 current file = some result :=
              loopTo_ends_any
            refine ⟨(recovered result.1, result.2), fun fuel enough => ?_⟩
            have still : loopTo library texts versions environment required fuel 0 current file =
                some result := by
              induction fuel, enough using Nat.le_induction with
              | base => exact ended
              | succ fuel _ ih => exact loopTo_succ ih
            rw [still]
            rfl

theorem currentVersion_preparedFor10 (versioned : currentVersion versions file = some current)
    (ten : current.incPatch = .release 10) : currentVersion versions (preparedFor10 file) = some current := by
  unfold currentVersion at versioned ⊢
  cases found : file.bucket .system with
  | none =>
      rw [found] at versioned
      cases versioned
      cases congrArg Semver.patch ten
  | some bucket =>
      rw [found] at versioned
      simpa [preparedFor10, File.create, found] using versioned

theorem Visits.versioned {start : File ω} (visits : Visits library texts versions required start current file) :
    currentVersion versions file = some current := by
  cases visits with
  | start same => exact same
  | pass _ _ versioned _ => exact versioned

theorem Visits.not_equal {start : File ω} {version : Semver}
    (visits : Visits library texts versions required start version file)
    (begins : currentVersion versions start = some current) (different : current.equal required = false) :
    version.equal required = false := by
  cases visits with
  | start same =>
      cases begins.symm.trans same
      exact different
  | pass _ _ _ more => exact more

/-- `Migrate` tells the truth, whatever the system refuses, exactly if the version of the file
can be read and no run meets an object that the last migration cannot patch. -/
theorem migrate_tells_truth_iff (library : Library μ) (texts : Texts ω) (versions : VersionTexts ω)
    (required : Semver) (file : File ω) :
    (∀ environment, TellsTruth library texts versions environment required file) ↔
      ∃ current, currentVersion versions file = some current ∧
        (current.equal required = true ∨
          ∀ version reached, Visits library texts versions required file version reached →
            version.incPatch = .release 10 → ∀ bucket, reached.bucket .objects = some bucket →
              ¬ Stops bucket.toList) := by
  constructor
  · intro truth
    have truthful := (truth {}).truthful
    cases versioned : currentVersion versions file with
    | none =>
        -- the nil version makes `Migrate` panic, and it returns nil
        have ran : migrateTo library texts versions {} required 8 file = some (.ok (), file) := by
          simp [migrateTo, versioned, recovered]
        obtain ⟨version, found, _⟩ := truthful 8 file ran
        cases versioned.symm.trans found
    | some current =>
        refine ⟨current, rfl, ?_⟩
        cases same : current.equal required with
        | true => exact .inl rfl
        | false =>
            right
            intro version reached visits ten bucket found stops
            have panics : runStages (passStages library texts versions version.incPatch reached) reached =
                (.error .panic, preparedFor10 reached) := pass_panic_iff.mpr ⟨ten, rfl, bucket, found, stops⟩
            obtain ⟨fuel, ran⟩ := visits.loopTo versioned (loopTo_calm_of_error panics)
            have migrated : migrateTo library texts versions {} required fuel file =
                some (.ok (), preparedFor10 reached) := by
              simp [migrateTo, versioned, same, ran 0, recovered]
            obtain ⟨other, now, equal⟩ := truthful fuel _ migrated
            cases now.symm.trans (currentVersion_preparedFor10 visits.versioned ten)
            cases equal.symm.trans (visits.not_equal versioned same)
  · rintro ⟨current, versioned, condition⟩ environment
    refine ⟨migrateTo_terminates, ?_⟩
    intro fuel final ran
    unfold migrateTo at ran
    cases opened : environment.getCurrent 0 with
    | some error =>
        rw [opened] at ran
        cases ran
    | none =>
        rw [opened, versioned] at ran
        dsimp only at ran
        cases same : current.equal required with
        | true =>
            rw [if_pos same] at ran
            cases ran
            exact ⟨current, versioned, same⟩
        | false =>
            rw [if_neg (by rw [same]; decide)] at ran
            obtain ⟨⟨outcome, reached⟩, looped, ended⟩ := Option.map_eq_some_iff.mp ran
            obtain ⟨returned, rfl⟩ := Prod.mk.inj ended
            cases outcome with
            | ok _ => exact loopTo_ok looped
            | error fault =>
                cases fault with
                | error error => cases returned
                | panic =>
                    exfalso
                    obtain ⟨version, panicking, visits, panics⟩ := loopTo_panic (.start versioned) looped
                    obtain ⟨ten, _, bucket, found, stops⟩ := pass_panic_iff.mp panics
                    rcases condition with equal | never
                    · cases same.symm.trans equal
                    · exact never version panicking visits ten bucket found stops

end Truth

section Agreement

variable {ω : Type}

def Texts.versions (texts : Texts ω) : VersionTexts ω where
  parse value := (texts.version.unmarshal value).toOption.map .release
  print version := texts.version.marshal version.patch
  parse_print patch := by
    rw [show (Semver.release patch).patch = patch from rfl, texts.version.unmarshal_marshal]
    rfl

theorem release_equal_iff {left right : Nat} :
    (Semver.release left).equal (.release right) = true ↔ left = right := by
  simp only [Semver.equal, Semver.release, decide_true, Bool.true_and, Bool.and_true]
  exact decide_eq_true_iff

theorem currentVersion_versions (texts : Texts ω) (file : File ω) :
    currentVersion texts.versions file = (getVersion texts file).map .release := by
  unfold currentVersion getVersion
  cases file.bucket .system with
  | none => rfl
  | some bucket =>
      dsimp only
      cases bucket[versionKey]? <;> rfl

theorem storeVersion_versions (texts : Texts ω) (patch : Nat) :
    storeVersion texts.versions (.release patch) = fun file => (setVersion texts patch file).mapError .error := by
  funext file
  unfold storeVersion setVersion
  cases file.bucket .system with
  | none => rfl
  | some bucket =>
      have same : texts.versions.print (.release patch) = texts.version.marshal patch := rfl
      dsimp only
      rw [same]
      cases Bolt.put bucket versionKey (texts.version.marshal patch) <;> rfl

theorem runStages_mapError {σ : Type} (stages : List (Stage Err σ)) (state : σ) :
    runStages (stages.map fun stage state => (stage state).mapError Fault.error) state =
      ((runStages stages state).1.mapError .error, (runStages stages state).2) := by
  induction stages generalizing state with
  | nil => rfl
  | cons stage rest ih =>
      cases committed : stage state with
      | error error =>
          rw [runStages_cons_error committed]
          exact runStages_cons_error (congrArg (Except.mapError Fault.error) committed)
      | ok next =>
          rw [runStages_cons_ok committed, ← ih]
          exact runStages_cons_ok (congrArg (Except.mapError Fault.error) committed)

theorem runStages_append_ok {σ : Type} (stages : List (Stage Err σ)) (state : σ) :
    runStages (stages ++ [.ok]) state = runStages stages state := by
  induction stages generalizing state with
  | nil => rfl
  | cons stage rest ih =>
      rw [List.cons_append]
      cases committed : stage state with
      | error error => rw [runStages_cons_error committed, runStages_cons_error committed]
      | ok next => rw [runStages_cons_ok committed, runStages_cons_ok committed, ih]

variable {μ : Type} [Wire ω μ] {library : Library μ} {texts : Texts ω}

theorem pass_agrees {patch : Nat} (other : patch ≠ 10) (disk : Disk ω) (current : Version)
    (following : patch = current + 1) :
    runStages (passStages library texts texts.versions (.release patch) disk.opened) disk.opened =
      ((migrateNext library texts current disk).1.mapError .error,
        (migrateNext library texts current disk).2.opened) := by
  subst following
  have found : registered library texts (.release (current + 1)) =
      (migMap library texts (current + 1)).map (List.map Step.faulty) := by
    unfold registered
    exact (if_pos rfl).trans (if_neg other)
  unfold migrateNext stagesTo passStages execute
  rw [found]
  cases migMap library texts (current + 1) with
  | none => rfl
  | some steps =>
      have stages : (steps.map Step.faulty).map (· (some disk.opened)) ++
          [storeVersion texts.versions (.release (current + 1)), .ok] =
          (steps.map (· (some disk.opened)) ++ [setVersion texts (current + 1), .ok]).map
            fun stage state => (stage state).mapError Fault.error := by
        rw [storeVersion_versions, List.map_append, List.map_map, List.map_map]
        rfl
      have runs := runStages_append_ok (steps.map (· (some disk.opened)) ++ [setVersion texts (current + 1)])
        disk.opened
      rw [List.append_assoc, List.singleton_append] at runs
      change runStages ((steps.map Step.faulty).map (· (some disk.opened)) ++ _) disk.opened = _
      rw [stages, runStages_mapError, runs]
      rfl

theorem loopTo_agrees {fuel pass : Nat} {current : Version} {disk : Disk ω}
    (before : current ≠ reqVersion) {result : Except Fault Unit × File ω}
    (ran : loopTo library texts texts.versions {} (.release 9) fuel pass (.release current) disk.opened =
      some result) : (migrateLoop library texts fuel current disk).1 = recovered result.1 ∧
      (migrateLoop library texts fuel current disk).2.opened = result.2 := by
  induction fuel generalizing pass current disk with
  | zero => cases ran
  | succ fuel ih =>
      have other : current + 1 ≠ 10 := fun ten => before (Nat.succ.inj ten)
      have agrees : runStages (disturb (({} : Environment).refuses pass) 0 (passStages library texts
          texts.versions (Semver.release current).incPatch disk.opened)) disk.opened = _ :=
        (congrArg (runStages · disk.opened) (disturb_calm 0 _)).trans (pass_agrees other disk current rfl)
      rw [loopTo, agrees] at ran
      rw [migrateLoop]
      cases passed : migrateNext library texts current disk with
      | mk outcome after =>
          rw [passed] at ran
          cases outcome with
          | error error =>
              cases ran
              exact ⟨rfl, rfl⟩
          | ok _ =>
              dsimp only [Except.mapError] at ran ⊢
              rw [currentVersion_versions] at ran
              cases versioned : getVersion texts after.opened with
              | none =>
                  rw [versioned] at ran
                  cases ran
                  exact ⟨rfl, rfl⟩
              | some version =>
                  rw [versioned] at ran
                  dsimp only [Option.map_some] at ran ⊢
                  by_cases same : version = reqVersion
                  · subst same
                    rw [if_pos rfl]
                    cases ran
                    exact ⟨rfl, rfl⟩
                  · have different : ¬ (Semver.release version).equal (.release 9) = true :=
                      fun equal => same (release_equal_iff.mp equal)
                    rw [if_neg different] at ran
                    rw [if_neg same]
                    exact ih same ran

/-- Required to reach 0.0.9, on a system that refuses nothing, `Migrate` is the migration
whose versions are patch numbers. -/
theorem migrateTo_agrees (disk : Disk ω) :
    migrateTo library texts texts.versions {} (.release 9) 9 disk.opened =
      some ((migrate library texts disk).1, (migrate library texts disk).2.opened) := by
  unfold migrateTo migrate
  dsimp only
  rw [currentVersion_versions]
  cases versioned : getVersion texts disk.opened with
  | none => rfl
  | some current =>
      dsimp only [Option.map_some]
      by_cases same : current = reqVersion
      · subst same
        rw [if_pos rfl]
        rfl
      · have different : ¬ (Semver.release current).equal (.release 9) = true :=
                      fun equal => same (release_equal_iff.mp equal)
        rw [if_neg different, if_neg same]
        obtain ⟨result, ended⟩ : ∃ result, loopTo library texts texts.versions {} (.release 9) 8 0
            (.release current) disk.opened = some result := loopTo_ends_any
        have enough := loopTo_succ ended
        obtain ⟨outcome, file⟩ := loopTo_agrees same enough
        rw [enough]
        exact congrArg some (Prod.ext outcome.symm file.symm)

end Agreement

section Samples

def garbledFile : File (Value Directory.Simple.Model) :=
  (sampleFile 8 (some lettersManifest)).assign .system (some ((∅ : Bucket _).insert versionKey .blank))

def namedFile : File (Value Directory.Simple.Model) :=
  ((sampleFile 8 (some lettersManifest)).assign .system
    (some ((∅ : Bucket _).insert versionKey (.version 9)))).assign .objects
    (some ((∅ : Bucket _).insert (objectPlace letter.ident)
      (Wire.object.marshal { letter with displayName := ['A'] })))

/-- In both cases `Migrate` returns nil, and the version is not the required one. -/
theorem panics_reported_as_success :
    ((migrateTo Simple.library plainTexts plainTexts.versions {} (.release 9) 8 garbledFile).map
        fun ran => (ran.1.isOk, currentVersion plainTexts.versions ran.2)) = some (true, none) ∧
      ((migrateTo Simple.library plainTexts plainTexts.versions {} (.release 10) 8 namedFile).map
        fun ran => (ran.1.isOk, currentVersion plainTexts.versions ran.2)) =
          some (true, some (.release 9)) := by
  decide +kernel

end Samples

end Eamerald.Migrations
