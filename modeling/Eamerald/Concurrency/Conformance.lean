import Eamerald.Concurrency.ProcessProperties

/-! Whether stored rows conform to the stored model. A row is validated against
the cached model and a new model against the cached one, so both only keep the
rows in line with the stored model while the two models are the same. -/

set_option autoImplicit false

namespace Eamerald.Concurrency

open Foundation Store Directory

variable {now : Timestamp}

section Declarations

variable {μ : Type}

structure Declarations (μ : Type) where
  objectType : μ → GoString → Prop
  relation : μ → RelationUse → Prop

/-- The model library accepts what the cached model declares, and no update of it that
drops something with a positive count. -/
structure Enforces (library : Library μ) (declares : Declarations μ) : Prop where
  validateObject : ∀ model object,
    library.validateObject model object = .ok () ↔ declares.objectType model object.type
  validateRelation : ∀ model ident,
    library.validateRelation model ident = .ok () ↔ declares.relation model (useOf ident)
  keepsObjectType : ∀ cached next stats name, library.canUpdate cached next stats = .ok () →
    declares.objectType cached name → 0 < objectCount stats name → declares.objectType next name
  keepsRelation : ∀ cached next stats use, library.canUpdate cached next stats = .ok () →
    declares.relation cached use → 0 < useCount stats use → declares.relation next use
  withMetadata_objectType : ∀ model metadata name,
    declares.objectType (library.withMetadata model metadata) name ↔ declares.objectType model name
  withMetadata_relation : ∀ model metadata use,
    declares.relation (library.withMetadata model metadata) use ↔ declares.relation model use

def Phase.Validated (declares : Declarations μ) : Phase μ → Prop
  | .setObject model _ _ object => declares.objectType model object.type
  | .setRelation model _ _ relation => declares.relation model (useOf relation.ident)
  | _ => True

def Phase.validatedModel : Phase μ → Option μ
  | .setObject model _ _ _ => some model
  | .setRelation model _ _ _ => some model
  | _ => none

theorem Phase.Validated.admitted {declares : Declarations μ} {phase : Phase μ} {model : μ} (validated : phase.Validated declares)
    (against : phase.validatedModel = some model) :
    phase.Admitted (fun objectType _ => declares.objectType model objectType)
      (fun ident => declares.relation model (useOf ident)) := by
  cases phase with
  | setObject | setRelation =>
      cases against
      exact validated
  | _ => cases against

theorem validatedModel_of_dataTx {phase : Phase μ} {body : Tx μ PUnit}
    (pending : dataTx now phase = some body) : ∃ model, phase.validatedModel = some model := by
  cases phase with
  | setObject model | setRelation model => exact ⟨model, rfl⟩
  | _ => cases pending

end Declarations

section Conformance

variable {ω μ : Type} [Wire ω μ] (library : Library μ) (declares : Declarations μ)
  {process : Process ω μ} {db : Bolt.BoltDB ω}

abbrev Fits (model : μ) (db : Bolt.BoltDB ω) : Prop :=
  Bolt.RowsHave (fun objectType _ => declares.objectType model objectType)
    (fun ident => declares.relation model (useOf ident)) db

def Conforms (db : Bolt.BoltDB ω) : Prop :=
  ∃ model, startupModel library Bolt.backend db = .ok model ∧ Fits declares model db

def rowCount (db : Bolt.BoltDB ω) (path : Bolt.Path) : Nat :=
  ((db.bucket path).map fun bucket => bucket.size).getD 0

/-- The model a step relies on is the stored one at that moment, and there are not more
rows than the counters can count. -/
def Timely (process : Process ω μ) : Event → Prop
  | .commitData call _ => ∀ model ∈ (process.calls call).validatedModel,
      startupModel library Bolt.backend process.store = .ok model
  | .importRequest _ _ _ => startupModel library Bolt.backend process.store = .ok process.cache
  | .commitManifest _ => startupModel library Bolt.backend process.store = .ok process.cache ∧
      rowCount process.store .objects < 2 ^ 31 ∧ rowCount process.store .relationsObj < 2 ^ 31
  | _ => True

instance [DecidableEq μ] (process : Process ω μ) :
    (event : Event) → Decidable (Timely library process event)
  | .commitData call _ => inferInstanceAs (Decidable (∀ model ∈ (process.calls call).validatedModel,
      startupModel library Bolt.backend process.store = .ok model))
  | .importRequest _ _ _ => inferInstanceAs
      (Decidable (startupModel library Bolt.backend process.store = .ok process.cache))
  | .commitManifest _ => inferInstanceAs (Decidable (_ ∧ _ ∧ _))
  | .setObject _ _ _ | .setRelation _ _ _ | .importBegin _ | .importEnd _ _ | .setManifest _ _
  | .receiveManifest _ _ _ | .syncManifest _ _ _ _ | .publish _ | .deleteManifest _ _ _ =>
      .isTrue trivial

/-- The invariant of a process that never relies on an outdated model. -/
structure Sound (process : Process ω μ) : Prop where
  sees : SeesManifest process
  stored : Conforms library declares process.store
  opened : ∀ owner view, process.writer = some (owner, view) → Conforms library declares view
  validated : ∀ call, (process.calls call).Validated declares

variable {library declares}

theorem Conforms.fits {model : μ} (conforms : Conforms library declares db)
    (current : startupModel library Bolt.backend db = .ok model) : Fits declares model db := by
  obtain ⟨stored, loaded, fits⟩ := conforms
  cases loaded.symm.trans current
  exact fits

theorem conforms_of_fits {after : Bolt.BoltDB ω} {model : μ}
    (current : startupModel library Bolt.backend db = .ok model)
    (same : after.bucket .manifest = db.bucket .manifest) (fits : Fits declares model after) :
    Conforms library declares after :=
  ⟨model, (startupModel_congr same).trans current, fits⟩

theorem Fits.update (enforces : Enforces library declares) {cached next : μ} (metadata : Metadata) {objects relations : Bolt.Bucket ω} (fits : Fits declares cached db)
    (objectsFound : db.bucket .objects = some objects)
    (relationsFound : db.bucket .relationsObj = some relations)
    (fewObjects : rowCount db .objects < 2 ^ 31) (fewRelations : rowCount db .relationsObj < 2 ^ 31)
    (allowed : library.canUpdate cached next (tally (Bolt.rows Wire.object .zero objects)
      (Bolt.rows Wire.relation .zero relations)) = .ok ()) :
    Fits declares (library.withMetadata next metadata) db := by
  constructor
  · refine fits.objects.mono ?_
    intro bucket found key value object stored decoded declared
    cases objectsFound.symm.trans found
    refine (enforces.withMetadata_objectType _ _ _).mpr ?_
    refine enforces.keepsObjectType _ _ _ _ allowed declared ?_
    refine objectCount_tally_pos _ ?_ (Bolt.mem_rows _ stored decoded)
    rw [Bolt.length_rows]
    simpa [rowCount, found] using fewObjects
  · refine fits.relations.mono ?_
    intro bucket found key value relation stored decoded declared
    cases relationsFound.symm.trans found
    refine (enforces.withMetadata_relation _ _ _).mpr ?_
    refine enforces.keepsRelation _ _ _ _ allowed declared ?_
    refine useCount_tally_pos _ ?_ (Bolt.mem_rows _ stored decoded)
    rw [Bolt.length_rows]
    simpa [rowCount, found] using fewRelations

theorem Sound.advance (sound : Sound library declares process)
    (call : Nat) {phase : Phase μ} (own : phase.Validated declares) :
    Sound library declares (process.advance call phase) := by
  refine ⟨sound.sees, sound.stored, sound.opened, fun other => ?_⟩
  rw [calls_advance]
  split
  · exact own
  · exact sound.validated other

theorem Sound.proceed {α : Type} (sound : Sound library declares process)
    (call : Nat) {outcome : Except Err α} {next : α → Phase μ}
    (own : ∀ value, outcome = .ok value → (next value).Validated declares) :
    Sound library declares (process.proceed call outcome next) := by
  cases outcome with
  | ok value => exact sound.advance call (own value rfl)
  | error error => exact sound.advance call trivial

theorem sound_of_free (free : process.writer = none) (conforms : Conforms library declares process.store)
    (validated : ∀ call, (process.calls call).Validated declares) : Sound library declares process := by
  refine ⟨seesManifest_of_free free, conforms, ?_, validated⟩
  intro owner view opened
  cases free.symm.trans opened

theorem Sound.conforms_commitData (sound : Sound library declares process) {call : Nat} {body : Tx μ PUnit}
    (pending : dataTx now (process.calls call) = some body)
    (timely : Timely library process (.commitData call now)) :
    Conforms library declares (update Bolt.backend body process.store).2 := by
  obtain ⟨model, against⟩ := validatedModel_of_dataTx pending
  have current := timely model against
  refine conforms_of_fits current (manifest_commitData pending process.store) ?_
  exact (dataTx_within ((sound.validated call).admitted against) pending).commit
    Bolt.backend_honours_rows (sound.stored.fits current)

theorem Sound.conforms_importRequest (enforces : Enforces library declares) (sound : Sound library declares process) {call : Nat}
    {request : ImportRequest} {view : Bolt.BoltDB ω} (owned : process.writer = some (call, view))
    (current : startupModel library Bolt.backend process.store = .ok process.cache) : Conforms library declares
      ((importHandler library process.cache now request).run Bolt.backend view).2 := by
  have loaded := (startupModel_congr (sound.sees call view owned)).trans current
  have admits : AdmitsMessage library (Bolt.dataOnly
      (fun objectType _ => declares.objectType process.cache objectType)
      fun ident => declares.relation process.cache (useOf ident)) process.cache request.message := by
    cases request.message with
    | object object => exact fun row _ _ declared => (enforces.validateObject _ row).mp declared
    | relation relation =>
        exact fun row _ _ declared => ⟨(enforces.validateRelation _ row.ident).mp declared, trivial⟩
    | unset => exact trivial
  refine conforms_of_fits loaded (manifest_importHandler _ _ _ _) ?_
  exact ((within_importHandler process.cache now admits).run Bolt.backend_honours_rows
    ((sound.opened call view owned).fits loaded)).1

theorem Sound.conforms_commitManifest (enforces : Enforces library declares) (sound : Sound library declares process) {call : Nat}
    {manifest : Prepared μ} (timely : Timely library process (.commitManifest call)) : Conforms library declares
      (update Bolt.backend (manifestTx library process.cache manifest) process.store).2 := by
  obtain ⟨current, fewObjects, fewRelations⟩ := timely
  cases committed : update Bolt.backend (manifestTx library process.cache manifest)
      process.store with
  | mk outcome after =>
      cases outcome with
      | error error =>
          rw [Program.commit_error committed]
          exact sound.stored
      | ok value =>
          obtain ⟨⟨objects, relations, objectsFound, relationsFound, allowed⟩, rfl⟩ :=
            setManifestTx_ok committed
          refine ⟨_, startupModel_withManifest _ _ _ _, ?_⟩
          have fits := (sound.stored.fits current).update enforces manifest.metadata objectsFound
            relationsFound fewObjects fewRelations allowed
          exact fits.congr (bucket_withManifest _ _ _ _ (by decide))
            (bucket_withManifest _ _ _ _ (by decide))

theorem Sound.conforms_deleteManifest
    (sound : Sound library declares process) (ifMatch : GoString) (now : Timestamp) : Conforms library declares
      (update Bolt.backend (deleteTx library ifMatch now) process.store).2 := by
  cases committed : update Bolt.backend (deleteTx library ifMatch now) process.store with
  | mk outcome after =>
      cases outcome with
      | error error =>
          rw [Program.commit_error committed]
          exact sound.stored
      | ok value =>
          rcases deleteTx_ok committed with rfl | ⟨metadata, model, _, rfl⟩
          · exact sound.stored
          · refine ⟨model, startupModel_withManifest _ _ _ _, ?_⟩
            have empty : Fits declares model (Bolt.emptyDB : Bolt.BoltDB ω) :=
              ⟨Bolt.allRows_emptyDB, Bolt.allRows_emptyDB⟩
            exact empty.congr (bucket_withManifest _ _ _ _ (by decide))
              (bucket_withManifest _ _ _ _ (by decide))

theorem Sound.step (enforces : Enforces library declares) {next : Process ω μ}
    {event : Event} (sound : Sound library declares process) (timely : Timely library process event)
    (step : Step library process event next) : Sound library declares next := by
  have sees := step.seesManifest sound.sees
  cases step with
  | setObject idle =>
      refine sound.proceed _ fun etag valid => ?_
      obtain ⟨_, _, rest⟩ := except_bind_eq_ok.mp valid
      obtain ⟨_, declared, _⟩ := except_bind_eq_ok.mp rest
      exact (enforces.validateObject _ _).mp declared
  | setRelation idle =>
      refine sound.proceed _ fun etag valid => ?_
      obtain ⟨_, _, rest⟩ := except_bind_eq_ok.mp valid
      obtain ⟨_, declared, _⟩ := except_bind_eq_ok.mp rest
      exact (enforces.validateRelation _ _).mp declared
  | commitData free pending =>
      refine Sound.advance ?_ _ trivial
      exact sound_of_free free (sound.conforms_commitData pending timely) sound.validated
  | importBegin free idle =>
      refine Sound.advance ?_ _ trivial
      refine ⟨sees, sound.stored, ?_, sound.validated⟩
      intro owner view found
      cases found
      exact sound.stored
  | importRequest owned running =>
      refine ⟨sees, sound.stored, ?_, sound.validated⟩
      intro owner view found
      cases found
      exact sound.conforms_importRequest enforces owned timely
  | importAbort owned running =>
      refine Sound.advance ?_ _ trivial
      exact sound_of_free rfl sound.stored sound.validated
  | importCommit owned running sent =>
      refine Sound.advance ?_ _ trivial
      exact sound_of_free rfl (sound.opened _ _ owned) sound.validated
  | setManifest idle matched => exact sound.advance _ trivial
  | mismatch idle unmatched => exact sound.advance _ trivial
  | receiveManifest checked => exact sound.proceed _ fun _ _ => trivial
  | syncManifest idle =>
      refine sound.proceed _ fun phase started => ?_
      rcases syncPhase_ok started with rfl | ⟨manifest, rfl⟩ <;> exact trivial
  | commitManifest free prepared =>
      refine Sound.proceed ?_ _ fun _ _ => trivial
      exact sound_of_free free (sound.conforms_commitManifest enforces timely) sound.validated
  | publish publishing =>
      refine Sound.advance ?_ _ trivial
      exact ⟨sound.sees, sound.stored, sound.opened, sound.validated⟩
  | deleteManifest free idle =>
      refine Sound.advance ?_ _ trivial
      exact sound_of_free free (sound.conforms_deleteManifest _ _) sound.validated

theorem Sound.of_startup {store : Bolt.BoltDB ω}
    (conforms : Conforms library declares store) (started : startup library store = .ok process) :
    Sound library declares process := by
  obtain ⟨model, _, same⟩ := except_bind_eq_ok.mp started
  cases same
  exact sound_of_free rfl conforms fun _ => trivial

/-- Where the indexes agree, the rows of the subject index are those of the object index. -/
theorem Fits.subjects {model : μ} (fits : Fits declares model db) (agree : Bolt.Agree db) :
    Bolt.AllRows Wire.relation .relationsSub (fun row => declares.relation model (useOf row.ident)) db := by
  obtain ⟨relations, mirrors, _⟩ := agree
  obtain ⟨byObject, objectFound, objectTable⟩ := mirrors .byObject
  obtain ⟨bySubject, subjectFound, subjectTable⟩ := mirrors .bySubject
  intro bucket found key value stored
  cases subjectFound.symm.trans found
  obtain ⟨relation, member, _, rfl⟩ := (subjectTable key value).mp stored
  have listed := (objectTable _ _).mpr ⟨relation, member, rfl, rfl⟩
  obtain ⟨message, decoded, declared⟩ := fits.relations byObject objectFound _ _ listed
  exact ⟨message, decoded, declared⟩

/-- In every run whose steps rely on the stored model only, whatever the calls and their
interleaving, all stored rows conform to the stored model in every state reached. -/
theorem stored_rows_conform (enforces : Enforces library declares) {store : Bolt.BoltDB ω}
    (conforms : Conforms library declares store) {process final : Process ω μ}
    (started : startup library store = .ok process) {events : List Event}
    (timely : (machine library).Respects (Timely library) process events)
    (ran : (machine library).run process events = some final) :
    ∃ model, startupModel library Bolt.backend final.store = .ok model ∧
      Fits declares model final.store ∧
      (Bolt.Agree final.store → Bolt.AllRows Wire.relation .relationsSub
        (fun row => declares.relation model (useOf row.ident)) final.store) := by
  have sound : Sound library declares final :=
    Machine.invariant_of_run (fun _ _ _ sound met stepped =>
      sound.step enforces met ((step_iff library).mp stepped))
      (Sound.of_startup conforms started) timely ran
  obtain ⟨model, stored, fits⟩ := sound.stored
  exact ⟨model, stored, fits, fits.subjects⟩

end Conformance

section Documents

def simpleDeclarations : Declarations Simple.Model where
  objectType model name := name ∈ model.objectTypes
  relation model use :=
    ⟨use.objectType, use.relation, use.subjectType, use.subjectRelation⟩ ∈ model.rules

theorem require_ok {condition : Bool} {message : String} :
    Simple.require condition message = .ok () ↔ condition = true := by
  cases condition <;> simp [Simple.require]

theorem inUse_of_useCount {stats : Stats} {use : RelationUse} (positive : 0 < useCount stats use) :
    Simple.inUse stats ⟨use.objectType, use.relation, use.subjectType, use.subjectRelation⟩ = true := by
  unfold useCount at positive
  unfold Simple.inUse
  cases objectTypeFound : stats[use.objectType]? with
  | none => simp [objectTypeFound] at positive
  | some objectType =>
      simp only [objectTypeFound, Option.getD_some] at positive ⊢
      cases relationFound : objectType.relations[use.relation]? with
      | none => simp [relationFound] at positive
      | some relation =>
          simp only [relationFound, Option.getD_some] at positive ⊢
          cases subjectTypeFound : relation.subjectTypes[use.subjectType]? with
          | none => simp [subjectTypeFound] at positive
          | some subjectType =>
              simp only [subjectTypeFound, Option.getD_some] at positive ⊢
              split at positive <;> simp_all

theorem simple_enforces : Enforces Simple.library simpleDeclarations := by
  refine ⟨?_, ?_, ?_, ?_, fun _ _ _ => Iff.rfl, fun _ _ _ => Iff.rfl⟩
  · intro model object
    exact require_ok.trans List.contains_iff_mem
  · intro model ident
    exact require_ok.trans decide_eq_true_iff
  · intro cached next stats name allowed declared positive
    have checked := require_ok.mp allowed
    simp only [Simple.canUpdate, Bool.and_eq_true, List.all_eq_true] at checked
    have kept := checked.1 name declared
    change name ∈ next.objectTypes
    cases found : stats[name]? with
    | none => simp [objectCount, found] at positive
    | some counted =>
        simp only [objectCount, found, Option.getD_some] at positive
        simpa [found, positive] using kept
  · intro cached next stats use allowed declared positive
    have checked := require_ok.mp allowed
    simp only [Simple.canUpdate, Bool.and_eq_true, List.all_eq_true] at checked
    have kept := checked.2 _ declared
    rw [inUse_of_useCount positive, Bool.not_true, Bool.or_false, decide_eq_true_eq] at kept
    exact kept

def documentEvents (call : Nat) : List Event :=
  [.setObject call [] { type := "d".toList, id := "1".toList }, .commitData call ⟨2, 0⟩]

theorem conforms_emptyDB : Conforms Simple.library simpleDeclarations freshProcess.store :=
  ⟨{}, rfl, Bolt.allRows_emptyDB, Bolt.allRows_emptyDB⟩

/-- Set a manifest with documents, and create a document. -/
theorem stored_document_conforms :
    ∃ final, (machine Simple.library).run freshProcess (manifestCall 0 [] [100] ++ documentEvents 1) =
        some final ∧
      ∃ model, startupModel Simple.library Bolt.backend final.store = .ok model ∧
        Fits simpleDeclarations model final.store := by
  obtain ⟨final, ran⟩ := Option.isSome_iff_exists.mp
    (by decide +kernel : ((machine Simple.library).run freshProcess
      (manifestCall 0 [] [100] ++ documentEvents 1)).isSome = true)
  obtain ⟨model, stored, fits, _⟩ := stored_rows_conform simple_enforces conforms_emptyDB rfl
    (by decide +kernel) ran
  exact ⟨final, ran, model, stored, fits⟩

def staleEvents : List Event :=
  manifestCall 0 [] [100] ++ [.deleteManifest 1 [] ⟨2, 0⟩] ++ documentEvents 2

/-- After the manifest was deleted, the cache still lets a document through that the
stored model no longer declares. -/
theorem document_stored_without_type :
    ∃ final, (machine Simple.library).run freshProcess staleEvents = some final ∧
      startupModel Simple.library Bolt.backend final.store =
        .ok { metadata := ⟨some ⟨2, 0⟩, "#".toList⟩ } ∧
      (Bolt.getObject "d".toList "1".toList final.store).map Object.type = .ok "d".toList ∧
      ¬ Conforms Simple.library simpleDeclarations final.store := by
  obtain ⟨final, ran⟩ := Option.isSome_iff_exists.mp
    (by decide +kernel : ((machine Simple.library).run freshProcess staleEvents).isSome = true)
  have loaded : (((machine Simple.library).run freshProcess staleEvents).map
      fun final => startupModel Simple.library Bolt.backend final.store) =
        some (.ok { metadata := ⟨some ⟨2, 0⟩, "#".toList⟩ }) := by decide +kernel
  have read : (((machine Simple.library).run freshProcess staleEvents).map
      fun final => (Bolt.getObject "d".toList "1".toList final.store).map Object.type) =
        some (.ok "d".toList) := by decide +kernel
  rw [ran, Option.map_some, Option.some.injEq] at loaded read
  refine ⟨final, ran, loaded, read, fun conforms => ?_⟩
  cases stored : Bolt.getObject "d".toList "1".toList final.store with
  | error error =>
      rw [stored] at read
      cases read
  | ok object =>
      -- The stored model declares no types at all.
      cases (conforms.fits loaded).objects.of_get stored

end Documents

end Eamerald.Concurrency
