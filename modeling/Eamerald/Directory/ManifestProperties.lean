import Eamerald.Directory.Manifest
import Eamerald.Directory.StatsProperties
import Eamerald.Bolt.Agreement
import Eamerald.Bolt.Rows

/-! What the manifest transactions do to a Bolt file. A successful one puts a
manifest with its model in place of any other; setting leaves all rows as they
are, deleting removes them. -/

set_option autoImplicit false

namespace Eamerald.Directory

open Foundation Store Bolt

variable {ω μ : Type} [Wire ω μ] {library : Library μ} {after : BoltDB ω}

section Reading

def readManifest (db : BoltDB ω) : Except Err (Metadata × Body) :=
  if Bolt.manifestExists db then do
    let metadata ← Bolt.get Wire.metadata .manifest metadataKey db
    let body ← Bolt.get Wire.body .manifest bodyKey db
    return (metadata, body)
  else .error errPathNotFound

theorem run_getManifest (db : BoltDB ω) : (getManifest (μ := μ)).run backend db = (readManifest db, db) := by
  simp only [getManifest, Directory.manifestExists, Program.bind_eq, Program.run_bind,
    Program.run_lift, Program.run_attempt, exec_manifestExists, readManifest]
  cases Bolt.manifestExists db with
  | false => rfl
  | true =>
      simp only [Program.run_pure, Bool.not_true, Bool.false_eq_true, ↓reduceIte, Program.run_bind,
        Program.run_lift, exec_getManifestMetadata, exec_getManifestBody]
      cases Bolt.get Wire.metadata .manifest metadataKey db with
      | error error => rfl
      | ok metadata =>
          dsimp only
          cases Bolt.get Wire.body .manifest bodyKey db <;> rfl

theorem view_localEtag (db : BoltDB ω) : view backend (localEtag (μ := μ)) db =
      match readManifest db with
      | .ok (metadata, _) => .ok metadata.etag
      | .error error =>
          if error.isNotFound then .ok [] else .error (.engine "failed to get manifest") := by
  simp only [view, localEtag, Program.bind_eq, Program.run_bind, Program.run_attempt,
    run_getManifest]
  cases readManifest db with
  | ok stored => rfl
  | error error =>
      dsimp only
      split <;> rfl

theorem view_serveManifest (db : BoltDB ω) : view backend (serveManifest (μ := μ)) db =
      match readManifest db with
      | .ok stored => .ok stored
      | .error error =>
          if error.isNotFound then .ok ({}, ⟨[]⟩) else .error (.engine "failed to get manifest") := by
  simp only [view, serveManifest, Program.bind_eq, Program.run_bind, Program.run_attempt,
    run_getManifest]
  cases readManifest db with
  | ok stored => rfl
  | error error =>
      dsimp only
      split <;> rfl

theorem view_loadModel (db : BoltDB ω) : view backend (loadModel (μ := μ)) db =
      if Bolt.manifestExists db then
        match Bolt.get Wire.model .manifest modelKey db with
        | .ok model => .ok (some model)
        | .error error => if error.isNotFound then .ok none else .error error
      else .ok none := by
  simp only [view, loadModel, Program.bind_eq, Program.run_bind, Program.run_lift,
    exec_manifestExists]
  cases Bolt.manifestExists db with
  | false => rfl
  | true =>
      simp only [Program.run_bind, Program.run_attempt, Program.run_lift, Bool.not_true,
        Bool.false_eq_true, ↓reduceIte, exec_getManifestModel]
      cases Bolt.get Wire.model .manifest modelKey db with
      | ok model => rfl
      | error error =>
          dsimp only
          split <;> rfl

section Congruence

variable {db other : BoltDB ω} (same : db.bucket .manifest = other.bucket .manifest)

include same

theorem manifestExists_congr : Bolt.manifestExists db = Bolt.manifestExists other := by
  unfold Bolt.manifestExists
  rw [same]

theorem readManifest_congr : readManifest db = readManifest other := by
  unfold readManifest
  rw [manifestExists_congr same, get_congr metadataKey same, get_congr bodyKey same]

theorem localEtag_congr : view backend (localEtag (μ := μ)) db = view backend (localEtag (μ := μ)) other := by
  rw [view_localEtag, view_localEtag, readManifest_congr same]

theorem serveManifest_congr :
    view backend (serveManifest (μ := μ)) db = view backend (serveManifest (μ := μ)) other := by
  rw [view_serveManifest, view_serveManifest, readManifest_congr same]

theorem startupModel_congr : startupModel library backend db = startupModel library backend other := by
  have loaded : view backend (loadModel (μ := μ)) db = view backend (loadModel (μ := μ)) other := by
    rw [view_loadModel, view_loadModel, manifestExists_congr same, get_congr modelKey same]
  rw [startupModel, loaded, startupModel]

end Congruence

end Reading

section Writing

def manifestBucket (bucket : Bucket ω) (metadata : Metadata) (body : Body) (model : μ) : Bucket ω :=
  ((bucket.insert metadataKey (Wire.metadata.marshal metadata)).insert bodyKey
    (Wire.body.marshal body)).insert modelKey (Wire.model.marshal model)

/-- The store with this manifest and model in place of any other. -/
def withManifest (db : BoltDB ω) (metadata : Metadata) (body : Body) (model : μ) : BoltDB ω :=
  db.assign .manifest (some (manifestBucket ((db.bucket .manifest).getD ∅) metadata body model))

variable (db : BoltDB ω) (metadata : Metadata) (body : Body) (model : μ)

theorem bucket_withManifest {path : Path} (apart : path ≠ .manifest) :
    (withManifest db metadata body model).bucket path = db.bucket path :=
  bucket_assign_of_ne db _ apart

theorem bucket_withManifest_self : (withManifest db metadata body model).bucket .manifest =
      some (manifestBucket ((db.bucket .manifest).getD ∅) metadata body model) :=
  bucket_assign_self db .manifest _

theorem manifestExists_withManifest : Bolt.manifestExists (withManifest db metadata body model) = true := by
  unfold Bolt.manifestExists
  rw [bucket_withManifest_self]
  rfl

theorem readManifest_withManifest :
    readManifest (withManifest db metadata body model) = .ok (metadata, body) := by
  have found := bucket_withManifest_self db metadata body model
  have storedMetadata : Bolt.get Wire.metadata .manifest metadataKey
      (withManifest db metadata body model) = .ok metadata := by
    rw [get_of_some metadataKey found, manifestBucket, Std.ExtTreeMap.getElem?_insert,
      if_neg (by decide), Std.ExtTreeMap.getElem?_insert, if_neg (by decide),
      Std.ExtTreeMap.getElem?_insert_self]
    exact Wire.metadata.unmarshal_marshal metadata
  have storedBody : Bolt.get Wire.body .manifest bodyKey
      (withManifest db metadata body model) = .ok body := by
    rw [get_of_some bodyKey found, manifestBucket, Std.ExtTreeMap.getElem?_insert,
      if_neg (by decide), Std.ExtTreeMap.getElem?_insert_self]
    exact Wire.body.unmarshal_marshal body
  rw [readManifest, manifestExists_withManifest, storedMetadata, storedBody]
  rfl

theorem localEtag_withManifest : view backend (localEtag (μ := μ)) (withManifest db metadata body model) =
      .ok metadata.etag := by
  rw [view_localEtag, readManifest_withManifest]

theorem serveManifest_withManifest :
    view backend (serveManifest (μ := μ)) (withManifest db metadata body model) =
      .ok (metadata, body) := by
  rw [view_serveManifest, readManifest_withManifest]

theorem startupModel_withManifest :
    startupModel library backend (withManifest db metadata body model) = .ok model := by
  have stored : Bolt.get Wire.model .manifest modelKey
      (withManifest db metadata body model) = .ok model := by
    rw [get_of_some modelKey (bucket_withManifest_self db metadata body model)]
    simp [manifestBucket]
  rw [startupModel, view_loadModel, manifestExists_withManifest, stored]
  rfl

theorem createBucket_found (path : Path) :
    (createBucket path db).bucket path = some ((db.bucket path).getD ∅) := by
  unfold createBucket
  cases found : db.bucket path with
  | none => simp
  | some bucket => simp [found]

theorem assign_createBucket (path : Path) (bucket : Option (Bucket ω)) :
    (createBucket path db).assign path bucket = db.assign path bucket := by
  unfold createBucket
  cases db.bucket path with
  | none => simp [BoltDB.assign]
  | some existing => rfl

theorem setManifest_setManifestModel : ∃ middle, Bolt.setManifest metadata body db = (.ok (), middle) ∧
      Bolt.setManifestModel model middle = (.ok (), withManifest db metadata body model) := by
  refine ⟨db.assign .manifest (some ((((db.bucket .manifest).getD ∅).insert metadataKey
    (Wire.metadata.marshal metadata)).insert bodyKey (Wire.body.marshal body))), ?_, ?_⟩
  · unfold Bolt.setManifest
    rw [set_of_fits metadata (createBucket_found db .manifest) (by decide) (by decide),
      assign_createBucket]
    dsimp only
    rw [set_of_fits body (bucket_assign_self db .manifest _) (by decide) (by decide)]
    simp [BoltDB.assign]
  · unfold Bolt.setManifestModel
    rw [set_of_fits model (bucket_assign_self db .manifest _) (by decide) (by decide)]
    simp [withManifest, manifestBucket, BoltDB.assign]

end Writing

section Transactions

variable {db : BoltDB ω} {metadata : Metadata}

theorem reporting_ok {α σ : Type} {backend : Backend μ σ} {context : String} {program : Tx μ α}
    {before after : σ} {value : α}
    (ran : (reporting library context program).run backend before = (.ok value, after)) :
    program.run backend before = (.ok value, after) := by
  obtain ⟨outcome, state, attempted, reported⟩ := Program.run_bind_ok ran
  rw [Program.run_attempt] at attempted
  cases attempted
  cases performed : program.run backend before with
  | mk outcome state =>
      rw [performed] at reported
      cases outcome with
      | error error => cases reported
      | ok found =>
          cases reported
          rfl

theorem run_calculateStats {stats : Stats}
    (ran : (calculateStats (μ := μ)).run backend db = (.ok stats, after)) :
    after = db ∧ ∃ objects relations, db.bucket .objects = some objects ∧
      db.bucket .relationsObj = some relations ∧
      stats = tally (rows Wire.object .zero objects) (rows Wire.relation .zero relations) := by
  obtain ⟨counted, state, first, second⟩ := Program.run_bind_ok ran
  obtain ⟨objectIterator, _, objectScan, countedObjects⟩ := Program.run_bind_ok first
  obtain ⟨relationIterator, _, relationScan, countedRelations⟩ := Program.run_bind_ok second
  obtain ⟨objectsScanned, rfl⟩ := Prod.mk.inj objectScan
  cases countedObjects
  obtain ⟨relationsScanned, rfl⟩ := Prod.mk.inj relationScan
  cases countedRelations
  obtain ⟨objects, objectsFound, objectValues⟩ := scanIterator_all _ _ objectsScanned
  obtain ⟨relations, relationsFound, relationValues⟩ := scanIterator_all _ _ relationsScanned
  refine ⟨rfl, objects, relations, objectsFound, relationsFound, ?_⟩
  rw [objectValues, relationValues, tally]

theorem writeManifest_ok {setting storing : String} {body : Body} {next : μ}
    (ran : (do reporting library setting (Program.lift (.setManifest metadata body))
               reporting library storing (setModel library metadata next) : Tx μ Unit).run
      backend db = (.ok (), after)) :
    after = withManifest db metadata body (library.withMetadata next metadata) := by
  obtain ⟨_, written, manifestSet, modelSet⟩ := Program.run_bind_ok ran
  obtain ⟨middle, stored, modelStored⟩ := setManifest_setManifestModel db metadata body
    (library.withMetadata next metadata)
  have first := (reporting_ok manifestSet).symm.trans stored
  cases first
  have second := (reporting_ok modelSet).symm.trans modelStored
  cases second
  rfl

theorem setManifestTx_ok {cached next : μ} {data : Bytes}
    (succeeded : update backend (setManifestTx library cached next metadata data) db = (.ok (), after)) :
    (∃ objects relations, db.bucket .objects = some objects ∧ db.bucket .relationsObj = some relations ∧
      library.canUpdate cached next
        (tally (rows Wire.object .zero objects) (rows Wire.relation .zero relations)) = .ok ()) ∧
      after = withManifest db metadata ⟨data⟩ (library.withMetadata next metadata) := by
  obtain ⟨stats, state, counted, checking⟩ := Program.run_bind_ok (Program.commit_ok.mp succeeded)
  obtain ⟨unchanged, objects, relations, objectsFound, relationsFound, rfl⟩ :=
    run_calculateStats (reporting_ok counted)
  rw [unchanged] at checking
  obtain ⟨_, allowed, writing⟩ := Program.run_check_ok checking
  exact ⟨⟨objects, relations, objectsFound, relationsFound, allowed⟩, writeManifest_ok writing⟩

theorem reporting_of_ok {α : Type} (context : String) {program : Tx μ α} {before : BoltDB ω}
    {value : α} (ran : program.run backend before = (.ok value, after)) :
    (reporting library context program).run backend before = (.ok value, after) := by
  simp only [reporting, Program.bind_eq, Program.run_bind, Program.run_attempt, ran]
  rfl

section Updates

variable {cached next : μ} {metadata : Metadata} {data : Bytes} {db : BoltDB ω} {stats : Stats}
  (counted : (calculateStats (μ := μ)).run backend db = (.ok stats, db))

include counted

theorem update_setManifestTx_of_allowed (allowed : library.canUpdate cached next stats = .ok ()) :
    update backend (setManifestTx library cached next metadata data) db =
      (.ok (), withManifest db metadata ⟨data⟩ (library.withMetadata next metadata)) := by
  obtain ⟨middle, written, modelWritten⟩ := setManifest_setManifestModel db metadata ⟨data⟩
    (library.withMetadata next metadata)
  have first : (Program.lift (TxOp.setManifest (μ := μ) metadata ⟨data⟩)).run backend db =
      (.ok (), middle) := written
  have second : (setModel library metadata next).run backend middle =
      (.ok (), withManifest db metadata ⟨data⟩ (library.withMetadata next metadata)) := modelWritten
  refine Program.commit_ok.mpr ?_
  simp only [setManifestTx, Program.bind_eq, Program.run_bind, reporting_of_ok _ counted, allowed,
    Program.run_done, reporting_of_ok _ first, reporting_of_ok _ second]

theorem update_setManifestTx_of_refused {error : Err}
    (refused : library.canUpdate cached next stats = .error error) :
    update backend (setManifestTx library cached next metadata data) db = (.error error, db) := by
  have ran : (setManifestTx library cached next metadata data).run backend db = (.error error, db) := by
    simp only [setManifestTx, Program.bind_eq, Program.run_bind, reporting_of_ok _ counted, refused,
      Program.run_done]
  rw [update, Program.commit, ran]

end Updates

theorem run_ifMatchStored (ifMatch : GoString) (db : BoltDB ω) :
    ((ifMatchStored (μ := μ) ifMatch).run backend db).2 = db := by
  unfold ifMatchStored
  split
  · rfl
  · simp only [Program.bind_eq, Program.run_bind, Program.run_attempt, run_getManifest]
    cases readManifest db with
    | error error => rfl
    | ok stored =>
        dsimp only
        split <;> rfl

/-- There was no manifest to compare the header with, or an empty one is all that is left. -/
theorem deleteManifestTx_ok {ifMatch : GoString} {empty : μ}
    (succeeded : update backend (deleteManifestTx library ifMatch empty metadata) db = (.ok (), after)) :
    after = db ∨ after = withManifest emptyDB metadata ⟨[]⟩ (library.withMetadata empty metadata) := by
  obtain ⟨proceed, state, matched, deleting⟩ := Program.run_bind_ok (Program.commit_ok.mp succeeded)
  have unchanged : state = db := by
    rw [← run_ifMatchStored (μ := μ) ifMatch db, matched]
  rw [unchanged] at deleting
  cases proceed with
  | false =>
      cases deleting
      exact .inl rfl
  | true =>
      obtain ⟨_, wiped, deleted, writing⟩ := Program.run_bind_ok deleting
      have empties : deleteManifest db = wiped := (Prod.mk.inj (reporting_ok deleted)).2
      rw [← empties, deleteManifest_eq] at writing
      exact .inr (writeManifest_ok writing)

end Transactions

end Eamerald.Directory
