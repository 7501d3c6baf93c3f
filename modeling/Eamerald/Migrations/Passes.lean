import Eamerald.Migrations.Contents

/-! One pass of the migration, from a version to the next. It keeps what the file holds,
from version 0.0.6 on and when a manifest was set; otherwise it fails. -/

set_option autoImplicit false

namespace Eamerald.Migrations

open Foundation Store
open Bolt (Key Bucket metadataKey bodyKey modelKey objKeyOf subKeyOf objectPlace maxKeySize)
open Directory (Library)

section Manifests

variable {ω μ : Type} {library : Library μ} {codecs : Codecs ω} {bucket : Bucket ω}
  {metadata : Metadata} {body : Body} {key : Key} {file : File ω}

theorem getElem?_insert_of_ne {other : Key} (value : ω) (different : key ≠ other) :
    (bucket.insert key value)[other]? = bucket[other]? := by
  rw [Std.ExtTreeMap.getElem?_insert, if_neg]
  exact fun same => different (Std.LawfulEqOrd.compare_eq_iff_eq.mp same)

theorem rowAt_congr {M : Type} {codec : Codec ω M} {other : Bucket ω}
    (same : other[key]? = bucket[key]?) : rowAt codec other key = rowAt codec bucket key := by
  rw [rowAt, rowAt, same]

theorem KeepsManifest.insert_model
    (keeps : KeepsManifest library codecs (some bucket) (some (metadata, body))) (value : ω) :
    KeepsManifest library codecs (some (bucket.insert modelKey value)) (some (metadata, body)) := by
  obtain ⟨_, ⟨⟩, keptBody, keptMetadata, _, loads⟩ := keeps
  refine ⟨_, rfl, ?_, ?_, by simp, loads⟩
  · rw [rowAt_congr (getElem?_insert_of_ne value (by decide))]
    exact keptBody
  · rw [rowAt_congr (getElem?_insert_of_ne value (by decide))]
    exact keptMetadata

theorem put_manifestKey (value : ω) (known : key ∈ [bodyKey, metadataKey, modelKey]) :
    Bolt.put bucket key value = .ok (bucket.insert key value) := by
  refine Bolt.put_of_fits value ?_ ?_
  · simp only [List.mem_cons, List.not_mem_nil, or_false] at known
    rcases known with rfl | rfl | rfl <;> decide
  · simp only [List.mem_cons, List.not_mem_nil, or_false] at known
    rcases known with rfl | rfl | rfl <;> decide

theorem setKey_manifestKey {path : Path} (found : file.bucket path = some bucket) (value : ω) (known : key ∈ [bodyKey, metadataKey, modelKey]) :
    setKey path key value file = .ok (file.assign path (some (bucket.insert key value))) := by
  simp [setKey, setBucket_of_some found, put_manifestKey value known, bind, Except.bind, pure,
    Except.pure]

theorem setKey_assign_manifestKey (file : File ω) (path : Path) (value : ω)
    (known : key ∈ [bodyKey, metadataKey, modelKey]) : setKey path key value (file.assign path (some bucket)) =
      .ok (file.assign path (some (bucket.insert key value))) := by
  rw [setKey_manifestKey ((bucket_assign ..).trans (if_pos rfl)) value known, assign_assign]

theorem rowAt_insert_self {M : Type} (codec : Codec ω M) (key : Key) (row : M) :
    rowAt codec (bucket.insert key (codec.marshal row)) key = some row := by
  rw [rowAt_insert, Function.update_self]

theorem copyKey_ok {source : Bucket ω} (target : Bucket ω) {value : ω}
    (stored : source[key]? = some value) (known : key ∈ [bodyKey, metadataKey, modelKey]) :
    Mig009.copyKey source key target = .ok (target.insert key value) := by
  rw [Mig009.copyKey, stored]
  exact put_manifestKey value known

theorem mig009_updateManifest_ok {rw : File ω} {target : Bucket ω}
    (source : KeepsManifest library codecs (file.bucket .manifestV1) (some (metadata, body)))
    (there : rw.bucket .manifestV2 = some target) :
    ∃ written, Mig009.updateManifest .manifestV1 .manifestV2 (some file) rw =
        .ok (rw.assign .manifestV2 (some written)) ∧
      KeepsManifest library codecs (some written) (some (metadata, body)) := by
  obtain ⟨bucket, found, storedBody, storedMetadata, hasModel, loads⟩ := source
  obtain ⟨bodyValue, bodyFound, bodyDecoded⟩ := rowAt_eq_some.mp storedBody
  obtain ⟨metadataValue, metadataFound, metadataDecoded⟩ := rowAt_eq_some.mp storedMetadata
  obtain ⟨modelValue, modelFound⟩ := Option.isSome_iff_exists.mp hasModel
  refine ⟨((target.insert bodyKey bodyValue).insert modelKey modelValue).insert metadataKey
    metadataValue, ?_, _, rfl, ?_, ?_, ?_, loads⟩
  · simp only [Mig009.updateManifest, setBucket_of_some found, setBucket_of_some there,
      copyKey_ok _ bodyFound (by simp), copyKey_ok _ modelFound (by simp),
      copyKey_ok _ metadataFound (by simp), bind, Except.bind, pure, Except.pure]
  · rw [rowAt_congr (getElem?_insert_of_ne _ (by decide)),
      rowAt_congr (getElem?_insert_of_ne _ (by decide))]
    exact rowAt_eq_some.mpr ⟨bodyValue, by simp, bodyDecoded⟩
  · exact rowAt_eq_some.mpr ⟨metadataValue, by simp, metadataDecoded⟩
  · rw [getElem?_insert_of_ne _ (by decide)]
    simp

theorem mig009_updateManifest_of_unset {rw : File ω} {target : Bucket ω}
    (there : rw.bucket .manifestV2 = some target)
    (unset : KeepsManifest library codecs (file.bucket .manifestV1) none) :
    ∃ error, Mig009.updateManifest .manifestV1 .manifestV2 (some file) rw = .error error := by
  unfold Mig009.updateManifest
  cases found : file.bucket .manifestV1 with
  | none => simp [setBucket_of_none found, bind, Except.bind]
  | some bucket =>
      simp [setBucket_of_some found, setBucket_of_some there,
        unset bucket found bodyKey (by simp), Mig009.copyKey, bind, Except.bind]

end Manifests

section Reload

@[simp] theorem runStages_createBucket {ω : Type} (path : Path) (backup : Option (File ω))
    (rest : List (Stage Err (File ω))) (rw : File ω) :
    runStages (createBucket path backup :: rest) rw = runStages rest (rw.create path) := rfl

@[simp] theorem runStages_deleteBucket {ω : Type} (path : Path) (backup : Option (File ω))
    (rest : List (Stage Err (File ω))) (rw : File ω) :
    runStages (deleteBucket path backup :: rest) rw = runStages rest (rw.delete path) := rfl

variable {ω μ : Type} [Wire ω μ] {library : Library μ} {texts : Texts ω} {version : Nat}
  {contents : Contents} {ro rw : File ω}

theorem migrateModelV1_ok (new : 7 ≤ version) (old : version < 9)
    (backup : WellFormed library texts version contents ro)
    (formed : WellFormed library texts version contents rw) (isSet : contents.manifest.isSome) :
    ∃ next, migrateModelV1 library (some ro) rw = .ok next ∧
      WellFormed library texts version contents next := by
  obtain ⟨⟨metadata, body⟩, manifest⟩ := Option.isSome_iff_exists.mp isSet
  have source := backup.manifest
  have target := formed.manifest
  rw [manifest, manifestPath, if_pos old] at source target
  obtain ⟨bucket, found, stored, _, _, model, loaded⟩ := source
  rw [codecsOf_of_le new] at stored
  dsimp only at stored
  obtain ⟨value, there, decoded⟩ := rowAt_eq_some.mp stored
  have loads : loadModelV1 library ro = .ok model := by
    simp [loadModelV1, found, there, decoded, loaded, bind, Except.bind]
  obtain ⟨current, present, _⟩ := id target
  rw [present] at target
  refine ⟨rw.assign .manifestV1 (some (current.insert modelKey (Wire.model.marshal model))), ?_, ?_⟩
  · simp [migrateModelV1, loads, present, put_manifestKey _ (show modelKey ∈ _ by simp), bind,
      Except.bind, pure, Except.pure]
  · refine ⟨(getVersion_congr (by simp)).trans formed.versioned, ?_, ?_, ?_, ?_, formed.coherent⟩
    · simpa using formed.objects
    · simpa using formed.relations
    · simpa using formed.subjects
    · rw [manifest, manifestPath, if_pos old, bucket_assign, if_pos rfl]
      exact target.insert_model _

theorem reload_step (new : 7 ≤ version) (old : version < 9)
    (backup : WellFormed library texts version contents ro) (isSet : contents.manifest.isSome)
    {step : Step ω} (member : step ∈ reload library) (formed : WellFormed library texts version contents rw) :
    ∃ next, step (some ro) rw = .ok next ∧ WellFormed library texts version contents next := by
  simp only [reload, List.mem_cons, List.not_mem_nil, or_false] at member
  rcases member with rfl | rfl | rfl | rfl | rfl | rfl
  · exact ⟨_, rfl, formed.create .system⟩
  · exact ⟨_, rfl, formed.create .manifestV1⟩
  · exact migrateModelV1_ok new old backup formed isSet
  · exact ⟨_, rfl, formed.create .objects⟩
  · exact ⟨_, rfl, formed.create .relationsObj⟩
  · exact ⟨_, rfl, formed.create .relationsSub⟩

theorem reload_fails {error : Err} (unloadable : loadModelV1 library ro = .error error)
    (rest : List (Stage Err (File ω))) (rw : File ω) :
    ∃ reached, runStages ((reload library).map (· (some ro)) ++ rest) rw = (.error error, reached) := by
  refine ⟨(rw.create .system).create .manifestV1, ?_⟩
  have fails : migrateModelV1 library (some ro) ((rw.create .system).create .manifestV1) =
      .error error := by
    simp [migrateModelV1, unloadable, bind, Except.bind]
  simp only [reload, List.map_cons, List.cons_append, runStages_createBucket]
  exact runStages_cons_error fails

end Reload

section Reencoding

variable {ω μ : Type} [Wire ω μ] {library : Library μ} {texts : Texts ω}
  {contents : Contents} {ro rw : File ω} {entries : List (Key × ω)}

theorem reencode_of_rowAt {M : Type} (wire : Codec ω M) {text : Codec ω M} {bucket : Bucket ω}
    {key : Key} {row : M} (stored : rowAt text bucket key = some row) :
    Mig007.reencode text wire bucket[key]? = .ok (wire.marshal row) := by
  obtain ⟨value, found, decoded⟩ := rowAt_eq_some.mp stored
  simp [Mig007.reencode, found, decoded, bind, Except.bind, pure, Except.pure]

theorem mig007_updateManifest_ok {metadata : Metadata} {body : Body} {target : Bucket ω}
    (source : KeepsManifest library (codecsOf texts 6) (ro.bucket .manifestV1) (some (metadata, body)))
    (there : rw.bucket .manifestV1 = some target) :
    ∃ written, Mig007.updateManifest texts .manifestV1 (some ro) rw =
        .ok (rw.assign .manifestV1 (some written)) ∧
      KeepsManifest library (codecsOf texts 7) (some written) (some (metadata, body)) := by
  obtain ⟨bucket, found, storedBody, storedMetadata, _, loads⟩ := source
  rw [codecsOf_of_lt (by decide)] at storedBody storedMetadata
  have encodedBody := reencode_of_rowAt Wire.body storedBody
  have encodedMetadata := reencode_of_rowAt Wire.metadata storedMetadata
  let withBody := target.insert bodyKey (Wire.body.marshal body)
  let withMetadata := withBody.insert metadataKey (Wire.metadata.marshal metadata)
  refine ⟨withMetadata.insert modelKey (bucket[modelKey]?.getD texts.blank), ?_, _, rfl, ?_, ?_, by simp,
    loads⟩
  · simp only [Mig007.updateManifest, setBucket_of_some found, encodedBody, encodedMetadata, bind,
      Except.bind]
    rw [setKey_manifestKey there _ (by simp)]
    dsimp only
    rw [setKey_assign_manifestKey rw .manifestV1 _ (by simp)]
    exact setKey_assign_manifestKey rw .manifestV1 _ (by simp)
  · rw [rowAt_congr (getElem?_insert_of_ne _ (by decide)),
      rowAt_congr (getElem?_insert_of_ne _ (by decide)), codecsOf_of_le le_rfl]
    exact rowAt_insert_self Wire.body bodyKey body
  · rw [rowAt_congr (getElem?_insert_of_ne _ (by decide)), codecsOf_of_le le_rfl]
    exact rowAt_insert_self Wire.metadata metadataKey metadata

theorem updateObject_entries (coherent : contents.Coherent)
    (rows : ∀ entry ∈ entries, ∃ object, texts.object.unmarshal entry.2 = .ok object ∧
      objectPlace object.ident = entry.1 ∧ contents.objects entry.1 = some object)
    {bucket : Bucket ω} {written : List Object} (there : rw.bucket .objects = some bucket)
    (filling : Filling Wire.object (fun object => objectPlace object.ident) contents.objects written bucket) :
    ∃ filled all, entries.foldlM (Mig007.updateObject texts) rw = .ok (rw.assign .objects (some filled)) ∧
      Filling Wire.object (fun object => objectPlace object.ident) contents.objects all filled ∧ written ⊆ all ∧
      ∀ entry ∈ entries, ∀ object, texts.object.unmarshal entry.2 = .ok object → object ∈ all := by
  induction entries generalizing rw bucket written with
  | nil =>
      refine ⟨bucket, written, ?_, filling, List.Subset.refl written, nofun⟩
      rw [assign_of_bucket there]
      rfl
  | cons entry entries ih =>
      obtain ⟨object, decoded, here, belongs⟩ := rows entry List.mem_cons_self
      let inserted := bucket.insert (objectPlace object.ident) (Wire.object.marshal object)
      have stored : Mig007.updateObject texts rw entry = .ok (rw.assign .objects (some inserted)) := by
        have fits := coherent.objects_fit entry.1 object belongs
        rw [← here] at fits
        simp [Mig007.updateObject, Mig007.reencode, decoded, bind, Except.bind, pure, Except.pure,
          ← here, setKey_of_fits there _ (Bolt.objectPlace_ne_nil object.ident) fits, inserted]
      have present : (rw.assign .objects (some inserted)).bucket .objects = some inserted := by simp
      have belongs : contents.objects (objectPlace object.ident) = some object := here ▸ belongs
      obtain ⟨filled, all, ran, done, kept, complete⟩ :=
        ih (fun other member => rows other (List.mem_cons_of_mem entry member)) present
          (filling.insert belongs)
      refine ⟨filled, all, ?_, done, fun other member => kept (List.mem_cons_of_mem object member), ?_⟩
      · rw [List.foldlM_cons, stored]
        exact ran.trans (by rw [assign_assign])
      · intro other member found again
        rcases List.mem_cons.mp member with rfl | later
        · cases decoded.symm.trans again
          exact kept List.mem_cons_self
        · exact complete other later found again

theorem updateRelation_entries (coherent : contents.Coherent)
    (rows : ∀ entry ∈ entries, ∃ relation, texts.relation.unmarshal entry.2 = .ok relation ∧
      objKeyOf relation.ident = entry.1 ∧ contents.relations entry.1 = some relation)
    {obj sub : Bucket ω} {written : List Relation} (objThere : rw.bucket .relationsObj = some obj)
    (subThere : rw.bucket .relationsSub = some sub)
    (objFilling : Filling Wire.relation (fun relation => objKeyOf relation.ident) contents.relations
      written obj)
    (subFilling : Filling Wire.relation (fun relation => subKeyOf relation.ident) contents.subjects
      written sub) : ∃ objFilled subFilled all, entries.foldlM (Mig007.updateRelation texts) rw =
        .ok ((rw.assign .relationsObj (some objFilled)).assign .relationsSub (some subFilled)) ∧
      Filling Wire.relation (fun relation => objKeyOf relation.ident) contents.relations all objFilled ∧
      Filling Wire.relation (fun relation => subKeyOf relation.ident) contents.subjects all subFilled ∧
      written ⊆ all ∧ ∀ entry ∈ entries, ∀ relation, texts.relation.unmarshal entry.2 = .ok relation →
        relation ∈ all := by
  induction entries generalizing rw obj sub written with
  | nil =>
      refine ⟨obj, sub, written, ?_, objFilling, subFilling, List.Subset.refl written, nofun⟩
      rw [assign_of_bucket objThere, assign_of_bucket subThere]
      rfl
  | cons entry entries ih =>
      obtain ⟨relation, decoded, here, belongs⟩ := rows entry List.mem_cons_self
      have fits := coherent.relations_fit entry.1 relation belongs
      rw [← here] at belongs fits
      let newObj := obj.insert (objKeyOf relation.ident) (Wire.relation.marshal relation)
      let newSub := sub.insert (subKeyOf relation.ident) (Wire.relation.marshal relation)
      let next := (rw.assign .relationsObj (some newObj)).assign .relationsSub (some newSub)
      have stored : Mig007.updateRelation texts rw entry = .ok next := by
        have subKept : (rw.assign .relationsObj (some newObj)).bucket .relationsSub = some sub := by
          simp [subThere]
        have subFits : byteLength (subKeyOf relation.ident) ≤ maxKeySize :=
          (Bolt.byteLength_subKeyOf relation.ident).trans_le fits
        simp [Mig007.updateRelation, decoded, bind, Except.bind,
          setKey_of_fits objThere _ (Bolt.objKeyOf_ne_nil relation.ident) fits,
          setKey_of_fits subKept _ (Bolt.subKeyOf_ne_nil relation.ident) subFits, newObj, newSub, next]
      obtain ⟨objFilled, subFilled, all, ran, objDone, subDone, kept, complete⟩ :=
        ih (fun other member => rows other (List.mem_cons_of_mem entry member))
          (show next.bucket .relationsObj = some newObj by simp [next])
          (show next.bucket .relationsSub = some newSub by simp [next])
          (objFilling.insert belongs) (subFilling.insert ((coherent.mirrored relation).mp belongs))
      refine ⟨objFilled, subFilled, all, ?_, objDone, subDone,
        fun other member => kept (List.mem_cons_of_mem relation member), ?_⟩
      · rw [List.foldlM_cons, stored]
        refine ran.trans (congrArg Except.ok (File.ext (funext fun path => ?_)))
        simp only [next, bucket_assign]
        split
        · rfl
        · split <;> rfl
      · intro other member found again
        rcases List.mem_cons.mp member with rfl | later
        · cases decoded.symm.trans again
          exact kept List.mem_cons_self
        · exact complete other later found again

section Entries

variable {M : Type} {codec : Codec ω M} {key : M → Key} {rows : Key → Option M} {bucket : Bucket ω}

theorem Keeps.entry (keeps : Keeps codec key rows (some bucket)) {entry : Key × ω}
    (member : entry ∈ bucket.toList) :
    ∃ row, codec.unmarshal entry.2 = .ok row ∧ key row = entry.1 ∧ rows entry.1 = some row := by
  obtain ⟨_, ⟨⟩, decodes, rfl⟩ := keeps
  have stored := Std.ExtTreeMap.mem_toList_iff_getElem?_eq_some.mp member
  obtain ⟨row, decoded, here⟩ := decodes entry.1 entry.2 stored
  exact ⟨row, decoded, here, decodes.rowAt_eq_some.mpr ⟨entry.2, stored, decoded⟩⟩

theorem Keeps.exists_entry (keeps : Keeps codec key rows (some bucket)) {place : Key} {row : M}
    (meant : rows place = some row) :
    key row = place ∧ ∃ entry ∈ bucket.toList, codec.unmarshal entry.2 = .ok row := by
  obtain ⟨_, ⟨⟩, decodes, rfl⟩ := keeps
  obtain ⟨value, stored, decoded⟩ := decodes.rowAt_eq_some.mp meant
  exact ⟨decodes.key_eq meant, (place, value),
    Std.ExtTreeMap.mem_toList_iff_getElem?_eq_some.mpr stored, decoded⟩

theorem Keeps.key_eq {stored : Option (Bucket ω)} (keeps : Keeps codec key rows stored) (place : Key)
    (row : M) (meant : rows place = some row) : key row = place := by
  obtain ⟨bucket, _, decodes, same⟩ := keeps
  exact decodes.key_eq ((congrFun same place).trans meant)

end Entries

theorem updateEncodingObjects_ok (coherent : contents.Coherent)
    (source : Keeps texts.object (fun object => objectPlace object.ident) contents.objects
      (ro.bucket .objects)) (empty : rw.bucket .objects = some ∅) :
    ∃ filled, Mig007.updateEncodingObjects texts (some ro) rw = .ok (rw.assign .objects (some filled)) ∧
      Keeps Wire.object (fun object => objectPlace object.ident) contents.objects (some filled) := by
  obtain ⟨bucket, found, _⟩ := id source
  rw [found] at source
  obtain ⟨filled, all, ran, filling, _, complete⟩ :=
    updateObject_entries coherent (fun entry member => source.entry member) empty
      (filling_empty _ _ _)
  refine ⟨filled, ?_, filled, rfl, filling.decodes, filling.rowAt_eq fun place object meant => ?_⟩
  · simpa [Mig007.updateEncodingObjects, setBucket_of_some found, bind, Except.bind] using ran
  · obtain ⟨here, entry, member, decoded⟩ := source.exists_entry meant
    exact ⟨complete entry member object decoded, here⟩

theorem updateEncodingRelations_ok (coherent : contents.Coherent)
    (source : Keeps texts.relation (fun relation => objKeyOf relation.ident) contents.relations
      (ro.bucket .relationsObj)) (keyed : ∀ place relation, contents.subjects place = some relation →
      subKeyOf relation.ident = place)
    (objEmpty : rw.bucket .relationsObj = some ∅) (subEmpty : rw.bucket .relationsSub = some ∅) :
    ∃ obj sub, Mig007.updateEncodingRelations texts (some ro) rw =
        .ok ((rw.assign .relationsObj (some obj)).assign .relationsSub (some sub)) ∧
      Keeps Wire.relation (fun relation => objKeyOf relation.ident) contents.relations (some obj) ∧
      Keeps Wire.relation (fun relation => subKeyOf relation.ident) contents.subjects (some sub) := by
  obtain ⟨bucket, found, _⟩ := id source
  rw [found] at source
  obtain ⟨obj, sub, all, ran, objFilling, subFilling, _, complete⟩ :=
    updateRelation_entries coherent (fun entry member => source.entry member) objEmpty subEmpty
      (filling_empty _ _ _) (filling_empty _ _ _)
  refine ⟨obj, sub, ?_, ⟨obj, rfl, objFilling.decodes, objFilling.rowAt_eq ?_⟩,
    ⟨sub, rfl, subFilling.decodes, subFilling.rowAt_eq ?_⟩⟩
  · simpa [Mig007.updateEncodingRelations, setBucket_of_some found, bind, Except.bind] using ran
  · intro place relation meant
    obtain ⟨here, entry, member, decoded⟩ := source.exists_entry meant
    exact ⟨complete entry member relation decoded, here⟩
  · intro place relation meant
    have here := keyed place relation meant
    -- the relation is also in the first order, which is the one that is read
    have mirrored := (coherent.mirrored relation).mpr (here ▸ meant)
    obtain ⟨_, entry, member, decoded⟩ := source.exists_entry mirrored
    exact ⟨complete entry member relation decoded, here⟩

end Reencoding

section Passes

variable {ω μ : Type} [Wire ω μ] {library : Library μ} {texts : Texts ω} {version : Nat}
  {contents : Contents} {file : File ω}

theorem reload_keeps (formed : WellFormed library texts 7 contents file) (isSet : contents.manifest.isSome) :
    ∃ final, runStages ((reload library).map (· (some file)) ++ [setVersion texts 8]) file =
        (.ok (), final) ∧ WellFormed library texts 8 contents final := by
  have commits : ∀ stage ∈ (reload library).map (· (some file)), ∀ rw,
      WellFormed library texts 7 contents rw →
        ∃ next, stage rw = .ok next ∧ WellFormed library texts 7 contents next := by
    intro stage member rw held
    obtain ⟨step, listed, rfl⟩ := List.mem_map.mp member
    exact reload_step (by decide) (by decide) formed isSet listed held
  obtain ⟨reached, ran, kept⟩ := exists_runStages commits formed
  obtain ⟨final, written, later⟩ := kept.setVersion (by decide)
    ((codecsOf_of_le (by decide)).trans (codecsOf_of_le (by decide)).symm) (show manifestPath 8 = _ from rfl)
  exact ⟨final, (runStages_append ran).trans (runStages_cons_ok written), later⟩

theorem reencoding_keeps (formed : WellFormed library texts 6 contents file)
    (isSet : contents.manifest.isSome) :
    ∃ final, runStages ((Mig007.fnMap texts).map (· (some file)) ++ [setVersion texts 7]) file =
        (.ok (), final) ∧ WellFormed library texts 7 contents final := by
  obtain ⟨⟨metadata, body⟩, manifest⟩ := Option.isSome_iff_exists.mp isSet
  have source := formed.manifest
  rw [manifest] at source
  have objects := formed.objects
  have relations := formed.relations
  have subjects := formed.subjects
  rw [codecsOf_of_lt (by decide)] at objects relations subjects
  let first := (((file.delete .system).create .system).delete .manifestV1).create .manifestV1
  have made : first.bucket .manifestV1 = some ∅ := by simp [first, File.create, File.delete]
  obtain ⟨manifested, updated, keepsManifest⟩ := mig007_updateManifest_ok source made
  let second := ((first.assign .manifestV1 (some manifested)).delete .objects).create .objects
  have made : second.bucket .objects = some ∅ := by simp [second, File.create, File.delete]
  obtain ⟨filled, refilled, keepsObjects⟩ := updateEncodingObjects_ok formed.coherent objects made
  let third := ((((second.assign .objects (some filled)).delete .relationsObj).create
    .relationsObj).delete .relationsSub).create .relationsSub
  have objMade : third.bucket .relationsObj = some ∅ := by simp [third, File.create, File.delete]
  have subMade : third.bucket .relationsSub = some ∅ := by simp [third, File.create, File.delete]
  obtain ⟨obj, sub, indexed, keepsRelations, keepsSubjects⟩ :=
    updateEncodingRelations_ok formed.coherent relations subjects.key_eq objMade subMade
  let last := (third.assign .relationsObj (some obj)).assign .relationsSub (some sub)
  have system : last.bucket .system = some ∅ := by
    simp [last, third, second, first, File.create, File.delete]
  obtain ⟨final, written, versioned, kept⟩ := setVersion_ok texts system 7
  refine ⟨final, ?_, versioned, ?_, ?_, ?_, ?_, formed.coherent⟩
  · simp only [Mig007.fnMap, List.map_cons, List.map_nil, List.cons_append, List.nil_append,
      runStages_deleteBucket, runStages_createBucket]
    rw [runStages_cons_ok updated]
    simp only [runStages_deleteBucket, runStages_createBucket]
    rw [runStages_cons_ok refilled]
    simp only [runStages_deleteBucket, runStages_createBucket]
    rw [runStages_cons_ok indexed]
    exact runStages_cons_ok written
  · rw [kept _ (by decide), codecsOf_of_le le_rfl]
    simpa [last, third, second, File.create, File.delete] using keepsObjects
  · rw [kept _ (by decide), codecsOf_of_le le_rfl]
    simpa [last] using keepsRelations
  · rw [kept _ (by decide), codecsOf_of_le le_rfl]
    simpa [last] using keepsSubjects
  · rw [manifest, kept _ (by decide)]
    simpa [last, third, second, File.create, File.delete, manifestPath] using keepsManifest

theorem moving_keeps (formed : WellFormed library texts 8 contents file) (isSet : contents.manifest.isSome) :
    ∃ final, runStages (Mig009.fnMap.map (· (some file)) ++ [setVersion texts 9]) file =
        (.ok (), final) ∧ WellFormed library texts 9 contents final := by
  obtain ⟨⟨metadata, body⟩, manifest⟩ := Option.isSome_iff_exists.mp isSet
  have source := formed.manifest
  rw [manifest] at source
  obtain ⟨system, there⟩ := exists_system formed.versioned (by decide)
  let first := ((file.create .system).delete .manifestV1).create .manifestV2
  have made : first.bucket .manifestV2 = some ((file.bucket .manifestV2).getD ∅) := by
    simp [first, File.create, File.delete]
  obtain ⟨moved, updated, keepsManifest⟩ := mig009_updateManifest_ok source made
  let second := first.assign .manifestV2 (some moved)
  have kept {path : Path} (rows : path = .objects ∨ path = .relationsObj ∨ path = .relationsSub) :
      second.bucket path = file.bucket path := by
    rcases rows with rfl | rfl | rfl <;> simp [second, first, File.create, File.delete]
  let last := ((second.create .objects).create .relationsObj).create .relationsSub
  have present : last.bucket .system = some system := by
    simp [last, second, first, File.create, File.delete, there]
  obtain ⟨final, written, versioned, same⟩ := setVersion_ok texts present 9
  have codecs : codecsOf texts 9 = codecsOf texts 8 :=
    (codecsOf_of_le (by decide)).trans (codecsOf_of_le (by decide)).symm
  refine ⟨final, ?_, versioned, ?_, ?_, ?_, ?_, formed.coherent⟩
  · simp only [Mig009.fnMap, List.map_cons, List.map_nil, List.cons_append, List.nil_append,
      runStages_deleteBucket, runStages_createBucket]
    rw [runStages_cons_ok updated]
    simp only [runStages_createBucket]
    exact runStages_cons_ok written
  · rw [same _ (by decide), codecs]
    refine ((Keeps.create ?_ .objects).create .relationsObj).create .relationsSub
    rw [kept (by simp)]
    exact formed.objects
  · rw [same _ (by decide), codecs]
    refine ((Keeps.create ?_ .objects).create .relationsObj).create .relationsSub
    rw [kept (by simp)]
    exact formed.relations
  · rw [same _ (by decide), codecs]
    refine ((Keeps.create ?_ .objects).create .relationsObj).create .relationsSub
    rw [kept (by simp)]
    exact formed.subjects
  · rw [manifest, same _ (by decide), codecs]
    refine ((KeepsManifest.create ?_ .objects).create .relationsObj).create .relationsSub
    simpa [second, manifestPath] using keepsManifest

theorem pass_keeps (low : 6 ≤ version) (high : version ≤ 8)
    (formed : WellFormed library texts version contents file) (isSet : contents.manifest.isSome) :
    ∃ stages final, stagesTo library texts (version + 1) (some file) = .ok stages ∧
      runStages stages file = (.ok (), final) ∧ WellFormed library texts (version + 1) contents final := by
  have cases : version = 6 ∨ version = 7 ∨ version = 8 := by omega
  rcases cases with rfl | rfl | rfl
  · obtain ⟨final, ran, kept⟩ := reencoding_keeps formed isSet
    exact ⟨_, final, rfl, ran, kept⟩
  · obtain ⟨final, ran, kept⟩ := reload_keeps formed isSet
    exact ⟨_, final, rfl, ran, kept⟩
  · obtain ⟨final, ran, kept⟩ := moving_keeps formed isSet
    exact ⟨_, final, rfl, ran, kept⟩

end Passes

section Failures

variable {ω μ : Type} [Wire ω μ] {library : Library μ} {texts : Texts ω} {version : Nat}
  {contents : Contents} {file : File ω}

/-- A text that is a body is not a protobuf message of that kind: its first byte opens a
group that no later byte closes. -/
def Texts.Apart (texts : Texts ω) : Prop :=
  ∀ value body, texts.body.unmarshal value = .ok body →
    ∃ error, (Wire.body (ω := ω)).unmarshal value = .error error

theorem loadModelV1_of_unset {codecs : Codecs ω}
    (unset : KeepsManifest library codecs (file.bucket .manifestV1) none) :
    ∃ error, loadModelV1 library file = .error error := by
  unfold loadModelV1
  cases found : file.bucket .manifestV1 with
  | none => exact ⟨_, rfl⟩
  | some bucket => simp [unset bucket found bodyKey (by simp)]

theorem loadModelV1_of_text (apart : texts.Apart) {metadata : Metadata} {body : Body}
    (isSet : KeepsManifest library ⟨texts.object, texts.relation, texts.metadata, texts.body⟩
      (file.bucket .manifestV1) (some (metadata, body))) :
    ∃ error, loadModelV1 library file = .error error := by
  obtain ⟨bucket, found, stored, _⟩ := isSet
  obtain ⟨value, there, decoded⟩ := rowAt_eq_some.mp stored
  obtain ⟨error, refused⟩ := apart value body decoded
  exact ⟨error, by simp [loadModelV1, found, there, refused, bind, Except.bind]⟩

theorem mig007_updateManifest_of_unset (texts : Texts ω) {codecs : Codecs ω} (rw : File ω)
    (unset : KeepsManifest library codecs (file.bucket .manifestV1) none) :
    ∃ error, Mig007.updateManifest texts .manifestV1 (some file) rw = .error error := by
  unfold Mig007.updateManifest
  cases found : file.bucket .manifestV1 with
  | none => simp [setBucket_of_none found, bind, Except.bind]
  | some bucket =>
      simp [setBucket_of_some found, unset bucket found bodyKey (by simp), Mig007.reencode, bind,
        Except.bind]

theorem pass_fails (apart : texts.Apart) (low : 4 ≤ version) (high : version ≤ 8)
    (formed : WellFormed library texts version contents file)
    (excluded : ¬(6 ≤ version ∧ contents.manifest.isSome)) :
    ∃ stages error reached, stagesTo library texts (version + 1) (some file) = .ok stages ∧
      runStages stages file = (.error error, reached) := by
  have source := formed.manifest
  have early : version < 9 := by omega
  rw [manifestPath, if_pos early] at source
  have unset (later : 6 ≤ version) :
      KeepsManifest library (codecsOf texts version) (file.bucket .manifestV1) none := by
    cases manifest : contents.manifest with
    | none => exact manifest ▸ source
    | some _ => exact absurd ⟨later, by rw [manifest]; rfl⟩ excluded
  have reloads {error : Err} (unloadable : loadModelV1 library file = .error error)
      (known : migMap library texts (version + 1) = some (reload library)) :
      ∃ stages error reached, stagesTo library texts (version + 1) (some file) = .ok stages ∧
        runStages stages file = (.error error, reached) := by
    obtain ⟨reached, ran⟩ := reload_fails unloadable [setVersion texts (version + 1)] file
    exact ⟨_, error, reached, by rw [stagesTo, known], ran⟩
  have cases : version < 6 ∨ version = 6 ∨ version = 7 ∨ version = 8 := by omega
  rcases cases with old | rfl | rfl | rfl
  · -- the body is a text, and it is read as a message
    have unloadable : ∃ error, loadModelV1 library file = .error error := by
      have text : version < 7 := by omega
      rw [codecsOf_of_lt text] at source
      cases manifest : contents.manifest with
      | none => exact loadModelV1_of_unset (manifest ▸ source)
      | some manifest => exact loadModelV1_of_text apart (manifest ▸ source)
    obtain ⟨error, unloadable⟩ := unloadable
    refine reloads unloadable ?_
    have cases : version = 4 ∨ version = 5 := by omega
    rcases cases with rfl | rfl <;> rfl
  · let made := (((file.delete .system).create .system).delete .manifestV1).create .manifestV1
    obtain ⟨error, refused⟩ := mig007_updateManifest_of_unset texts made (unset (by decide))
    refine ⟨_, error, made, rfl, ?_⟩
    simp only [Mig007.fnMap, List.map_cons, List.cons_append, runStages_deleteBucket,
      runStages_createBucket]
    exact runStages_cons_error refused
  · obtain ⟨error, unloadable⟩ := loadModelV1_of_unset (unset (by decide))
    exact reloads unloadable rfl
  · let made := ((file.create .system).delete .manifestV1).create .manifestV2
    have there : made.bucket .manifestV2 = some ((file.bucket .manifestV2).getD ∅) := by
      simp [made, File.create, File.delete]
    obtain ⟨error, refused⟩ := mig009_updateManifest_of_unset there (unset (by decide))
    refine ⟨_, error, made, rfl, ?_⟩
    simp only [Mig009.fnMap, List.map_cons, List.cons_append, runStages_deleteBucket,
      runStages_createBucket]
    exact runStages_cons_error refused

end Failures

end Eamerald.Migrations
