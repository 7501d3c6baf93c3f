import Eamerald.Bolt.Indexes
import Eamerald.Bolt.Rows
import Eamerald.Store.Policy

/-! The invariant that the two relation indexes agree, as a contract of the
transaction operations: writes are of storable relations, and then scans only
return storable relations. -/

set_option autoImplicit false

namespace Eamerald.Bolt

open Foundation Store

theorem Storable.separate {left right : RelationIdentifier} (storable : Storable left)
    (otherStorable : Storable right) : Mirrors.Separate left right := by
  intro direction same
  cases direction with
  | byObject =>
      rcases (KeyFields.key_eq_iff storable.names.objFields otherStorable.names.objFields).mp same
        with equal | reads | reads
      · exact objFields_injective equal
      · rcases reads.separator_mem with present | present
        · exact False.elim (storable.subjectId present)
        · exact False.elim (otherStorable.objectId present)
      · rcases reads.separator_mem with present | present
        · exact False.elim (otherStorable.subjectId present)
        · exact False.elim (storable.objectId present)
  | bySubject =>
      rcases (KeyFields.key_eq_iff storable.names.subFields otherStorable.names.subFields).mp same
        with equal | reads | reads
      · exact subFields_injective equal
      · rcases reads.separator_mem with present | present
        · exact False.elim (storable.objectId present)
        · exact False.elim (otherStorable.subjectId present)
      · rcases reads.separator_mem with present | present
        · exact False.elim (otherStorable.objectId present)
        · exact False.elim (storable.subjectId present)

section Frames

variable {ω : Type}

def Touches (path : Path) (db written : BoltDB ω) : Prop :=
  written = db ∨ ∃ bucket, written = db.assign path (some bucket)

theorem touches_set {M : Type} (codec : Codec ω M) (path : Path) (key : Key) (message : M)
    (db : BoltDB ω) : Touches path db (set codec path key message db).2 := by
  rcases set_state codec path key message db with same | ⟨bucket, _, written⟩
  · exact .inl same
  · exact .inr ⟨_, written⟩

theorem touches_deleteKey (path : Path) (key : Key) (db : BoltDB ω) :
    Touches path db (deleteKey path key db).2 := by
  rcases deleteKey_state path key db with same | ⟨bucket, _, written⟩
  · exact .inl same
  · exact .inr ⟨_, written⟩

theorem touches_createBucket (path : Path) (db : BoltDB ω) : Touches path db (createBucket path db) := by
  unfold createBucket
  cases db.bucket path with
  | none => exact .inr ⟨∅, rfl⟩
  | some bucket => exact .inl rfl

theorem Touches.bucket {path other : Path} {db written : BoltDB ω} (touches : Touches path db written)
    (different : other ≠ path) : written.bucket other = db.bucket other := by
  rcases touches with rfl | ⟨bucket, rfl⟩
  · rfl
  · exact bucket_assign_of_ne db _ different

theorem Touches.trans {path : Path} {db middle written : BoltDB ω} (first : Touches path db middle)
    (second : Touches path middle written) : Touches path db written := by
  rcases second with rfl | ⟨bucket, rfl⟩
  · exact first
  · rcases first with rfl | ⟨replaced, rfl⟩
    · exact .inr ⟨bucket, rfl⟩
    · exact .inr ⟨bucket, by simp [BoltDB.assign]⟩

variable {μ : Type} [Wire ω μ]

theorem touches_setManifest (metadata : Metadata) (body : Body) (db : BoltDB ω) :
    Touches .manifest db (setManifest metadata body db).2 := by
  have first := (touches_createBucket .manifest db).trans
    (touches_set Wire.metadata .manifest metadataKey metadata _)
  unfold setManifest
  cases performed : set Wire.metadata .manifest metadataKey metadata (createBucket .manifest db) with
  | mk outcome written =>
      rw [performed] at first
      cases outcome with
      | error error => exact first
      | ok stored =>
          have second := first.trans (touches_set Wire.body .manifest bodyKey body _)
          cases again : set Wire.body .manifest bodyKey body written with
          | mk outcome rewritten =>
              simp only [again] at second ⊢
              cases outcome <;> exact second

theorem touches_setManifestModel (model : μ) (db : BoltDB ω) :
    Touches .manifest db (setManifestModel model db).2 := by
  have first := touches_set Wire.model .manifest modelKey model db
  unfold setManifestModel
  cases performed : set Wire.model .manifest modelKey model db with
  | mk outcome written =>
      rw [performed] at first
      cases outcome <;> exact first

end Frames

section Contracts

variable {ω μ : Type} [Wire ω μ]

/-- Both indexes hold the same storable relations. -/
def Agree (db : BoltDB ω) : Prop :=
  ∃ relations, Mirrors db relations ∧ ∀ relation ∈ relations, Storable relation.ident

def storableOnly : RowPolicy := ⟨fun _ _ => True, Storable, Storable, True⟩

theorem agree_emptyDB : Agree (emptyDB : BoltDB ω) := ⟨∅, mirrors_emptyDB, by simp⟩

variable {db : BoltDB ω}

theorem Agree.of_frame {path : Path} {written : BoltDB ω} (agree : Agree db)
    (apart : ∀ direction, directionPath direction ≠ path)
    (frame : Touches path db written) : Agree written := by
  obtain ⟨relations, mirrors, storable⟩ := agree
  rcases frame with rfl | ⟨bucket, rfl⟩
  · exact ⟨relations, mirrors, storable⟩
  · exact ⟨relations, mirrors.assign _ apart, storable⟩

theorem Agree.setRelation (agree : Agree db) {relation : Relation}
    (storable : Storable relation.ident) : Agree (Bolt.setRelation relation db).2 := by
  obtain ⟨relations, mirrors, stored⟩ := agree
  by_cases fits : byteLength (objKeyOf relation.ident) ≤ maxKeySize
  · obtain ⟨written, performed, mirrored⟩ := mirrors.setRelation fits fun other member =>
      (stored other member).separate storable
    rw [performed]
    refine ⟨_, mirrored, ?_⟩
    intro other member
    rcases Finset.mem_insert.mp member with rfl | kept
    · exact storable
    · exact stored other (Finset.mem_of_mem_filter other kept)
  · obtain ⟨obj, _, objFound, _⟩ := mirrors.ready
    rw [setRelation_of_tooLarge relation objFound (Nat.lt_of_not_le fits)]
    exact ⟨relations, mirrors, stored⟩

theorem Agree.deleteRelation (agree : Agree db) {ident : RelationIdentifier}
    (storable : Storable ident) : Agree (Bolt.deleteRelation ident db).2 := by
  obtain ⟨relations, mirrors, stored⟩ := agree
  obtain ⟨written, performed, mirrored⟩ := mirrors.deleteRelation fun other member =>
    (stored other member).separate storable
  rw [performed]
  exact ⟨_, mirrored, fun other kept => stored other (Finset.mem_of_mem_filter other kept)⟩

theorem Agree.of_manifest {written : BoltDB ω} (agree : Agree db)
    (frame : Touches .manifest db written) : Agree written := by
  refine agree.of_frame (fun direction => ?_) frame
  cases direction <;> decide

theorem deleteManifest_eq (db : BoltDB ω) : deleteManifest db = emptyDB := by
  ext path key
  cases path <;> simp [deleteManifest, createBucket, deleteBucket, BoltDB.assign, emptyDB]

theorem Agree.scanRelations (agree : Agree db) (direction : Direction) (filter : RelationFilter)
    (pageToken : GoString) {iterator : Iterator Relation}
    (scanned : Bolt.scanRelations direction filter pageToken db = .ok iterator) :
    ∀ relation ∈ iterator.values, Storable relation.ident := by
  obtain ⟨relations, mirrors, storable⟩ := agree
  obtain ⟨bucket, found, tabulates⟩ := mirrors direction
  simp only [Bolt.scanRelations, scanIterator, setBucket_of_some found, Except.ok.injEq] at scanned
  subst scanned
  intro relation member
  simp only [Iterator.values, List.map_map, List.mem_map, Function.comp_apply] at member
  obtain ⟨entry, visited, rfl⟩ := member
  obtain ⟨stored, present, rfl⟩ := tabulates.mem_toList.mp (mem_toList_of_mem_scan visited)
  simpa [Except.toOption] using storable stored present

theorem backend_honours_storableOnly :
    (backend : Backend μ (BoltDB ω)).Honours storableOnly.contract Agree := by
  have apart : ∀ direction, directionPath direction ≠ .objects := by
    intro direction
    cases direction <;> decide
  intro β op db agree allowed
  cases op with
  | setObject object =>
      exact ⟨agree.of_frame apart (touches_set Wire.object .objects _ object db), trivial⟩
  | deleteObject objectType objectId =>
      exact ⟨agree.of_frame apart (touches_deleteKey .objects _ db), trivial⟩
  | setRelation relation => exact ⟨agree.setRelation allowed, trivial⟩
  | deleteRelation ident => exact ⟨agree.deleteRelation allowed, trivial⟩
  | setManifest metadata body =>
      exact ⟨agree.of_manifest (touches_setManifest metadata body db), trivial⟩
  | setManifestModel model =>
      exact ⟨agree.of_manifest (touches_setManifestModel model db), trivial⟩
  | deleteManifest =>
      refine ⟨?_, trivial⟩
      change Agree (deleteManifest db)
      rw [deleteManifest_eq]
      exact agree_emptyDB
  | scanRelations direction filter pageToken =>
      exact ⟨agree, fun iterator scanned => agree.scanRelations direction filter pageToken scanned⟩
  | getObject | scanObjects | getRelationExact | scanRelationsFiltered | relationsExistForObject
  | manifestExists | getManifestMetadata | getManifestBody | getManifestModel =>
      exact ⟨agree, trivial⟩

end Contracts

end Eamerald.Bolt
