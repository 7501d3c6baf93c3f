import Eamerald.Bolt.TxProperties
import Eamerald.Store.Policy

/-! The rows of a bucket. Every value in it is meant to decode, and a property of
all decoded rows is kept by writing rows that have it and by removing rows. -/

set_option autoImplicit false

namespace Eamerald.Bolt

open Foundation Store

variable {ω M : Type} {db : BoltDB ω} {path : Path} {codec : Codec ω M} {message : M} {key : Key}

section Writes

variable {other : Path}

theorem put_ok {bucket written : Bucket ω} {value : ω}
    (stored : put bucket key value = .ok written) : written = bucket.insert key value := by
  unfold put at stored
  split at stored
  · cases stored
  · split at stored
    · cases stored
    · cases stored
      rfl

theorem set_state (codec : Codec ω M) (path : Path) (key : Key) (message : M) (db : BoltDB ω) :
    (set codec path key message db).2 = db ∨
      ∃ bucket, db.bucket path = some bucket ∧ (set codec path key message db).2 =
        db.assign path (some (bucket.insert key (codec.marshal message))) := by
  unfold set setKey setBucket
  cases found : db.bucket path with
  | none => exact .inl rfl
  | some bucket =>
      dsimp only
      cases stored : put bucket key (codec.marshal message) with
      | error error => exact .inl rfl
      | ok written =>
          refine .inr ⟨bucket, rfl, ?_⟩
          rw [put_ok stored]

theorem get_congr (key : Key) {other : BoltDB ω} (same : db.bucket path = other.bucket path) :
    get codec path key db = get codec path key other := by
  unfold get getKey setBucket
  rw [same]

theorem get_of_set {stored : M}
    {after : BoltDB ω} (written : set codec path key message db = (.ok stored, after)) :
    get codec path key after = .ok message := by
  unfold set setKey setBucket at written
  cases found : db.bucket path with
  | none =>
      rw [found] at written
      cases written
  | some bucket =>
      rw [found] at written
      dsimp only at written
      cases changed : put bucket key (codec.marshal message) with
      | error error =>
          rw [changed] at written
          cases written
      | ok inserted =>
          rw [changed] at written
          cases written
          rw [get_of_some key (bucket_assign_self db path _), put_ok changed,
            Std.ExtTreeMap.getElem?_insert_self]
          exact codec.unmarshal_marshal _

theorem deleteKey_state (path : Path) (key : Key) (db : BoltDB ω) : (deleteKey path key db).2 = db ∨
      ∃ bucket, db.bucket path = some bucket ∧
        (deleteKey path key db).2 = db.assign path (some (bucket.erase key)) := by
  unfold deleteKey setBucket
  cases db.bucket path with
  | none => exact .inl rfl
  | some bucket => exact .inr ⟨bucket, rfl, rfl⟩

theorem bucket_set (codec : Codec ω M) (key : Key) (message : M) (db : BoltDB ω) (different : other ≠ path) :
    (set codec path key message db).2.bucket other = db.bucket other := by
  rcases set_state codec path key message db with same | ⟨bucket, _, written⟩
  · rw [same]
  · rw [written, bucket_assign_of_ne db _ different]

theorem bucket_deleteKey (key : Key) (db : BoltDB ω) (different : other ≠ path) :
    (deleteKey path key db).2.bucket other = db.bucket other := by
  rcases deleteKey_state path key db with same | ⟨bucket, _, written⟩
  · rw [same]
  · rw [written, bucket_assign_of_ne db _ different]

variable {μ : Type} [Wire ω μ]

theorem bucket_setRelation (relation : Relation) (db : BoltDB ω) (different : other ≠ .relationsSub) :
    (setRelation relation db).2.bucket other =
      (set Wire.relation .relationsObj (objKeyOf relation.ident) relation db).2.bucket other := by
  unfold setRelation
  cases set Wire.relation .relationsObj (objKeyOf relation.ident) relation db with
  | mk outcome written =>
      cases outcome with
      | error error => rfl
      | ok stored =>
          have kept := bucket_set Wire.relation (subKeyOf relation.ident) relation written different
          dsimp only
          cases again : set Wire.relation .relationsSub (subKeyOf relation.ident) relation written with
          | mk outcome rewritten =>
              rw [again] at kept
              cases outcome <;> exact kept

theorem getRelationExact_of_setRelation {relation stored : Relation} {after : BoltDB ω}
    (written : setRelation relation db = (.ok stored, after)) :
    getRelationExact relation.ident after = .ok relation := by
  unfold setRelation at written
  cases first : set Wire.relation .relationsObj (objKeyOf relation.ident) relation db with
  | mk outcome middle =>
      rw [first] at written
      cases outcome with
      | error error => cases written
      | ok _ =>
          dsimp only at written
          have kept : (set Wire.relation .relationsSub (subKeyOf relation.ident) relation
              middle).2.bucket .relationsObj = middle.bucket .relationsObj :=
            bucket_set Wire.relation (subKeyOf relation.ident) relation middle (by decide)
          split at written
          · cases written
          · rename_i second
            cases written
            rw [second] at kept
            exact (get_congr _ kept).trans (get_of_set first)

theorem bucket_deleteRelation (ident : RelationIdentifier) (db : BoltDB ω) (different : other ≠ .relationsSub) :
    (deleteRelation ident db).2.bucket other =
      (deleteKey .relationsObj (objKeyOf ident) db).2.bucket other := by
  unfold deleteRelation
  cases deleteKey .relationsObj (objKeyOf ident) db with
  | mk outcome written =>
      cases outcome with
      | error error => rfl
      | ok _ => exact bucket_deleteKey (subKeyOf ident) written different

end Writes

section Reading

def rows (codec : Codec ω M) (zero : M) (bucket : Bucket ω) : List M :=
  bucket.toList.map fun entry => (codec.unmarshal entry.2).toOption.getD zero

theorem length_rows (codec : Codec ω M) (zero : M) (bucket : Bucket ω) :
    (rows codec zero bucket).length = bucket.size := by
  simp [rows]

theorem mem_rows (zero : M) {bucket : Bucket ω} {value : ω} (found : bucket[key]? = some value) (decoded : codec.unmarshal value = .ok message) :
    message ∈ rows codec zero bucket := by
  refine List.mem_map.mpr ⟨(key, value), ?_, ?_⟩
  · exact Std.ExtTreeMap.mem_toList_iff_getElem?_eq_some.mpr found
  · simp [decoded, Except.toOption]

theorem scanIterator_all (codec : Codec ω M) (zero : M)
    {iterator : Iterator M} (scanned : scanIterator codec zero path [] [] db = .ok iterator) :
    ∃ bucket, db.bucket path = some bucket ∧ iterator.values = rows codec zero bucket := by
  unfold scanIterator setBucket at scanned
  cases found : db.bucket path with
  | none =>
      rw [found] at scanned
      cases scanned
  | some bucket =>
      rw [found] at scanned
      cases scanned
      refine ⟨bucket, rfl, ?_⟩
      simp [Iterator.values, rows, scan_self]

end Reading

section Properties

/-- Every value at the path decodes, to a message that satisfies the property. -/
def AllRows (codec : Codec ω M) (path : Path) (property : M → Prop) (db : BoltDB ω) : Prop :=
  ∀ bucket, db.bucket path = some bucket → ∀ (key : Key) value, bucket[key]? = some value →
    ∃ message, codec.unmarshal value = .ok message ∧ property message

variable {codec : Codec ω M} {path : Path} {property : M → Prop} {db : BoltDB ω}

theorem AllRows.mono {weaker : M → Prop} (all : AllRows codec path property db)
    (implies : ∀ bucket, db.bucket path = some bucket → ∀ (key : Key) value message,
      bucket[key]? = some value → codec.unmarshal value = .ok message → property message →
        weaker message) : AllRows codec path weaker db := by
  intro bucket found key value stored
  obtain ⟨message, decoded, holds⟩ := all bucket found key value stored
  exact ⟨message, decoded, implies bucket found key value message stored decoded holds⟩

theorem AllRows.congr {other : BoltDB ω} (all : AllRows codec path property db)
    (same : other.bucket path = db.bucket path) : AllRows codec path property other := by
  intro bucket found
  exact all bucket (same ▸ found)

theorem AllRows.of_get (all : AllRows codec path property db)
    (read : get codec path key db = .ok message) : property message := by
  unfold get getKey setBucket at read
  cases found : db.bucket path with
  | none =>
      rw [found] at read
      cases read
  | some bucket =>
      rw [found] at read
      dsimp only at read
      cases stored : bucket[key]? with
      | none =>
          rw [stored] at read
          cases read
      | some value =>
          rw [stored] at read
          obtain ⟨other, decoded, holds⟩ := all bucket found key value stored
          cases decoded.symm.trans read
          exact holds

theorem allRows_emptyDB : AllRows codec path property (emptyDB : BoltDB ω) := by
  intro bucket found key value stored
  cases found
  simp at stored

theorem AllRows.set (all : AllRows codec path property db) (key : Key)
    (holds : property message) : AllRows codec path property (set codec path key message db).2 := by
  rcases set_state codec path key message db with same | ⟨bucket, found, written⟩
  · rw [same]
    exact all
  · rw [written]
    intro inserted insertedFound place value stored
    rw [bucket_assign_self] at insertedFound
    cases insertedFound
    rw [Std.ExtTreeMap.getElem?_insert] at stored
    split at stored
    · cases stored
      exact ⟨message, codec.unmarshal_marshal message, holds⟩
    · exact all bucket found place value stored

theorem AllRows.deleteKey (all : AllRows codec path property db) (key : Key) :
    AllRows codec path property (deleteKey path key db).2 := by
  rcases deleteKey_state path key db with same | ⟨bucket, found, written⟩
  · rw [same]
    exact all
  · rw [written]
    intro erased erasedFound place value stored
    rw [bucket_assign_self] at erasedFound
    cases erasedFound
    rw [Std.ExtTreeMap.getElem?_erase] at stored
    split at stored
    · cases stored
    · exact all bucket found place value stored

end Properties

section Contracts

variable {μ : Type} [Wire ω μ] {object : (objectType objectId : GoString) → Prop}
  {relation : RelationIdentifier → Prop}

def dataOnly (object : (objectType objectId : GoString) → Prop)
    (relation : RelationIdentifier → Prop) : RowPolicy :=
  ⟨object, relation, fun _ => True, False⟩

theorem backend_honours_manifest (bucket : Option (Bucket ω)) :
    (backend : Backend μ (BoltDB ω)).Honours (dataOnly object relation).contract
      fun db => db.bucket .manifest = bucket := by
  intro β op db kept allowed
  cases op with
  | setObject message =>
      refine ⟨?_, trivial⟩
      rw [← kept]
      exact bucket_set Wire.object _ message db (by decide)
  | deleteObject objectType objectId =>
      refine ⟨?_, trivial⟩
      rw [← kept]
      exact bucket_deleteKey _ db (by decide)
  | setRelation message =>
      refine ⟨?_, trivial⟩
      rw [← kept]
      exact (bucket_setRelation message db (by decide)).trans
        (bucket_set Wire.relation _ message db (by decide))
  | deleteRelation ident =>
      refine ⟨?_, trivial⟩
      rw [← kept]
      exact (bucket_deleteRelation ident db (by decide)).trans (bucket_deleteKey _ db (by decide))
  | setManifest | setManifestModel | deleteManifest => exact False.elim allowed
  | scanRelations => exact ⟨kept, fun _ _ _ _ => trivial⟩
  | getObject | scanObjects | getRelationExact | scanRelationsFiltered | relationsExistForObject
  | manifestExists | getManifestMetadata | getManifestBody | getManifestModel =>
      exact ⟨kept, trivial⟩

structure RowsHave (object : (objectType objectId : GoString) → Prop)
    (relation : RelationIdentifier → Prop) (db : BoltDB ω) : Prop where
  objects : AllRows Wire.object .objects (fun row => object row.type row.id) db
  relations : AllRows Wire.relation .relationsObj (fun row => relation row.ident) db

theorem RowsHave.congr {other : BoltDB ω} (held : RowsHave object relation db)
    (objects : other.bucket .objects = db.bucket .objects)
    (relations : other.bucket .relationsObj = db.bucket .relationsObj) : RowsHave object relation other :=
  ⟨held.objects.congr objects, held.relations.congr relations⟩

theorem backend_honours_rows : (backend : Backend μ (BoltDB ω)).Honours (dataOnly object relation).contract
      (RowsHave object relation) := by
  intro β op db rowsHave allowed
  obtain ⟨objects, relations⟩ := rowsHave
  cases op with
  | setObject message =>
      refine ⟨⟨objects.set _ allowed, ?_⟩, trivial⟩
      exact relations.congr (bucket_set Wire.object _ message db (by decide))
  | deleteObject objectType objectId =>
      refine ⟨⟨objects.deleteKey _, ?_⟩, trivial⟩
      exact relations.congr (bucket_deleteKey _ db (by decide))
  | setRelation message =>
      refine ⟨⟨objects.congr ?_, ?_⟩, trivial⟩
      · exact (bucket_setRelation message db (by decide)).trans
          (bucket_set Wire.relation _ message db (by decide))
      · exact (relations.set (objKeyOf message.ident) allowed).congr
          (bucket_setRelation message db (by decide))
  | deleteRelation ident =>
      refine ⟨⟨objects.congr ?_, ?_⟩, trivial⟩
      · exact (bucket_deleteRelation ident db (by decide)).trans (bucket_deleteKey _ db (by decide))
      · exact (relations.deleteKey (objKeyOf ident)).congr (bucket_deleteRelation ident db (by decide))
  | setManifest | setManifestModel | deleteManifest => exact False.elim allowed
  | scanRelations => exact ⟨⟨objects, relations⟩, fun _ _ _ _ => trivial⟩
  | getObject | scanObjects | getRelationExact | scanRelationsFiltered | relationsExistForObject
  | manifestExists | getManifestMetadata | getManifestBody | getManifestModel =>
      exact ⟨⟨objects, relations⟩, trivial⟩

end Contracts

end Eamerald.Bolt
