import Eamerald.Bolt.Tx
import Eamerald.Bolt.KeyProperties

/-! What each write does to the buckets. The two keys of a relation have the same
length, so the engine accepts both or refuses the first: a relation is never
written to one index only. -/

set_option autoImplicit false

namespace Eamerald.Bolt

open Foundation Store

variable (ident : RelationIdentifier)

section Assign

variable {ω : Type} {bucket : Bucket ω} {db : BoltDB ω} {path : Path} {key : Key}

@[simp] theorem bucket_assign_self (db : BoltDB ω) (path : Path) (bucket : Option (Bucket ω)) :
    (db.assign path bucket).bucket path = bucket := by
  simp [BoltDB.assign]

theorem bucket_assign_of_ne (db : BoltDB ω) {other : Path} (bucket : Option (Bucket ω))
    (different : other ≠ path) : (db.assign path bucket).bucket other = db.bucket other := by
  simp [BoltDB.assign, different]

@[simp] theorem bucket_assign_obj_sub (db : BoltDB ω) (bucket : Option (Bucket ω)) :
    (db.assign .relationsObj bucket).bucket .relationsSub = db.bucket .relationsSub :=
  bucket_assign_of_ne db bucket (by decide)

@[simp] theorem bucket_assign_sub_obj (db : BoltDB ω) (bucket : Option (Bucket ω)) :
    (db.assign .relationsSub bucket).bucket .relationsObj = db.bucket .relationsObj :=
  bucket_assign_of_ne db bucket (by decide)

def Ready (db : BoltDB ω) : Prop := ∀ path, ∃ bucket, db.bucket path = some bucket

theorem Ready.assign (ready : Ready db) (path : Path) (bucket : Bucket ω) :
    Ready (db.assign path (some bucket)) := by
  intro other
  by_cases same : other = path
  · subst same
    exact ⟨bucket, bucket_assign_self db other _⟩
  · rw [bucket_assign_of_ne db _ same]
    exact ready other

theorem ready_emptyDB : Ready (emptyDB : BoltDB ω) := fun _ => ⟨∅, rfl⟩

theorem setBucket_of_some (found : db.bucket path = some bucket) : setBucket db path = .ok bucket := by
  simp [setBucket, found]

theorem getKey_of_some (key : Key) (found : db.bucket path = some bucket) :
    getKey path key db =
      match bucket[key]? with
      | none => .error errKeyNotFound
      | some value => .ok value := by
  cases stored : bucket[key]? with
  | none => simp [getKey, setBucket_of_some found, stored]
  | some value => simp [getKey, setBucket_of_some found, stored]

theorem get_of_some {M : Type} {codec : Codec ω M} (key : Key) (found : db.bucket path = some bucket) :
    get codec path key db =
      match bucket[key]? with
      | none => .error errKeyNotFound
      | some value => codec.unmarshal value := by
  rw [get, getKey_of_some key found]
  cases bucket[key]? <;> rfl

theorem put_of_fits (value : ω) (present : key ≠ [])
    (fits : byteLength key ≤ maxKeySize) : put bucket key value = .ok (bucket.insert key value) := by
  simp [put, present, Nat.not_lt.mpr fits]

theorem put_of_tooLarge (value : ω) (present : key ≠ []) (large : maxKeySize < byteLength key) :
    put bucket key value = .error (.engine "key too large") := by
  simp [put, present, large]

theorem set_of_fits {M : Type} {codec : Codec ω M} (message : M) (found : db.bucket path = some bucket)
    (present : key ≠ []) (fits : byteLength key ≤ maxKeySize) : set codec path key message db =
      (.ok message, db.assign path (some (bucket.insert key (codec.marshal message)))) := by
  simp [set, setKey, setBucket_of_some found, put_of_fits _ present fits]

theorem set_of_tooLarge {M : Type} {codec : Codec ω M} (message : M) (found : db.bucket path = some bucket)
    (present : key ≠ []) (large : maxKeySize < byteLength key) :
    set codec path key message db = (.error (.engine "key too large"), db) := by
  simp [set, setKey, setBucket_of_some found, put_of_tooLarge _ present large]

theorem deleteKey_of_some (key : Key) (found : db.bucket path = some bucket) :
    deleteKey path key db = (.ok (), db.assign path (some (bucket.erase key))) := by
  simp [deleteKey, setBucket_of_some found]

end Assign

section Keys

theorem objKeyOf_ne_nil : objKeyOf ident ≠ [] := by
  simp [objKeyOf, KeyFields.key]

theorem subKeyOf_ne_nil : subKeyOf ident ≠ [] := by
  simp [subKeyOf, KeyFields.key]

theorem byteLength_subKeyOf : byteLength (subKeyOf ident) = byteLength (objKeyOf ident) := by
  by_cases absent : ident.subjectRelation = [] <;>
    simp only [subKeyOf, objKeyOf, KeyFields.key, KeyFields.tail, subFields, objFields,
      RelationIdentifier.object, RelationIdentifier.subject, byteLength_append, byteLength_cons,
      byteLength_nil, absent, ne_eq, not_true_eq_false, not_false_eq_true, ↓reduceIte] <;>
    omega

theorem objFields_injective : Function.Injective objFields := by
  intro left right same
  cases left
  cases right
  simp_all [objFields, RelationIdentifier.object, RelationIdentifier.subject]

theorem subFields_injective : Function.Injective subFields := by
  intro left right same
  cases left
  cases right
  simp_all [subFields, RelationIdentifier.object, RelationIdentifier.subject]

end Keys

section Relations

variable {ω μ : Type} [Wire ω μ] {db : BoltDB ω} {obj sub : Bucket ω}

theorem setRelation_of_fits (relation : Relation)
    (objFound : db.bucket .relationsObj = some obj) (subFound : db.bucket .relationsSub = some sub)
    (fits : byteLength (objKeyOf relation.ident) ≤ maxKeySize) : setRelation relation db = (.ok relation,
        (db.assign .relationsObj
          (some (obj.insert (objKeyOf relation.ident) (Wire.relation.marshal relation)))).assign .relationsSub
          (some (sub.insert (subKeyOf relation.ident) (Wire.relation.marshal relation)))) := by
  have subFound' : (db.assign .relationsObj (some (obj.insert (objKeyOf relation.ident)
      (Wire.relation.marshal relation)))).bucket .relationsSub = some sub := by
    rw [bucket_assign_obj_sub, subFound]
  unfold setRelation
  rw [set_of_fits relation objFound (objKeyOf_ne_nil _) fits]
  dsimp only
  rw [set_of_fits relation subFound' (subKeyOf_ne_nil _)
    (by rw [byteLength_subKeyOf]; exact fits)]

theorem setRelation_of_tooLarge (relation : Relation) (objFound : db.bucket .relationsObj = some obj)
    (large : maxKeySize < byteLength (objKeyOf relation.ident)) :
    setRelation relation db = (.error (.engine "key too large"), db) := by
  unfold setRelation
  rw [set_of_tooLarge relation objFound (objKeyOf_ne_nil _) large]

theorem deleteRelation_of_some
    (objFound : db.bucket .relationsObj = some obj) (subFound : db.bucket .relationsSub = some sub) :
    deleteRelation ident db =
      (.ok (), (db.assign .relationsObj (some (obj.erase (objKeyOf ident)))).assign .relationsSub
        (some (sub.erase (subKeyOf ident)))) := by
  have subFound' : (db.assign .relationsObj (some (obj.erase (objKeyOf ident)))).bucket
      .relationsSub = some sub := by
    rw [bucket_assign_obj_sub, subFound]
  unfold deleteRelation
  rw [deleteKey_of_some _ objFound]
  dsimp only
  rw [deleteKey_of_some _ subFound']

theorem getRelationExact_of_some (objFound : db.bucket .relationsObj = some obj) :
    getRelationExact ident db =
      match obj[objKeyOf ident]? with
      | none => .error errKeyNotFound
      | some value => Wire.relation.unmarshal value :=
  get_of_some _ objFound

end Relations

section Manifest

variable {ω μ : Type} [Wire ω μ] (db : BoltDB ω)

@[simp] theorem exec_manifestExists :
    (backend (ω := ω)).exec (.manifestExists : TxOp μ Bool) db = (.ok (manifestExists db), db) := rfl

@[simp] theorem exec_getManifestMetadata : (backend (ω := ω)).exec (.getManifestMetadata : TxOp μ Metadata) db =
      (get Wire.metadata .manifest metadataKey db, db) := rfl

@[simp] theorem exec_getManifestBody : (backend (ω := ω)).exec (.getManifestBody : TxOp μ Body) db =
      (get Wire.body .manifest bodyKey db, db) := rfl

@[simp] theorem exec_getManifestModel : (backend (ω := ω)).exec (.getManifestModel : TxOp μ μ) db =
      (get Wire.model .manifest modelKey db, db) := rfl

end Manifest

end Eamerald.Bolt
