import Eamerald.Bolt.Agreement
import Eamerald.Directory.Entries
import Eamerald.Postgres.Tx
import Eamerald.Store.KeyedRows

/-! The two backends satisfy the laws of the tables. BoltDB has one row for every key
and refuses keys that are too large; Postgres has one row for every identifier. -/

set_option autoImplicit false

namespace Eamerald.Bolt

open Foundation Store Directory

variable {ω μ M : Type}

/-- The bucket is there, and every row in it lies under its own key. -/
def Files (codec : Codec ω M) (path : Path) (key : M → Key) (db : BoltDB ω) : Prop :=
  ∃ bucket, db.bucket path = some bucket ∧ Decodes codec key bucket

def rowsOf (codec : Codec ω M) (path : Path) (db : BoltDB ω) (place : Key) : Option M :=
  (db.bucket path).bind fun bucket => rowAt codec bucket place

section Files

variable {codec : Codec ω M} {path : Path} {key : M → Key} {db : BoltDB ω} {bucket : Bucket ω}

theorem rowsOf_of_some (found : db.bucket path = some bucket) : rowsOf codec path db = rowAt codec bucket := by
  funext place
  simp [rowsOf, found]

theorem rowsOf_congr {other : BoltDB ω} (same : other.bucket path = db.bucket path) :
    rowsOf codec path other = rowsOf codec path db := by
  funext place
  rw [rowsOf, rowsOf, same]

theorem Files.congr {other : BoltDB ω} (files : Files codec path key db)
    (same : other.bucket path = db.bucket path) : Files codec path key other := by
  obtain ⟨bucket, found, decodes⟩ := files
  exact ⟨bucket, same.trans found, decodes⟩

theorem Files.key_eq (files : Files codec path key db) {place : Key} {row : M}
    (found : rowsOf codec path db place = some row) : key row = place := by
  obtain ⟨bucket, there, decodes⟩ := files
  rw [rowsOf_of_some there] at found
  exact decodes.key_eq found

theorem Files.get (files : Files codec path key db) (place : Key) :
    get codec path place db = (rowsOf codec path db place).elim (.error errKeyNotFound) .ok := by
  obtain ⟨bucket, there, decodes⟩ := files
  rw [rowsOf_of_some there, get_of_some place there, ← decodes.unmarshal]
  cases bucket[place]? <;> rfl

theorem Files.insert (files : Files codec path key db) (row : M) (found : db.bucket path = some bucket) :
    Files codec path key (db.assign path (some (bucket.insert (key row) (codec.marshal row)))) := by
  obtain ⟨_, there, decodes⟩ := files
  cases found.symm.trans there
  exact ⟨_, bucket_assign_self db path _, decodes.insert row⟩

theorem Files.set (files : Files codec path key db) (row : M) :
    Files codec path key (set codec path (key row) row db).2 := by
  rcases set_state codec path (key row) row db with same | ⟨bucket, found, written⟩
  · rw [same]
    exact files
  · rw [written]
    exact files.insert row found

theorem Files.erase (files : Files codec path key db) (place : Key) (found : db.bucket path = some bucket) :
    Files codec path key (db.assign path (some (bucket.erase place))) := by
  obtain ⟨_, there, decodes⟩ := files
  cases found.symm.trans there
  exact ⟨_, bucket_assign_self db path _, decodes.erase place⟩

theorem Files.deleteKey (files : Files codec path key db) (place : Key) :
    Files codec path key (deleteKey path place db).2 := by
  rcases deleteKey_state path place db with same | ⟨bucket, found, written⟩
  · rw [same]
    exact files
  · rw [written]
    exact files.erase place found

theorem files_empty : Files codec path key (emptyDB : BoltDB ω) :=
  ⟨∅, rfl, decodes_empty codec key⟩

theorem Files.scan (files : Files codec path key db) (zero : M) :
    ∃ iterator, scanIterator codec zero path [] [] db = .ok iterator ∧ iterator.closeError = none ∧
      (iterator.values.map key).Nodup ∧
      ∀ row, row ∈ iterator.values ↔ rowsOf codec path db (key row) = some row := by
  obtain ⟨bucket, there, decodes⟩ := files
  rw [rowsOf_of_some there]
  cases scanned : scanIterator codec zero path [] [] db with
  | error error =>
      rw [scanIterator, setBucket_of_some there] at scanned
      cases scanned
  | ok iterator =>
      obtain ⟨_, found, values⟩ := scanIterator_all codec zero scanned
      cases there.symm.trans found
      refine ⟨iterator, rfl, ?_, ?_⟩
      · rw [scanIterator, setBucket_of_some there] at scanned
        cases scanned
        rfl
      · rw [values]
        exact decodes.values zero (List.Perm.refl bucket.toList)

end Files

variable [Wire ω μ]

def objectPlace (ident : ObjectIdentifier) : Key := objectKey ident.objectType ident.objectId

/-- Objects and relations lie under their own keys, and the second index is there. -/
structure Filed (db : BoltDB ω) : Prop where
  objects : Files Wire.object .objects (fun object => objectPlace object.ident) db
  relations : Files Wire.relation .relationsObj (fun relation => objKeyOf relation.ident) db
  subjects : ∃ bucket, db.bucket .relationsSub = some bucket

def contents (db : BoltDB ω) : Data Key Key (Option (Bucket ω)) where
  objects := rowsOf Wire.object .objects db
  relations := rowsOf Wire.relation .relationsObj db
  rest := db.bucket .manifest

theorem filed_emptyDB : Filed (emptyDB : BoltDB ω) := ⟨files_empty, files_empty, ∅, rfl⟩

theorem rowsOf_emptyDB (codec : Codec ω M) (path : Path) :
    rowsOf codec path (emptyDB : BoltDB ω) = fun _ => none := by
  funext place
  simp [rowsOf, emptyDB, rowAt]

section Filed

variable {db : BoltDB ω}

theorem objectPlace_ne_nil (ident : ObjectIdentifier) : objectPlace ident ≠ [] := by
  simp [objectPlace, objectKey]

theorem Filed.of_manifest {written : BoltDB ω} (filed : Filed db)
    (frame : Touches .manifest db written) : Filed written := by
  refine ⟨filed.objects.congr (frame.bucket (by decide)),
    filed.relations.congr (frame.bucket (by decide)), ?_⟩
  rw [frame.bucket (by decide)]
  exact filed.subjects

theorem Filed.setObject (filed : Filed db) (object : Object) : Filed (Bolt.setObject object db).2 := by
  refine ⟨filed.objects.set object, filed.relations.congr (bucket_set _ _ _ _ (by decide)), ?_⟩
  rw [Bolt.setObject, bucket_set _ _ _ _ (by decide)]
  exact filed.subjects

theorem Filed.deleteObject (filed : Filed db) (objectType objectId : GoString) :
    Filed (Bolt.deleteObject objectType objectId db).2 := by
  refine ⟨filed.objects.deleteKey _, filed.relations.congr (bucket_deleteKey _ _ (by decide)), ?_⟩
  rw [Bolt.deleteObject, bucket_deleteKey _ _ (by decide)]
  exact filed.subjects

theorem Filed.setRelation (filed : Filed db) (relation : Relation) :
    Filed (Bolt.setRelation relation db).2 := by
  obtain ⟨obj, objFound, _⟩ := filed.relations
  obtain ⟨sub, subFound⟩ := filed.subjects
  refine ⟨filed.objects.congr ?_, (filed.relations.set relation).congr ?_, ?_⟩
  · exact (bucket_setRelation relation db (by decide)).trans (bucket_set _ _ _ _ (by decide))
  · exact bucket_setRelation relation db (by decide)
  · by_cases fits : byteLength (objKeyOf relation.ident) ≤ maxKeySize
    · rw [setRelation_of_fits relation objFound subFound fits]
      exact ⟨_, bucket_assign_self _ _ _⟩
    · rw [setRelation_of_tooLarge relation objFound (not_le.mp fits)]
      exact ⟨sub, subFound⟩

theorem Filed.deleteRelation (filed : Filed db) (ident : RelationIdentifier) :
    Filed (Bolt.deleteRelation ident db).2 := by
  obtain ⟨obj, objFound, _⟩ := filed.relations
  obtain ⟨sub, subFound⟩ := filed.subjects
  refine ⟨filed.objects.congr ?_, (filed.relations.deleteKey (objKeyOf ident)).congr ?_, ?_⟩
  · exact (bucket_deleteRelation ident db (by decide)).trans (bucket_deleteKey _ _ (by decide))
  · exact bucket_deleteRelation ident db (by decide)
  · rw [deleteRelation_of_some ident objFound subFound]
    exact ⟨_, bucket_assign_self _ _ _⟩

theorem Filed.exec (filed : Filed db) {β : Type} (op : TxOp μ β) :
    Filed ((backend : Backend μ (BoltDB ω)).exec op db).2 := by
  cases op with
  | setObject object => exact filed.setObject object
  | deleteObject objectType objectId => exact filed.deleteObject objectType objectId
  | setRelation relation => exact filed.setRelation relation
  | deleteRelation ident => exact filed.deleteRelation ident
  | setManifest metadata body => exact filed.of_manifest (touches_setManifest metadata body db)
  | setManifestModel model => exact filed.of_manifest (touches_setManifestModel model db)
  | deleteManifest =>
      change Filed (deleteManifest db)
      rw [deleteManifest_eq]
      exact filed_emptyDB
  | getObject | scanObjects | getRelationExact | scanRelations | scanRelationsFiltered
  | relationsExistForObject | manifestExists | getManifestMetadata | getManifestBody
  | getManifestModel => exact filed

end Filed

section Tables

theorem contents_assign_objects (db : BoltDB ω) (bucket : Bucket ω) :
    contents (db.assign .objects (some bucket)) = objectPart.set (contents db) (rowAt Wire.object bucket) := by
  have apart {other : Path} (different : other ≠ .objects) :
      (db.assign .objects (some bucket)).bucket other = db.bucket other :=
    bucket_assign_of_ne db _ different
  simp only [contents, objectPart, rowsOf_of_some (bucket_assign_self db .objects (some bucket)),
    rowsOf_congr (apart (show Path.relationsObj ≠ .objects by decide)),
    apart (show Path.manifest ≠ .objects by decide)]

theorem contents_assign_relations (db : BoltDB ω) (obj : Bucket ω) (sub : Option (Bucket ω)) :
    contents ((db.assign .relationsObj (some obj)).assign .relationsSub sub) =
      relationPart.set (contents db) (rowAt Wire.relation obj) := by
  have apart {other : Path} (different : other ≠ .relationsSub) :
      ((db.assign .relationsObj (some obj)).assign .relationsSub sub).bucket other =
        (db.assign .relationsObj (some obj)).bucket other :=
    bucket_assign_of_ne _ _ different
  have other {other : Path} (different : other ≠ .relationsSub) (apartObj : other ≠ .relationsObj) :
      ((db.assign .relationsObj (some obj)).assign .relationsSub sub).bucket other =
        db.bucket other :=
    (apart different).trans (bucket_assign_of_ne db _ apartObj)
  have found := (apart (show Path.relationsObj ≠ .relationsSub by decide)).trans
    (bucket_assign_self db .relationsObj (some obj))
  simp only [contents, relationPart, rowsOf_of_some found,
    rowsOf_congr (other (show Path.objects ≠ .relationsSub by decide) (by decide)),
    other (show Path.manifest ≠ .relationsSub by decide) (by decide)]

variable (library : Library μ)

def objectTable : Table (backend : Backend μ (BoltDB ω)) (objectKind library) (.scanObjects [] [])
    Filed contents objectPart where
  key := objectPlace
  fits ident := byteLength (objectPlace ident) ≤ maxKeySize
  missing := errKeyNotFound
  missing_isNotFound := rfl
  keyed filed found := filed.objects.key_eq found
  reads _ _ := rfl
  read filed ident := Prod.ext (filed.objects.get (objectPlace ident)) rfl
  write {db object} filed fits := by
    obtain ⟨bucket, found, _⟩ := id filed.objects
    have written : Bolt.setObject object db = _ :=
      set_of_fits object found (objectPlace_ne_nil object.ident) fits
    have answered : (Bolt.setObject object db).1 = .ok object := by rw [written]
    refine ⟨(Bolt.setObject object db).2, Prod.ext answered rfl,
      filed.setObject object, ?_⟩
    rw [written, contents_assign_objects]
    exact congrArg (objectPart.set _)
      ((rowAt_insert (objectPlace object.ident) object).trans
        (congrArg (Function.update · _ _) (rowsOf_of_some found).symm))
  refuse {db object} filed large := by
    obtain ⟨bucket, found, _⟩ := filed.objects
    exact ⟨_, set_of_tooLarge object found (objectPlace_ne_nil object.ident) (not_le.mp large)⟩
  remove {db} filed ident := by
    obtain ⟨bucket, found, _⟩ := id filed.objects
    have removed : Bolt.deleteObject ident.objectType ident.objectId db = _ :=
      deleteKey_of_some (objectPlace ident) found
    have answered : (Bolt.deleteObject ident.objectType ident.objectId db).1 = .ok () := by rw [removed]
    refine ⟨(Bolt.deleteObject ident.objectType ident.objectId db).2, Prod.ext answered rfl,
      filed.deleteObject ident.objectType ident.objectId, ?_⟩
    rw [removed, contents_assign_objects]
    exact congrArg (objectPart.set _)
      ((rowAt_erase (objectPlace ident)).trans
        (congrArg (Function.update · _ _) (rowsOf_of_some found).symm))
  scans {db} filed := by
    obtain ⟨iterator, scanned, rest⟩ := filed.objects.scan Object.zero
    exact ⟨iterator, Prod.ext scanned rfl, rest⟩

def relationTable : Table (backend : Backend μ (BoltDB ω)) (relationKind library)
    (.scanRelations .byObject {} []) Filed contents relationPart where
  key := objKeyOf
  fits ident := byteLength (objKeyOf ident) ≤ maxKeySize
  missing := errKeyNotFound
  missing_isNotFound := rfl
  keyed filed found := filed.relations.key_eq found
  reads _ _ := rfl
  read filed ident := Prod.ext (filed.relations.get (objKeyOf ident)) rfl
  write {db relation} filed fits := by
    obtain ⟨obj, objFound, _⟩ := id filed.relations
    obtain ⟨sub, subFound⟩ := filed.subjects
    have written := setRelation_of_fits relation objFound subFound fits
    have answered : (Bolt.setRelation relation db).1 = .ok relation := by rw [written]
    refine ⟨(Bolt.setRelation relation db).2, Prod.ext answered rfl,
      filed.setRelation relation, ?_⟩
    rw [written, contents_assign_relations]
    exact congrArg (relationPart.set _)
      ((rowAt_insert (objKeyOf relation.ident) relation).trans
        (congrArg (Function.update · _ _) (rowsOf_of_some objFound).symm))
  refuse {db relation} filed large := by
    obtain ⟨obj, objFound, _⟩ := filed.relations
    exact ⟨_, setRelation_of_tooLarge relation objFound (not_le.mp large)⟩
  remove {db} filed ident := by
    obtain ⟨obj, objFound, _⟩ := id filed.relations
    obtain ⟨sub, subFound⟩ := filed.subjects
    have removed := deleteRelation_of_some ident objFound subFound
    have answered : (Bolt.deleteRelation ident db).1 = .ok () := by rw [removed]
    refine ⟨(Bolt.deleteRelation ident db).2, Prod.ext answered rfl,
      filed.deleteRelation ident, ?_⟩
    rw [removed, contents_assign_relations]
    exact congrArg (relationPart.set _)
      ((rowAt_erase (objKeyOf ident)).trans
        (congrArg (Function.update · _ _) (rowsOf_of_some objFound).symm))
  scans {db} filed := by
    obtain ⟨iterator, scanned, rest⟩ := filed.relations.scan Relation.zero
    exact ⟨iterator, Prod.ext scanned rfl, rest⟩

def layout : Layout library (backend : Backend μ (BoltDB ω)) Key Key (Option (Bucket ω)) where
  sound := Filed
  data := contents
  objects := objectTable library
  relations := relationTable library
  keeps op _ filed := filed.exec op

@[simp] theorem entry_emptyDB (place : Key ⊕ Key) :
    (layout library).entry (emptyDB : BoltDB ω) place = none := by
  cases place with
  | inl place => simp [layout, Layout.entry, Data.entry, contents, rowsOf_emptyDB]
  | inr place => simp [layout, Layout.entry, Data.entry, contents, rowsOf_emptyDB]

end Tables

end Eamerald.Bolt

namespace Eamerald.Postgres

open Foundation Store Directory

variable {ω μ : Type} [Wire ω μ]

/-- The columns of every row are those of the message in it. -/
structure Filed (tables : Tables ω) : Prop where
  objects : Decodes Wire.object Object.ident tables.objects
  relations : Decodes Wire.relation Relation.ident tables.relations

def contents (tables : Tables ω) :
    Data ObjectIdentifier RelationIdentifier (Option (ManifestRow ω)) where
  objects := rowAt Wire.object tables.objects
  relations := rowAt Wire.relation tables.relations
  rest := tables.manifest

theorem filed_emptyTables : Filed (emptyTables : Tables ω) :=
  ⟨decodes_empty _ _, decodes_empty _ _⟩

variable {tables : Tables ω} (server : Server ω)

theorem Filed.exec (filed : Filed tables) {β : Type} (op : TxOp μ β) :
    Filed ((backend server).exec op tables).2 := by
  cases op with
  | setObject object => exact ⟨filed.objects.insert object, filed.relations⟩
  | deleteObject objectType objectId => exact ⟨filed.objects.erase _, filed.relations⟩
  | setRelation relation => exact ⟨filed.objects, filed.relations.insert relation⟩
  | deleteRelation ident => exact ⟨filed.objects, filed.relations.erase ident⟩
  | setManifest metadata body => exact ⟨filed.objects, filed.relations⟩
  | setManifestModel model =>
      change Filed (setManifestModel model tables).2
      unfold setManifestModel
      cases tables.manifest with
      | none => exact filed
      | some row => exact ⟨filed.objects, filed.relations⟩
  | deleteManifest => exact filed_emptyTables
  | getObject | scanObjects | getRelationExact | scanRelations | scanRelationsFiltered
  | relationsExistForObject | manifestExists | getManifestMetadata | getManifestBody
  | getManifestModel => exact filed

theorem select_eq {M κ : Type} [Ord κ] [Std.TransOrd κ] {codec : Codec ω M} {key : M → κ}
    {map : Std.ExtTreeMap κ ω} (decodes : Decodes codec key map) (place : κ) :
    select codec map[place]? = (rowAt codec map place).elim (.error errNotFound) .ok := by
  rw [← decodes.unmarshal]
  cases map[place]? <;> rfl

section Listings

variable {M κ : Type} [Ord κ] [Std.TransOrd κ]

def listing (codec : Codec ω M) (zero : M) (columns : κ → List GoString) (map : Std.ExtTreeMap κ ω) :
    Iterator M where
  rows := (orderBy server (fun row => columns row.1) map.toList).map fun row =>
    ⟨(codec.unmarshal row.2).toOption.getD zero, encodeToken server (columns row.1)⟩

theorem values_listing [Std.LawfulEqOrd κ] {codec : Codec ω M} {key : M → κ}
    {map : Std.ExtTreeMap κ ω} (decodes : Decodes codec key map) (zero : M) (columns : κ → List GoString) :
    ((listing server codec zero columns map).values.map key).Nodup ∧
      ∀ row, row ∈ (listing server codec zero columns map).values ↔ rowAt codec map (key row) = some row := by
  have values : (listing server codec zero columns map).values =
      (orderBy server (fun row => columns row.1) map.toList).map fun row =>
        (codec.unmarshal row.2).toOption.getD zero := by
    simp [listing, Iterator.values, List.map_map, Function.comp_def]
  rw [values]
  exact decodes.values zero (List.perm_insertionSort _ _)

theorem scanObjects_all (tables : Tables ω) : scanObjects server [] [] tables =
      .ok (listing server Wire.object .zero objectColumns tables.objects) := by
  simp only [scanObjects, resume, ↓reduceIte, decide_true, Bool.true_or, Bool.and_true,
    List.filter_true, listing]

theorem scanRelations_all (tables : Tables ω) : scanRelations server .byObject {} [] tables =
      .ok (listing server Wire.relation .zero relationColumns tables.relations) := by
  simp only [scanRelations, resume, ↓reduceIte, relationConditions, ne_eq, not_true_eq_false,
    Bool.false_eq_true, List.append_nil, meetsConditions, List.all_nil, Bool.and_true,
    List.filter_true, listing]
  rfl

end Listings

section Tables

variable (library : Library μ)

def objectTable : Table (backend server) (objectKind library) (.scanObjects [] []) Filed contents
    objectPart where
  key := id
  fits _ := True
  missing := errNotFound
  missing_isNotFound := rfl
  keyed filed found := filed.objects.key_eq found
  reads _ _ := rfl
  read filed ident := Prod.ext (select_eq filed.objects ident) rfl
  write {tables object} filed _ :=
    ⟨_, rfl, filed.exec server (.setObject object),
      congrArg (objectPart.set (contents tables)) (rowAt_insert object.ident object)⟩
  refuse _ refused := absurd trivial refused
  remove {tables} filed ident :=
    ⟨_, rfl, filed.exec server (.deleteObject ident.objectType ident.objectId),
      congrArg (objectPart.set (contents tables)) (rowAt_erase ident)⟩
  scans {tables} filed :=
    ⟨_, Prod.ext (scanObjects_all server tables) rfl, rfl,
      values_listing server filed.objects .zero objectColumns⟩

def relationTable : Table (backend server) (relationKind library) (.scanRelations .byObject {} [])
    Filed contents relationPart where
  key := id
  fits _ := True
  missing := errNotFound
  missing_isNotFound := rfl
  keyed filed found := filed.relations.key_eq found
  reads _ _ := rfl
  read filed ident := Prod.ext (select_eq filed.relations ident) rfl
  write {tables relation} filed _ :=
    ⟨_, rfl, filed.exec server (.setRelation relation),
      congrArg (relationPart.set (contents tables)) (rowAt_insert relation.ident relation)⟩
  refuse _ refused := absurd trivial refused
  remove {tables} filed ident :=
    ⟨_, rfl, filed.exec server (.deleteRelation ident),
      congrArg (relationPart.set (contents tables)) (rowAt_erase ident)⟩
  scans {tables} filed :=
    ⟨_, Prod.ext (scanRelations_all server tables) rfl, rfl,
      values_listing server filed.relations .zero relationColumns⟩

def layout : Layout library (backend server) ObjectIdentifier RelationIdentifier
    (Option (ManifestRow ω)) where
  sound := Filed
  data := contents
  objects := objectTable server library
  relations := relationTable server library
  keeps op _ filed := filed.exec server op

end Tables

end Eamerald.Postgres
