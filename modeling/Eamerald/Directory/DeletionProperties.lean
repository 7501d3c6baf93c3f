import Eamerald.Directory.OperationProperties
import Eamerald.Directory.RelationProperties

/-! What deleting an object together with its relations removes. The relations
are found by a key prefix made of the type and the id, so the ids in the keys
decide whether the prefix finds exactly the relations that name the object. -/

set_option autoImplicit false

namespace Eamerald.Directory

open Foundation Store Bolt

variable {object : ObjectIdentifier} {relations : Finset Relation}

section Prefixes

def Names (object : ObjectIdentifier) (relation : Relation) : Prop :=
  relation.ident.object = object ∨ relation.ident.subject = object

instance (object : ObjectIdentifier) (relation : Relation) : Decidable (Names object relation) :=
  inferInstanceAs (Decidable (_ ∨ _))

def Under (direction : Direction) (object : ObjectIdentifier) (relation : Relation) : Prop :=
  scanPrefix direction (objectOnlyFilter direction object.objectType object.objectId) <+:
    indexKey direction relation.ident

instance (direction : Direction) (object : ObjectIdentifier) (relation : Relation) :
    Decidable (Under direction object relation) :=
  inferInstanceAs (Decidable (_ <+: _))

theorem scanPrefix_objectOnly {objectType objectId : GoString} (typeSet : isSet objectType)
    (idSet : isSet objectId) (direction : Direction) :
    scanPrefix direction (objectOnlyFilter direction objectType objectId) =
      objectType ++ typeIDSeparator :: (objectId ++ [instanceSeparator]) := by
  have blank : isSet ([] : GoString) = false := rfl
  cases direction <;>
    simp [scanPrefix, objectOnlyFilter, writeObjFilter, writeSubFilter, filterPrefix, typeSet, idSet,
      blank]

theorem prefix_key_iff {objectType objectId : GoString} {fields : KeyFields}
    (plainType : PlainName objectType) (plainId : instanceSeparator ∉ objectId)
    (named : fields.Named) (anchorId : instanceSeparator ∉ fields.anchor.objectId) :
    objectType ++ typeIDSeparator :: (objectId ++ [instanceSeparator]) <+: fields.key ↔
      fields.anchor = ⟨objectType, objectId⟩ := by
  constructor
  · intro begins
    obtain ⟨rest, whole⟩ := begins
    have split : objectType ++ typeIDSeparator :: (objectId ++ instanceSeparator :: rest) =
        fields.key := by
      simpa using whole
    obtain ⟨sameType, remaining⟩ :=
      (append_cons_inj_left plainType.1 named.anchorType.1).mp split
    obtain ⟨sameId, _⟩ := (append_cons_inj_left plainId anchorId).mp remaining
    exact ObjectIdentifier.ext sameType.symm sameId.symm
  · intro same
    unfold KeyFields.key
    rw [same, List.prefix_append_right_inj, List.cons_prefix_cons, List.prefix_append_right_inj,
      List.cons_prefix_cons]
    exact ⟨rfl, rfl, List.nil_prefix⟩

/-- For ids without a bar, the prefix finds exactly the relations led by the object. -/
theorem under_iff {relation : Relation}
    (plainType : PlainName object.objectType) (typeSet : isSet object.objectType)
    (idSet : isSet object.objectId) (free : barFree object.objectId)
    (storable : Storable relation.ident) (direction : Direction) :
    Under direction object relation ↔ direction.anchor relation.ident = object := by
  unfold Under
  rw [scanPrefix_objectOnly typeSet idSet]
  cases direction with
  | byObject => exact prefix_key_iff plainType free storable.names.objFields storable.objectId
  | bySubject => exact prefix_key_iff plainType free storable.names.subFields storable.subjectId

theorem under_of_anchor {relation : Relation} {direction : Direction}
    (same : direction.anchor relation.ident = object) : Under direction object relation := by
  have blank {P : Prop} (set : isSet ([] : GoString)) : P := by cases set
  subst same
  cases direction with
  | byObject => exact SafeRelation.filterPrefix_prefix_key (fun _ => rfl) (fun _ => rfl) blank blank blank
  | bySubject => exact SafeRelation.filterPrefix_prefix_key (fun _ => rfl) (fun _ => rfl) blank blank blank

end Prefixes

section Removal

variable {ω μ : Type} [Wire ω μ] {db : BoltDB ω} {relations : Finset Relation}

/-- A store whose indexes hold these storable relations. -/
structure Stores (db : BoltDB ω) (relations : Finset Relation) : Prop where
  mirrors : Mirrors db relations
  storable : ∀ relation ∈ relations, Storable relation.ident

theorem Stores.filter {written : BoltDB ω} (stores : Stores db relations) (kept : Relation → Prop)
    [DecidablePred kept] (mirrors : Mirrors written (relations.filter kept)) :
    Stores written (relations.filter kept) :=
  ⟨mirrors, fun relation member => stores.storable relation (Finset.mem_of_mem_filter _ member)⟩

theorem deleteRelation_objects (stores : Stores db relations) (ident : RelationIdentifier) :
    (Bolt.deleteRelation ident db).2.bucket .objects = db.bucket .objects := by
  obtain ⟨obj, sub, objFound, subFound⟩ := stores.mirrors.ready
  rw [deleteRelation_of_some ident objFound subFound]
  rw [bucket_assign_of_ne _ _ (by decide), bucket_assign_of_ne _ _ (by decide)]

theorem run_deleteEach (found : List Relation) (stores : Stores db relations)
    (stored : ∀ relation ∈ found, Storable relation.ident) :
    ∃ written, (Program.each found fun relation => Program.lift
          (TxOp.deleteRelation (μ := μ) relation.ident)).run backend db = (.ok ⟨⟩, written) ∧
      Stores written (relations.filter fun relation =>
        relation.ident ∉ found.map Relation.ident) ∧
      written.bucket .objects = db.bucket .objects := by
  induction found generalizing db relations with
  | nil => exact ⟨db, rfl, by simpa using stores, rfl⟩
  | cons relation rest ih =>
      obtain ⟨middle, performed, mirrors⟩ := stores.mirrors.deleteRelation fun other member =>
        (stores.storable other member).separate (stored relation List.mem_cons_self)
      have objects := deleteRelation_objects stores relation.ident
      obtain ⟨written, ran, remaining, sameObjects⟩ := ih (stores.filter _ mirrors)
        fun other member => stored other (List.mem_cons_of_mem relation member)
      refine ⟨written, ?_, ?_, ?_⟩
      · have first : backend.exec (TxOp.deleteRelation (μ := μ) relation.ident) db =
            (.ok (), middle) := performed
        rw [Program.each, Program.run_bind, Program.run_lift, first]
        exact ran
      · have same : ((relations.filter fun other => other.ident ≠ relation.ident).filter
            fun other => other.ident ∉ rest.map Relation.ident) =
            relations.filter fun other =>
              other.ident ∉ (relation :: rest).map Relation.ident := by
          ext other
          simp [Finset.mem_filter, and_assoc]
        rwa [same] at remaining
      · rw [sameObjects, ← objects, performed]

theorem run_deleteRelationsWithPrefix (stores : Stores db relations) (direction : Direction)
    (object : ObjectIdentifier) : ∃ written, (deleteRelationsWithPrefix (μ := μ) direction object.objectType
          object.objectId).run backend db = (.ok ⟨⟩, written) ∧
      Stores written (relations.filter fun relation => ¬ Under direction object relation) ∧
      written.bucket .objects = db.bucket .objects := by
  obtain ⟨iterator, scanned, _, listed⟩ := stores.mirrors.scanRelations direction
    (objectOnlyFilter direction object.objectType object.objectId)
  obtain ⟨written, ran, remaining, objects⟩ := run_deleteEach (μ := μ) iterator.values stores
    fun relation member => stores.storable relation ((listed relation).mp member).1
  refine ⟨written, ?_, ?_, objects⟩
  · have first : backend.exec (TxOp.scanRelations (μ := μ) direction
        (objectOnlyFilter direction object.objectType object.objectId) []) db =
          (.ok iterator, db) := congrArg (·, db) scanned
    simp only [deleteRelationsWithPrefix, relationsByObject, Program.bind_eq, Program.run_bind,
      Program.run_lift, first, Program.run_pure]
    exact ran
  · have same : (relations.filter fun relation =>
        relation.ident ∉ iterator.values.map Relation.ident) =
          relations.filter fun relation => ¬ Under direction object relation := by
      refine Finset.filter_congr fun relation member => not_congr ?_
      constructor
      · intro found
        obtain ⟨other, visited, sameIdent⟩ := List.mem_map.mp found
        obtain ⟨otherMember, begins⟩ := (listed other).mp visited
        cases stores.mirrors.ident_injOn otherMember member sameIdent
        exact begins
      · intro under
        exact List.mem_map.mpr ⟨relation, (listed relation).mpr ⟨member, under⟩, rfl⟩
    rwa [same] at remaining

def removeWithRelations (object : ObjectIdentifier) : Tx μ PUnit := do
  Program.lift (.deleteObject object.objectType object.objectId)
  deleteRelationsWithPrefix .bySubject object.objectType object.objectId
  deleteRelationsWithPrefix .byObject object.objectType object.objectId

/-- The key of the object is erased, and so are the relations under it in either index. -/
structure Leaves (object : ObjectIdentifier) (relations : Finset Relation)
    (before after : BoltDB ω) : Prop where
  objects : ∃ bucket, before.bucket .objects = some bucket ∧
    after.bucket .objects = some (bucket.erase (objectKey object.objectType object.objectId))
  stores : Stores after (relations.filter fun relation =>
    ¬ Under .bySubject object relation ∧ ¬ Under .byObject object relation)

theorem run_removeWithRelations {bucket : Bucket ω} (stores : Stores db relations)
    (found : db.bucket .objects = some bucket) (object : ObjectIdentifier) :
    ∃ written, (removeWithRelations (μ := μ) object).run backend db = (.ok ⟨⟩, written) ∧
      Leaves object relations db written := by
  have apart : ∀ direction, directionPath direction ≠ .objects := by
    intro direction
    cases direction <;> decide
  have erased := deleteKey_of_some (objectKey object.objectType object.objectId) found
  have remaining : Stores (db.assign .objects
      (some (bucket.erase (objectKey object.objectType object.objectId)))) relations :=
    ⟨stores.mirrors.assign _ apart, stores.storable⟩
  obtain ⟨middle, firstRan, firstStores, firstObjects⟩ :=
    run_deleteRelationsWithPrefix (μ := μ) remaining .bySubject object
  obtain ⟨written, secondRan, secondStores, secondObjects⟩ :=
    run_deleteRelationsWithPrefix (μ := μ) firstStores .byObject object
  refine ⟨written, ?_, ⟨bucket, found, ?_⟩, ?_⟩
  · have first : backend.exec (TxOp.deleteObject (μ := μ) object.objectType object.objectId) db =
        (.ok (), _) := erased
    simp only [removeWithRelations, Program.bind_eq, Program.run_bind, Program.run_lift, first,
      firstRan, secondRan]
  · rw [secondObjects, firstObjects, bucket_assign_self]
  · rwa [Finset.filter_filter] at secondStores

end Removal

section Exactness

variable {ω μ : Type} [Wire ω μ]

/-- The object and the relations that name it are gone, and nothing else is. -/
structure RemovesExactly (object : ObjectIdentifier) (relations : Finset Relation)
    (before after : BoltDB ω) : Prop where
  gone : getObject object.objectType object.objectId after = .error errKeyNotFound
  others : ∀ other : ObjectIdentifier, PlainName other.objectType → other ≠ object →
    getObject other.objectType other.objectId after =
      getObject other.objectType other.objectId before
  relations : Mirrors after (relations.filter fun relation => ¬ Names object relation)

theorem Leaves.getObject_gone {before after : BoltDB ω} (leaves : Leaves object relations before after) :
    getObject object.objectType object.objectId after = .error errKeyNotFound := by
  obtain ⟨bucket, _, found⟩ := leaves.objects
  unfold getObject
  rw [get_of_some _ found, Std.ExtTreeMap.getElem?_erase, if_pos Std.ReflOrd.compare_self]

theorem Leaves.getObject_other {other : ObjectIdentifier}
    {before after : BoltDB ω} (leaves : Leaves object relations before after)
    (plainType : PlainName object.objectType) (otherPlain : PlainName other.objectType)
    (different : other ≠ object) : getObject other.objectType other.objectId after =
      getObject other.objectType other.objectId before := by
  obtain ⟨bucket, foundBefore, found⟩ := leaves.objects
  have keys : objectKey object.objectType object.objectId ≠
      objectKey other.objectType other.objectId := by
    intro same
    obtain ⟨sameType, sameId⟩ := (append_cons_inj_left plainType.1 otherPlain.1).mp same
    exact different (ObjectIdentifier.ext sameType.symm sameId.symm)
  unfold getObject
  rw [get_of_some _ found, get_of_some _ foundBefore, Std.ExtTreeMap.getElem?_erase,
    if_neg fun equal => keys (Std.LawfulEqOrd.compare_eq_iff_eq.mp equal)]

theorem Leaves.removesExactly_iff {before after : BoltDB ω} (leaves : Leaves object relations before after)
    (plainType : PlainName object.objectType) : RemovesExactly object relations before after ↔
      ∀ relation ∈ relations, Under .bySubject object relation ∨ Under .byObject object relation →
        Names object relation := by
  constructor
  · intro removes relation member under
    obtain ⟨bucket, found, tabulates⟩ := removes.relations .byObject
    obtain ⟨other, otherFound, otherTabulates⟩ := leaves.stores.mirrors .byObject
    cases Option.some.inj (found.symm.trans otherFound)
    have same := tabulates.ext otherTabulates Wire.relation.marshal_injective
    by_contra apart
    have kept : relation ∈ relations.filter fun relation => ¬ Names object relation :=
      Finset.mem_filter.mpr ⟨member, apart⟩
    rw [same] at kept
    obtain ⟨_, notSubject, notObject⟩ := Finset.mem_filter.mp kept
    exact under.elim notSubject notObject
  · intro named
    refine ⟨leaves.getObject_gone, fun other otherPlain different =>
      leaves.getObject_other plainType otherPlain different, ?_⟩
    have same : (relations.filter fun relation => ¬ Names object relation) =
        relations.filter fun relation =>
          ¬ Under .bySubject object relation ∧ ¬ Under .byObject object relation := by
      refine Finset.filter_congr fun relation member => ?_
      rw [← not_or]
      refine not_congr ⟨fun names => ?_, named relation member⟩
      rcases names with object | subject
      · exact .inr (under_of_anchor object)
      · exact .inl (under_of_anchor subject)
    rw [same]
    exact leaves.stores.mirrors

end Exactness

section Calls

variable {ω μ : Type} [Wire ω μ] {library : Library μ}

/-- A delete with relations that succeeded: a call of the writer, or a request in the
middle of an import. -/
inductive Deletion (library : Library μ) (object : ObjectIdentifier) (before after : BoltDB ω) :
    Prop where
  | call (model : μ) (ifMatch : GoString) (now : Timestamp)
      (succeeded : update backend (deleteObject library model ifMatch now
        ⟨object.objectType, object.objectId, true⟩) before = (.ok (), after))
  | request (model : μ) (now : Timestamp) (message : Object) (named : message.ident = object)
      (succeeded : (importHandler library model now
        ⟨.deleteWithRelations, .object (some message)⟩).run backend before = (.ok ⟨⟩, after))

theorem run_updateMetadataObject_state (now : Timestamp) (object : Object) (db : BoltDB ω) :
    ((updateMetadataObject (μ := μ) now object).run backend db).2 = db := by
  simp only [updateMetadataObject, Program.bind_eq, Program.run_bind, Program.run_attempt,
    Program.run_lift]
  cases (backend.exec (TxOp.getObject (μ := μ) object.type object.id) db).1 with
  | ok current => rfl
  | error error =>
      dsimp only
      split <;> rfl

theorem Deletion.run_removeWithRelations {before after : BoltDB ω}
    (deletion : Deletion library object before after) :
    (removeWithRelations (μ := μ) object).run backend before = (.ok ⟨⟩, after) := by
  cases deletion with
  | call model ifMatch now succeeded =>
      obtain ⟨_, _, ran⟩ := Program.run_check_ok (Program.commit_ok.mp succeeded)
      obtain ⟨_, _, ran⟩ := Program.run_check_ok ran
      by_cases header : ifMatch = []
      · simp only [header, ne_eq, not_true_eq_false, ↓reduceIte] at ran
        exact ran
      · simp only [header, ne_eq, not_false_eq_true, ↓reduceIte] at ran
        obtain ⟨updated, state, read, continued⟩ := Program.run_bind_ok ran
        have same := run_updateMetadataObject_state (μ := μ) now
          { type := object.objectType, id := object.objectId } before
        rw [read] at same
        cases same
        by_cases matching : ifMatch = updated.etag
        · rw [if_neg (not_not.mpr matching)] at continued
          exact continued
        · rw [if_pos matching] at continued
          cases continued
  | request model now message named succeeded =>
      subst named
      obtain ⟨found, validated, ran⟩ := Program.run_check_ok succeeded
      obtain ⟨_, _, rest⟩ := except_bind_eq_ok.mp validated
      obtain ⟨_, _, same⟩ := except_bind_eq_ok.mp rest
      cases same
      obtain ⟨_, middle, removed, ran⟩ := Program.run_bind_ok ran
      obtain ⟨answer, _, attempted, reported⟩ := Program.run_bind_ok removed
      rw [Program.run_attempt, Program.run_lift] at attempted
      cases attempted
      cases performed : backend.exec (TxOp.deleteObject (μ := μ) message.type message.id) before with
      | mk outcome state =>
          rw [performed] at reported
          cases outcome with
          | error error => cases reported
          | ok value =>
              cases reported
              have first : backend.exec (TxOp.deleteObject (μ := μ) message.ident.objectType
                  message.ident.objectId) before = (.ok value, state) := performed
              rw [removeWithRelations, Program.bind_eq, Program.run_bind, Program.run_lift, first]
              exact ran

theorem Deletion.leaves {before after : BoltDB ω} (deletion : Deletion library object before after)
    (stores : Stores before relations) : Leaves object relations before after := by
  have ran := deletion.run_removeWithRelations
  cases found : before.bucket .objects with
  | none =>
      obtain ⟨_, _, erased, _⟩ := Program.run_bind_ok ran
      have refused : backend.exec (TxOp.deleteObject (μ := μ) object.objectType object.objectId)
          before = (.error errPathNotFound, before) := by
        simp [backend, Bolt.deleteObject, deleteKey, setBucket, found]
      rw [Program.run_lift, refused] at erased
      cases erased
  | some bucket =>
      obtain ⟨written, performed, leaves⟩ := Directory.run_removeWithRelations (μ := μ) stores found object
      rw [ran] at performed
      cases performed
      exact leaves

/-- After committed calls and earlier requests of a stream, none of which had a bar in an id. -/
def Reached (library : Library μ) (state : BoltDB ω) : Prop :=
  ∃ (operations : List (Operation μ)) (requests : List (Received μ)),
    (∀ operation ∈ operations, operation.BarFree) ∧
    (∀ received ∈ requests, BarFreeMessage received.request.message) ∧
    state = ((importRequests library requests {} []).run backend
      (runOperations library backend operations emptyDB)).2

theorem Reached.stores {state : BoltDB ω} (reached : Reached library state)
    (plain : PlainRelations library) : ∃ relations, Stores state relations := by
  obtain ⟨operations, requests, operationsFree, requestsFree, rfl⟩ := reached
  have agree := agree_runOperations plain operationsFree (agree_emptyDB (ω := ω))
  obtain ⟨⟨relations, mirrors, storable⟩, _⟩ :=
    (within_importRequests requests (fun received member =>
      admitsMessage_storableOnly plain received.model (requestsFree received member)) {} []).run
      backend_honours_storableOnly agree
  exact ⟨relations, mirrors, storable⟩

/-- In every state reached without a bar in an id, a successful delete with relations
removes exactly what names the object if and only if no stored relation lies under
the object's prefix without naming it, which is so whenever its id has no bar. -/
theorem delete_with_relations_exact_iff (plain : PlainRelations library) {before : BoltDB ω}
    (reached : Reached library before) :
    ∃ relations, Mirrors before relations ∧
      ∀ (object : ObjectIdentifier) (after : BoltDB ω), PlainName object.objectType →
        Deletion library object before after →
        (RemovesExactly object relations before after ↔ ∀ relation ∈ relations,
          Under .bySubject object relation ∨ Under .byObject object relation →
            Names object relation) ∧
        (isSet object.objectType → object.objectId ≠ [] →
          (∀ char ∈ object.objectId, isSpace char = false) → barFree object.objectId →
            RemovesExactly object relations before after) := by
  obtain ⟨relations, stores⟩ := reached.stores plain
  refine ⟨relations, stores.mirrors, fun object after plainType deletion => ?_⟩
  have exactly := (deletion.leaves stores).removesExactly_iff plainType
  refine ⟨exactly, fun typeSet present noSpace free => exactly.mpr ?_⟩
  intro relation member under
  have idSet := isSet_of_noSpace present noSpace
  have anchored := under_iff plainType typeSet idSet free (stores.storable relation member)
  rcases under with subject | object
  · exact .inr ((anchored .bySubject).mp subject)
  · exact .inl ((anchored .byObject).mp object)

end Calls

section Documents

def deleteDocument (objectId : String) : DeleteObjectRequest :=
  ⟨"doc".toList, objectId.toList, true⟩

def oneViewer (objectId : String) : BoltDB (Blob Simple.Model) :=
  runOperations Simple.library backend
    [.setRelation Simple.viewersModel [] ⟨1, 0⟩ (Simple.viewer objectId "u1")] emptyDB

theorem oneViewer_reached : Reached Simple.library (oneViewer "d1") := by
  refine ⟨[.setRelation Simple.viewersModel [] ⟨1, 0⟩ (Simple.viewer "d1" "u1")], [], ?_, by simp, rfl⟩
  simp [Operation.BarFree, barFree, Simple.viewer]

theorem delete_document_removes_exactly :
    ∃ relations, Mirrors (oneViewer "d1") relations ∧
      RemovesExactly ⟨"doc".toList, "d1".toList⟩ relations (oneViewer "d1")
        (update backend (deleteObject Simple.library Simple.viewersModel [] ⟨2, 0⟩
          (deleteDocument "d1")) (oneViewer "d1")).2 := by
  obtain ⟨relations, mirrors, exactly⟩ :=
    delete_with_relations_exact_iff simple_plainRelations oneViewer_reached
  refine ⟨relations, mirrors, (exactly _ _ (by decide) ?_).2 (by decide +kernel) (by decide)
    (by simp [isSpace]) (by unfold barFree; decide)⟩
  have succeeded : (update backend (deleteObject Simple.library Simple.viewersModel [] ⟨2, 0⟩
      (deleteDocument "d1")) (oneViewer "d1")).1 = .ok () := by decide +kernel
  exact .call Simple.viewersModel [] ⟨2, 0⟩ (Prod.ext succeeded rfl)

/-- Deleting document `d1` with its relations also removes the viewer of the document
`d1|old`, although that relation does not name `d1`. -/
theorem delete_document_removes_other_viewer :
    let request := deleteObject Simple.library Simple.viewersModel [] ⟨2, 0⟩ (deleteDocument "d1")
    let other := oneViewer "d1|old"
    ¬ Names ⟨"doc".toList, "d1".toList⟩ (Simple.viewer "d1|old" "u1") ∧
      (update backend request other).1 = .ok () ∧
      (getRelationExact (Simple.viewer "d1|old" "u1").ident other).map Relation.ident =
        .ok (Simple.viewer "d1|old" "u1").ident ∧
      getRelationExact (Simple.viewer "d1|old" "u1").ident (update backend request other).2 =
        .error errKeyNotFound := by
  refine ⟨by decide, ?_, ?_, ?_⟩ <;> decide +kernel

end Documents

end Eamerald.Directory
