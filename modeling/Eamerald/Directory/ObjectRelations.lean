import Eamerald.Directory.DeletionProperties
import Eamerald.Directory.LookupProperties
import Eamerald.Directory.Objects
import Eamerald.Directory.ScanProperties

/-! The relations that a read of one object returns. They are those of two scans, one after the
other, so that a relation which both scans find is returned twice. -/

set_option autoImplicit false

namespace Eamerald.Directory

open Foundation Store

variable {finds : Direction → Relation → Prop}

section Lists

variable {object : ObjectIdentifier} {relations : Finset Relation}

/-- The list holds the stored relations that name the object, each once. -/
def ListsOnce (object : ObjectIdentifier) (relations : Finset Relation) (listed : List Relation) :
    Prop :=
  listed.Nodup ∧ ∀ relation, relation ∈ listed ↔ relation ∈ relations ∧ Names object relation

/-- The two scans find a relation between them exactly if it names the object, and never both. -/
def FoundOnce (object : ObjectIdentifier) (relations : Finset Relation)
    (finds : Direction → Relation → Prop) : Prop :=
  ∀ relation ∈ relations, (finds .bySubject relation ∨ finds .byObject relation ↔ Names object relation) ∧
    ¬ (finds .bySubject relation ∧ finds .byObject relation)

structure Listed (relations : Finset Relation) (finds : Relation → Prop) (listed : List Relation) :
    Prop where
  distinct : listed.Nodup
  listed : ∀ relation, relation ∈ listed ↔ relation ∈ relations ∧ finds relation

theorem listsOnce_append_iff {incoming outgoing : List Relation}
    (bySubject : Listed relations (finds .bySubject) incoming)
    (byObject : Listed relations (finds .byObject) outgoing) :
    ListsOnce object relations (incoming ++ outgoing) ↔ FoundOnce object relations finds := by
  constructor
  · rintro ⟨distinct, exactly⟩ relation stored
    have apart := (List.nodup_append'.mp distinct).2.2
    have named := exactly relation
    simp only [List.mem_append, bySubject.listed, byObject.listed, stored, true_and] at named
    refine ⟨named, ?_⟩
    rintro ⟨first, second⟩
    exact apart ((bySubject.listed _).mpr ⟨stored, first⟩) ((byObject.listed _).mpr ⟨stored, second⟩)
  · intro once
    constructor
    · refine List.nodup_append'.mpr ⟨bySubject.distinct, byObject.distinct, ?_⟩
      intro relation first second
      obtain ⟨stored, found⟩ := (bySubject.listed _).mp first
      exact (once relation stored).2 ⟨found, ((byObject.listed _).mp second).2⟩
    · intro relation
      rw [List.mem_append, bySubject.listed, byObject.listed, ← and_or_left]
      exact and_congr_right fun stored => (once relation stored).1

end Lists

section Reads

variable {μ σ : Type} {library : ReadLibrary μ} {model : μ} {backend : Backend μ σ} {state : σ}
  {object : Object} {ifNoneMatch : List GoString}

structure AcceptsRead (library : ReadLibrary μ) (model : μ) (request : GetObjectRequest) : Prop where
  valid : library.getObjectRequest request = .ok ()
  declared : library.validateObjectIdentifier model ⟨request.objectType, request.objectId⟩ = .ok ()

theorem view_getObject {relations : Finset Relation}
    (accepts : AcceptsRead library model ⟨object.type, object.id, true⟩)
    (stored : backend.exec (.getObject object.type object.id) state = (.ok object, state))
    (missing : object.etag ∉ ifNoneMatch)
    (scans : ∀ direction, ∃ iterator, backend.exec (.scanRelations direction
      (objectOnlyFilter direction object.type object.id) []) state = (.ok iterator, state) ∧
        Listed relations (finds direction) iterator.values) :
    ∃ listed, view backend (Reader.getObject library model ifNoneMatch ⟨object.type, object.id, true⟩) state =
        .ok ⟨some (patchObjectRead object), listed⟩ ∧
      (ListsOnce object.ident relations listed ↔ FoundOnce object.ident relations finds) := by
  obtain ⟨incoming, bySubject, listedIncoming⟩ := scans .bySubject
  obtain ⟨outgoing, byObject, listedOutgoing⟩ := scans .byObject
  refine ⟨incoming.values ++ outgoing.values, ?_, listsOnce_append_iff listedIncoming listedOutgoing⟩
  simp only [view, Reader.getObject, accepts.valid, accepts.declared, readObject, relationsOf,
    relationsByObject, Program.bind_eq, Program.run_bind, Program.run_done, Program.run_lift, stored,
    missing, ↓reduceIte, bySubject, byObject, Program.run_pure]

end Reads

section Stores

variable {ω μ : Type} [Wire ω μ] {library : ReadLibrary μ} {model : μ} {db : Bolt.BoltDB ω}
  {tables : Postgres.Tables ω} {relations : Finset Relation} {object : Object}
  {ifNoneMatch : List GoString} {ident : ObjectIdentifier}

theorem meetsConditions_objectOnly {objectType objectId : GoString} (typed : objectType ≠ [])
    (named : objectId ≠ []) (direction : Direction) (ident : RelationIdentifier) :
    Postgres.meetsConditions (Postgres.relationConditions
        (objectOnlyFilter direction objectType objectId)) ident = true ↔
      direction.anchor ident = ⟨objectType, objectId⟩ := by
  cases direction <;>
    simp [Postgres.meetsConditions, Postgres.relationConditions, objectOnlyFilter, typed, named,
      Postgres.column, Direction.anchor, RelationIdentifier.object, RelationIdentifier.subject] <;>
    exact and_congr decide_eq_true_iff decide_eq_true_iff

theorem foundOnce_anchor_iff :
    FoundOnce ident relations (fun direction relation => direction.anchor relation.ident = ident) ↔
      ∀ relation ∈ relations, ¬ (relation.ident.subject = ident ∧ relation.ident.object = ident) := by
  refine forall₂_congr fun relation _ => ?_
  simp only [Direction.anchor, Names, or_comm, true_and]

theorem FoundOnce.anchor (once : FoundOnce ident relations fun direction => Under direction ident) :
    FoundOnce ident relations fun direction relation => direction.anchor relation.ident = ident := by
  refine foundOnce_anchor_iff.mpr fun relation stored both => ?_
  exact (once relation stored).2 ⟨under_of_anchor both.1, under_of_anchor both.2⟩

theorem foundOnce_under_iff (plainType : Bolt.PlainName ident.objectType)
    (typeSet : isSet ident.objectType) (idSet : isSet ident.objectId) (free : barFree ident.objectId)
    (storable : ∀ relation ∈ relations, Bolt.Storable relation.ident) :
    (FoundOnce ident relations fun direction => Under direction ident) ↔
      ∀ relation ∈ relations, ¬ (relation.ident.subject = ident ∧ relation.ident.object = ident) := by
  rw [← foundOnce_anchor_iff]
  refine forall₂_congr fun relation stored => ?_
  have same := under_iff plainType typeSet idSet free (storable relation stored)
  simp only [same]

/-- A read of a stored object returns the relations that name it, each once and the same on both
backends, exactly if each stored relation that lies under the object in an index names it and lies
under it in one index only. For ids without a bar that is so exactly if no stored relation leads
from the object to itself. -/
theorem get_object_relations_exact_iff (server : Postgres.Server ω)
    (mirrors : Bolt.Mirrors db relations) (holds : Postgres.Holds tables relations)
    (accepts : AcceptsRead library model ⟨object.type, object.id, true⟩)
    (onBolt : (Bolt.backend (μ := μ)).exec (.getObject object.type object.id) db = (.ok object, db))
    (onPostgres : (Postgres.backend (μ := μ) server).exec (.getObject object.type object.id) tables =
      (.ok object, tables))
    (missing : object.etag ∉ ifNoneMatch) (typeSet : isSet object.type) (present : object.id ≠ [])
    (noSpace : ∀ char ∈ object.id, isSpace char = false) :
    let program := Reader.getObject library model ifNoneMatch ⟨object.type, object.id, true⟩
    ∃ bolt postgres,
      view Bolt.backend program db = .ok ⟨some (patchObjectRead object), bolt⟩ ∧
      view (Postgres.backend server) program tables =
        .ok ⟨some (patchObjectRead object), postgres⟩ ∧
      ((ListsOnce object.ident relations bolt ∧ ListsOnce object.ident relations postgres ∧
          ∀ relation, relation ∈ bolt ↔ relation ∈ postgres) ↔
        FoundOnce object.ident relations fun direction => Under direction object.ident) ∧
      (Bolt.PlainName object.type → barFree object.id →
        (∀ relation ∈ relations, Bolt.Storable relation.ident) →
          ((FoundOnce object.ident relations fun direction => Under direction object.ident) ↔
            ∀ relation ∈ relations,
              ¬ (relation.ident.subject = object.ident ∧ relation.ident.object = object.ident))) := by
  intro program
  obtain ⟨bolt, boltViewed, boltOnce⟩ := view_getObject accepts onBolt missing fun direction => by
    obtain ⟨iterator, scanned, distinct, listed⟩ := mirrors.scanRelations direction
      (objectOnlyFilter direction object.type object.id)
    exact ⟨iterator, congrArg (·, db) scanned, distinct, listed⟩
  obtain ⟨postgres, postgresViewed, postgresOnce⟩ :=
    view_getObject accepts onPostgres missing fun direction => by
      obtain ⟨iterator, selected, distinct, listed⟩ := holds.scanRelations server direction
        (objectOnlyFilter direction object.type object.id)
      simp only [meetsConditions_objectOnly (ne_nil_of_isSet typeSet) present] at listed
      exact ⟨iterator, congrArg (·, tables) selected, distinct, listed⟩
  refine ⟨bolt, postgres, boltViewed, postgresViewed, ⟨?_, ?_⟩, ?_⟩
  · intro exactly
    exact boltOnce.mp exactly.1
  · intro once
    have first := boltOnce.mpr once
    have second := postgresOnce.mpr once.anchor
    exact ⟨first, second, fun relation => (first.2 relation).trans (second.2 relation).symm⟩
  · intro plainType free storable
    exact foundOnce_under_iff plainType typeSet (isSet_of_noSpace present noSpace) free storable

end Stores

section Documents

def simpleReads : ReadLibrary Simple.Model where
  toListLibrary := simpleLists
  getObjectRequest _ := .ok ()
  getObjectManyRequest _ := .ok ()

def viewedDocument : Object := { type := "doc".toList, id := "d1".toList }

def boltDocument (relation : Relation) : Bolt.BoltDB (Blob Simple.Model) :=
  (Bolt.setRelation relation Bolt.emptyDB).2.assign .objects
    (some ((∅ : Bolt.Bucket (Blob Simple.Model)).insert
      (Bolt.objectKey viewedDocument.type viewedDocument.id) (Wire.object.marshal viewedDocument)))

def postgresDocument (relation : Relation) : Postgres.Tables (Blob Simple.Model) :=
  { ((Postgres.backend (μ := Simple.Model) plainServer).exec (.setRelation relation)
      Postgres.emptyTables).2 with
    objects := (∅ : Std.ExtTreeMap ObjectIdentifier (Blob Simple.Model)).insert
      viewedDocument.ident (Wire.object.marshal viewedDocument) }

theorem boltDocument_stored (relation : Relation) :
    (Bolt.backend (μ := Simple.Model)).exec (.getObject viewedDocument.type viewedDocument.id)
      (boltDocument relation) = (.ok viewedDocument, boltDocument relation) := by
  have found : (boltDocument relation).bucket .objects = some _ := Bolt.bucket_assign_self ..
  change (Bolt.getObject viewedDocument.type viewedDocument.id (boltDocument relation), _) = _
  rw [Bolt.getObject, Bolt.get_of_some _ found, Std.ExtTreeMap.getElem?_insert_self]
  rfl

theorem postgresDocument_stored (relation : Relation) : (Postgres.backend (μ := Simple.Model) plainServer).exec
      (.getObject viewedDocument.type viewedDocument.id) (postgresDocument relation) =
        (.ok viewedDocument, postgresDocument relation) := by
  refine Prod.ext ?_ rfl
  change Postgres.select Wire.object (((∅ : Std.ExtTreeMap ObjectIdentifier (Blob Simple.Model)).insert
    viewedDocument.ident (Wire.object.marshal viewedDocument))[viewedDocument.ident]?) = _
  rw [Std.ExtTreeMap.getElem?_insert_self]
  rfl

def readDocument : Tx Simple.Model GetObjectResponse :=
  Reader.getObject simpleReads Simple.viewersModel [] ⟨viewedDocument.type, viewedDocument.id, true⟩

theorem document_lists_viewer :
    ∃ bolt postgres,
      view Bolt.backend readDocument (boltDocument tenthViewer) = .ok ⟨some viewedDocument, bolt⟩ ∧
      view (Postgres.backend plainServer) readDocument (postgresDocument tenthViewer) =
        .ok ⟨some viewedDocument, postgres⟩ ∧
      ListsOnce viewedDocument.ident {tenthViewer} bolt ∧
      ListsOnce viewedDocument.ident {tenthViewer} postgres := by
  have mirrors : Bolt.Mirrors (boltDocument tenthViewer) {tenthViewer} :=
    boltViewers_mirrors.assign _ fun direction => by cases direction <;> decide
  have holds : Postgres.Holds (postgresDocument tenthViewer) {tenthViewer} := postgresViewers_holds
  have accepts : AcceptsRead simpleReads Simple.viewersModel
    ⟨viewedDocument.type, viewedDocument.id, true⟩ := ⟨rfl, rfl⟩
  obtain ⟨bolt, postgres, onBolt, onPostgres, exactly, _⟩ :=
    get_object_relations_exact_iff plainServer mirrors holds accepts
      (boltDocument_stored tenthViewer) (postgresDocument_stored tenthViewer)
      (List.not_mem_nil (a := viewedDocument.etag)) (by decide +kernel) (by decide +kernel)
      (by simp [viewedDocument, isSpace])
  obtain ⟨first, second, _⟩ := exactly.mpr fun relation member => by
    cases Finset.mem_singleton.mp member
    decide +kernel
  exact ⟨bolt, postgres, onBolt, onPostgres, first, second⟩

def selfParent : Relation :=
  { objectType := "doc".toList, objectId := "d1".toList, relation := "parent".toList,
    subjectType := "doc".toList, subjectId := "d1".toList, subjectRelation := [] }

/-- The relation of the document to itself is returned twice by either backend. The viewer of the
document `d1|old` is returned for the document `d1` by Bolt, and not by Postgres. -/
theorem document_lists_relation_twice :
    let listed (answer : Except Err GetObjectResponse) :=
      answer.map fun response => response.relations.map Relation.ident
    (listed (view Bolt.backend readDocument (boltDocument selfParent)) =
          .ok [selfParent.ident, selfParent.ident] ∧
        listed (view (Postgres.backend plainServer) readDocument (postgresDocument selfParent)) =
          .ok [selfParent.ident, selfParent.ident]) ∧
      listed (view Bolt.backend readDocument (boltDocument (Simple.viewer "d1|old" "u1"))) =
          .ok [(Simple.viewer "d1|old" "u1").ident] ∧
        listed (view (Postgres.backend plainServer) readDocument
          (postgresDocument (Simple.viewer "d1|old" "u1"))) = .ok [] := by
  decide +kernel

end Documents

end Eamerald.Directory
