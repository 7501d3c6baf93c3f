import Eamerald.Directory.LookupProperties
import Eamerald.Directory.RoundTrip
import Eamerald.Directory.SortedScans

/-! Paging through the relations that match a request, in either backend. A page is full when
it has enough matching rows, while its token is that of the next row, matching or not. -/

set_option autoImplicit false

namespace Eamerald.Directory

open Foundation Store

section Requests

/-- The identifier has the values that the request fixes. An empty subject relation is only
fixed on demand. -/
def GetRelationsRequest.Agrees (request : GetRelationsRequest) (ident : RelationIdentifier) : Prop :=
  (request.objectType ≠ [] → ident.objectType = request.objectType) ∧
  (request.objectId ≠ [] → ident.objectId = request.objectId) ∧
  (request.relation ≠ [] → ident.relation = request.relation) ∧
  (request.subjectType ≠ [] → ident.subjectType = request.subjectType) ∧
  (request.subjectId ≠ [] → ident.subjectId = request.subjectId) ∧
  (request.subjectRelation ≠ [] ∨ request.withEmptySubjectRelation = true →
    ident.subjectRelation = request.subjectRelation)

instance (request : GetRelationsRequest) (ident : RelationIdentifier) :
    Decidable (request.Agrees ident) :=
  inferInstanceAs (Decidable (_ ∧ _))

def GetRelationsRequest.pattern (request : GetRelationsRequest) : SafeRelation :=
  ⟨⟨request.objectType, request.objectId, request.relation, request.subjectType, request.subjectId,
    request.subjectRelation⟩,
    decide (request.subjectRelation ≠ []) || request.withEmptySubjectRelation⟩

theorem GetRelationsRequest.valueFilter_iff (request : GetRelationsRequest) (ident : RelationIdentifier) :
    request.pattern.valueFilter ident = true ↔ request.Agrees ident := by
  rw [request.pattern.valueFilter_iff]
  simp only [SafeRelation.Agrees, Agrees, pattern, Bool.or_eq_true, decide_eq_true_eq]

end Requests

section Bounds

variable {μ σ : Type} {library : ListLibrary μ} {model : μ} {backend : Backend μ σ} {state : σ}
  {pageSize : Int32} {request : GetRelationsRequest} {pattern : SafeRelation}

theorem length_relationPages (accepts : library.Accepts model request pattern pageSize)
    (positive : 0 < pageSize.toInt) {token next : GoString} {items : List Relation}
    (answered : relationPages library model backend state pageSize request token = .ok (items, next)) :
    (items.length : Int) ≤ pageSize.toInt := by
  have room : (([] : List Relation).length : Int) < pageSize.toInt := positive
  rw [relationPages, accepts.getRelations_eq, view, listRelations, Program.bind_eq, Program.run_bind,
    Program.run_lift] at answered
  cases scanned : backend.exec (.scanRelations (pattern.direction library.toLibrary).1 pattern.asFilter token)
      state with
  | mk answer after =>
      rw [scanned] at answered
      cases answer with
      | error error => cases answered
      | ok iterator =>
          have bounded := length_takePage (fun relation : Relation => pattern.valueFilter relation.ident)
            pageSize iterator.rows room
          dsimp only at answered
          generalize takePage (fun relation : Relation => pattern.valueFilter relation.ident) pageSize
            iterator.rows [] = taken at answered bounded
          cases closed : closeAfter iterator taken with
          | error error =>
              rw [closed] at answered
              cases answered
          | ok _ =>
              rw [closed, Program.done_ok_bind] at answered
              cases wanted : request.withObjects with
              | false =>
                  simp only [wanted, Bool.false_eq_true, ↓reduceIte] at answered
                  cases answered
                  exact bounded
              | true =>
                  obtain ⟨objects, last, read⟩ := run_getWithObjects backend taken.items ∅ after
                  simp only [wanted, ↓reduceIte, Program.bind_eq, Program.run_bind, read] at answered
                  cases answered
                  exact bounded

end Bounds

section Exactness

variable {ω μ : Type} [Wire ω μ] {library : ListLibrary μ} {model : μ} {server : Postgres.Server ω}
  {db : Bolt.BoltDB ω} {tables : Postgres.Tables ω} {relations : Finset Relation}
  {pageSize : Int32} {request : GetRelationsRequest}


theorem decodes_of_tabulates {κ M : Type} [Ord κ] [Std.TransOrd κ] {codec : Codec ω M} {key : M → κ}
    {map : Std.ExtTreeMap κ ω} {items : Finset M} (tabulates : Tabulates map key codec.marshal items) :
    Decodes codec key map ∧ ∀ item, rowAt codec map (key item) = some item ↔ item ∈ items := by
  have decodes : Decodes codec key map := by
    intro place value found
    obtain ⟨item, _, rfl, rfl⟩ := (tabulates place value).mp found
    exact ⟨item, codec.unmarshal_marshal item, rfl⟩
  refine ⟨decodes, fun item => ?_⟩
  rw [decodes.rowAt_eq_some]
  constructor
  · rintro ⟨value, found, unmarshalled⟩
    obtain ⟨other, member, _, rfl⟩ := (tabulates _ value).mp found
    rw [codec.unmarshal_marshal] at unmarshalled
    cases unmarshalled
    exact member
  · intro member
    exact ⟨codec.marshal item, tabulates.getElem? member, codec.unmarshal_marshal item⟩

def ListLibrary.index (library : ListLibrary μ) (request : GetRelationsRequest) : Direction :=
  (request.pattern.direction library.toLibrary).1

structure AnswersExactly (relations : Finset Relation) (request : GetRelationsRequest)
    (listed : List Relation) : Prop where
  distinct : listed.Nodup
  agreeing : ∀ relation, relation ∈ listed ↔ relation ∈ relations ∧ request.Agrees relation.ident

theorem bolt_relationPages (accepts : library.Accepts model request request.pattern pageSize)
    (mirrors : Bolt.Mirrors db relations) :
    ∃ listed, Enumerates [] (relationPages library model Bolt.backend db pageSize request) [] listed ∧
      AnswersExactly relations request listed ∧
      (listed.map fun relation => Bolt.indexKey (library.index request) relation.ident).Pairwise
        fun left right => compare left right = .lt := by
  obtain ⟨bucket, found, tabulates⟩ := mirrors (library.index request)
  obtain ⟨decodes, stored⟩ := decodes_of_tabulates tabulates
  have keyed (entry : Bolt.Key × ω) (member : entry ∈ bucket.toList) : entry.1 ≠ [] := by
    obtain ⟨relation, here⟩ := decodes.exists_key member
    rw [← here]
    cases library.index request with
    | byObject => exact Bolt.objKeyOf_ne_nil relation.ident
    | bySubject => exact Bolt.subKeyOf_ne_nil relation.ident
  have pages := enumerates_relationPages accepts
    (Bolt.resumes_scanRelations found keyed request.pattern.asFilter)
  have values : (Bolt.scannedRows Wire.relation .zero bucket
      (Bolt.scanPrefix (library.index request) request.pattern.asFilter)).map (·.value) =
        Bolt.scanned Wire.relation .zero bucket
          (Bolt.scanPrefix (library.index request) request.pattern.asFilter) := by
    rw [Bolt.scannedRows, List.map_map]
    rfl
  rw [values] at pages
  have sorted : ((Bolt.scanned Wire.relation .zero bucket
      (Bolt.scanPrefix (library.index request) request.pattern.asFilter)).map fun relation =>
        Bolt.indexKey (library.index request) relation.ident).Pairwise
          fun left right => compare left right = .lt := Bolt.sorted_scanned decodes
  have kept := (List.pairwise_map.mp sorted).filter fun relation =>
    request.pattern.valueFilter relation.ident
  refine ⟨_, pages, ⟨?_, ?_⟩, List.pairwise_map.mpr kept⟩
  · refine kept.imp fun {left right} before same => ?_
    rw [same] at before
    exact Std.OrientedCmp.not_lt_of_lt before before
  · intro relation
    rw [List.mem_filter, Bolt.mem_scanned decodes, stored, request.valueFilter_iff, and_assoc]
    refine and_congr_right fun _ => ⟨fun both => both.2, fun agrees => ⟨?_, agrees⟩⟩
    rw [← request.valueFilter_iff, request.pattern.valueFilter_iff] at agrees
    exact agrees.scanPrefix_begins _

theorem postgres_relationPages (accepts : library.Accepts model request request.pattern pageSize)
    (lawful : server.Lawful) (holds : Postgres.Holds tables relations) :
    ∃ listed, Enumerates [] (relationPages library model (Postgres.backend server) tables pageSize request) []
        listed ∧ AnswersExactly relations request listed ∧
      (listed.map Relation.ident).Pairwise fun left right => Postgres.compareColumns server
        (Postgres.orderedColumns (library.index request)) left right = .lt := by
  obtain ⟨decodes, stored⟩ := decodes_of_tabulates holds
  let accept := Postgres.meetsConditions (Postgres.relationConditions request.pattern.asFilter)
  have pages := enumerates_relationPages accepts
    (Postgres.resumes_scanRelations tables lawful (library.index request) request.pattern.asFilter)
  have values : (Postgres.queriedRows server Wire.relation .zero
      (Postgres.orderedColumns (library.index request))
      (tables.relations.toList.filter fun row => accept row.1)).map (·.value) =
        Postgres.queried server Wire.relation .zero (Postgres.orderedColumns (library.index request))
          tables.relations accept := by
    rw [Postgres.queriedRows, List.map_map]
    rfl
  rw [values] at pages
  have sized (ident : RelationIdentifier) : (Postgres.orderedColumns (library.index request) ident).length =
      (Postgres.orderCols (library.index request)).length := List.length_map _
  have order : Std.TransCmp (Postgres.compareColumns server (Postgres.orderedColumns (library.index request))) :=
    Postgres.transCmp_compareColumns lawful
  have sorted : ((Postgres.queried server Wire.relation .zero
      (Postgres.orderedColumns (library.index request)) tables.relations accept).map Relation.ident).Pairwise
        fun left right => Postgres.compareColumns server
          (Postgres.orderedColumns (library.index request)) left right = .lt :=
    Postgres.sorted_queried decodes lawful sized (Postgres.orderedColumns_injective _)
  have kept := (List.pairwise_map.mp sorted).filter fun relation =>
    request.pattern.valueFilter relation.ident
  refine ⟨_, pages, ⟨?_, ?_⟩, List.pairwise_map.mpr kept⟩
  · refine kept.imp fun {left right} before same => ?_
    rw [same] at before
    exact Std.OrientedCmp.not_lt_of_lt before before
  · intro relation
    rw [List.mem_filter, Postgres.mem_queried decodes, stored, request.pattern.meetsConditions_iff,
      ← request.pattern.valueFilter_iff, request.valueFilter_iff, and_assoc, and_self_iff]

/-- Following the tokens gives the stored relations that agree with the request, once each and in
the order of the index, whichever fields it fixes and whatever the page size. Backends with the
same relations give the same ones. -/
theorem paging_relations_exact {stored : Finset Relation}
    (accepts : library.Accepts model request request.pattern pageSize)
    (positive : 0 < pageSize.toInt) (lawful : server.Lawful) (mirrors : Bolt.Mirrors db relations)
    (holds : Postgres.Holds tables stored) :
    ∃ onBolt onPostgres,
      Enumerates [] (relationPages library model Bolt.backend db pageSize request) [] onBolt ∧
      Enumerates [] (relationPages library model (Postgres.backend server) tables pageSize request) []
        onPostgres ∧
      AnswersExactly relations request onBolt ∧ AnswersExactly stored request onPostgres ∧
      ((onBolt.map fun relation => Bolt.indexKey (library.index request) relation.ident).Pairwise
        fun left right => compare left right = .lt) ∧
      ((onPostgres.map Relation.ident).Pairwise fun left right => Postgres.compareColumns server
        (Postgres.orderedColumns (library.index request)) left right = .lt) ∧
      (stored = relations → onPostgres.Perm onBolt) ∧
      (∀ token items next, relationPages library model Bolt.backend db pageSize request token =
        .ok (items, next) → (items.length : Int) ≤ pageSize.toInt) ∧
      ∀ token items next, relationPages library model (Postgres.backend server) tables pageSize request
        token = .ok (items, next) → (items.length : Int) ≤ pageSize.toInt := by
  obtain ⟨onBolt, boltPages, boltExact, boltOrder⟩ := bolt_relationPages accepts mirrors
  obtain ⟨onPostgres, postgresPages, postgresExact, postgresOrder⟩ :=
    postgres_relationPages accepts lawful holds
  refine ⟨onBolt, onPostgres, boltPages, postgresPages, boltExact, postgresExact, boltOrder, postgresOrder,
    ?_, ?_, ?_⟩
  · rintro rfl
    refine (List.perm_ext_iff_of_nodup postgresExact.distinct boltExact.distinct).mpr fun relation => ?_
    rw [postgresExact.agreeing, boltExact.agreeing]
  · exact fun _ _ _ => length_relationPages accepts positive
  · exact fun _ _ _ => length_relationPages accepts positive

def viewersOfDocuments : GetRelationsRequest := { objectType := "doc".toList, subjectType := "user".toList }

theorem paging_viewers_exact :
    ∃ onBolt, Enumerates [] (relationPages simpleLists Simple.viewersModel Bolt.backend boltViewers 1
        viewersOfDocuments) [] onBolt ∧ tenthViewer ∈ onBolt := by
  have accepts : simpleLists.Accepts Simple.viewersModel viewersOfDocuments viewersOfDocuments.pattern 1 :=
    ⟨fun _ => rfl, fun _ => rfl, by decide⟩
  have lawful : plainServer.Lawful := lawful_plain _
  obtain ⟨onBolt, _, pages, _, exactly, _⟩ := paging_relations_exact accepts (by decide)
    lawful boltViewers_mirrors postgresViewers_holds
  exact ⟨onBolt, pages, (exactly.agreeing tenthViewer).mpr ⟨by simp, by decide⟩⟩

end Exactness

end Eamerald.Directory
