import Eamerald.Directory.Reader
import Eamerald.Directory.RelationProperties
import Eamerald.Directory.Simple
import Eamerald.Bolt.Indexes
import Eamerald.Postgres.Contents

/-! Relation lookups against the set of stored relations, on both backends. -/

set_option autoImplicit false

namespace Eamerald.Directory

open Foundation Store

section Filtered

variable {ω μ : Type} [Wire ω μ] {db : Bolt.BoltDB ω} {tables : Postgres.Tables ω}
  {relations : Finset Relation}

theorem bolt_scanRelationsFiltered (mirrors : Bolt.Mirrors db relations) (pattern : SafeRelation)
    (direction : Direction) (out : List RelationIdentifier) :
    ∃ found, Bolt.scanRelationsFiltered direction pattern.asFilter pattern.valueFilter out db =
        .ok (out ++ found) ∧ found.Nodup ∧
      ∀ ident, ident ∈ found ↔ ∃ relation ∈ relations, relation.ident = ident ∧ pattern.Agrees ident := by
  obtain ⟨found, scanned, distinct, listed⟩ :=
    mirrors.scanRelationsFiltered direction pattern.asFilter pattern.valueFilter out
  refine ⟨found, scanned, distinct, fun ident => ?_⟩
  rw [listed]
  refine exists_congr fun relation => and_congr_right fun _ => and_congr_right fun _ => ?_
  rw [pattern.valueFilter_iff]
  exact ⟨fun both => both.2, fun agrees => ⟨agrees.scanPrefix_begins direction, agrees⟩⟩

theorem postgres_scanRelationsFiltered (holds : Postgres.Holds tables relations)
    (server : Postgres.Server ω) (pattern : SafeRelation) (out : List RelationIdentifier) :
    ∃ found, Postgres.scanRelationsFiltered server pattern.asFilter pattern.valueFilter out tables =
        out ++ found ∧ found.Nodup ∧ ∀ ident, ident ∈ found ↔ ∃ relation ∈ relations, relation.ident = ident ∧
        pattern.Agrees ident := by
  obtain ⟨found, scanned, distinct, listed⟩ :=
    holds.scanRelationsFiltered server pattern.asFilter pattern.valueFilter out
  refine ⟨found, scanned, distinct, fun ident => ?_⟩
  rw [listed]
  refine exists_congr fun relation => and_congr_right fun _ => and_congr_right fun _ => ?_
  rw [pattern.valueFilter_iff, pattern.meetsConditions_iff]
  exact and_self_iff

def tenthViewer : Relation := Simple.viewer "d1" "u10"

def boltViewers : Bolt.BoltDB (Blob Simple.Model) := (Bolt.setRelation tenthViewer Bolt.emptyDB).2

def plainServer : Postgres.Server (Blob Simple.Model) := .plain (.model {})

def postgresViewers : Postgres.Tables (Blob Simple.Model) :=
  ((Postgres.backend plainServer).exec (.setRelation tenthViewer) Postgres.emptyTables).2

theorem boltViewers_mirrors : Bolt.Mirrors boltViewers {tenthViewer} := by
  have fits : byteLength (Bolt.objKeyOf tenthViewer.ident) ≤ Bolt.maxKeySize := by decide
  obtain ⟨written, performed, mirrors⟩ :=
    (Bolt.mirrors_emptyDB (ω := Blob Simple.Model)).setRelation fits (by simp)
  rw [boltViewers, performed]
  exact mirrors

theorem postgresViewers_holds : Postgres.Holds postgresViewers {tenthViewer} :=
  (Postgres.holds_emptyTables (ω := Blob Simple.Model)).setRelation plainServer tenthViewer

/-- What the evaluation engine reads: on either backend, behind what was already
there, the identifiers of exactly the stored relations that agree with the
pattern, each once. -/
theorem relation_reader_exact (library : Library μ) (server : Postgres.Server ω)
    (mirrors : Bolt.Mirrors db relations) (holds : Postgres.Holds tables relations)
    (pattern : SafeRelation) (out : List RelationIdentifier) :
    let lookup := pattern.filter library
    let query := TxOp.scanRelationsFiltered (μ := μ) lookup.1 lookup.2.1 lookup.2.2 out
    ∃ onBolt onPostgres : List RelationIdentifier,
      Bolt.backend.exec query db = (.ok (out ++ onBolt), db) ∧
      (Postgres.backend server).exec query tables = (.ok (out ++ onPostgres), tables) ∧
      onBolt.Nodup ∧ onPostgres.Perm onBolt ∧
      ∀ ident, ident ∈ onBolt ↔ ∃ relation ∈ relations, relation.ident = ident ∧
        pattern.Agrees ident := by
  obtain ⟨onBolt, boltScan, boltDistinct, boltListed⟩ :=
    bolt_scanRelationsFiltered mirrors pattern (pattern.direction library).1 out
  obtain ⟨onPostgres, postgresScan, postgresDistinct, postgresListed⟩ :=
    postgres_scanRelationsFiltered holds server pattern out
  refine ⟨onBolt, onPostgres, ?_, ?_, boltDistinct, ?_, boltListed⟩
  · exact congrArg (·, db) boltScan
  · exact congrArg (fun found => (Except.ok found, tables)) postgresScan
  · refine (List.perm_ext_iff_of_nodup postgresDistinct boltDistinct).mpr fun ident => ?_
    rw [postgresListed, boltListed]

theorem relation_reader_reads_viewers :
    ∃ onBolt, Bolt.backend.exec (TxOp.scanRelationsFiltered (μ := Simple.Model) .byObject
        (relationIdentifier ⟨"doc".toList, "d1".toList, [], [], [], []⟩).asFilter
        (relationIdentifier ⟨"doc".toList, "d1".toList, [], [], [], []⟩).valueFilter []) boltViewers =
          (.ok ([] ++ onBolt), boltViewers) ∧ tenthViewer.ident ∈ onBolt := by
  obtain ⟨onBolt, _, performed, _, _, _, listed⟩ := relation_reader_exact Simple.library plainServer
    boltViewers_mirrors postgresViewers_holds
    (relationIdentifier ⟨"doc".toList, "d1".toList, [], [], [], []⟩) []
  exact ⟨onBolt, performed, (listed _).mpr ⟨tenthViewer, by simp, rfl, by decide⟩⟩

end Filtered

section Single

variable {μ σ : Type} (backend : Backend μ σ) {matching : Finset Relation}

/-- The request and the identifier agree on every field the request sets. -/
def GetRelationRequest.Agrees (request : GetRelationRequest) (ident : RelationIdentifier) : Prop :=
  (request.objectType ≠ [] → ident.objectType = request.objectType) ∧
  (request.objectId ≠ [] → ident.objectId = request.objectId) ∧
  (request.relation ≠ [] → ident.relation = request.relation) ∧
  (request.subjectType ≠ [] → ident.subjectType = request.subjectType) ∧
  (request.subjectId ≠ [] → ident.subjectId = request.subjectId) ∧
  (request.subjectRelation ≠ [] → ident.subjectRelation = request.subjectRelation)

instance (request : GetRelationRequest) (ident : RelationIdentifier) :
    Decidable (request.Agrees ident) :=
  inferInstanceAs (Decidable (_ ∧ _))

/-- The library's view of a request has its fields, and fixes the subject relation
when the request names one. -/
def CopiesRequests (library : Library μ) : Prop :=
  ∀ request, library.safeGetRelation request =
    ⟨⟨request.objectType, request.objectId, request.relation, request.subjectType,
      request.subjectId, request.subjectRelation⟩, decide (request.subjectRelation ≠ [])⟩

theorem CopiesRequests.agrees_iff {library : Library μ} (copies : CopiesRequests library)
    (request : GetRelationRequest) (ident : RelationIdentifier) :
    (library.safeGetRelation request).Agrees ident ↔ request.Agrees ident := by
  rw [copies request]
  simp [SafeRelation.Agrees, GetRelationRequest.Agrees]

/-- The answer a lookup owes for the relations that match. -/
structure Exact (outcome : Except Err GetRelationResponse) (matching : Finset Relation) : Prop where
  none : matching = ∅ → outcome = .error Bolt.errKeyNotFound
  one : ∀ relation, matching = {relation} →
    ∃ response, outcome = .ok response ∧ response.result = relation
  many : 2 ≤ matching.card → outcome = .error Bolt.errMultipleResults

theorem run_endpoint (objectType objectId : GoString) (state : σ) :
    ∃ object rest, (endpoint objectType objectId).run backend state = (.ok object, rest) := by
  cases found : (backend.exec (.getObject objectType objectId) state).1 <;>
    simp [endpoint, Program.bind_eq, Program.run_bind, found]

theorem run_getWithObjects (relations : List Relation) (objects : Named Object) (state : σ) :
    ∃ found rest, (getWithObjects relations objects).run backend state = (.ok found, rest) := by
  induction relations generalizing objects state with
  | nil => exact ⟨objects, state, rfl⟩
  | cons relation relations ih =>
      obtain ⟨subject, middle, subjectRead⟩ :=
        run_endpoint backend relation.subjectType relation.subjectId state
      obtain ⟨object, last, objectRead⟩ :=
        run_endpoint backend relation.objectType relation.objectId middle
      simp only [getWithObjects, Program.bind_eq, Program.run_bind, subjectRead, objectRead]
      exact ih _ _

theorem run_presentRelation (request : GetRelationRequest)
    (ifNoneMatch : List GoString) (relation : Relation) (state : σ) :
    ∃ response rest, (presentRelation request ifNoneMatch relation).run backend state =
      (.ok response, rest) ∧ response.result = relation := by
  unfold presentRelation
  split
  · exact ⟨_, _, rfl, rfl⟩
  · split
    · obtain ⟨objects, rest, read⟩ := run_getWithObjects backend [relation] ∅ state
      refine ⟨{ result := relation, objects }, rest, ?_, rfl⟩
      simp only [Program.bind_eq, Program.run_bind, read, Program.run_pure]
    · exact ⟨_, _, rfl, rfl⟩

theorem lookupRelation_exact (request : GetRelationRequest)
    (ifNoneMatch : List GoString) (direction : Direction) (filter : RelationFilter) {state rest : σ}
    {iterator : Iterator Relation}
    (scanned : backend.exec (.scanRelations direction filter []) state = (.ok iterator, rest))
    (distinct : iterator.values.Nodup) :
    Exact (view backend (lookupRelation request ifNoneMatch direction filter) state)
      iterator.values.toFinset := by
  cases found : iterator.values with
  | nil =>
      have missing : view backend (lookupRelation request ifNoneMatch direction filter) state =
          .error Bolt.errKeyNotFound := by
        simp [view, lookupRelation, Program.bind_eq, Program.run_bind, scanned, found]
      rw [missing]
      exact ⟨fun _ => rfl, by simp, by simp⟩
  | cons first others =>
      cases others with
      | nil =>
          have single : view backend (lookupRelation request ifNoneMatch direction filter) state =
              view backend (presentRelation request ifNoneMatch first) rest := by
            simp [view, lookupRelation, Program.bind_eq, Program.run_bind, scanned, found]
          obtain ⟨response, _, presented, same⟩ :=
            run_presentRelation backend request ifNoneMatch first rest
          rw [single]
          refine ⟨by simp, ?_, by simp⟩
          intro relation only
          refine ⟨response, by simp [view, presented], ?_⟩
          simpa [same] using only
      | cons second others =>
          have several : view backend (lookupRelation request ifNoneMatch direction filter) state =
              .error Bolt.errMultipleResults := by
            simp [view, lookupRelation, Program.bind_eq, Program.run_bind, scanned, found]
          rw [found] at distinct
          have counted := List.toFinset_card_of_nodup distinct
          rw [several]
          refine ⟨by simp, ?_, fun _ => rfl⟩
          intro relation only
          rw [only] at counted
          simp at counted

/-- Reading more than what matches does no harm once two relations match. -/
theorem Exact.of_superset_iff {outcome : Except Err GetRelationResponse}
    {found : Finset Relation} (exact : Exact outcome found)
    (covers : matching ⊆ found) : Exact outcome matching ↔ found ⊆ matching ∨ 2 ≤ matching.card := by
  constructor
  · intro alsoExact
    by_contra neither
    obtain ⟨surplus, few⟩ := not_or.mp neither
    have strict : matching.card < found.card := Finset.card_lt_card ⟨covers, surplus⟩
    rcases Nat.lt_or_ge found.card 2 with single | several
    · obtain ⟨relation, same⟩ := Finset.card_eq_one.mp (show found.card = 1 by omega)
      obtain ⟨response, answered, _⟩ := exact.one relation same
      have empty := alsoExact.none (Finset.card_eq_zero.mp (by omega))
      rw [answered] at empty
      cases empty
    · have answered := exact.many several
      rcases Nat.eq_zero_or_pos matching.card with nothing | something
      · have empty := alsoExact.none (Finset.card_eq_zero.mp nothing)
        rw [answered] at empty
        exact absurd (Except.error.inj empty) (by decide)
      · obtain ⟨relation, same⟩ := Finset.card_eq_one.mp (show matching.card = 1 by omega)
        obtain ⟨response, other, _⟩ := alsoExact.one relation same
        rw [answered] at other
        cases other
  · intro either
    rcases either with covered | several
    · exact Finset.Subset.antisymm covered covers ▸ exact
    · have answered := exact.many (le_trans several (Finset.card_le_card covers))
      refine ⟨?_, ?_, fun _ => answered⟩
      · intro empty
        simp [empty] at several
      · intro relation single
        simp [single] at several

theorem Exact.same_result {left right : Except Err GetRelationResponse}
    (leftExact : Exact left matching) (rightExact : Exact right matching) :
    left.map GetRelationResponse.result = right.map GetRelationResponse.result := by
  rcases Nat.lt_or_ge matching.card 2 with few | several
  · rcases Nat.eq_zero_or_pos matching.card with nothing | something
    · have empty := Finset.card_eq_zero.mp nothing
      rw [leftExact.none empty, rightExact.none empty]
    · obtain ⟨relation, single⟩ := Finset.card_eq_one.mp (show matching.card = 1 by omega)
      obtain ⟨leftResponse, leftAnswer, leftSame⟩ := leftExact.one relation single
      obtain ⟨rightResponse, rightAnswer, rightSame⟩ := rightExact.one relation single
      rw [leftAnswer, rightAnswer]
      simp [Except.map, leftSame, rightSame]
  · rw [leftExact.many several, rightExact.many several]

end Single

section Backends

variable {ω μ : Type} [Wire ω μ]

/-- A request the validators and the model accept, for a complete object or subject. -/
structure Accepted (library : Library μ) (model : μ) (request : GetRelationRequest) : Prop where
  valid : library.getRelationRequest request = .ok ()
  declared : library.validateRelations model (library.safeGetRelation request) = .ok ()
  complete : ((library.safeGetRelation request).direction library).2 = true

theorem Accepted.view_getRelation {σ : Type} {library : Library μ} {model : μ}
    {request : GetRelationRequest} (accepted : Accepted library model request)
    (backend : Backend μ σ) (ifNoneMatch : List GoString) (state : σ) :
    view backend (getRelation library model ifNoneMatch request) state =
      view backend (lookupRelation request ifNoneMatch ((library.safeGetRelation request).direction library).1
        (library.safeGetRelation request).asFilter) state := by
  simp only [getRelation, SafeRelation.pathAndFilter, accepted.valid, accepted.declared,
    accepted.complete, ↓reduceIte]
  rfl

/-- Which relations the Bolt lookup takes to match: those whose key begins with the
prefix made of the request's leading fields. -/
def LiesUnder (library : Library μ) (request : GetRelationRequest) (ident : RelationIdentifier) :
    Prop :=
  let pattern := library.safeGetRelation request
  Bolt.scanPrefix (pattern.direction library).1 pattern.asFilter <+:
    Bolt.indexKey (pattern.direction library).1 ident

/-- Looking up one relation is exact, on both backends and with the same answer,
exactly when the stored relations under the scan prefix all agree with the request,
or at least two stored relations agree with it. -/
theorem get_relation_exact_iff {library : Library μ} {model : μ} {request : GetRelationRequest}
    (copies : CopiesRequests library) (accepted : Accepted library model request)
    (server : Postgres.Server ω) (ifNoneMatch : List GoString) {db : Bolt.BoltDB ω}
    {tables : Postgres.Tables ω} {relations : Finset Relation}
    (mirrors : Bolt.Mirrors db relations) (holds : Postgres.Holds tables relations) :
    let matching := relations.filter fun relation => request.Agrees relation.ident
    let program := getRelation library model ifNoneMatch request
    let onBolt := view Bolt.backend program db
    let onPostgres := view (Postgres.backend server) program tables
    (Exact onBolt matching ∧ Exact onPostgres matching ∧
        onBolt.map GetRelationResponse.result = onPostgres.map GetRelationResponse.result) ↔
      (∀ relation ∈ relations, LiesUnder library request relation.ident →
          request.Agrees relation.ident) ∨
        2 ≤ matching.card := by
  intro matching program onBolt onPostgres
  let direction := ((library.safeGetRelation request).direction library).1
  let filter := (library.safeGetRelation request).asFilter
  obtain ⟨boltRows, boltScan, boltDistinct, boltListed⟩ := mirrors.scanRelations direction filter
  obtain ⟨postgresRows, postgresScan, postgresDistinct, postgresListed⟩ :=
    holds.scanRelations server direction filter
  have boltExact : Exact onBolt boltRows.values.toFinset := by
    have performed : Bolt.backend.exec (TxOp.scanRelations (μ := μ) direction filter []) db =
        (.ok boltRows, db) := congrArg (·, db) boltScan
    have exact := lookupRelation_exact Bolt.backend request ifNoneMatch _ _ performed boltDistinct
    rwa [← accepted.view_getRelation] at exact
  have postgresExact : Exact onPostgres matching := by
    have performed : (Postgres.backend server).exec
        (TxOp.scanRelations (μ := μ) direction filter []) tables = (.ok postgresRows, tables) :=
      congrArg (·, tables) postgresScan
    have exact := lookupRelation_exact (Postgres.backend server) request ifNoneMatch _ _ performed
      postgresDistinct
    rw [← accepted.view_getRelation] at exact
    have same : postgresRows.values.toFinset = matching := by
      ext relation
      simp only [List.mem_toFinset, postgresListed, filter, SafeRelation.meetsConditions_iff,
        copies.agrees_iff, Finset.mem_filter, matching]
    rwa [same] at exact
  have covers : matching ⊆ boltRows.values.toFinset := by
    intro relation member
    obtain ⟨stored, agrees⟩ := Finset.mem_filter.mp member
    have under :=
      ((copies.agrees_iff request relation.ident).mpr agrees).scanPrefix_begins direction
    exact List.mem_toFinset.mpr ((boltListed relation).mpr ⟨stored, under⟩)
  have surplus : boltRows.values.toFinset ⊆ matching ↔
      ∀ relation ∈ relations, LiesUnder library request relation.ident →
        request.Agrees relation.ident := by
    simp only [Finset.subset_iff, List.mem_toFinset, boltListed, Finset.mem_filter, matching]
    exact ⟨fun within relation stored under => (within ⟨stored, under⟩).2,
      fun agree relation both => ⟨both.1, agree relation both.1 both.2⟩⟩
  rw [← surplus, ← boltExact.of_superset_iff covers]
  constructor
  · intro all
    exact all.1
  · intro exact
    exact ⟨exact, postgresExact, exact.same_result postgresExact⟩

def viewerRequest (subjectId : GoString) : GetRelationRequest :=
  { objectType := "doc".toList, objectId := "d1".toList, relation := "viewer".toList,
    subjectType := "user".toList, subjectId }

theorem viewerRequest_accepted (subjectId : GoString) :
    Accepted Simple.library Simple.viewersModel (viewerRequest subjectId) :=
  ⟨rfl, rfl, rfl⟩

theorem get_relation_exact_tenth :
    Exact (view Bolt.backend (getRelation Simple.library Simple.viewersModel []
      (viewerRequest "u10".toList)) boltViewers) {tenthViewer} := by
  have exact := (get_relation_exact_iff (fun _ => rfl) (viewerRequest_accepted "u10".toList)
    plainServer [] boltViewers_mirrors postgresViewers_holds).mpr (.inl (by
      intro relation member _
      rw [Finset.mem_singleton.mp member]
      decide))
  exact exact.1

/-- Asking for viewer `u1` answers with viewer `u10` on Bolt, and with nothing on
Postgres. -/
theorem get_relation_returns_tenth :
    let program := getRelation Simple.library Simple.viewersModel [] (viewerRequest "u1".toList)
    ¬ (viewerRequest "u1".toList).Agrees tenthViewer.ident ∧
      (view Bolt.backend program boltViewers).map GetRelationResponse.result = .ok tenthViewer ∧
      (view (Postgres.backend plainServer) program postgresViewers).map
        GetRelationResponse.result = .error Bolt.errKeyNotFound := by
  refine ⟨by decide, ?_, ?_⟩ <;> decide +kernel

end Backends

end Eamerald.Directory
