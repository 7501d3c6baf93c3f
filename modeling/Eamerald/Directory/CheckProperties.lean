import Eamerald.Directory.LookupProperties

/-! Authorization checks against the evaluation they guard: a check first asks
both indexes whether the subject and the object occur at all, and denies without
an evaluation when one of them does not. -/

set_option autoImplicit false

namespace Eamerald.Directory

open Foundation Store

section Backend

variable {μ σ : Type} (library : Library μ) (backend : Backend μ σ) (model : μ)
  (request : CheckRequest)

def evaluate (state : σ) : Except Err CheckResponse :=
  ((library.check model request).run ⟨fun op => (readRelations library op).run backend⟩ state).1

def grants (state : σ) : Bool := (evaluate library backend model request state).toOption.any (·.check)

variable {library backend model request}

theorem run_relationIdentifierExist {state : σ} {direction : Direction}
    {objectType objectId : GoString} {found : Bool}
    (read : backend.exec (.relationsExistForObject direction objectType objectId) state = (.ok found, state)) :
    (relationIdentifierExist direction objectType objectId).run backend state = (.ok found, state) := by
  simp [relationIdentifierExist, Program.bind_eq, Program.run_bind, read]

theorem check_eq_grants {state : σ} {subjectKnown objectKnown : Bool}
    (valid : library.checkRequest request = .ok ()) (declared : library.validateCheck model request = .ok ())
    (subjectRead : backend.exec
      (.relationsExistForObject .bySubject request.subjectType request.subjectId) state =
        (.ok subjectKnown, state)) (objectRead : backend.exec
      (.relationsExistForObject .byObject request.objectType request.objectId) state =
        (.ok objectKnown, state)) : (check library backend model request state).check =
      (subjectKnown && objectKnown && grants library backend model request state) := by
  have subjectRun := run_relationIdentifierExist subjectRead
  have objectRun := run_relationIdentifierExist objectRead
  simp only [check, valid, declared, view, execCheck, relationIdentifiersExist, Program.bind_eq,
    Program.run_bind, subjectRun]
  cases subjectKnown with
  | false => rfl
  | true =>
      simp only [Bool.not_true, Bool.false_eq_true, ↓reduceIte, Program.run_bind, objectRun]
      cases objectKnown with
      | false => rfl
      | true =>
          simp only [Bool.not_true, Bool.false_eq_true, ↓reduceIte, Program.run_pure,
            Program.run_through, grants, evaluate, Bool.true_and]
          cases ((library.check model request).run
            ⟨fun op => (readRelations library op).run backend⟩ state).1 <;> rfl

end Backend

section Stores

variable {ω μ : Type} [Wire ω μ] {library : Library μ} {model : μ} {request : CheckRequest}
  {db : Bolt.BoltDB ω} {tables : Postgres.Tables ω} {relations : Finset Relation}

/-- Some stored relation lies under the given type and id in the index of this direction. -/
def Occurs (relations : Finset Relation) (direction : Direction) (objectType objectId : GoString) :
    Prop :=
  ∃ relation ∈ relations,
    Bolt.scanPrefix direction (objectOnlyFilter direction objectType objectId) <+:
      Bolt.indexKey direction relation.ident

instance (relations : Finset Relation) (direction : Direction) (objectType objectId : GoString) :
    Decidable (Occurs relations direction objectType objectId) :=
  inferInstanceAs (Decidable (∃ relation ∈ relations, _))

private theorem agrees_iff {subjectKnown objectKnown granted : Bool} :
    ((subjectKnown && objectKnown && granted) = true ↔ granted = true) ↔
      (granted = true → subjectKnown = true ∧ objectKnown = true) := by
  revert subjectKnown objectKnown granted
  decide

/-- A check decides as the evaluation does exactly when every grant is to a subject
that is the subject, on an object that is the object, of some stored relation. -/
theorem check_agrees_with_evaluation_iff (valid : library.checkRequest request = .ok ())
    (declared : library.validateCheck model request = .ok ()) (server : Postgres.Server ω)
    (mirrors : Bolt.Mirrors db relations) (holds : Postgres.Holds tables relations) :
    (((check library Bolt.backend model request db).check = true ↔
          grants library Bolt.backend model request db = true) ↔
        (grants library Bolt.backend model request db = true →
          Occurs relations .bySubject request.subjectType request.subjectId ∧
            Occurs relations .byObject request.objectType request.objectId)) ∧
      (((check library (Postgres.backend server) model request tables).check = true ↔
          grants library (Postgres.backend server) model request tables = true) ↔
        (grants library (Postgres.backend server) model request tables = true →
          (∃ relation ∈ relations,
              relation.ident.subject = ⟨request.subjectType, request.subjectId⟩) ∧
            ∃ relation ∈ relations,
              relation.ident.object = ⟨request.objectType, request.objectId⟩)) := by
  have boltRead (direction : Direction) (objectType objectId : GoString) :
      Bolt.backend.exec (.relationsExistForObject (μ := μ) direction objectType objectId) db =
        (.ok (decide (Occurs relations direction objectType objectId)), db) :=
    congrArg (·, db) (mirrors.relationsExistForObject direction objectType objectId)
  have postgresRead (direction : Direction) (objectType objectId : GoString) :
      (Postgres.backend server).exec
          (.relationsExistForObject (μ := μ) direction objectType objectId) tables =
        (.ok (decide (∃ relation ∈ relations,
          direction.anchor relation.ident = ⟨objectType, objectId⟩)), tables) :=
    congrArg (fun found => (Except.ok found, tables))
      (holds.relationsExistForObject direction objectType objectId)
  constructor
  · rw [check_eq_grants valid declared (boltRead _ _ _) (boltRead _ _ _), agrees_iff,
      decide_eq_true_eq, decide_eq_true_eq]
  · rw [check_eq_grants valid declared (postgresRead _ _ _) (postgresRead _ _ _), agrees_iff,
      decide_eq_true_eq, decide_eq_true_eq]
    rfl

end Stores

section PublicViewers

def publicViewer : Relation :=
  { objectType := "doc".toList, objectId := "roadmap".toList,
    relation := "public-viewer".toList, subjectType := "user".toList, subjectId := "*".toList,
    subjectRelation := [] }

def publicModel : Simple.Model :=
  { objectTypes := ["doc".toList, "user".toList]
    rules := [⟨"doc".toList, "public-viewer".toList, "user:*".toList, []⟩] }

def mayView (subjectId : String) : CheckRequest :=
  { objectType := "doc".toList, objectId := "roadmap".toList,
    relation := "public-viewer".toList, subjectType := "user".toList,
    subjectId := subjectId.toList }

def boltPublic : Bolt.BoltDB (Blob Simple.Model) := (Bolt.setRelation publicViewer Bolt.emptyDB).2

def postgresPublic : Postgres.Tables (Blob Simple.Model) :=
  ((Postgres.backend plainServer).exec (.setRelation publicViewer) Postgres.emptyTables).2

theorem boltPublic_mirrors : Bolt.Mirrors boltPublic {publicViewer} := by
  have fits : byteLength (Bolt.objKeyOf publicViewer.ident) ≤ Bolt.maxKeySize := by decide
  obtain ⟨written, performed, mirrors⟩ :=
    (Bolt.mirrors_emptyDB (ω := Blob Simple.Model)).setRelation fits (by simp)
  rw [boltPublic, performed]
  exact mirrors

theorem postgresPublic_holds : Postgres.Holds postgresPublic {publicViewer} :=
  (Postgres.holds_emptyTables (ω := Blob Simple.Model)).setRelation plainServer publicViewer

theorem check_agrees_for_everyone :
    (check Simple.library Bolt.backend publicModel (mayView "*") boltPublic).check = true ↔
      grants Simple.library Bolt.backend publicModel (mayView "*") boltPublic = true := by
  refine (check_agrees_with_evaluation_iff rfl rfl plainServer boltPublic_mirrors
    postgresPublic_holds).1.mpr fun _ => ?_
  decide

/-- A grant to all users is denied to a user who has no relation of their own. -/
theorem check_denies_public_viewer :
    grants Simple.library Bolt.backend publicModel (mayView "alice") boltPublic = true ∧
      check Simple.library Bolt.backend publicModel (mayView "alice") boltPublic =
        { check := false, reason := some (notFound "subject" "user".toList "alice".toList) } ∧
      grants Simple.library (Postgres.backend plainServer) publicModel (mayView "alice")
        postgresPublic = true ∧
      (check Simple.library (Postgres.backend plainServer) publicModel (mayView "alice")
        postgresPublic).check = false := by
  refine ⟨?_, ?_, ?_, ?_⟩ <;> decide +kernel

end PublicViewers

end Eamerald.Directory
