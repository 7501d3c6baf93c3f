import Eamerald.Directory.Access
import Eamerald.Directory.CheckProperties
import Eamerald.Directory.DeletionProperties
import Eamerald.Directory.Engines

/-! Batches against single evaluations. A single evaluation is validated before it is checked
and a check of a batch is not, so that a batch can grant what its evaluations deny. -/

set_option autoImplicit false

namespace Eamerald.Directory

open Foundation Store Authorizer

section Defaults

/-- A field that is not set is taken from the default. -/
def orDefault (value default : GoString) : GoString := if value = [] then default else value

def CheckRequest.fill (default request : CheckRequest) : CheckRequest where
  objectType := orDefault request.objectType default.objectType
  objectId := orDefault request.objectId default.objectId
  relation := orDefault request.relation default.relation
  subjectType := orDefault request.subjectType default.subjectType
  subjectId := orDefault request.subjectId default.subjectId
  trace := request.trace || default.trace

def fillSubject : Option Subject → Option Subject → Option Subject
  | none, default => default
  | some own, none => some own
  | some own, some default =>
      some { own with type := orDefault own.type default.type, id := orDefault own.id default.id }

def fillAction : Option Action → Option Action → Option Action
  | none, default => default
  | some own, none => some own
  | some own, some default => some { own with name := orDefault own.name default.name }

def fillResource : Option Resource → Option Resource → Option Resource
  | none, default => default
  | some own, none => some own
  | some own, some default =>
      some { own with type := orDefault own.type default.type, id := orDefault own.id default.id }

def fillEvaluation (batch : EvaluationsRequest) (request : EvaluationRequest) : EvaluationRequest :=
  { request with
    subject := fillSubject request.subject batch.subject
    action := fillAction request.action batch.action
    resource := fillResource request.resource batch.resource }

@[simp] theorem orDefault_nil (default : GoString) : orDefault [] default = default := if_pos rfl

@[simp] theorem orDefault_of_nil (value : GoString) : orDefault value [] = value := by
  by_cases blank : value = [] <;> simp [orDefault, blank]

theorem extractCheck_fillEvaluation (batch : EvaluationsRequest) (request : EvaluationRequest) :
    extractCheck (fillEvaluation batch request) = (extractChecks batch).1.fill (extractCheck request) := by
  have subjects (own default : Option Subject) :
      ((fillSubject own default).map Subject.type).getD [] =
          orDefault ((own.map Subject.type).getD []) ((default.map Subject.type).getD []) ∧
        ((fillSubject own default).map Subject.id).getD [] =
          orDefault ((own.map Subject.id).getD []) ((default.map Subject.id).getD []) := by
    cases own <;> cases default <;> simp [fillSubject]
  have resources (own default : Option Resource) :
      ((fillResource own default).map Resource.type).getD [] =
          orDefault ((own.map Resource.type).getD []) ((default.map Resource.type).getD []) ∧
        ((fillResource own default).map Resource.id).getD [] =
          orDefault ((own.map Resource.id).getD []) ((default.map Resource.id).getD []) := by
    cases own <;> cases default <;> simp [fillResource]
  have actions (own default : Option Action) :
      ((fillAction own default).map Action.name).getD [] =
        orDefault ((own.map Action.name).getD []) ((default.map Action.name).getD []) := by
    cases own <;> cases default <;> simp [fillAction]
  simp only [extractCheck, fillEvaluation, extractChecks, CheckRequest.fill, subjects, resources, actions,
    Bool.or_self]

end Defaults

/-- Unset fields come from the default, and the pool answers every request, in order. -/
structure BatchLaw {μ : Type} (library : BatchLibrary μ) : Prop where
  fills : ∀ default requests,
    library.checkRequests default requests = requests.map (CheckRequest.fill default)
  ordered : ∀ {σ : Type} (backend : Backend μ σ) (state : σ) (requests : List CheckRequest)
    (job : CheckRequest → Tx μ CheckResponse) (answer : CheckRequest → CheckResponse),
    (∀ request, (job request).run backend state = (.ok (answer request), state)) →
      (library.runPool requests job).run backend state = (.ok (requests.map answer), state)

section Reading

variable {Op : Type → Type} {ε σ α : Type}

theorem run_state_of_reads {handler : Handler Op ε σ} {state : σ}
    (reads : ∀ {β : Type} (op : Op β), (handler.exec op state).2 = state) (program : Program Op ε α) :
    (program.run handler state).2 = state := by
  induction program with
  | done result => rfl
  | call op next ih =>
      rw [Program.run_call, reads op]
      exact ih _

end Reading

section Jobs

variable {μ σ : Type} {library : BatchLibrary μ} {backend : Backend μ σ} {model : μ} {state : σ}

structure ReadsLeave (backend : Backend μ σ) (state : σ) : Prop where
  exists_ : ∀ direction objectType objectId,
    (backend.exec (.relationsExistForObject direction objectType objectId) state).2 = state
  scan : ∀ direction filter valueFilter out,
    (backend.exec (.scanRelationsFiltered direction filter valueFilter out) state).2 = state

variable (library backend model) in
def jobAnswer (request : CheckRequest) (state : σ) : CheckResponse :=
  match library.validateCheck model request with
  | .error error => checkError error
  | .ok _ =>
      match view backend (execCheck library.toLibrary model request) state with
      | .ok response => response
      | .error error => checkError error

variable (backend state) in
/-- Whether a check takes an identifier to occur on a side of some relation. -/
def known (direction : Direction) (objectType objectId : GoString) : Bool :=
  (backend.exec (.relationsExistForObject direction objectType objectId) state).1.toOption.getD false

theorem run_exist (leaves : ReadsLeave backend state) (direction : Direction) (objectType objectId : GoString) :
    (relationIdentifierExist direction objectType objectId).run backend state =
      (.ok (known backend state direction objectType objectId), state) := by
  simp only [relationIdentifierExist, Program.bind_eq, Program.run_bind, Program.run_attempt, Program.run_lift,
    leaves.exists_, known]
  cases (backend.exec (.relationsExistForObject direction objectType objectId) state).1 with
  | ok found => rfl
  | error error => rfl

theorem run_execCheck (leaves : ReadsLeave backend state) (request : CheckRequest) :
    (execCheck library.toLibrary model request).run backend state =
      (if known backend state .bySubject request.subjectType request.subjectId = false then
          .error (notFound "subject" request.subjectType request.subjectId)
        else if known backend state .byObject request.objectType request.objectId = false then
          .error (notFound "object" request.objectType request.objectId)
        else evaluate library.toLibrary backend model request state, state) := by
  have evaluated : ((library.check model request).through (readRelations library.toLibrary)).run backend state =
      (evaluate library.toLibrary backend model request state, state) := by
    rw [Program.run_through]
    refine Prod.ext rfl (run_state_of_reads (fun op => ?_) _)
    cases op
    exact leaves.scan ..
  simp only [execCheck, relationIdentifiersExist, Program.bind_eq, Program.run_bind, run_exist leaves]
  cases known backend state .bySubject request.subjectType request.subjectId with
  | false => rfl
  | true =>
      simp only [Bool.not_true, Bool.false_eq_true, ↓reduceIte, Program.run_bind, run_exist leaves]
      cases known backend state .byObject request.objectType request.objectId with
      | false => rfl
      | true => exact evaluated

theorem run_checkJob (leaves : ReadsLeave backend state) (request : CheckRequest) :
    (checkJob library model request).run backend state =
      (.ok (jobAnswer library backend model request state), state) := by
  unfold checkJob jobAnswer
  cases library.validateCheck model request with
  | error error => rfl
  | ok _ =>
      have kept : ((execCheck library.toLibrary model request).run backend state).2 = state := by
        rw [run_execCheck leaves]
      simp only [Program.bind_eq, Program.run_bind, Program.run_attempt, kept, view]
      cases ((execCheck library.toLibrary model request).run backend state).1 with
      | ok response => rfl
      | error error => rfl

theorem check_eq_job (request : CheckRequest) : (check library.toLibrary backend model request state).check =
      ((library.checkRequest request).isOk && (jobAnswer library backend model request state).check) := by
  unfold check jobAnswer
  cases library.checkRequest request with
  | error error => rfl
  | ok _ =>
      simp only [Except.isOk, Except.toBool, Bool.true_and]
      cases library.validateCheck model request with
      | error error => rfl
      | ok _ =>
          dsimp only
          cases view backend (execCheck library.toLibrary model request) state with
          | ok response => rfl
          | error error => rfl

theorem check_jobAnswer (leaves : ReadsLeave backend state) (request : CheckRequest) :
    (jobAnswer library backend model request state).check = true ↔
      library.validateCheck model request = .ok () ∧
        known backend state .bySubject request.subjectType request.subjectId = true ∧
        known backend state .byObject request.objectType request.objectId = true ∧
        grants library.toLibrary backend model request state = true := by
  unfold jobAnswer
  cases library.validateCheck model request with
  | error error => simp [checkError]
  | ok _ =>
      simp only [view, run_execCheck leaves, grants, true_and]
      cases known backend state .bySubject request.subjectType request.subjectId with
      | false => simp [checkError]
      | true =>
          cases known backend state .byObject request.objectType request.objectId with
          | false => simp [checkError]
          | true =>
              cases evaluate library.toLibrary backend model request state with
              | ok response => simp [Except.toOption]
              | error error => simp [Except.toOption, checkError]

theorem checks_eq (law : BatchLaw library) (leaves : ReadsLeave backend state) (default : CheckRequest)
    (requests : List CheckRequest) : checks library backend model ⟨some default, requests⟩ state =
      .ok (requests.map fun request => jobAnswer library backend model (default.fill request) state) := by
  have ran := law.ordered backend state (library.checkRequests default requests) (checkJob library model)
    (fun request => jobAnswer library backend model request state) (run_checkJob leaves)
  rw [checks, view, execChecks, Option.getD_some, ran, law.fills, List.map_map]
  rfl

variable (library backend model) in
/-- A single evaluation refuses the request as it is written, and a batch grants it. -/
structure Slips (request : CheckRequest) (state : σ) : Prop where
  refused : (library.checkRequest request).isOk = false
  declared : library.validateCheck model request = .ok ()
  subject : known backend state .bySubject request.subjectType request.subjectId = true
  object : known backend state .byObject request.objectType request.objectId = true
  granted : grants library.toLibrary backend model request state = true

theorem job_agrees_iff (leaves : ReadsLeave backend state) (request : CheckRequest) :
    (jobAnswer library backend model request state).check =
        (check library.toLibrary backend model request state).check ↔
      ¬ Slips library backend model request state := by
  rw [check_eq_job]
  cases accepted : (library.checkRequest request).isOk with
  | true =>
      rw [Bool.true_and]
      exact iff_of_true rfl fun slips => Bool.noConfusion (accepted.symm.trans slips.refused)
  | false =>
      rw [Bool.false_and, ← Bool.not_eq_true, check_jobAnswer leaves]
      refine not_congr ⟨?_, fun slips => ⟨slips.declared, slips.subject, slips.object, slips.granted⟩⟩
      exact fun ⟨declared, subject, object, granted⟩ => ⟨accepted, declared, subject, object, granted⟩

theorem evaluations_eq (law : BatchLaw library) (leaves : ReadsLeave backend state)
    (batch : EvaluationsRequest) :
    evaluations library backend model batch state = .ok (batch.evaluations.map fun request =>
      let answer := jobAnswer library backend model (extractCheck (fillEvaluation batch request)) state
      ⟨answer.check, answer.reason⟩) := by
  have answered : checks library backend model ⟨some (extractChecks batch).1, (extractChecks batch).2⟩ state = _ :=
    checks_eq law leaves _ _
  unfold evaluations
  dsimp only
  rw [answered]
  change Except.ok (extractDecisions (List.map _ (batch.evaluations.map extractCheck))) = _
  rw [extractDecisions, List.map_map, List.map_map]
  refine congrArg Except.ok (List.map_congr_left fun request _ => ?_)
  rw [extractCheck_fillEvaluation]
  rfl

theorem filterMap_zip_map {α β : Type} (names : List α) (answer : α → β) (positive : β → Bool) :
    ((names.zip (names.map answer)).filterMap fun (name, response) =>
      if positive response then some name else none) = names.filter fun name => positive (answer name) := by
  induction names with
  | nil => rfl
  | cons name rest ih =>
      rw [List.map_cons, List.zip_cons_cons, List.filterMap_cons, List.filter_cons]
      dsimp only
      by_cases granted : positive (answer name)
      · rw [if_pos granted, if_pos granted]
        exact congrArg _ ih
      · rw [if_neg granted, if_neg granted]
        exact ih

def ActionSearchRequest.about (request : ActionSearchRequest) (name : GoString) : EvaluationRequest :=
  { subject := request.subject, action := some { name }, resource := request.resource }

theorem actionSearch_eq (law : BatchLaw library) (leaves : ReadsLeave backend state)
    {request : ActionSearchRequest} {permissions : List GoString}
    (available : library.availablePermissions model ((request.resource.map Resource.type).getD [])
      ((request.subject.map Subject.type).getD []) = .ok permissions) :
    actionSearch library backend model request state = .ok (permissions.filter fun name =>
      (jobAnswer library backend model (extractCheck (request.about name)) state).check) := by
  have filled (name : GoString) :
      ({ objectType := (request.resource.map Resource.type).getD []
         objectId := (request.resource.map Resource.id).getD []
         relation := []
         subjectType := (request.subject.map Subject.type).getD []
         subjectId := (request.subject.map Subject.id).getD [] } : CheckRequest).fill
        { CheckRequest.zero with relation := name } = extractCheck (request.about name) := by
    simp [CheckRequest.fill, CheckRequest.zero, extractCheck, ActionSearchRequest.about]
  unfold actionSearch
  dsimp only
  rw [available]
  dsimp only [bind, Except.bind]
  rw [checks_eq law leaves, List.map_map]
  simp only [Function.comp_def, filled]
  exact congrArg Except.ok (filterMap_zip_map permissions _ CheckResponse.check)

end Jobs

theorem filter_eq_filter_iff {α : Type} {items : List α} {left right : α → Bool} :
    items.filter left = items.filter right ↔ ∀ item ∈ items, left item = right item := by
  constructor
  · intro same item member
    have both : item ∈ items.filter left ↔ item ∈ items.filter right := by rw [same]
    simp only [List.mem_filter, member, true_and] at both
    exact Bool.eq_iff_iff.mpr both
  · exact List.filter_congr

section Agreement

variable {ω μ : Type} [Wire ω μ] {library : BatchLibrary μ}

theorem Engine.readsLeave (engine : Engine ω) (state : engine.State) :
    ReadsLeave (engine.backend : Backend μ engine.State) state := by
  cases engine with
  | bolt => exact ⟨fun _ _ _ => rfl, fun _ _ _ _ => rfl⟩
  | postgres server => exact ⟨fun _ _ _ => rfl, fun _ _ _ _ => rfl⟩

section Sample

def runJobs {μ : Type} : List CheckRequest → (CheckRequest → Tx μ CheckResponse) → Tx μ (List CheckResponse)
  | [], _ => return []
  | request :: rest, job => do
      let response ← job request
      let responses ← runJobs rest job
      return response :: responses

def simpleBatches : BatchLibrary Simple.Model where
  toLibrary := Simple.library
  checkRequests default requests := requests.map default.fill
  runPool := runJobs
  availablePermissions model objectType _ :=
    .ok ((model.rules.filter fun rule => rule.objectType = objectType).map Simple.Rule.relation)

theorem simpleBatches_law : BatchLaw simpleBatches where
  fills _ _ := rfl
  ordered := by
    intro σ backend state requests job answer answers
    induction requests with
    | nil => rfl
    | cons request rest ih =>
        have later : (runJobs rest job).run backend state = (.ok (rest.map answer), state) := ih
        change (runJobs (request :: rest) job).run backend state = _
        simp only [runJobs, Program.bind_eq, Program.run_bind, answers, later]
        rfl

def aboutRoadmap (subject : Subject) : EvaluationRequest :=
  { subject := some subject, action := some { name := "public-viewer".toList },
    resource := some { type := "doc".toList, id := "roadmap".toList } }

def namedBatch : EvaluationsRequest :=
  { subject := some { type := "user".toList, id := "*".toList },
    evaluations := [aboutRoadmap { type := "user".toList, id := "alice".toList }, aboutRoadmap {}] }

def unnamedBatch : EvaluationsRequest := { evaluations := [aboutRoadmap { type := "user".toList }] }

def unnamedSearch : ActionSearchRequest :=
  { subject := some { type := "user".toList }, resource := (aboutRoadmap {}).resource }

end Sample

end Agreement

section Accepted

variable {ω μ : Type} [Wire ω μ] {library : BatchLibrary μ} {model : μ} {relations : Finset Relation}

variable (library model relations) in
def AcceptsStored : Prop :=
  ∀ request : CheckRequest, library.validateCheck model request = .ok () →
    (∃ relation ∈ relations, relation.ident.subject = ⟨request.subjectType, request.subjectId⟩) →
    (∃ relation ∈ relations, relation.ident.object = ⟨request.objectType, request.objectId⟩) →
    (library.checkRequest request).isOk = true

/-- Postgres looks for the identifiers themselves, and no request slips through. -/
theorem not_slips_postgres (accepts : AcceptsStored library model relations) {server : Postgres.Server ω}
    {tables : Postgres.Tables ω} (holds : Postgres.Holds tables relations) (request : CheckRequest) :
    ¬ Slips library (Postgres.backend server) model request tables := by
  have found {direction : Direction} {objectType objectId : GoString}
      (there : known (Postgres.backend server : Backend μ (Postgres.Tables ω)) tables direction objectType
        objectId = true) :
      ∃ relation ∈ relations, direction.anchor relation.ident = ⟨objectType, objectId⟩ :=
    of_decide_eq_true ((holds.relationsExistForObject direction objectType objectId).symm.trans there)
  intro slips
  have accepted := accepts request slips.declared (found slips.subject) (found slips.object)
  exact Bool.noConfusion (accepted.symm.trans slips.refused)

/-- What BoltDB can tell from the keys that begin with it. -/
structure Distinct (object : ObjectIdentifier) : Prop where
  plainType : Bolt.PlainName object.objectType
  typeSet : isSet object.objectType
  idSet : isSet object.objectId
  free : barFree object.objectId

theorem not_slips_bolt (accepts : AcceptsStored library model relations) {db : Bolt.BoltDB ω}
    (mirrors : Bolt.Mirrors db relations) (storable : ∀ relation ∈ relations, Bolt.Storable relation.ident)
    {request : CheckRequest} (subject : Distinct ⟨request.subjectType, request.subjectId⟩)
    (object : Distinct ⟨request.objectType, request.objectId⟩) :
    ¬ Slips library Bolt.backend model request db := by
  have found {direction : Direction} {objectType objectId : GoString}
      (distinct : Distinct ⟨objectType, objectId⟩)
      (there : known (Bolt.backend : Backend μ (Bolt.BoltDB ω)) db direction objectType objectId = true) :
      ∃ relation ∈ relations, direction.anchor relation.ident = ⟨objectType, objectId⟩ := by
    have answer := mirrors.relationsExistForObject direction objectType objectId
    have occurs : decide (∃ relation ∈ relations, _) = true :=
      (congrArg (fun answer => (Except.toOption answer).getD false) answer).symm.trans there
    obtain ⟨relation, member, under⟩ := of_decide_eq_true occurs
    refine ⟨relation, member, ?_⟩
    exact (under_iff distinct.plainType distinct.typeSet distinct.idSet distinct.free
      (storable relation member) direction).mp under
  intro slips
  have accepted := accepts request slips.declared (found subject slips.subject) (found object slips.object)
  exact Bool.noConfusion (accepted.symm.trans slips.refused)

end Accepted

end Eamerald.Directory
