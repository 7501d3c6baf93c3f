import Eamerald.Authorizer.Access

/-! What the decision log shows of a request: nothing of the caller's subject properties, and
the policy that decided where the caller does not get in between. -/

set_option autoImplicit false

namespace Eamerald.Authorizer

section Tokens

variable {token : GoString} {second : Option Subject} {first : Option Subject}

def CarriesToken (subject : Option Subject) : Prop :=
  stringProperty (subject.bind Subject.properties) subjectJWTProperty ≠ []

def Subject.bare (subject : Subject) : Subject := { subject with properties := none }

/-- The subjects differ in their properties only, and both or none bring a token. -/
structure SubjectsAlike (first second : Option Subject) : Prop where
  bare : first.map Subject.bare = second.map Subject.bare
  token : CarriesToken first ↔ CarriesToken second

structure RequestsAlike (first second : EvaluationRequest) : Prop where
  subject : SubjectsAlike first.subject second.subject
  action : first.action = second.action
  resource : first.resource = second.resource
  context : first.context = second.context

structure BatchesAlike (first second : EvaluationsRequest) : Prop where
  subject : SubjectsAlike first.subject second.subject
  action : first.action = second.action
  resource : first.resource = second.resource
  context : first.context = second.context
  evaluations : List.Forall₂ RequestsAlike first.evaluations second.evaluations

/-- Two evaluations get the same policy, the same user, and the same decision or error. -/
structure SameAnswers (server : Server) (earlier later : Moment) (first second : EvaluationRequest) :
    Prop where
  policy : policyPath server.policyRoot earlier.packages first.context =
    policyPath server.policyRoot later.packages second.context
  user : (resolveIdentityContext earlier (identityContext first.subject) {}).map Prod.fst =
    (resolveIdentityContext later (identityContext second.subject) {}).map Prod.fst
  result : (evaluate server earlier first).result = (evaluate server later second).result

/-- The same answers for every sub-request up to the one the batch stops at. -/
def SameBatchAnswers (server : Server) (earlier later : Nat → Moment)
    (first second : EvaluationsRequest) : List EvaluationRequest → List EvaluationRequest → Prop
  | one :: ones, other :: others =>
      SameAnswers server (earlier 0) (later 0) (defaulted first one) (defaulted second other) ∧
        ((evaluate server (earlier 0) (defaulted first one)).result.isOk →
          SameBatchAnswers server (fun index => earlier (index + 1))
            (fun index => later (index + 1)) first second ones others)
  | _, _ => True

variable {server : Server} {earlier later : Moment}

theorem SubjectsAlike.scrubbed (alike : SubjectsAlike first second) :
    scrubSubject first = scrubSubject second := alike.bare

theorem SubjectsAlike.id (alike : SubjectsAlike first second) :
    first.map Subject.id = second.map Subject.id := by
  have same := congrArg (Option.map Subject.id) alike.bare
  rw [Option.map_map, Option.map_map] at same
  exact same

theorem SubjectsAlike.isNone (alike : SubjectsAlike first second) : first.isNone = second.isNone := by
  have same := congrArg Option.isNone alike.bare
  simpa only [Option.isNone_map] using same

theorem SubjectsAlike.or {fallback other : Option Subject}
    (alike : SubjectsAlike first second) (behind : SubjectsAlike fallback other) :
    SubjectsAlike (first.or fallback) (second.or other) := by
  have same := alike.isNone
  cases first with
  | none =>
      cases second with
      | none => exact behind
      | some subject => cases same
  | some subject =>
      cases second with
      | none => cases same
      | some subject => exact alike

theorem RequestsAlike.defaulted {first second : EvaluationsRequest} {one other : EvaluationRequest}
    (batches : BatchesAlike first second) (alike : RequestsAlike one other) :
    RequestsAlike (defaulted first one) (defaulted second other) where
  subject := alike.subject.or batches.subject
  action := congrArg₂ Option.or alike.action batches.action
  resource := congrArg₂ Option.or alike.resource batches.resource
  context := congrArg₂ Option.or alike.context batches.context

theorem adlSubject_identityContext (alike : SubjectsAlike first second) (user : Option Object) :
    adlSubject (identityContext first) user = adlSubject (identityContext second) user := by
  cases user with
  | some user => rfl
  | none =>
      simp only [identityContext]
      by_cases token : CarriesToken first
      · have other := alike.token.mp token
        unfold CarriesToken at token other
        rw [if_pos token, if_pos other]
        rfl
      · have other := fun brought => token (alike.token.mpr brought)
        unfold CarriesToken at token other
        rw [if_neg token, if_neg other, alike.id]

theorem input_user (moment : Moment) (request : EvaluationRequest) (identity : IdentityContext) :
    (input moment request identity).map Prod.snd =
      (resolveIdentityContext moment identity {}).map Prod.fst := by
  simp only [input]
  cases resolveIdentityContext moment identity {} with
  | error failure => rfl
  | ok resolved => rfl

theorem SameAnswers.evalMeta {first second : EvaluationRequest}
    (same : SameAnswers server earlier later first second) (action : first.action = second.action) :
    (evaluate server earlier first).evalMeta.policyPath = (evaluate server later second).evalMeta.policyPath ∧
      (evaluate server earlier first).evalMeta.user = (evaluate server later second).evalMeta.user := by
  have users := same.user
  rw [← input_user earlier first, ← input_user later second] at users
  simp only [evaluate, action, same.policy]
  split
  case isTrue => exact ⟨rfl, rfl⟩
  case isFalse =>
    cases policyPath server.policyRoot later.packages second.context with
    | error failure => exact ⟨rfl, rfl⟩
    | ok path =>
        cases left : input earlier first (identityContext first.subject) with
        | error failure =>
            cases right : input later second (identityContext second.subject) with
            | error other => exact ⟨rfl, rfl⟩
            | ok made => simp [left, right, Except.map] at users
        | ok made =>
            cases right : input later second (identityContext second.subject) with
            | error other => simp [left, right, Except.map] at users
            | ok other =>
                simp only [left, right, Except.map, Except.ok.injEq] at users
                exact ⟨rfl, users⟩

theorem evaluate_identity (server : Server) (moment : Moment) (request : EvaluationRequest) :
    (evaluate server moment request).evalMeta.identity = identityContext request.subject := by
  obtain ⟨user, made⟩ := evaluate_evalMeta server moment request
  rw [made]

theorem request_eq {first second : EvaluationRequest} (alike : RequestsAlike first second)
    {one other : EvalMeta} (identity : one.identity = identityContext first.subject)
    (identity' : other.identity = identityContext second.subject)
    (policy : one.policyPath = other.policyPath) (user : one.user = other.user) :
    one.request first = other.request second := by
  simp only [EvalMeta.request, identity, identity', policy, user, alike.action, alike.resource,
    alike.context, adlSubject_identityContext alike.subject]

structure Batch.Alike (one other : Batch) : Prop where
  responses : one.responses = other.responses
  error : one.error = other.error
  policy : one.evalMeta.policyPath = other.evalMeta.policyPath
  user : one.evalMeta.user = other.evalMeta.user

theorem evaluateAll_alike {first second : EvaluationsRequest} (batches : BatchesAlike first second)
    {ones others : List EvaluationRequest} (requests : List.Forall₂ RequestsAlike ones others)
    {earlier later : Nat → Moment} {state state' : Batch} (alike : state.Alike state')
    (answers : SameBatchAnswers server earlier later first second ones others) :
    (evaluateAll server earlier first state ones).Alike (evaluateAll server later second state' others) := by
  induction requests generalizing earlier later state state' with
  | nil => exact alike
  | @cons one other ones others request requests ih =>
      obtain ⟨same, rest⟩ := answers
      have users := (same.evalMeta (request.defaulted batches).action).2
      simp only [evaluateAll, ← same.result]
      cases decided : (evaluate server (earlier 0) (defaulted first one)).result with
      | error failure => exact ⟨alike.responses, rfl, alike.policy, alike.user⟩
      | ok response =>
          refine ih ?_ (rest (by rw [decided]; rfl))
          rw [alike.user, request.subject.isNone, users]
          split
          case isTrue => exact ⟨congrArg (· ++ [response]) alike.responses, alike.error, alike.policy, rfl⟩
          case isFalse =>
            exact ⟨congrArg (· ++ [response]) alike.responses, alike.error, alike.policy, alike.user⟩

theorem scrubbed_evaluations {ones others : List EvaluationRequest}
    (requests : List.Forall₂ RequestsAlike ones others) :
    (ones.map fun evaluation => { evaluation with subject := scrubSubject evaluation.subject }) =
      others.map fun evaluation => { evaluation with subject := scrubSubject evaluation.subject } := by
  induction requests with
  | nil => rfl
  | @cons one other ones others request requests ih =>
      rw [List.map_cons, List.map_cons, ih, request.subject.scrubbed, request.action,
        request.resource, request.context]

theorem requests_eq {first second : EvaluationsRequest} (alike : BatchesAlike first second)
    {one other : EvalMeta} (identity : one.identity = identityContext first.subject)
    (identity' : other.identity = identityContext second.subject)
    (policy : one.policyPath = other.policyPath) (user : one.user = other.user) :
    one.requests first = other.requests second := by
  simp only [EvalMeta.requests, identity, identity', policy, user, alike.action, alike.resource,
    alike.context, adlSubject_identityContext alike.subject, scrubbed_evaluations alike.evaluations]

theorem evaluations_identity (server : Server) (runtime : Bool) (moments : Nat → Moment)
    (request : EvaluationsRequest) : (evaluations server runtime moments request).evalMeta.identity =
      identityContext request.subject := by
  simp only [evaluations]
  split
  case isTrue => rfl
  case isFalse =>
    split
    case isTrue => rfl
    case isFalse => exact (evaluateAll_evalMeta server _ request _ _).1

theorem evaluations_alike {first second : EvaluationsRequest} (alike : BatchesAlike first second)
    {runtime : Bool} {earlier later : Nat → Moment}
    (policy : policyPath server.policyRoot (earlier 0).packages first.context =
      policyPath server.policyRoot (later 0).packages second.context)
    (answers : SameBatchAnswers server (fun index => earlier (index + 1))
      (fun index => later (index + 1)) first second first.evaluations second.evaluations) :
    (evaluations server runtime earlier first).Alike (evaluations server runtime later second) := by
  have empty : first.evaluations = [] ↔ second.evaluations = [] := by
    rw [← List.length_eq_zero_iff, alike.evaluations.length_eq, List.length_eq_zero_iff]
  simp only [evaluations, empty, policy]
  split
  case isTrue => exact ⟨rfl, rfl, rfl, rfl⟩
  case isFalse =>
    split
    case isTrue => exact ⟨rfl, rfl, rfl, rfl⟩
    case isFalse => exact evaluateAll_alike alike alike.evaluations ⟨rfl, rfl, rfl, rfl⟩ answers

/-- Bearer tokens do not show in the log: two requests, or two batches, that differ in the
properties of their subjects only are logged as the same request. -/
theorem logged_request_hides_tokens (server : Server) (runtime : Bool) :
    (∀ earlier later first second, RequestsAlike first second →
      SameAnswers server earlier later first second →
      (evaluationRecord server runtime earlier first).request =
        (evaluationRecord server runtime later second).request) ∧
    (∀ earlier later first second, BatchesAlike first second →
      policyPath server.policyRoot (earlier 0).packages first.context =
        policyPath server.policyRoot (later 0).packages second.context →
      SameBatchAnswers server (fun index => earlier (index + 1)) (fun index => later (index + 1))
        first second first.evaluations second.evaluations →
      (evaluationsRecord server runtime earlier first).request =
        (evaluationsRecord server runtime later second).request) := by
  constructor
  · intro earlier later first second alike same
    simp only [evaluationRecord, evaluation]
    cases runtime with
    | false => exact request_eq alike rfl rfl rfl rfl
    | true =>
        obtain ⟨policy, user⟩ := same.evalMeta alike.action
        exact request_eq alike (evaluate_identity server earlier first)
          (evaluate_identity server later second) policy user
  · intro earlier later first second alike policy answers
    exact requests_eq alike (evaluations_identity server runtime earlier first)
      (evaluations_identity server runtime later second)
      (evaluations_alike alike policy answers).policy (evaluations_alike alike policy answers).user

def tokenSubject (token : GoString) : Subject where
  type := "user".toList
  properties := some (Std.ExtTreeMap.empty.insert subjectJWTProperty (some (.string token)))

def openMoment : Moment where
  packages := .ok ["authz".toList]
  resolveSubject _ := .ok "alice".toList
  resolveIdentity id := .ok { type := "user".toList, id }
  decisionQuery _ _ := .ok fun _ => .ok [Std.ExtTreeMap.empty.insert (bindingName 0) (.bool true)]
  newStruct _ := .ok ∅

def readAction : Action := { name := "read".toList }

theorem identityContext_token (set : token ≠ []) :
    identityContext (some (tokenSubject token)) = ⟨.jwt, token⟩ := by
  simp [identityContext, stringProperty, tokenSubject, getStringValue, set]

theorem resolve_token (set : token ≠ []) : (resolveIdentityContext openMoment ⟨.jwt, token⟩ {}).map Prod.fst =
      .ok (some { type := "user".toList, id := "alice".toList }) := by
  simp only [resolveIdentityContext, resolveSubjectFromIdentityContext, set]
  rfl

theorem evaluate_token (set : token ≠ []) (resource : Option Resource) : (evaluate ⟨[]⟩ openMoment
      ⟨some (tokenSubject token), some readAction, resource, none⟩).result = .ok { decision := true } := by
  have resolved := resolve_token set
  rw [← identityContext_token set, ← input_user openMoment ⟨some (tokenSubject token), some readAction, resource, none⟩] at resolved
  have path : policyPath [] openMoment.packages none = .ok "authz".toList := by decide
  have named : readAction.name ≠ [] := by decide
  simp only [evaluate, path, Option.map_some, Option.getD_some, if_neg named]
  cases made : input openMoment ⟨some (tokenSubject token), some readAction, resource, none⟩
      (identityContext (some (tokenSubject token))) with
  | error failure => simp [made, Except.map] at resolved
  | ok made => simp [verdict, openMoment, evaluationResponse]

theorem sameAnswers_token {one other : GoString} (set : one ≠ []) (set' : other ≠ [])
    (resource : Option Resource) :
    SameAnswers ⟨[]⟩ openMoment openMoment ⟨some (tokenSubject one), some readAction, resource, none⟩
      ⟨some (tokenSubject other), some readAction, resource, none⟩ where
  policy := rfl
  user := by
    rw [identityContext_token set, identityContext_token set', resolve_token set, resolve_token set']
  result := by rw [evaluate_token set, evaluate_token set']

theorem subjectsAlike_token {one other : GoString} (set : one ≠ []) (set' : other ≠ []) :
    SubjectsAlike (some (tokenSubject one)) (some (tokenSubject other)) where
  bare := rfl
  token := by simp [CarriesToken, stringProperty, tokenSubject, getStringValue, set, set']

def tokenBatch (token other : GoString) : EvaluationsRequest where
  subject := some (tokenSubject token)
  action := some readAction
  evaluations := [{}, { subject := some (tokenSubject other) }]

theorem batchesAlike_token {one other : GoString} (set : one ≠ []) (set' : other ≠ []) :
    BatchesAlike (tokenBatch one other) (tokenBatch other one) where
  subject := subjectsAlike_token set set'
  action := rfl
  resource := rfl
  context := rfl
  evaluations := .cons ⟨⟨rfl, Iff.rfl⟩, rfl, rfl, rfl⟩
    (.cons ⟨subjectsAlike_token set' set, rfl, rfl, rfl⟩ .nil)

theorem other_token_logged_alike :
    tokenBatch "t1".toList "t2".toList ≠ tokenBatch "t2".toList "t1".toList ∧
    (evaluationRecord ⟨[]⟩ true openMoment
        ⟨some (tokenSubject "t1".toList), some readAction, none, none⟩).request =
      (evaluationRecord ⟨[]⟩ true openMoment
        ⟨some (tokenSubject "t2".toList), some readAction, none, none⟩).request ∧
    (evaluationsRecord ⟨[]⟩ true (fun _ => openMoment) (tokenBatch "t1".toList "t2".toList)).request =
      (evaluationsRecord ⟨[]⟩ true (fun _ => openMoment) (tokenBatch "t2".toList "t1".toList)).request := by
  have one : "t1".toList ≠ [] := by decide
  have two : "t2".toList ≠ [] := by decide
  refine ⟨?_, ?_, ?_⟩
  · intro same
    have identities := congrArg (fun batch => identityContext batch.subject) same
    simp only [tokenBatch, identityContext_token one, identityContext_token two] at identities
    exact absurd identities (by decide)
  · exact (logged_request_hides_tokens ⟨[]⟩ true).1 _ _ _ _
      ⟨subjectsAlike_token one two, rfl, rfl, rfl⟩ (sameAnswers_token one two none)
  · exact (logged_request_hides_tokens ⟨[]⟩ true).2 _ _ _ _ (batchesAlike_token one two) rfl
      ⟨sameAnswers_token one two none, fun _ => ⟨sameAnswers_token two one none, fun _ => trivial⟩⟩

end Tokens

end Eamerald.Authorizer
