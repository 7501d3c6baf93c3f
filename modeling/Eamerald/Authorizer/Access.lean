import Eamerald.Authorizer.Policies

/-! The access API of the policy engine: single evaluations, batches, and the requests that
go into the decision log. Pointers of the source are options here, and a getter on a nil
message reads the zero value. -/

set_option autoImplicit false

namespace Eamerald.Authorizer

inductive IdentityType where
  | unknown
  | none
  | sub
  | jwt
  | manual
deriving DecidableEq, Repr

def IdentityType.string : IdentityType → GoString
  | .unknown => "IDENTITY_TYPE_UNKNOWN".toList
  | .none => "IDENTITY_TYPE_NONE".toList
  | .sub => "IDENTITY_TYPE_SUB".toList
  | .jwt => "IDENTITY_TYPE_JWT".toList
  | .manual => "IDENTITY_TYPE_MANUAL".toList

structure IdentityContext where
  type : IdentityType
  identity : GoString := []
deriving DecidableEq, Repr

structure Subject where
  type : GoString := []
  id : GoString := []
  properties : Option Struct := none

structure Action where
  name : GoString := []
  properties : Option Struct := none

structure Resource where
  type : GoString := []
  id : GoString := []
  properties : Option Struct := none

structure EvaluationRequest where
  subject : Option Subject := none
  action : Option Action := none
  resource : Option Resource := none
  context : Option Struct := none

structure EvaluationsRequest where
  subject : Option Subject := none
  action : Option Action := none
  resource : Option Resource := none
  context : Option Struct := none
  evaluations : List EvaluationRequest := []

structure EvaluationResponse where
  decision : Bool := false
  context : Option Struct := none

structure Input where
  user : Option Object := none
  identity : Option IdentityContext := none
  subject : Std.ExtTreeMap GoString PropertyValue := ∅
  action : Std.ExtTreeMap GoString PropertyValue := ∅
  resource : Std.ExtTreeMap GoString PropertyValue := ∅
  context : Std.ExtTreeMap GoString PropertyValue := ∅

/-- What the collaborators of the server answer at one moment. Loaded bundles and a directory that
changes between two sub-requests give another moment. -/
structure Moment where
  packages : Except Failure (List GoString)
  resolveSubject : GoString → Except Failure GoString
  resolveIdentity : GoString → Except Failure Object
  decisionQuery : GoString → List GoString →
    Except Failure (Input → Except Failure (List (Std.ExtTreeMap GoString PropertyValue)))
  newStruct : List (GoString × PropertyValue) → Except Failure Struct

structure Server where
  policyRoot : GoString

def subjectJWTProperty : GoString := "jwt".toList

def policyPathKey : GoString := "policy_path".toList

def identityContext (subject : Option Subject) : IdentityContext :=
  let jwt := stringProperty (subject.bind Subject.properties) subjectJWTProperty
  if jwt ≠ [] then ⟨.jwt, jwt⟩
  else
    let id := (subject.map Subject.id).getD []
    if id ≠ [] then ⟨.sub, id⟩ else ⟨.none, []⟩

def resolveSubjectFromIdentityContext (moment : Moment) (identity : IdentityContext) :
    Except Failure GoString :=
  if identity.identity = [] then .error (.aerr .resolvingSubject
    [.text "identity value not set (type: ", .plain identity.type.string, .text ")"])
  else
    match identity.type with
    | .sub => .ok identity.identity
    | .jwt => moment.resolveSubject identity.identity
    | .manual => .ok identity.identity
    | type => .error (.aerr .resolvingSubject
        [.text "invalid identity type ", .plain type.string])

def resolveUserFromSubject (moment : Moment) (subject : GoString) : Except Failure Object :=
  match moment.resolveIdentity subject with
  | .ok user => .ok user
  | .error cause => .error (.wrapped .resolvingUser cause [])

/-- The user an identity resolves to, if it is one of the directory, and the input with the
identity and the user written to it. -/
def resolveIdentityContext (moment : Moment) (identity : IdentityContext) (input : Input) :
    Except Failure (Option Object × Input) :=
  if identity.type = .none then .ok (none, input)
  else do
    let subject ← resolveSubjectFromIdentityContext moment identity
    if identity.type = .manual then
      return (none, { input with identity := some identity, user := some Object.zero })
    let user ← resolveUserFromSubject moment subject
    return (some user, { input with identity := some identity, user := some user })

def asMap (properties : Option Struct) : Std.ExtTreeMap GoString PropertyValue :=
  (properties.getD ∅).map fun _ value => value.getD .null

/-- A property that already uses one of the names wins. -/
def flatten (properties : Option Struct) (fields : List (GoString × GoString)) :
    Std.ExtTreeMap GoString PropertyValue :=
  fields.foldl (fun out field =>
    if field.2 = [] ∨ field.1 ∈ out then out else out.insert field.1 (.string field.2))
    (asMap properties)

def input (moment : Moment) (request : EvaluationRequest) (identity : IdentityContext) :
    Except Failure (Input × Option Object) := do
  let (user, resolved) ← resolveIdentityContext moment identity {}
  let subject := request.subject.getD {}
  let action := request.action.getD {}
  let resource := request.resource.getD {}
  return ({ resolved with
    subject := flatten subject.properties
      [("type".toList, subject.type), ("id".toList, subject.id)]
    action := flatten action.properties [("name".toList, action.name)]
    resource := flatten resource.properties
      [("type".toList, resource.type), ("id".toList, resource.id)]
    context := asMap request.context }, user)

def bindingName (index : Nat) : GoString := 'x' :: (toString index).toList

/-- The dynamic type of a Rego value, as `%T` prints it. -/
def typeName : PropertyValue → String
  | .null => "<nil>"
  | .number _ => "json.Number"
  | .string _ => "string"
  | .bool _ => "bool"
  | .list _ => "[]interface {}"
  | .struct _ => "map[string]interface {}"

def evaluationResponse (moment : Moment) (action : GoString) (binding : PropertyValue) :
    Except Failure EvaluationResponse :=
  match binding with
  | .bool decision => .ok { decision }
  | .struct result =>
      match result.lookup "decision".toList with
      | some (.bool decision) =>
          match result.lookup "context".toList with
          | some (.struct decisionContext) =>
              match moment.newStruct decisionContext with
              | .ok properties => .ok { decision, context := some properties }
              | .error cause => .error (.wrapped .badQuery cause
                  [.text "rule for action [", .plain action, .text "] returned a ",
                    .quoted "context".toList, .text " that is not representable as JSON"])
          | _ => .ok { decision }
      | _ => .error (.aerr .badQuery
          [.text "rule for action [", .plain action,
            .text "] returned an object without a boolean ", .quoted "decision".toList,
            .text " field"])
  | other => .error (.aerr .badQuery
      [.text "rule for action [", .plain action, .text "] returned ", .text (typeName other),
        .text ", want a boolean or a decision object"])

structure EvalMeta where
  policyPath : GoString := []
  identity : IdentityContext
  user : Option Object := none

def verdict (moment : Moment) (path action : GoString) (input : Input) :
    Except Failure EvaluationResponse :=
  match moment.decisionQuery path [action] with
  | .error cause => .error cause
  | .ok query =>
      match query input with
      | .error cause => .error (.wrapped .badQuery cause
          [.text "query evaluation failed: path=", .plain path, .text " action=", .plain action])
      | .ok [] => .error (.aerr .badQuery
          [.text "undefined results: path=", .plain path, .text " action=", .plain action])
      | .ok (result :: _) =>
          match result[bindingName 0]? with
          | none => .error (.aerr .badQuery
              [.text "failed getting binding for action [", .plain action, .text "]"])
          | some binding => evaluationResponse moment action binding

/-- The result of an evaluation: its response or its error, and what the log needs. -/
structure Outcome where
  result : Except Failure EvaluationResponse
  evalMeta : EvalMeta

def evaluate (server : Server) (moment : Moment) (request : EvaluationRequest) : Outcome :=
  let identity := identityContext request.subject
  let action := (request.action.map Action.name).getD []
  if action = [] then
    ⟨.error (.aerr .invalidArgument [.text "action name not set"]), { identity }⟩
  else
    match policyPath server.policyRoot moment.packages request.context with
    | .error failure => ⟨.error failure, { identity }⟩
    | .ok path =>
        match input moment request identity with
        | .error failure => ⟨.error failure, { identity, policyPath := path }⟩
        | .ok (input, user) =>
            ⟨verdict moment path action input, { identity, policyPath := path, user }⟩

theorem evaluate_evalMeta (server : Server) (moment : Moment) (request : EvaluationRequest) :
    ∃ user, (evaluate server moment request).evalMeta =
      { identity := identityContext request.subject
        policyPath := if (request.action.map Action.name).getD [] = [] then []
          else (policyPath server.policyRoot moment.packages request.context).toOption.getD []
        user } := by
  simp only [evaluate]
  split
  case isTrue => exact ⟨none, rfl⟩
  case isFalse =>
    cases policyPath server.policyRoot moment.packages request.context with
    | error failure => exact ⟨none, rfl⟩
    | ok path =>
        cases input moment request (identityContext request.subject) with
        | error failure => exact ⟨none, rfl⟩
        | ok made => exact ⟨made.2, rfl⟩

def undefinedPolicyContext : Failure :=
  .aerr .invalidPolicyID [.text "undefined policy context"]

/-- `runtime` is whether the policy runtime can be had. -/
def evaluation (server : Server) (runtime : Bool) (moment : Moment) (request : EvaluationRequest) :
    Outcome :=
  if runtime then evaluate server moment request
  else ⟨.error undefinedPolicyContext, { identity := identityContext request.subject }⟩

def defaulted (batch : EvaluationsRequest) (request : EvaluationRequest) : EvaluationRequest where
  subject := request.subject.or batch.subject
  action := request.action.or batch.action
  resource := request.resource.or batch.resource
  context := request.context.or batch.context

structure Batch where
  responses : List EvaluationResponse := []
  evalMeta : EvalMeta
  error : Option Failure := none

/-- The sub-requests in order, each at its own moment, up to the first that fails. -/
def evaluateAll (server : Server) (moments : Nat → Moment) (batch : EvaluationsRequest)
    (state : Batch) : List EvaluationRequest → Batch
  | [] => state
  | request :: rest =>
      let outcome := evaluate server (moments 0) (defaulted batch request)
      match outcome.result with
      | .error failure => { state with error := some failure }
      | .ok response =>
          evaluateAll server (fun index => moments (index + 1)) batch
            { state with
              responses := state.responses ++ [response]
              evalMeta := if state.evalMeta.user.isNone ∧ request.subject.isNone
                then { state.evalMeta with user := outcome.evalMeta.user } else state.evalMeta }
            rest

def evaluations (server : Server) (runtime : Bool) (moments : Nat → Moment)
    (request : EvaluationsRequest) : Batch :=
  let identity := identityContext request.subject
  if request.evaluations = [] then
    { evalMeta := { identity }
      error := some (.aerr .invalidArgument [.text "evaluations not set"]) }
  else if runtime = false then
    { evalMeta := { identity }, error := some undefinedPolicyContext }
  else
    let path := (policyPath server.policyRoot (moments 0).packages request.context).toOption.getD []
    evaluateAll server (fun index => moments (index + 1)) request
      { evalMeta := { identity, policyPath := path } } request.evaluations

def adlSubject (identity : IdentityContext) (user : Option Object) : Subject :=
  match user with
  | some user => { type := user.type, id := user.id }
  | none => { type := identity.type.string, id := if identity.type ≠ .jwt then identity.identity else [] }

def withPolicyPath (base : Option Struct) (policyPath : GoString) : Option Struct :=
  if policyPath = [] then base
  else some ((base.getD ∅).insert policyPathKey (some (.string policyPath)))

def scrubSubject (subject : Option Subject) : Option Subject :=
  subject.map fun subject => { type := subject.type, id := subject.id }

def EvalMeta.request (evalMeta : EvalMeta) (request : EvaluationRequest) : EvaluationRequest where
  subject := some (adlSubject evalMeta.identity evalMeta.user)
  action := request.action
  resource := request.resource
  context := withPolicyPath request.context evalMeta.policyPath

def EvalMeta.requests (evalMeta : EvalMeta) (request : EvaluationsRequest) : EvaluationsRequest where
  subject := some (adlSubject evalMeta.identity evalMeta.user)
  action := request.action
  resource := request.resource
  context := withPolicyPath request.context evalMeta.policyPath
  evaluations := request.evaluations.map fun evaluation =>
    { evaluation with subject := scrubSubject evaluation.subject }

structure Record (Request Response : Type) where
  request : Request
  response : Response
  error : Option Failure

/-- A genuine evaluation error wins over a failure to write the record. -/
def adlError (evalErr logErr : Option Failure) : Option Failure := evalErr.or logErr

def reportedError {α : Type} : Except Failure α → Option Failure
  | .ok _ => none
  | .error failure => some failure

def evaluationRecord (server : Server) (runtime : Bool) (moment : Moment)
    (request : EvaluationRequest) : Record EvaluationRequest EvaluationResponse :=
  let outcome := evaluation server runtime moment request
  { request := outcome.evalMeta.request request
    response := outcome.result.toOption.getD {}
    error := reportedError outcome.result }

def evaluationsRecord (server : Server) (runtime : Bool) (moments : Nat → Moment)
    (request : EvaluationsRequest) : Record EvaluationsRequest (List EvaluationResponse) :=
  let batch := evaluations server runtime moments request
  { request := batch.evalMeta.requests request
    response := batch.responses
    error := batch.error }

/-- The error of a call, once its record was given to the logger. -/
def Record.answer {Request Response : Type} (record : Record Request Response)
    (logErr : Option Failure) : Option Failure := adlError record.error logErr

theorem evaluateAll_evalMeta (server : Server) (moments : Nat → Moment) (batch : EvaluationsRequest)
    (state : Batch) (requests : List EvaluationRequest) :
    (evaluateAll server moments batch state requests).evalMeta.identity = state.evalMeta.identity ∧
      (evaluateAll server moments batch state requests).evalMeta.policyPath = state.evalMeta.policyPath := by
  induction requests generalizing moments state with
  | nil => exact ⟨rfl, rfl⟩
  | cons request requests ih =>
      simp only [evaluateAll]
      split
      case h_1 => exact ⟨rfl, rfl⟩
      case h_2 =>
        obtain ⟨identity, policy⟩ := ih (fun index => moments (index + 1)) _
        rw [identity, policy]
        split
        case isTrue => exact ⟨rfl, rfl⟩
        case isFalse => exact ⟨rfl, rfl⟩

end Eamerald.Authorizer
