import Eamerald.Authorizer.Access

/-! The policy the decision log names. The record of a single request names the package the
request was evaluated against; the record of a batch names the batch's, and passes the contexts
of the sub-requests on as the caller sent them. -/

set_option autoImplicit false

namespace Eamerald.Authorizer

def policyPath? (context : Option Struct) : Option Value := context.bind (·[policyPathKey]?)

def logged (path : GoString) : Option Value := some (some (.string path))

def stripped (context : Option Struct) : Option Struct := context.map (·.erase policyPathKey)

def EvaluationRequest.stripped (request : EvaluationRequest) : EvaluationRequest :=
  { request with context := Authorizer.stripped request.context }

def EvaluationsRequest.stripped (request : EvaluationsRequest) : EvaluationsRequest :=
  { request with
    context := Authorizer.stripped request.context
    evaluations := request.evaluations.map EvaluationRequest.stripped }

section Single

variable (server : Server) (runtime : Bool) (moment : Moment) (request : EvaluationRequest)

/-- The record names the package of the evaluation, whatever `policy_path` the caller sent. -/
def NamesPolicy : Prop :=
  ((evaluationRecord server runtime moment request).error = none →
    ∃ path, policyPath server.policyRoot moment.packages request.context = .ok path ∧
      policyPath? (evaluationRecord server runtime moment request).request.context = logged path) ∧
  policyPath? (evaluationRecord server runtime moment request).request.context =
    policyPath? (evaluationRecord server runtime moment request.stripped).request.context

def Selects : Prop :=
  runtime = true ∧ (request.action.map Action.name).getD [] ≠ [] ∧
    ∃ path, policyPath server.policyRoot moment.packages request.context = .ok path

end Single

section Batched

variable (server : Server) (runtime : Bool) (moments : Nat → Moment) (request : EvaluationsRequest)

/-- Where the `policy_path` of a sub-request is read from: its own context, or the batch's. -/
def appliedContext (record : EvaluationsRequest) (evaluation : EvaluationRequest) : Option Struct :=
  if evaluation.context.isSome then evaluation.context else record.context

/-- The record names the package of every sub-request that was decided, whatever `policy_path` the
caller sent. -/
def NamesPolicies : Prop :=
  (∀ index evaluation evaluated, request.evaluations[index]? = some evaluation →
    (evaluationsRecord server runtime moments request).request.evaluations[index]? = some evaluated →
    index < (evaluationsRecord server runtime moments request).response.length →
      ∃ path, policyPath server.policyRoot (moments (index + 1)).packages
          (defaulted request evaluation).context = .ok path ∧
        policyPath? (appliedContext (evaluationsRecord server runtime moments request).request
          evaluated) = logged path) ∧
  policyPath? (evaluationsRecord server runtime moments request).request.context =
    policyPath? (evaluationsRecord server runtime moments request.stripped).request.context ∧
  (evaluationsRecord server runtime moments request).request.evaluations.map
      (fun evaluation => policyPath? evaluation.context) =
    (evaluationsRecord server runtime moments request.stripped).request.evaluations.map
      fun evaluation => policyPath? evaluation.context

/-- No sub-request sends a `policy_path`, those that are decided meet the policy of the batch without
a context, and the batch sends a `policy_path` only if it selects a policy. -/
structure BatchLeavesRoom : Prop where
  silent : ∀ evaluation ∈ request.evaluations, policyPath? evaluation.context = none
  decided : ∀ index evaluation, request.evaluations[index]? = some evaluation →
    index < (evaluationsRecord server runtime moments request).response.length →
      evaluation.context = none ∧
        policyPath server.policyRoot (moments (index + 1)).packages request.context =
          policyPath server.policyRoot (moments 0).packages request.context
  batch : (runtime = true ∧ request.evaluations ≠ [] ∧
      ∃ path, policyPath server.policyRoot (moments 0).packages request.context = .ok path) ∨
    policyPath? request.context = none

end Batched

section Contexts

variable (context : Option Struct)

@[simp] theorem policyPath?_stripped : policyPath? (stripped context) = none := by
  cases context with
  | none => rfl
  | some fields => simp [policyPath?, stripped]

theorem stringProperty_stripped :
    stringProperty (stripped context) doelbindingKey = stringProperty context doelbindingKey := by
  cases context with
  | none => rfl
  | some fields =>
      have apart : compare policyPathKey doelbindingKey ≠ .eq := by decide
      simp [stringProperty, stripped, Std.ExtTreeMap.getElem?_erase, apart]

@[simp] theorem policyPath_stripped (configured : GoString) (loaded : Except Failure (List GoString)) :
    policyPath configured loaded (stripped context) = policyPath configured loaded context := by
  simp only [policyPath, stringProperty_stripped]

theorem policyPath?_withPolicyPath (path : GoString) : policyPath? (withPolicyPath context path) =
      if path = [] then policyPath? context else logged path := by
  unfold withPolicyPath
  split
  case isTrue => rfl
  case isFalse => simp [policyPath?, logged]

end Contexts

theorem policyPath_ne_nil {configured path : GoString} {loaded : Except Failure (List GoString)}
    {context : Option Struct} (selected : policyPath configured loaded context = .ok path) : path ≠ [] := by
  cases loaded with
  | error failure => simp [policyPath] at selected
  | ok packages =>
      rcases policyPath_ok_iff.mp selected with ⟨_, served⟩ | ⟨_, named, _⟩
      · exact (mem_defaultPolicyRoots.mp (mem_of_selectPolicyRoot served)).2.1
      · rw [named]
        exact List.append_ne_nil_of_right_ne_nil _ (List.cons_ne_nil _ _)

def recorded (selection : Except Failure GoString) : GoString := selection.toOption.getD []

theorem recorded_eq_nil_iff {configured : GoString} {loaded : Except Failure (List GoString)}
    {context : Option Struct} : recorded (policyPath configured loaded context) = [] ↔
      ¬∃ path, policyPath configured loaded context = .ok path := by
  cases selected : policyPath configured loaded context with
  | error failure => simp [recorded, Except.toOption]
  | ok path => simp [recorded, Except.toOption, policyPath_ne_nil selected]

section SingleProperties

variable (server : Server) (runtime : Bool) (moment : Moment) (request : EvaluationRequest)

theorem evaluate_policyPath : (evaluate server moment request).evalMeta.policyPath =
      if (request.action.map Action.name).getD [] = [] then []
      else recorded (policyPath server.policyRoot moment.packages request.context) := by
  obtain ⟨user, made⟩ := evaluate_evalMeta server moment request
  rw [made]
  rfl

theorem selects_of_decided {response : EvaluationResponse}
    (decided : (evaluate server moment request).result = .ok response) :
    Selects server true moment request := by
  simp only [evaluate] at decided
  split at decided
  case isTrue => cases decided
  case isFalse named =>
    refine ⟨rfl, named, ?_⟩
    cases selected : policyPath server.policyRoot moment.packages request.context with
    | error failure =>
        rw [selected] at decided
        cases decided
    | ok path => exact ⟨path, rfl⟩

theorem evaluation_policyPath_eq_nil_iff : (evaluation server runtime moment request).evalMeta.policyPath = [] ↔
      ¬Selects server runtime moment request := by
  unfold evaluation Selects
  cases runtime with
  | false => simp
  | true =>
      rw [if_pos rfl, evaluate_policyPath]
      split
      case isTrue unnamed => simp [unnamed]
      case isFalse named => simp [named, recorded_eq_nil_iff]

theorem selects_of_unfailed (decided : (evaluationRecord server runtime moment request).error = none) :
    Selects server runtime moment request := by
  simp only [evaluationRecord, evaluation] at decided
  cases runtime with
  | false => cases decided
  | true =>
      rw [if_pos rfl] at decided
      cases result : (evaluate server moment request).result with
      | error failure =>
          rw [result] at decided
          cases decided
      | ok response => exact selects_of_decided server moment request result

section Entry

variable {server runtime moment request}

theorem Selects.entry (selects : Selects server runtime moment request) :
    policyPath? (evaluationRecord server runtime moment request).request.context =
      logged (recorded (policyPath server.policyRoot moment.packages request.context)) := by
  have named := mt (evaluation_policyPath_eq_nil_iff server runtime moment request).mp
    (not_not.mpr selects)
  obtain ⟨rfl, action, _⟩ := selects
  simp only [evaluationRecord, EvalMeta.request, policyPath?_withPolicyPath, if_neg named]
  simp only [evaluation, if_true, evaluate_policyPath, if_neg action]

theorem entry_of_not_selects (fails : ¬Selects server runtime moment request) :
    policyPath? (evaluationRecord server runtime moment request).request.context =
      policyPath? request.context := by
  have unnamed := (evaluation_policyPath_eq_nil_iff server runtime moment request).mpr fails
  simp only [evaluationRecord, EvalMeta.request, policyPath?_withPolicyPath, if_pos unnamed]

end Entry

theorem selects_stripped_iff :
    Selects server runtime moment request.stripped ↔ Selects server runtime moment request := by
  simp only [Selects, EvaluationRequest.stripped, policyPath_stripped]

/-- A single request is logged wrongly only if it sent a `policy_path` and failed before selecting a
policy. -/
theorem namesPolicy_iff : NamesPolicy server runtime moment request ↔
      Selects server runtime moment request ∨ policyPath? request.context = none := by
  have decides : (evaluationRecord server runtime moment request).error = none →
      ∃ path, policyPath server.policyRoot moment.packages request.context = .ok path ∧
        policyPath? (evaluationRecord server runtime moment request).request.context =
          logged path := by
    intro decided
    have selects := selects_of_unfailed server runtime moment request decided
    obtain ⟨path, selected⟩ := selects.2.2
    refine ⟨path, selected, ?_⟩
    rw [selects.entry, selected]
    rfl
  unfold NamesPolicy
  rw [and_iff_right decides]
  by_cases selects : Selects server runtime moment request
  · have without := (selects_stripped_iff server runtime moment request).mpr selects
    rw [selects.entry, without.entry]
    simp [selects, EvaluationRequest.stripped]
  · have without := mt (selects_stripped_iff server runtime moment request).mp selects
    rw [entry_of_not_selects selects, entry_of_not_selects without]
    simp [selects, EvaluationRequest.stripped]

end SingleProperties

section BatchProperties

variable (server : Server) {evaluation : EvaluationRequest}

theorem evaluateAll_decided (batch : EvaluationsRequest) {requests : List EvaluationRequest}
    {moments : Nat → Moment} {state : Batch} {index position : Nat} {request : EvaluationRequest}
    (found : requests[index]? = some request)
    (within : position < (evaluateAll server moments batch state requests).responses.length)
    (counted : position = state.responses.length + index) :
    Selects server true (moments index) (defaulted batch request) := by
  induction requests generalizing moments state index with
  | nil => cases found
  | cons head requests ih =>
      simp only [evaluateAll] at within
      cases result : (evaluate server (moments 0) (defaulted batch head)).result with
      | error failure =>
          simp only [result] at within
          omega
      | ok response =>
          simp only [result] at within
          cases index with
          | zero =>
              obtain rfl : head = request := by simpa using found
              exact selects_of_decided server (moments 0) (defaulted batch head) result
          | succ index =>
              have later : requests[index]? = some request := found
              refine @ih (fun index => moments (index + 1)) _ index later within ?_
              simp only [List.length_append, List.length_singleton]
              omega

variable (runtime : Bool) (moments : Nat → Moment) (request : EvaluationsRequest)

def BatchSelects : Prop :=
  runtime = true ∧ request.evaluations ≠ [] ∧
    ∃ path, policyPath server.policyRoot (moments 0).packages request.context = .ok path

theorem evaluations_policyPath : (evaluations server runtime moments request).evalMeta.policyPath =
      if request.evaluations = [] ∨ runtime = false then []
      else recorded (policyPath server.policyRoot (moments 0).packages request.context) := by
  simp only [evaluations]
  by_cases empty : request.evaluations = []
  · simp [empty]
  · cases runtime with
    | false => simp [empty]
    | true =>
        simp only [empty, if_false, Bool.true_eq_false, or_self]
        exact (evaluateAll_evalMeta server _ request _ _).2

theorem evaluations_policyPath_eq_nil_iff :
    (evaluations server runtime moments request).evalMeta.policyPath = [] ↔
      ¬BatchSelects server runtime moments request := by
  rw [evaluations_policyPath]
  split
  case isTrue unable =>
    refine iff_of_true rfl ?_
    rintro ⟨rfl, nonempty, _⟩
    rcases unable with empty | failed
    · exact nonempty empty
    · cases failed
  case isFalse able =>
    obtain ⟨nonempty, running⟩ := not_or.mp able
    rw [recorded_eq_nil_iff, BatchSelects, and_iff_right (Bool.eq_true_of_not_eq_false running),
      and_iff_right nonempty]

theorem batchSelects_stripped_iff : BatchSelects server runtime moments request.stripped ↔
      BatchSelects server runtime moments request := by
  simp [BatchSelects, EvaluationsRequest.stripped]

section Entry

variable {server runtime moments request}

theorem BatchSelects.entry (selects : BatchSelects server runtime moments request) :
    policyPath? (evaluationsRecord server runtime moments request).request.context =
      logged (recorded (policyPath server.policyRoot (moments 0).packages request.context)) := by
  have named := mt (evaluations_policyPath_eq_nil_iff server runtime moments request).mp
    (not_not.mpr selects)
  obtain ⟨rfl, nonempty, _⟩ := selects
  simp only [evaluationsRecord, EvalMeta.requests, policyPath?_withPolicyPath, if_neg named]
  simp only [evaluations_policyPath, nonempty, Bool.true_eq_false, or_self, if_false]

theorem entry_of_not_batchSelects (fails : ¬BatchSelects server runtime moments request) :
    policyPath? (evaluationsRecord server runtime moments request).request.context =
      policyPath? request.context := by
  have unnamed := (evaluations_policyPath_eq_nil_iff server runtime moments request).mpr fails
  simp only [evaluationsRecord, EvalMeta.requests, policyPath?_withPolicyPath, if_pos unnamed]

theorem selected_of_decided {index : Nat} (found : request.evaluations[index]? = some evaluation)
    (decided : index < (evaluationsRecord server runtime moments request).response.length) :
    runtime = true ∧ request.evaluations ≠ [] ∧
      ∃ path, policyPath server.policyRoot (moments (index + 1)).packages
        (defaulted request evaluation).context = .ok path := by
  simp only [evaluationsRecord, evaluations] at decided
  split at decided
  case isTrue => cases decided
  case isFalse nonempty =>
    split at decided
    case isTrue => cases decided
    case isFalse running =>
      exact ⟨Bool.eq_true_of_not_eq_false running, nonempty,
        (evaluateAll_decided server request found decided (Nat.zero_add index).symm).2.2⟩

end Entry

theorem policyPath?_evaluations : (evaluationsRecord server runtime moments request).request.evaluations.map
        (fun evaluation => policyPath? evaluation.context) =
      request.evaluations.map fun evaluation => policyPath? evaluation.context := by
  simp [evaluationsRecord, EvalMeta.requests]

theorem silent_iff : (evaluationsRecord server runtime moments request).request.evaluations.map
        (fun evaluation => policyPath? evaluation.context) =
      (evaluationsRecord server runtime moments request.stripped).request.evaluations.map
        (fun evaluation => policyPath? evaluation.context) ↔
      ∀ evaluation ∈ request.evaluations, policyPath? evaluation.context = none := by
  rw [policyPath?_evaluations, policyPath?_evaluations]
  simp [EvaluationsRequest.stripped, EvaluationRequest.stripped]

theorem batch_entry_iff : policyPath? (evaluationsRecord server runtime moments request).request.context =
        policyPath? (evaluationsRecord server runtime moments request.stripped).request.context ↔
      BatchSelects server runtime moments request ∨ policyPath? request.context = none := by
  by_cases selects : BatchSelects server runtime moments request
  · have without := (batchSelects_stripped_iff server runtime moments request).mpr selects
    rw [selects.entry, without.entry]
    simp [selects, EvaluationsRequest.stripped]
  · have without := mt (batchSelects_stripped_iff server runtime moments request).mp selects
    rw [entry_of_not_batchSelects selects, entry_of_not_batchSelects without]
    simp [selects, EvaluationsRequest.stripped]

/-- Without a `policy_path` of its own, a sub-request is logged with the entry and the package of the
batch. -/
theorem applied_iff {index : Nat} {evaluated : EvaluationRequest}
    (found : request.evaluations[index]? = some evaluation)
    (inRecord : (evaluationsRecord server runtime moments request).request.evaluations[index]? = some evaluated)
    (silent : policyPath? evaluation.context = none)
    (kept : BatchSelects server runtime moments request ∨ policyPath? request.context = none)
    (decided : index < (evaluationsRecord server runtime moments request).response.length) :
    (∃ path, policyPath server.policyRoot (moments (index + 1)).packages
          (defaulted request evaluation).context = .ok path ∧
        policyPath? (appliedContext (evaluationsRecord server runtime moments request).request
          evaluated) = logged path) ↔ evaluation.context = none ∧
        policyPath server.policyRoot (moments (index + 1)).packages request.context =
          policyPath server.policyRoot (moments 0).packages request.context := by
  obtain ⟨running, nonempty, path, selected⟩ := selected_of_decided found decided
  have same : evaluated.context = evaluation.context := by
    simp only [evaluationsRecord, EvalMeta.requests, List.getElem?_map, found, Option.map_some,
      Option.some.injEq] at inRecord
    rw [← inRecord]
  cases own : evaluation.context with
  | some context =>
      -- a context of its own has no entry, so nothing names the package
      rw [own] at silent
      simp [appliedContext, same, own, silent, logged]
  | none =>
      simp only [appliedContext, same, own, defaulted, Option.none_or, Option.isSome_none,
        Bool.false_eq_true, if_false, true_and] at selected ⊢
      by_cases selects : BatchSelects server runtime moments request
      · obtain ⟨first, chosen⟩ := selects.2.2
        rw [selects.entry, selected, chosen]
        simp [recorded, Except.toOption, logged, eq_comm]
      · rw [entry_of_not_batchSelects selects, kept.resolve_left selects, selected]
        refine iff_of_false ?_ fun chosen => selects ⟨running, nonempty, path, chosen.symm⟩
        rintro ⟨_, _, named⟩
        cases named

/-- The log names the policies of a batch exactly when the batch leaves it room to. -/
theorem namesPolicies_iff : NamesPolicies server runtime moments request ↔
      BatchLeavesRoom server runtime moments request := by
  have logs (index : Nat) (evaluation : EvaluationRequest)
      (found : request.evaluations[index]? = some evaluation) :
      ∃ evaluated, (evaluationsRecord server runtime moments request).request.evaluations[index]? =
        some evaluated := by
    simp [evaluationsRecord, EvalMeta.requests, found]
  constructor
  · rintro ⟨named, batch, silent⟩
    have quiet := (silent_iff server runtime moments request).mp silent
    have kept := (batch_entry_iff server runtime moments request).mp batch
    refine ⟨quiet, fun index evaluation found decided => ?_, kept⟩
    obtain ⟨evaluated, inRecord⟩ := logs index evaluation found
    exact (applied_iff server runtime moments request found inRecord
      (quiet evaluation (List.mem_of_getElem? found)) kept decided).mp
        (named index evaluation evaluated found inRecord decided)
  · rintro ⟨quiet, agrees, kept⟩
    refine ⟨fun index evaluation evaluated found inRecord decided => ?_,
      (batch_entry_iff server runtime moments request).mpr kept,
      (silent_iff server runtime moments request).mpr quiet⟩
    exact (applied_iff server runtime moments request found inRecord
      (quiet evaluation (List.mem_of_getElem? found)) kept decided).mpr
        (agrees index evaluation found decided)

end BatchProperties

/-- When the decision log names the policy that decided. -/
theorem decision_log_names_policy_iff (server : Server) (runtime : Bool) :
    (∀ moment request, NamesPolicy server runtime moment request ↔
      Selects server runtime moment request ∨ policyPath? request.context = none) ∧
    (∀ moments request, NamesPolicies server runtime moments request ↔
      BatchLeavesRoom server runtime moments request) :=
  ⟨namesPolicy_iff server runtime, namesPolicies_iff server runtime⟩

section Forged

def openServer : Server := ⟨"authz".toList⟩

def allowing : Moment where
  packages := .ok ["authz".toList]
  resolveSubject id := .ok id
  resolveIdentity id := .ok { type := "user".toList, id }
  decisionQuery _ _ := .ok fun _ => .ok [Std.ExtTreeMap.empty.insert (bindingName 0) (.bool true)]
  newStruct _ := .ok ∅

def forgedContext : Struct :=
  Std.ExtTreeMap.empty.insert policyPathKey (some (.string "forged".toList))

def forgedBatch : EvaluationsRequest where
  evaluations := [{ action := some { name := "read".toList }, context := some forgedContext }]

/-- The sub-request is decided by `authz`, and the log says `forged`. -/
theorem forged_policy_logged :
    ¬NamesPolicies openServer true (fun _ => allowing) forgedBatch := by
  rintro ⟨_, _, silent⟩
  have entries := (silent_iff openServer true (fun _ => allowing) forgedBatch).mp silent _
    List.mem_cons_self
  simp [policyPath?, forgedContext] at entries

end Forged

end Eamerald.Authorizer
