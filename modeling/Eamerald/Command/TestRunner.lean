import Eamerald.Api.Messages
import Eamerald.Foundation.Counting

/-! The runner of assertions. An assertion is read, dispatched to a client by its type and by the
shape of its request, and counted: first as passed or failed, and then once more if there was an
error or no client. -/

set_option autoImplicit false

namespace Eamerald.Command.TestRunner

open Foundation

section Assertions

abbrev Fields := List (GoString × PropertyValue)

inductive CheckType where
  | check
  | evaluation
  | authorizerEvaluation
  | evaluations
  | subjectSearch
  | resourceSearch
  | actionSearch
deriving DecidableEq, Repr

def CheckType.all : List CheckType :=
  [.check, .evaluation, .authorizerEvaluation, .evaluations, .subjectSearch, .resourceSearch,
    .actionSearch]

def CheckType.str : CheckType → GoString
  | .check => "check".toList
  | .evaluation => "evaluation".toList
  | .authorizerEvaluation => "authorizer_evaluation".toList
  | .evaluations => "evaluations".toList
  | .subjectSearch => "subject_search".toList
  | .resourceSearch => "resource_search".toList
  | .actionSearch => "action_search".toList

/-- An order in which `CheckTypeMap` is iterated. -/
structure MapOrder where
  types : List CheckType
  complete : types.Perm CheckType.all

/-- The first type in the order that has a field; none is `CheckUnknown`. -/
def getCheckType (order : MapOrder) (msg : Fields) : Option CheckType :=
  order.types.find? fun checkType => (msg.lookup checkType.str).isSome

def boolValue : Option PropertyValue → Bool
  | some (.bool flag) => flag
  | _ => false

def stringValue : Option PropertyValue → GoString
  | some (.string text) => text
  | _ => []

def listValues : Option PropertyValue → List PropertyValue
  | some (.list values) => values
  | _ => []

def getBool (msg : Fields) (fieldName : GoString) : Bool × Bool :=
  (boolValue (msg.lookup fieldName), (msg.lookup fieldName).isSome)

def getStringSlice (msg : Fields) (fieldName : GoString) : List GoString :=
  (listValues (msg.lookup fieldName)).map fun value => stringValue (some value)

def getBoolSlice (msg : Fields) (fieldName : GoString) : List Bool :=
  (listValues (msg.lookup fieldName)).map fun value => boolValue (some value)

def reqVersionFields : List (GoString × Nat) :=
  [("object_type".toList, 3), ("object".toList, 2), ("identity_context".toList, 2), ("action".toList, 1),
    ("resource".toList, 1), ("evaluations".toList, 1)]

/-- Zero if the request has none of the fields, or is no struct. -/
def getReqVersion : Option PropertyValue → Nat
  | some (.struct fields) =>
      ((reqVersionFields.find? fun entry => (fields.lookup entry.1).isSome).map Prod.snd).getD 0
  | _ => 0

def expectedStr : GoString := "expected".toList
def expectedSetStr : GoString := "expected_set".toList
def expectedDecisionsStr : GoString := "expected_decisions".toList

structure Assertion where
  msg : Fields
  expected : Bool
  checkType : CheckType
  reqVersion : Nat

def readAssertion {R : Type} (pbUnmarshal : R → Except GoString Fields) (order : MapOrder) (raw : R) :
    Except GoString Assertion := do
  let msg ← pbUnmarshal raw
  let (expected, ok) := getBool msg expectedStr
  if !ok then throw "no expected outcome of assertion defined".toList
  match getCheckType order msg with
  | none => throw "unknown check type".toList
  | some checkType =>
      let reqVersion := getReqVersion (msg.lookup checkType.str)
      if reqVersion = 0 then throw "unknown request version".toList
      return { msg, expected, checkType, reqVersion }

end Assertions

section Dispatch

/-- The answer to a call. Without a response its fields have their zero values. -/
structure Answer (α : Type) where
  response : α
  error : Option GoString := none

abbrev Entity := GoString × GoString

structure DirectoryClient (ρ : Type) where
  check : ρ → Answer Bool
  evaluation : ρ → Answer Bool
  evaluations : ρ → Answer (List Bool)
  subjectSearch : ρ → Answer (List Entity)
  resourceSearch : ρ → Answer (List Entity)
  actionSearch : ρ → Answer (List GoString)

structure AuthorizerClient (ρ : Type) where
  evaluation : ρ → Answer Bool

structure Runner (ρ : Type) where
  azClient : Option (AuthorizerClient ρ)
  dsClient : Option (DirectoryClient ρ)
  unmarshalReq : CheckType → Option PropertyValue → Except GoString ρ

inductive CheckError where
  | skippedAuthorizerAssertion
  | skippedDirectoryAssertion
  | request (text : GoString)
  | call (text : GoString)
deriving DecidableEq, Repr

structure CheckResult where
  outcome : Bool := false
  err : Option CheckError := none
deriving DecidableEq, Repr

def boolSliceEqual (a b : List Bool) : Bool :=
  a.length == b.length && (a.zip b).all fun pair => pair.1 == pair.2

def addTo (counts : Std.ExtTreeMap GoString Int) (change : Int) (text : GoString) :
    Std.ExtTreeMap GoString Int :=
  counts.insert text (counts[text]?.getD 0 + change)

def stringSetEqual (a b : List GoString) : Bool :=
  a.length == b.length &&
    (b.foldl (fun counts text => addTo counts (-1) text)
      (a.foldl (fun counts text => addTo counts 1 text) ∅)).toList.all fun entry => entry.2 == 0

/-- A request is read and sent if there is a client, and the response is judged, also where there is an
error. -/
def ask {ρ κ α : Type} (client : Option κ) (skipped : CheckError) (request : Except GoString ρ)
    (call : κ → ρ → Answer α) (judge : α → Bool) : CheckResult :=
  match client, request with
  | none, _ => { err := some skipped }
  | some _, .error text => { err := some (.request text) }
  | some client, .ok request =>
      let answer := call client request
      { outcome := judge answer.response, err := answer.error.map .call }

variable {ρ : Type} (runner : Runner ρ)

def checkV3 (value : Option PropertyValue) : CheckResult :=
  ask runner.dsClient .skippedDirectoryAssertion (runner.unmarshalReq .check value) DirectoryClient.check id

def evaluationV1 (value : Option PropertyValue) : CheckResult :=
  ask runner.dsClient .skippedDirectoryAssertion (runner.unmarshalReq .evaluation value)
    DirectoryClient.evaluation id

def authorizerEvaluationV1 (value : Option PropertyValue) : CheckResult :=
  ask runner.azClient .skippedAuthorizerAssertion (runner.unmarshalReq .authorizerEvaluation value)
    AuthorizerClient.evaluation id

def evaluationsV1 (msg : Fields) : CheckResult :=
  ask runner.dsClient .skippedDirectoryAssertion
    (runner.unmarshalReq .evaluations (msg.lookup CheckType.evaluations.str)) DirectoryClient.evaluations
    fun actual => boolSliceEqual actual (getBoolSlice msg expectedDecisionsStr)

def entityName (entity : Entity) : GoString := entity.1 ++ ":".toList ++ entity.2

def searchV1 {α : Type} (checkType : CheckType) (search : DirectoryClient ρ → ρ → Answer (List α))
    (name : α → GoString) (msg : Fields) : CheckResult :=
  ask runner.dsClient .skippedDirectoryAssertion (runner.unmarshalReq checkType (msg.lookup checkType.str))
    search fun results => stringSetEqual (results.map name) (getStringSlice msg expectedSetStr)

def subjectSearchV1 : Fields → CheckResult :=
  searchV1 runner .subjectSearch DirectoryClient.subjectSearch entityName

def resourceSearchV1 : Fields → CheckResult :=
  searchV1 runner .resourceSearch DirectoryClient.resourceSearch entityName

def actionSearchV1 : Fields → CheckResult :=
  searchV1 runner .actionSearch DirectoryClient.actionSearch id

/-- There is no case for a check of another version, and then no result. -/
def setCheckType (assertion : Assertion) : Option CheckResult :=
  let msg := assertion.msg
  match assertion.checkType with
  | .check =>
      if assertion.reqVersion = 3 then some (checkV3 runner (msg.lookup CheckType.check.str)) else none
  | .evaluation => some (evaluationV1 runner (msg.lookup CheckType.evaluation.str))
  | .authorizerEvaluation =>
      some (authorizerEvaluationV1 runner (msg.lookup CheckType.authorizerEvaluation.str))
  | .evaluations => some (evaluationsV1 runner msg)
  | .subjectSearch => some (subjectSearchV1 runner msg)
  | .resourceSearch => some (resourceSearchV1 runner msg)
  | .actionSearch => some (actionSearchV1 runner msg)

end Dispatch

section Execution

structure TestResults where
  total : Int32 := 0
  passed : Int32 := 0
  failed : Int32 := 0
  errored : Int32 := 0
  skipped : Int32 := 0
deriving DecidableEq

def newTestResults (number : Nat) : TestResults := { total := Int32.ofNat number }

namespace TestResults

variable (results : TestResults)

def incrPassed : TestResults := { results with passed := results.passed + 1 }
def incrFailed : TestResults := { results with failed := results.failed + 1 }
def incrErrored : TestResults := { results with errored := results.errored + 1 }
def incrSkipped : TestResults := { results with skipped := results.skipped + 1 }

def countPassed (passed : Bool) : TestResults :=
  if passed then results.incrPassed else results.incrFailed

def record (expected : Bool) (result : CheckResult) : TestResults :=
  let results := results.countPassed (result.outcome == expected)
  match result.err with
  | none => results
  | some .skippedAuthorizerAssertion => results.incrSkipped
  | some .skippedDirectoryAssertion => results.incrSkipped
  | some (.request _) | some (.call _) => results.incrErrored

def verdict : Option GoString :=
  if results.failed ≠ 0 ∨ results.errored ≠ 0 then
    some ((toString results.failed.toInt).toList ++ " tests failed, ".toList ++
      (toString results.errored.toInt).toList ++ " tests errored".toList)
  else none

end TestResults

inductive Ended where
  | returned (err : Option GoString)
  | panicked
deriving DecidableEq, Repr

variable {R ρ : Type} (pbUnmarshal : R → Except GoString Fields) (runner : Runner ρ)

def execLoop : List (R × MapOrder) → TestResults → Ended × TestResults
  | [], results => (.returned results.verdict, results)
  | (raw, order) :: rest, results =>
      match readAssertion pbUnmarshal order raw with
      | .error text => (.returned (some text), results)
      | .ok assertion =>
          match setCheckType runner assertion with
          | none => (.panicked, results)
          | some result => execLoop rest (results.record assertion.expected result)

def exec (decoded : Except GoString (List (R × MapOrder))) : Ended × TestResults :=
  match decoded with
  | .error text => (.returned (some text), {})
  | .ok assertions => execLoop pbUnmarshal runner assertions (newTestResults assertions.length)

end Execution

section Judging

theorem boolSliceEqual_iff (a b : List Bool) : boolSliceEqual a b = true ↔ a = b := by
  induction a generalizing b with
  | nil => cases b <;> simp [boolSliceEqual]
  | cons first rest ih =>
      cases b with
      | nil => simp [boolSliceEqual]
      | cons other others =>
          have rest_iff := ih others
          simp only [boolSliceEqual, Bool.and_eq_true, beq_iff_eq] at rest_iff
          simp only [boolSliceEqual, List.length_cons, Bool.and_eq_true, beq_iff_eq, Nat.add_right_cancel_iff,
            List.zip_cons_cons, List.all_cons, List.cons.injEq, ← rest_iff]
          tauto

theorem getD_addTo (counts : Std.ExtTreeMap GoString Int) (change : Int) (text other : GoString) :
    (addTo counts change text)[other]?.getD 0 = counts[other]?.getD 0 + if text = other then change else 0 := by
  unfold addTo
  rw [Std.ExtTreeMap.getElem?_insert]
  by_cases same : text = other
  · subst same
    simp
  · simp [same, Std.LawfulEqCmp.compare_eq_iff_eq]

theorem getD_foldl_addTo (texts : List GoString) (change : Int) (counts : Std.ExtTreeMap GoString Int)
    (other : GoString) : (texts.foldl (fun counts text => addTo counts change text) counts)[other]?.getD 0 =
      counts[other]?.getD 0 + change * texts.count other := by
  induction texts generalizing counts with
  | nil => simp
  | cons text rest ih =>
      rw [List.foldl_cons, ih, getD_addTo, List.count_cons]
      by_cases same : text = other
      · simp only [same, if_true, beq_self_eq_true, Nat.cast_add, Nat.cast_one]
        ring
      · simp [same]

theorem all_zero_iff (counts : Std.ExtTreeMap GoString Int) :
    (counts.toList.all fun entry => entry.2 == 0) = true ↔
      ∀ text : GoString, counts[text]?.getD (0 : Int) = 0 := by
  rw [List.all_eq_true]
  constructor
  · intro zero text
    cases found : counts[text]? with
    | none => rfl
    | some number =>
        have listed := Std.ExtTreeMap.mem_toList_iff_getElem?_eq_some.mpr found
        simpa using zero (text, number) listed
  · intro zero entry listed
    have found := Std.ExtTreeMap.mem_toList_iff_getElem?_eq_some.mp listed
    simpa [found] using zero entry.1

theorem stringSetEqual_iff (a b : List GoString) : stringSetEqual a b = true ↔ a.Perm b := by
  have counts : (b.foldl (fun counts text => addTo counts (-1) text)
      (a.foldl (fun counts text => addTo counts 1 text) ∅)).toList.all (fun entry => entry.2 == 0) = true ↔
        a.Perm b := by
    rw [all_zero_iff, List.perm_iff_count]
    refine forall_congr' fun text => ?_
    rw [getD_foldl_addTo, getD_foldl_addTo, Std.ExtTreeMap.getElem?_empty, Option.getD_none]
    omega
  rw [stringSetEqual, Bool.and_eq_true, counts, beq_iff_eq]
  exact and_iff_right_of_imp List.Perm.length_eq

section Outcomes

variable {ρ : Type} {runner : Runner ρ} {client : DirectoryClient ρ} (there : runner.dsClient = some client)
  {msg : Fields} {request : ρ}

include there

/-- The decisions are the expected ones, in their order. -/
theorem evaluationsV1_outcome_iff
    (readable : runner.unmarshalReq .evaluations (msg.lookup CheckType.evaluations.str) = .ok request) :
    (evaluationsV1 runner msg).outcome = true ↔
      (client.evaluations request).response = getBoolSlice msg expectedDecisionsStr := by
  rw [evaluationsV1, there, readable]
  exact boolSliceEqual_iff _ _

/-- The results of a search are the expected ones, each as often, in any order. -/
theorem searchV1_outcome_iff {α : Type} {checkType : CheckType}
    {search : DirectoryClient ρ → ρ → Answer (List α)} {name : α → GoString}
    (readable : runner.unmarshalReq checkType (msg.lookup checkType.str) = .ok request) :
    (searchV1 runner checkType search name msg).outcome = true ↔
      ((search client request).response.map name).Perm (getStringSlice msg expectedSetStr) := by
  rw [searchV1, there, readable]
  exact stringSetEqual_iff _ _

end Outcomes

end Judging

section Counters

inductive Counter where
  | passed
  | failed
  | errored
  | skipped
deriving DecidableEq, Repr

def TestResults.get (results : TestResults) : Counter → Int32
  | .passed => results.passed
  | .failed => results.failed
  | .errored => results.errored
  | .skipped => results.skipped

def CheckResult.isSkipped (result : CheckResult) : Bool :=
  result.err = some .skippedAuthorizerAssertion ∨ result.err = some .skippedDirectoryAssertion

def CheckResult.countedIn (expected : Bool) (result : CheckResult) : Counter → Bool
  | .passed => result.outcome == expected
  | .failed => !(result.outcome == expected)
  | .errored => result.err.isSome && !result.isSkipped
  | .skipped => result.isSkipped

theorem get_record (results : TestResults) (expected : Bool) (result : CheckResult) (counter : Counter) :
    (results.record expected result).get counter =
      results.get counter + if result.countedIn expected counter then 1 else 0 := by
  obtain ⟨outcome, err⟩ := result
  unfold TestResults.record TestResults.countPassed
  cases same : outcome == expected <;> rcases err with _ | _ | _ | _ | _ <;> cases counter <;>
    simp [TestResults.get, CheckResult.countedIn, CheckResult.isSkipped, same, TestResults.incrPassed,
      TestResults.incrFailed, TestResults.incrErrored, TestResults.incrSkipped]

theorem total_record (results : TestResults) (expected : Bool) (result : CheckResult) :
    (results.record expected result).total = results.total := by
  obtain ⟨outcome, err⟩ := result
  unfold TestResults.record TestResults.countPassed
  cases outcome == expected <;> rcases err with _ | _ | _ | _ | _ <;> rfl

/-- The result raises the counter, whatever its value was. -/
def CheckResult.Raises (expected : Bool) (result : CheckResult) (counter : Counter) : Prop :=
  ∀ results : TestResults, (results.record expected result).get counter = results.get counter + 1

theorem raises_iff (expected : Bool) (result : CheckResult) (counter : Counter) :
    result.Raises expected counter ↔ result.countedIn expected counter = true := by
  constructor
  · intro raises
    have moved := raises {}
    rw [get_record] at moved
    by_contra other
    rw [if_neg other] at moved
    cases counter <;> exact absurd moved (by decide)
  · intro counted results
    rw [get_record, if_pos counted]

/-- A result is counted once exactly if there was no error and no assertion was skipped. -/
theorem counted_once_iff (expected : Bool) (result : CheckResult) :
    (∃! counter, result.Raises expected counter) ↔ result.err = none := by
  simp only [raises_iff]
  constructor
  · rintro ⟨counter, _, unique⟩
    by_contra failed
    have first : ∃ counter ∈ [Counter.passed, .failed], result.countedIn expected counter = true := by
      cases same : result.outcome == expected <;> simp [CheckResult.countedIn, same]
    have second : ∃ counter ∈ [Counter.errored, .skipped], result.countedIn expected counter = true := by
      have some := Option.isSome_iff_ne_none.mpr failed
      cases skipped : result.isSkipped <;> simp [CheckResult.countedIn, skipped, some]
    obtain ⟨one, early, counted⟩ := first
    obtain ⟨other, late, countedToo⟩ := second
    have same := (unique one counted).trans (unique other countedToo).symm
    subst same
    revert early late
    cases one <;> decide
  · intro clean
    have quiet : result.isSkipped = false := by simp [CheckResult.isSkipped, clean]
    cases same : result.outcome == expected with
    | false =>
        refine ⟨.failed, by simp [CheckResult.countedIn, same], fun counter counted => ?_⟩
        cases counter <;> simp [CheckResult.countedIn, same, quiet, clean] at counted ⊢
    | true =>
        refine ⟨.passed, by simp [CheckResult.countedIn, same], fun counter counted => ?_⟩
        cases counter <;> simp [CheckResult.countedIn, same, quiet, clean] at counted ⊢

end Counters

section Runs

variable {R ρ : Type} {pbUnmarshal : R → Except GoString Fields} {runner : Runner ρ}
  {items : List (R × MapOrder)} {assertions : List Assertion}

def ReadAs (pbUnmarshal : R → Except GoString Fields) (items : List (R × MapOrder))
    (assertions : List Assertion) : Prop :=
  List.Forall₂ (fun item assertion => readAssertion pbUnmarshal item.2 item.1 = .ok assertion) items
    assertions

def resultOf (runner : Runner ρ) (assertion : Assertion) : CheckResult :=
  (setCheckType runner assertion).getD {}

def recordAll (runner : Runner ρ) (assertions : List Assertion) (results : TestResults) : TestResults :=
  assertions.foldl (fun results assertion => results.record assertion.expected (resultOf runner assertion))
    results

def countIn (runner : Runner ρ) (counter : Counter) (assertions : List Assertion) : Nat :=
  assertions.countP fun assertion => (resultOf runner assertion).countedIn assertion.expected counter

theorem get_recordAll (runner : Runner ρ) (assertions : List Assertion) (counter : Counter)
    (results : TestResults) : (recordAll runner assertions results).get counter =
      results.get counter + Int32.ofNat (countIn runner counter assertions) :=
  foldl_counter (fun results : TestResults => results.get counter)
    (fun assertion => (resultOf runner assertion).countedIn assertion.expected counter)
    (fun results assertion =>
      get_record results assertion.expected (resultOf runner assertion) counter) assertions results

theorem total_recordAll (results : TestResults) :
    (recordAll runner assertions results).total = results.total := by
  induction assertions generalizing results with
  | nil => rfl
  | cons assertion rest ih => exact (ih _).trans (total_record _ _ _)

theorem execLoop_of_dispatched (read : ReadAs pbUnmarshal items assertions)
    (dispatched : ∀ assertion ∈ assertions, (setCheckType runner assertion).isSome = true)
    (results : TestResults) : execLoop pbUnmarshal runner items results =
      (.returned (recordAll runner assertions results).verdict, recordAll runner assertions results) := by
  induction read generalizing results with
  | nil => rfl
  | @cons item assertion _ rest here _ ih =>
      obtain ⟨first, others⟩ := List.forall_mem_cons.mp dispatched
      obtain ⟨result, found⟩ := Option.isSome_iff_exists.mp first
      have same : resultOf runner assertion = result := by rw [resultOf, found, Option.getD_some]
      simp only [execLoop, here, found]
      rw [ih others, ← same]
      rfl

theorem execLoop_panics (read : ReadAs pbUnmarshal items assertions) {assertion : Assertion}
    (member : assertion ∈ assertions) (lost : setCheckType runner assertion = none)
    (results : TestResults) : (execLoop pbUnmarshal runner items results).1 = .panicked := by
  induction read generalizing results with
  | nil => cases member
  | @cons item first _ _ here _ ih =>
      simp only [execLoop, here]
      cases found : setCheckType runner first with
      | none => rfl
      | some result =>
          rcases List.mem_cons.mp member with rfl | later
          · cases lost.symm.trans found
          · exact ih later _

theorem exec_of_dispatched (read : ReadAs pbUnmarshal items assertions)
    (dispatched : ∀ assertion ∈ assertions, (setCheckType runner assertion).isSome = true) :
    exec pbUnmarshal runner (.ok items) =
      (.returned (recordAll runner assertions (newTestResults assertions.length)).verdict,
        recordAll runner assertions (newTestResults assertions.length)) := by
  have size : items.length = assertions.length := read.length_eq
  rw [exec, size]
  exact execLoop_of_dispatched read dispatched _

theorem verdict_eq_none_iff (number : Nat) :
    (recordAll runner assertions (newTestResults number)).verdict = none ↔
      2 ^ 32 ∣ countIn runner .failed assertions ∧ 2 ^ 32 ∣ countIn runner .errored assertions := by
  have failed := get_recordAll runner assertions .failed (newTestResults number)
  have errored := get_recordAll runner assertions .errored (newTestResults number)
  simp only [TestResults.get, newTestResults, Int32.zero_add] at failed errored
  rw [← ofNat_eq_zero_iff, ← ofNat_eq_zero_iff, ← failed, ← errored, TestResults.verdict]
  simp [newTestResults]

end Runs

section Verdicts

variable {R ρ : Type} {pbUnmarshal : R → Except GoString Fields} {runner : Runner ρ}
  {items : List (R × MapOrder)} {assertions : List Assertion}

/-- The assertion was skipped, or else evaluated without an error and with its expected outcome. -/
def Satisfied (runner : Runner ρ) (assertion : Assertion) : Prop :=
  ∃ result, setCheckType runner assertion = some result ∧
    (result.isSkipped = false → result.err = none ∧ result.outcome = assertion.expected)

/-- A run without a panic counts each assertion once and returns no error exactly if all are
satisfied. -/
structure Right (runner : Runner ρ) (assertions : List Assertion) (run : Ended × TestResults) : Prop where
  returns : run.1 ≠ .panicked
  total : run.2.passed + run.2.failed + run.2.errored + run.2.skipped = run.2.total
  once : ∀ assertion ∈ assertions, ∀ result, setCheckType runner assertion = some result →
    ∃! counter, result.Raises assertion.expected counter
  verdict : run.1 = .returned none ↔ ∀ assertion ∈ assertions, Satisfied runner assertion

/-- The assertion reaches a client, and the client answers without an error. -/
def Answered (runner : Runner ρ) (assertion : Assertion) : Prop :=
  ∃ result, setCheckType runner assertion = some result ∧ result.err = none

theorem resultOf_eq {assertion : Assertion} {result : CheckResult}
    (found : setCheckType runner assertion = some result) : resultOf runner assertion = result := by
  rw [resultOf, found, Option.getD_some]

theorem passed_add_failed (runner : Runner ρ) (assertions : List Assertion) :
    countIn runner .passed assertions + countIn runner .failed assertions = assertions.length := by
  have split := assertions.length_eq_countP_add_countP fun assertion =>
    (resultOf runner assertion).countedIn assertion.expected .passed
  rw [split, countIn, countIn]
  refine congrArg (_ + ·) (List.countP_congr fun assertion _ => ?_)
  simp [CheckResult.countedIn]

section Answers

variable (answered : ∀ assertion ∈ assertions, Answered runner assertion)

include answered

theorem countIn_eq_zero : countIn runner .errored assertions = 0 ∧ countIn runner .skipped assertions = 0 := by
  constructor
  all_goals
    refine List.countP_eq_zero.mpr fun assertion member => ?_
    obtain ⟨result, found, clean⟩ := answered assertion member
    simp [resultOf_eq found, CheckResult.countedIn, CheckResult.isSkipped, clean]

theorem satisfied_iff : (∀ assertion ∈ assertions, Satisfied runner assertion) ↔
    countIn runner .failed assertions = 0 := by
  rw [countIn, List.countP_eq_zero]
  refine forall₂_congr fun assertion member => ?_
  obtain ⟨result, found, clean⟩ := answered assertion member
  have quiet : result.isSkipped = false := by simp [CheckResult.isSkipped, clean]
  simp [Satisfied, found, resultOf_eq found, CheckResult.countedIn, quiet, clean]

end Answers

/-- The run is right exactly if all assertions are dispatched and answered without an error, and if the
failed ones are not so many that their counter wraps around to zero. -/
theorem exec_right_iff (read : ReadAs pbUnmarshal items assertions) :
    Right runner assertions (exec pbUnmarshal runner (.ok items)) ↔
      (∀ assertion ∈ assertions, Answered runner assertion) ∧
        (2 ^ 32 ∣ countIn runner .failed assertions → countIn runner .failed assertions = 0) := by
  by_cases dispatched : ∀ assertion ∈ assertions, (setCheckType runner assertion).isSome = true
  case neg =>
    simp only [not_forall, Bool.not_eq_true, Option.isSome_eq_false_iff, Option.isNone_iff_eq_none]
      at dispatched
    obtain ⟨assertion, member, lost⟩ := dispatched
    refine iff_of_false (fun right => right.returns ?_) fun right => ?_
    · exact execLoop_panics read member lost _
    · obtain ⟨result, found, _⟩ := right.1 assertion member
      cases lost.symm.trans found
  rw [exec_of_dispatched read dispatched]
  constructor
  · intro right
    have answered : ∀ assertion ∈ assertions, Answered runner assertion := by
      intro assertion member
      obtain ⟨result, found⟩ := Option.isSome_iff_exists.mp (dispatched assertion member)
      exact ⟨result, found, (counted_once_iff _ _).mp (right.once assertion member result found)⟩
    refine ⟨answered, fun wraps => ?_⟩
    rw [← satisfied_iff answered, ← right.verdict, (verdict_eq_none_iff assertions.length).mpr]
    exact ⟨wraps, by simp [(countIn_eq_zero answered).1]⟩
  · rintro ⟨answered, small⟩
    obtain ⟨errored, skipped⟩ := countIn_eq_zero answered
    refine ⟨by simp, ?_, fun assertion member result found => ?_, ?_⟩
    · have counters (counter : Counter) :=
        get_recordAll runner assertions counter (newTestResults assertions.length)
      have passes := counters .passed
      have fails := counters .failed
      have errors := counters .errored
      have skips := counters .skipped
      simp only [TestResults.get] at passes fails errors skips
      rw [passes, fails, errors, skips, errored, skipped, total_recordAll]
      simp [newTestResults, ← Int32.ofNat_add, passed_add_failed runner]
    · obtain ⟨other, same, clean⟩ := answered assertion member
      cases found.symm.trans same
      exact (counted_once_iff _ _).mpr clean
    · rw [satisfied_iff answered, Ended.returned.injEq, verdict_eq_none_iff, errored]
      constructor
      · intro wraps
        exact small wraps.1
      · intro none
        simp [none]

/-- A directory that answers all checks with yes, and requests that are not looked into. -/
def agreeing : Runner Unit where
  azClient := none
  dsClient := some
    { check _ := ⟨true, none⟩
      evaluation _ := ⟨true, none⟩
      evaluations _ := ⟨[], none⟩
      subjectSearch _ := ⟨[], none⟩
      resourceSearch _ := ⟨[], none⟩
      actionSearch _ := ⟨[], none⟩ }
  unmarshalReq _ _ := .ok ()

theorem agreeing_finds_actions :
    (searchV1 agreeing .actionSearch (fun _ _ => ⟨["read".toList, "write".toList], none⟩) id
      [(expectedSetStr, .list [.string "write".toList, .string "read".toList])]).outcome = true :=
  (searchV1_outcome_iff rfl rfl).mpr (by decide +kernel)

def anyOrder : MapOrder := ⟨CheckType.all, .refl _⟩

def expectTrue (checkType : CheckType) (field : GoString) : Fields :=
  [(expectedStr, .bool true), (checkType.str, .struct [(field, .null)])]

theorem agreeing_right :
    Right agreeing [⟨expectTrue .check "object_type".toList, true, .check, 3⟩]
      (exec .ok agreeing (.ok [(expectTrue .check "object_type".toList, anyOrder)])) := by
  have read : ReadAs .ok [(expectTrue .check "object_type".toList, anyOrder)]
      [⟨expectTrue .check "object_type".toList, true, .check, 3⟩] := .cons rfl .nil
  refine (exec_right_iff read).mpr ⟨?_, ?_⟩
  · intro assertion member
    cases List.mem_singleton.mp member
    exact ⟨⟨true, none⟩, rfl, rfl⟩
  · decide

/-- Without an authorizer an assertion is skipped, and it is also counted as failed, so that the run
ends in an error although nothing was evaluated. A check that names its object by `object` ends in a
panic. -/
theorem skipped_assertion_fails :
    exec .ok agreeing
        (.ok [(expectTrue .authorizerEvaluation "action".toList, anyOrder)]) =
      (.returned (some "1 tests failed, 0 tests errored".toList), ⟨1, 0, 1, 0, 1⟩) ∧
    (exec .ok agreeing (.ok [(expectTrue .check "object".toList, anyOrder)])).1 = .panicked := by
  decide

end Verdicts

end Eamerald.Command.TestRunner
