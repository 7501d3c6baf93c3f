import Eamerald.Directory.Writer

/-! The importer service. All requests of a stream run in one transaction; an
error of one request is reported and does not end it. -/

set_option autoImplicit false

namespace Eamerald.Directory

open Foundation Store

inductive Opcode where
  | set
  | delete
  | deleteWithRelations
  | other (code : Int)
deriving DecidableEq, Repr

def Opcode.code : Opcode → Int
  | .set => 1
  | .delete => 2
  | .deleteWithRelations => 3
  | .other code => code

def Opcode.name : Opcode → GoString
  | .set => "OPCODE_SET".toList
  | .delete => "OPCODE_DELETE".toList
  | .deleteWithRelations => "OPCODE_DELETE_WITH_RELATIONS".toList
  | .other code => if code = 0 then "OPCODE_UNKNOWN".toList else (toString code).toList

/-- The message of a request; a set field can still hold a nil message. -/
inductive ImportMessage where
  | object (object : Option Object)
  | relation (relation : Option Relation)
  | unset

structure ImportRequest where
  opCode : Opcode
  message : ImportMessage

structure ImportCounter where
  recv : Nat := 0
  set : Nat := 0
  delete : Nat := 0
  error : Nat := 0
deriving DecidableEq, Repr

structure Counters where
  object : ImportCounter := {}
  relation : ImportCounter := {}
deriving DecidableEq, Repr

def updateCounter (counter : ImportCounter) (opCode : Opcode) (outcome : Except Err PUnit) :
    ImportCounter :=
  let counter := { counter with recv := counter.recv + 1 }
  match outcome, opCode with
  | .error _, _ => { counter with error := counter.error + 1 }
  | .ok _, .set => { counter with set := counter.set + 1 }
  | .ok _, .delete => { counter with delete := counter.delete + 1 }
  | .ok _, .deleteWithRelations => { counter with delete := counter.delete + 1 }
  | .ok _, .other _ => counter

section Handlers

variable {μ : Type} (library : Library μ)

def modelValidateError : Err → Err
  | .rejected message (some detail) =>
      .rejected (if message ≠ [] then library.quote detail ++ ": ".toList ++ message else detail)
        (some detail)
  | error => error

def onError {α : Type} (replace : Err → Err) (outcome : Except Err α) : Except Err α :=
  match outcome with
  | .ok value => .ok value
  | .error error => .error (replace error)

/-- Perform an operation and report any failure of it as the given error. -/
def orElseReport {α : Type} (error : Err) (op : TxOp μ α) : Tx μ α := do
  match ← (Program.lift op).attempt with
  | .ok value => return value
  | .error _ => throw error

def validateImportObject (model : μ) : Option Object → Except Err Object
  | none => .error (.derr .invalidObject "nil".toList)
  | some object => do
      library.object object
      onError (modelValidateError library) (library.validateObject model object)
      return object

def validateImportRelation (model : μ) : Option Relation → Except Err Relation
  | none => .error (.derr .invalidRelation "nil".toList)
  | some relation => do
      library.relation relation
      onError (modelValidateError library) (library.validateRelation model relation.ident)
      return relation

/-- Store an object that passed validation, unless its content is already there. -/
def storeObject (now : Timestamp) (object : Object) : Tx μ PUnit := do
  let etag := library.hashObject object
  let updated ← updateMetadataObject now object
  if etag = updated.etag then return ⟨⟩
  let _ ← orElseReport (.derr .invalidObject "set".toList) (.setObject { updated with etag })

def storeRelation (now : Timestamp) (relation : Relation) : Tx μ PUnit := do
  let etag := library.hashRelation relation.ident
  let updated ← updateMetadataRelation now relation
  if etag = updated.etag then return ⟨⟩
  let _ ← orElseReport (.derr .invalidRelation "set".toList) (.setRelation { updated with etag })

def removeObject (object : Object) : Tx μ PUnit :=
  orElseReport (.derr .invalidObject "delete".toList) (.deleteObject object.type object.id)

def removeRelation (relation : Relation) : Tx μ PUnit :=
  orElseReport (.derr .invalidRelation "delete".toList) (.deleteRelation relation.ident)

variable (model : μ)

def objectSetHandler (now : Timestamp) (request : Option Object) : Tx μ PUnit := do
  let object ← Program.done (validateImportObject library model request)
  storeObject library now object

def objectDeleteHandler (request : Option Object) : Tx μ PUnit := do
  let object ← Program.done (validateImportObject library model request)
  removeObject object

def objectDeleteWithRelationsHandler (request : Option Object) : Tx μ PUnit := do
  let object ← Program.done (validateImportObject library model request)
  removeObject object
  deleteRelationsWithPrefix .bySubject object.type object.id
  deleteRelationsWithPrefix .byObject object.type object.id

def relationSetHandler (now : Timestamp) (request : Option Relation) : Tx μ PUnit := do
  let relation ← Program.done (validateImportRelation library model request)
  storeRelation library now relation

def relationDeleteHandler (request : Option Relation) : Tx μ PUnit := do
  let relation ← Program.done (validateImportRelation library model request)
  removeRelation relation

def unknownOpCode (opCode : Opcode) : Err :=
  .derr .unknownOpCode (opCode.name ++ " - ".toList ++ (toString opCode.code).toList)

def importHandler (now : Timestamp) (request : ImportRequest) : Tx μ PUnit :=
  match request.message, request.opCode with
  | .object object, .set => objectSetHandler library model now object
  | .object object, .delete => objectDeleteHandler library model object
  | .object object, .deleteWithRelations => objectDeleteWithRelationsHandler library model object
  | .object _, opCode => throw (unknownOpCode opCode)
  | .relation relation, .set => relationSetHandler library model now relation
  | .relation relation, .delete => relationDeleteHandler library model relation
  | .relation _, .deleteWithRelations => throw (.derr .invalidOpCode
      (Opcode.deleteWithRelations.name ++ " for type relation".toList))
  | .relation _, opCode => throw (unknownOpCode opCode)
  | .unset, _ => throw (.derr .unknown "import request".toList)

/-- Only requests that reach a handler are counted. -/
def countRequest (request : ImportRequest) (outcome : Except Err PUnit) (counters : Counters) :
    Counters :=
  match request.message, request.opCode with
  | .object _, .other _ => counters
  | .object _, opCode => { counters with object := updateCounter counters.object opCode outcome }
  | .relation _, .set =>
      { counters with relation := updateCounter counters.relation .set outcome }
  | .relation _, .delete =>
      { counters with relation := updateCounter counters.relation .delete outcome }
  | _, _ => counters

end Handlers

/-- A request as it is handled: with the model that is cached at that moment. -/
structure Received (μ : Type) where
  model : μ
  now : Timestamp
  request : ImportRequest

/-- How a stream ends: with the final response sent or not, or because the call is over. -/
inductive StreamEnd where
  | eof (sent : Except Err PUnit)
  | done

/-- A status message: the error that a request ended in, and the request. -/
structure ImportStatus where
  error : Err
  req : ImportRequest

/-- A status message is sent only for an error that has a status. -/
def importStatus? (req : ImportRequest) : Except Err PUnit → Option ImportStatus
  | .ok _ => none
  | .error error => if error.hasStatus then some ⟨error, req⟩ else none

section Import

variable {μ : Type} (library : Library μ)

def importRequests :
    List (Received μ) → Counters → List ImportStatus → Tx μ (Counters × List ImportStatus)
  | [], counters, statuses => return (counters, statuses)
  | received :: rest, counters, statuses => do
      let outcome ← (importHandler library received.model received.now received.request).attempt
      importRequests rest (countRequest received.request outcome counters)
        (statuses ++ (importStatus? received.request outcome).toList)

def importStream (requests : List (Received μ)) (ending : StreamEnd) :
    Tx μ (Counters × List ImportStatus) := do
  let result ← importRequests library requests {} []
  match ending with
  | .done => return result
  | .eof sent =>
      Program.done sent
      return result

end Import

section Validation

variable {μ : Type} {library : Library μ}

theorem eq_of_validateImportObject {model : μ} {object row : Object}
    (valid : validateImportObject library model (some object) = .ok row) : row = object := by
  obtain ⟨_, _, rest⟩ := except_bind_eq_ok.mp valid
  obtain ⟨_, _, same⟩ := except_bind_eq_ok.mp rest
  cases same
  rfl

theorem eq_of_validateImportRelation {model : μ} {relation row : Relation}
    (valid : validateImportRelation library model (some relation) = .ok row) : row = relation := by
  obtain ⟨_, _, rest⟩ := except_bind_eq_ok.mp valid
  obtain ⟨_, _, same⟩ := except_bind_eq_ok.mp rest
  cases same
  rfl

end Validation

end Eamerald.Directory
