import Eamerald.Authorizer.Access
import Eamerald.Foundation.Runs

/-! The decision logger that the access services share. Calls hand their records to its outputs
in several steps, and closing the logger takes the outputs away in several steps, without a
lock between them. -/

set_option autoImplicit false

namespace Eamerald.Adl

open Foundation Authorizer

section Configuration

structure Config where
  enabled : Bool := false
  output : GoString := []
  otlpEndpoint : GoString := []
deriving DecidableEq, Repr

def outputStdout : GoString := "stdout".toList

def outputOTLP : GoString := "otlp".toList

def defaultOutput : GoString := outputStdout ++ ',' :: outputOTLP

def Config.outputs (config : Config) : List GoString :=
  let raw := if trimSpace config.output = [] then defaultOutput else config.output
  ((raw.splitOn ',').map trimSpace).filter fun name => name ≠ []

inductive Sink where
  | stdout
  | discard
deriving DecidableEq, Repr

/-- `otel` is whether the logger has an exporter, and `exporting` whether the exporter that was
started has not been shut down. -/
structure Logger where
  enabled : Bool
  out : Sink := .discard
  otel : Bool := false
  exporting : Bool := false
deriving DecidableEq, Repr

/-- Without an endpoint, or if the exporter does not start, the output is skipped. -/
def startOTel (config : Config) (started : Except Failure Unit) (logger : Logger) : Logger :=
  if config.otlpEndpoint = [] then logger
  else
    match started with
    | .error _ => logger
    | .ok _ => { logger with otel := true, exporting := true }

def Logger.new (config : Config) (started : Except Failure Unit) : Logger :=
  let logger : Logger := { enabled := config.enabled }
  if !config.enabled then logger
  else
    let outputs := config.outputs
    let logger := if outputStdout ∈ outputs then { logger with out := .stdout } else logger
    if outputOTLP ∈ outputs then startOTel config started logger else logger

end Configuration

section Calls

structure Records (ρ : Type) where
  evalErr : ρ → Option Failure
  marshal : ρ → Except Failure GoString

/-- Where a call is, from its evaluation on. In between it carries the errors of the outputs. -/
inductive Stage (ρ : Type) where
  | evaluated (record : ρ)
  | written (record : ρ) (errors : List Failure)
  | exporting (record : ρ) (errors : List Failure)
  | panicked
  | returned (record : ρ) (error : Option Failure)

def messageOf : Failure → List Piece
  | .plain message => message
  | .aerr _ message => message
  | .wrapped _ _ message => message

/-- `errors.Join` -/
def join (errors : List Failure) : Option Failure :=
  if errors = [] then none
  else some (.plain ((errors.map messageOf).intersperse [.text "\n"]).flatten)

def finished {ρ : Type} (records : Records ρ) (record : ρ) (errors : List Failure) : Stage ρ :=
  .returned record (adlError (records.evalErr record) (join errors))

inductive Closing where
  | no
  | discarding
  | shutDown
  | closed
deriving DecidableEq, Repr

structure State (ρ : Type) where
  logger : Logger
  calls : Nat → Option (Stage ρ) := fun _ => none
  closing : Closing := .no
  stdout : List (Nat × ρ) := []
  exported : List (Nat × ρ) := []

inductive Event (ρ : Type) where
  | evaluate (call : Nat) (record : ρ)
  | write (call : Nat) (outcome : Except Failure Unit)
  | look (call : Nat)
  | hand (call : Nat)
  | discard
  | shutDown
  | clear

variable {ρ : Type}

def State.move (state : State ρ) (call : Nat) (stage : Stage ρ) : State ρ :=
  { state with calls := Function.update state.calls call (some stage) }

/-- `writeRecordStdout`. Nothing fails that is written to a discarding writer. -/
def writeRecord (records : Records ρ) (sink : Sink) (outcome : Except Failure Unit) (record : ρ) :
    Except Failure Unit :=
  match records.marshal record with
  | .error failure => .error failure
  | .ok _ =>
      match sink with
      | .discard => .ok ()
      | .stdout => outcome

def collect (errors : List Failure) : Except Failure Unit → List Failure
  | .ok _ => errors
  | .error failure => errors ++ [failure]

def write (records : Records ρ) (state : State ρ) (call : Nat) (record : ρ)
    (outcome : Except Failure Unit) : State ρ :=
  let answer := writeRecord records state.logger.out outcome record
  let stdout := if answer.isOk ∧ state.logger.out = .stdout then (call, record) :: state.stdout
    else state.stdout
  { state.move call (.written record (collect [] answer)) with stdout }

/-- The exporter is read once more when it is used. One that is shut down drops the record. -/
def hand (records : Records ρ) (state : State ρ) (call : Nat) (record : ρ) (errors : List Failure) :
    State ρ :=
  if state.logger.otel = false then state.move call .panicked
  else
    match records.marshal record with
    | .error failure => state.move call (finished records record (errors ++ [failure]))
    | .ok _ =>
        let exported := if state.logger.exporting then (call, record) :: state.exported
          else state.exported
        { state.move call (finished records record errors) with exported }

/-- The access calls and `Close`, statement by statement. -/
def logging (records : Records ρ) : Machine (State ρ) (Event ρ) where
  step state
    | .evaluate call record =>
        match state.calls call with
        | none => some (state.move call
            (if state.logger.enabled then .evaluated record else finished records record []))
        | some _ => none
    | .write call outcome =>
        match state.calls call with
        | some (.evaluated record) => some (write records state call record outcome)
        | _ => none
    | .look call =>
        match state.calls call with
        | some (.written record errors) => some (state.move call
            (if state.logger.otel then .exporting record errors else finished records record errors))
        | _ => none
    | .hand call =>
        match state.calls call with
        | some (.exporting record errors) => some (hand records state call record errors)
        | _ => none
    | .discard =>
        if state.closing = .no then
          some { state with closing := .discarding, logger := { state.logger with out := .discard } }
        else none
    | .shutDown =>
        if state.closing = .discarding then
          some { state with closing := .shutDown, logger := { state.logger with exporting := false } }
        else none
    | .clear =>
        if state.closing = .shutDown then
          some { state with closing := .closed, logger := { state.logger with otel := false } }
        else none

def initial (config : Config) (started : Except Failure Unit) : State ρ :=
  { logger := Logger.new config started }

end Calls

end Eamerald.Adl
