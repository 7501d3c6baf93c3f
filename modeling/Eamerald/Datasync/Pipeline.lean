import Eamerald.Datasync.Sync
import Eamerald.Foundation.Runs

/-! The producer and the subscriber of a synchronisation as they run side by side,
with the channel of rows between them and the channel of errors to the logger. -/

set_option autoImplicit false

namespace Eamerald.Datasync

open Foundation Store Directory

def channelSize : Nat := 10000

/-- Its transaction has not begun, or runs with an error that may have to be reported, or is over. -/
inductive Subscriber (ω : Type) where
  | starting
  | running (view : Bolt.BoltDB ω) (ts : Timestamp) (report : Option Err)
  | returned (outcome : Except Err Timestamp)

/-- The channel of rows is closed when the producer has returned, and the error channel has room for
one. The first error of a stage counts. -/
structure Pipeline (ω μ φ : Type) where
  edge : Edge ω
  unread : List (Incoming μ)
  channel : List (Applied μ) := []
  filter : Option φ
  producer : Option (Except Err Unit) := none
  subscriber : Subscriber ω := .starting
  errChan : Option Err := none
  failure : Option Err := none
  result : Option (Except Err Unit) := none

inductive PipelineEvent where
  | produce
  | beginTx
  | take
  | report
  | log
  | commit
  | finish
deriving DecidableEq, Repr

def errorOf {α : Type} : Except Err α → Option Err
  | .ok _ => none
  | .error error => some error

section Steps

variable {ω μ φ : Type} [Wire ω μ] (library : Library μ) (filters : FilterLibrary φ) (run : Run μ)
  (ending : Except Err Unit)

namespace Pipeline

variable (state : Pipeline ω μ φ)

/-- A row goes into the channel only when there is room. -/
def produce : Option (Pipeline ω μ φ) :=
  match state.producer, state.unread with
  | some _, _ => none
  | none, [] => some { state with
      producer := some ending, failure := state.failure.or (errorOf ending) }
  | none, .unknown :: rest => some { state with unread := rest }
  | none, .row applied :: rest =>
      if state.channel.length < channelSize then some { state with
        unread := rest
        channel := state.channel ++ [applied]
        filter := state.filter.map fun filter => (filters.insert applied.row.key filter).2 }
      else none

def beginTx : Option (Pipeline ω μ φ) :=
  match state.subscriber, run.subscriberTx.begins with
  | .starting, .ok _ => some { state with subscriber := .running state.edge.db .zero none }
  | .starting, .error error => some { state with
      subscriber := .returned (.error error), failure := state.failure.or (some error) }
  | _, _ => none

def take : Option (Pipeline ω μ φ) :=
  match state.subscriber, state.channel with
  | .running view ts none, applied :: rest =>
      match (applyInPlace library applied).run Bolt.backend view with
      | (.ok row, view) => some { state with
          channel := rest, subscriber := .running view (maxTS ts row.updatedAt) none }
      | (.error error, view) => some { state with
          channel := rest, subscriber := .running view ts (some error) }
  | _, _ => none

def report : Option (Pipeline ω μ φ) :=
  match state.subscriber, state.errChan with
  | .running view ts (some error), none => some { state with
      subscriber := .running view ts none, errChan := some error }
  | _, _ => none

def log : Option (Pipeline ω μ φ) :=
  match state.errChan with
  | some _ => some { state with errChan := none }
  | none => none

/-- The transaction function returns when the channel is closed and empty. -/
def commit : Option (Pipeline ω μ φ) :=
  match state.subscriber, state.channel, state.producer, run.subscriberTx.commits with
  | .running view ts none, [], some _, .ok _ => some { state with
      edge := { state.edge with db := view }, subscriber := .returned (.ok ts) }
  | .running _ _ none, [], some _, .error error => some { state with
      subscriber := .returned (.error error), failure := state.failure.or (some error) }
  | _, _, _, _ => none

def finish : Option (Pipeline ω μ φ) :=
  match state.result, state.producer, state.subscriber, state.failure with
  | none, some _, .returned _, some error => some { state with result := some (.error error) }
  | none, some _, .returned (.ok ts), none =>
      let ended := finishSync library filters run state.filter ts state.edge
      some { state with edge := ended.2, result := some ended.1 }
  | _, _, _, _ => none

end Pipeline

def pipeline : Machine (Pipeline ω μ φ) PipelineEvent where
  step state
    | .produce => state.produce filters ending
    | .beginTx => state.beginTx run
    | .take => state.take library
    | .report => state.report
    | .log => state.log
    | .commit => state.commit run
    | .finish => state.finish library filters run

end Steps

def Run.started {ω μ φ : Type} (filters : FilterLibrary φ) (run : Run μ) (edge : Edge ω) :
    Pipeline ω μ φ where
  edge
  unread := (run.stream edge.file).messages
  filter := initialFilter filters run.mode (getWatermark edge.file)

def Run.stages {ω μ φ : Type} [Wire ω μ] (library : Library μ) (filters : FilterLibrary φ)
    (run : Run μ) (edge : Edge ω) : Machine (Pipeline ω μ φ) PipelineEvent :=
  pipeline library filters run (run.stream edge.file).ending

end Eamerald.Datasync
