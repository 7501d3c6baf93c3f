import Eamerald.Directory.Listing

/-! The exporter service. It sends every object and every relation of the store, as
far as the options ask for them, or only their counts. -/

set_option autoImplicit false

namespace Eamerald.Directory

open Foundation Store

inductive ExportMessage where
  | object (object : Object)
  | relation (relation : Relation)
  | stats (stats : Stats)

structure ExportOptions where
  stats : Bool := false
  dataObjects : Bool := false
  dataRelations : Bool := false
deriving DecidableEq, Repr

/-- A response stream: what was sent, and how many messages it takes before sending fails. -/
structure Outgoing where
  sent : List ExportMessage := []
  breaks : Option (Nat × Err) := none

def Outgoing.send (stream : Outgoing) (message : ExportMessage) : Except Err Unit × Outgoing :=
  match stream.breaks with
  | some (0, error) => (.error error, stream)
  | some (left + 1, error) =>
      (.ok (), { sent := stream.sent ++ [message], breaks := some (left, error) })
  | none => (.ok (), { stream with sent := stream.sent ++ [message] })

def Outgoing.sendAll (stream : Outgoing) : List ExportMessage → Except Err Unit × Outgoing
  | [] => (.ok (), stream)
  | message :: rest =>
      match stream.send message with
      | (.error error, stream) => (.error error, stream)
      | (.ok _, stream) => stream.sendAll rest

section Service

variable {μ : Type}

def exportObjects (stream : Outgoing) : Tx μ (Except Err Unit × Outgoing) := do
  match ← (Program.lift (TxOp.scanObjects [] [])).attempt with
  | .error error => return (.error error, stream)
  | .ok iterator =>
      return stream.sendAll (iterator.values.map fun object => .object (patchObjectRead object))

def exportRelations (stream : Outgoing) : Tx μ (Except Err Unit × Outgoing) := do
  match ← (Program.lift (TxOp.scanRelations .byObject {} [])).attempt with
  | .error error => return (.error error, stream)
  | .ok iterator => return stream.sendAll (iterator.values.map .relation)

def countSelected (options : ExportOptions) : Tx μ Stats := do
  let stats ← if options.dataObjects then countObjects ∅ else pure ∅
  if options.dataRelations then countRelations stats else return stats

def exportStats (options : ExportOptions) (stream : Outgoing) :
    Tx μ (Except Err Unit × Outgoing) := do
  match ← (countSelected options).attempt with
  | .error error => return (.error error, stream)
  | .ok stats => return stream.send (.stats stats)

/-- `Export`: what the call returns, and what was sent by then. -/
def exportData (options : ExportOptions) (stream : Outgoing) :
    Tx μ (Except Err Unit × Outgoing) := do
  if options.stats then exportStats options stream
  else
    let (outcome, stream) ← if options.dataObjects then exportObjects stream
      else pure (.ok (), stream)
    match outcome with
    | .error error => return (.error error, stream)
    | .ok _ => if options.dataRelations then exportRelations stream else return (.ok (), stream)

end Service

end Eamerald.Directory
