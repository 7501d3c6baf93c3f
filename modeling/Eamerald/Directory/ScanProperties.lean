import Eamerald.Directory.Exporter
import Eamerald.Directory.LookupProperties
import Eamerald.Directory.Writer
import Eamerald.Directory.Simple
import Eamerald.Bolt.Tx
import Eamerald.Postgres.Tx

/-! Scans that fail part-way. An iterator reports through `Close` alone that its
rows ended with an error, and a row that does not decode is an empty message, so
that a consumer which only calls `Next` cannot tell such a scan from a complete one. -/

set_option autoImplicit false

namespace Eamerald.Directory

open Foundation Store

variable {direction : Direction} (stream : Outgoing)

section Sources

/-- The rows that a store gives before it is done or fails, decoded or not. -/
structure Source (α : Type) where
  rows : List (Except Err α × GoString)
  failure : Option Err := none

def Source.iterator {α : Type} (zero : α) (source : Source α) : Iterator α where
  rows := source.rows.map fun row => ⟨row.1.toOption.getD zero, row.2⟩
  closeError := source.failure

theorem Source.length_values {α : Type} (zero : α) (source : Source α) :
    (source.iterator zero).values.length = source.rows.length := by
  simp [Iterator.values, iterator]

def ScansFrom {μ σ α : Type} (backend : Backend μ σ) (state : σ) (scan : TxOp μ (Iterator α))
    (zero : α) (source : Source α) : Prop :=
  backend.exec scan state = (.ok (source.iterator zero), state)

theorem exists_scansFrom {μ σ α : Type} {backend : Backend μ σ} {state : σ}
    {scan : TxOp μ (Iterator α)} {iterator : Iterator α}
    (answers : backend.exec scan state = (.ok iterator, state)) (zero : α) :
    ∃ source, ScansFrom backend state scan zero source ∧ source.failure = iterator.closeError := by
  refine ⟨⟨iterator.rows.map fun row => (.ok row.value, row.token), iterator.closeError⟩, ?_, rfl⟩
  rw [ScansFrom, answers, Source.iterator, List.map_map]
  change _ = (Except.ok (Iterator.mk (iterator.rows.map id) iterator.closeError), state)
  rw [List.map_id]

def stopAt {α : Type} (position : Nat) (error : Err) (iterator : Iterator α) : Iterator α where
  rows := iterator.rows.take position
  closeError := some error

def interrupted {μ σ : Type} (backend : Backend μ σ) (position : Nat) (error : Err) :
    Backend μ σ where
  exec
    | .scanObjects objectType pageToken, state =>
        let (answer, after) := backend.exec (.scanObjects objectType pageToken) state
        (answer.map (stopAt position error), after)
    | .scanRelations direction filter pageToken, state =>
        let (answer, after) := backend.exec (.scanRelations direction filter pageToken) state
        (answer.map (stopAt position error), after)
    | op, state => backend.exec op state

end Sources

section Sending

def Outgoing.Takes (stream : Outgoing) (count : Nat) : Prop :=
  ∀ left error, stream.breaks = some (left, error) → count ≤ left

theorem Outgoing.send_cases (message : ExportMessage) :
    (∃ error, stream.breaks = some (0, error) ∧ stream.send message = (.error error, stream)) ∨
      ∃ next, stream.send message = (.ok (), next) ∧ next.sent = stream.sent ++ [message] ∧
        ∀ count, next.Takes count ↔ stream.Takes (count + 1) := by
  obtain ⟨sent, breaks⟩ := stream
  match breaks with
  | none => exact .inr ⟨_, rfl, rfl, by simp [Takes]⟩
  | some (0, error) => exact .inl ⟨error, rfl, rfl⟩
  | some (left + 1, error) => exact .inr ⟨_, rfl, rfl, by simp [Takes]⟩

theorem Outgoing.sendAll_cases (messages : List ExportMessage) :
    (∃ error next, stream.sendAll messages = (.error error, next) ∧ ¬ stream.Takes messages.length) ∨
      ∃ next, stream.sendAll messages = (.ok (), next) ∧ next.sent = stream.sent ++ messages ∧
        stream.Takes messages.length ∧ ∀ count, next.Takes count ↔ stream.Takes (count + messages.length) := by
  induction messages generalizing stream with
  | nil =>
      refine .inr ⟨stream, rfl, (List.append_nil _).symm, ?_, fun count => .rfl⟩
      intro left error _
      exact Nat.zero_le left
  | cons message messages ih =>
      unfold sendAll
      rcases stream.send_cases message with ⟨error, broken, refused⟩ | ⟨next, taken, sent, takes⟩
      · refine .inl ⟨error, stream, by rw [refused], fun all => ?_⟩
        exact Nat.not_succ_le_zero _ (all 0 error broken)
      · rw [taken]
        rcases ih next with ⟨error, last, refused, short⟩ | ⟨last, accepted, extended, enough, after⟩
        · refine .inl ⟨error, last, refused, fun all => short ?_⟩
          exact (takes _).mpr all
        · refine .inr ⟨last, accepted, ?_, (takes _).mp enough, fun count => ?_⟩
          · rw [extended, sent, List.append_assoc, List.singleton_append]
          · rw [after, takes, List.length_cons, Nat.add_assoc]

end Sending

section Consumers

variable {μ σ : Type} {backend : Backend μ σ} {state : σ} {source : Source Relation}
  {relations : Source Relation}

def Fails {α : Type} (outcome : Except Err α) : Prop := ∃ error, outcome = .error error

theorem run_scan {α β : Type} {scan : TxOp μ (Iterator α)} {zero : α} {source : Source α}
    (scans : ScansFrom backend state scan zero source) (next : Iterator α → Tx μ β) :
    (Program.lift scan >>= next).run backend state = (next (source.iterator zero)).run backend state := by
  rw [Program.bind_eq, Program.run_bind, Program.run_lift, scans]

theorem fails_lookupRelation (request : GetRelationRequest) (ifNoneMatch : List GoString) {filter : RelationFilter}
    (scans : ScansFrom backend state (.scanRelations direction filter []) .zero source) :
    Fails (view backend (lookupRelation request ifNoneMatch direction filter) state) ↔
      source.rows.length ≠ 1 := by
  rw [← source.length_values .zero, view, lookupRelation, run_scan scans]
  cases (source.iterator Relation.zero).values with
  | nil => simp [Fails]
  | cons relation others =>
      cases others with
      | nil =>
          obtain ⟨response, _, presented, _⟩ :=
            run_presentRelation backend request ifNoneMatch relation state
          refine iff_of_false ?_ (by simp)
          rintro ⟨error, failed⟩
          cases failed.symm.trans (congrArg Prod.fst presented)
      | cons second rest => simp [Fails]

theorem run_countObjects {source : Source Object}
    (scans : ScansFrom backend state (.scanObjects [] []) .zero source) (stats : Stats) :
    (countObjects stats).run backend state =
      (.ok ((source.iterator .zero).values.foldl incObject stats), state) := by
  rw [countObjects, run_scan scans]
  rfl

theorem run_countRelations
    (scans : ScansFrom backend state (.scanRelations .byObject {} []) .zero source) (stats : Stats) :
    (countRelations stats).run backend state =
      (.ok ((source.iterator .zero).values.foldl incRelation stats), state) := by
  rw [countRelations, run_scan scans]
  rfl

theorem view_calculateStats {objects : Source Object}
    (scansObjects : ScansFrom backend state (.scanObjects [] []) .zero objects)
    (scansRelations : ScansFrom backend state (.scanRelations .byObject {} []) .zero relations) :
    view backend calculateStats state = .ok ((relations.iterator .zero).values.foldl incRelation
        ((objects.iterator .zero).values.foldl incObject ∅)) := by
  rw [view, calculateStats, Program.bind_eq, Program.run_bind, run_countObjects scansObjects]
  dsimp only
  rw [run_countRelations scansRelations]

theorem view_listObjects {objectType : GoString} {pagination : PaginationRequest} {source : Source Object}
    (scans : ScansFrom backend state (.scanObjects objectType pagination.token) .zero source) :
    ∃ response, view backend (listObjects objectType pagination) state = .ok response := by
  rw [view, listObjects, run_scan scans]
  exact ⟨_, rfl⟩

theorem deleteRelationsWithPrefix_of_scan {objectType objectId : GoString}
    (scans : ScansFrom backend state (.scanRelations direction
      (objectOnlyFilter direction objectType objectId) []) .zero source) :
    (deleteRelationsWithPrefix direction objectType objectId : Tx μ PUnit).run backend state =
      (Program.each (source.iterator .zero).values fun relation =>
        Program.lift (.deleteRelation relation.ident)).run backend state := by
  have listed : (relationsByObject direction objectType objectId : Tx μ _).run backend state =
      (.ok (source.iterator .zero).values, state) := by
    rw [relationsByObject, run_scan scans]
    rfl
  rw [deleteRelationsWithPrefix, Program.bind_eq, Program.run_bind, listed]

section Export

variable {objects : Source Object} {relations : Source Relation}

def objectMessages (source : Source Object) : List ExportMessage :=
  (source.iterator .zero).values.map fun object => .object (patchObjectRead object)

def relationMessages (source : Source Relation) : List ExportMessage :=
  (source.iterator .zero).values.map .relation

def exportMessages (options : ExportOptions) (objects : Source Object)
    (relations : Source Relation) : List ExportMessage :=
  if options.stats then
    let counted := if options.dataObjects then (objects.iterator .zero).values.foldl incObject ∅
      else ∅
    [.stats (if options.dataRelations then
      (relations.iterator .zero).values.foldl incRelation counted else counted)]
  else
    (if options.dataObjects then objectMessages objects else []) ++
      if options.dataRelations then relationMessages relations else []

theorem Outgoing.sendAll_append (first rest : List ExportMessage) :
    stream.sendAll (first ++ rest) =
      match stream.sendAll first with
      | (.error error, next) => (.error error, next)
      | (.ok _, next) => next.sendAll rest := by
  induction first generalizing stream with
  | nil => rfl
  | cons message first ih =>
      simp only [List.cons_append, sendAll]
      cases stream.send message with
      | mk outcome next =>
          cases outcome with
          | error error => rfl
          | ok _ => exact ih next

theorem Outgoing.sendAll_singleton (message : ExportMessage) :
    stream.sendAll [message] = stream.send message := by
  simp only [sendAll]
  cases stream.send message with
  | mk outcome next =>
      cases outcome with
      | error error => rfl
      | ok _ => rfl

theorem run_exportObjects (scans : ScansFrom backend state (.scanObjects [] []) .zero objects) :
    (exportObjects stream).run backend state = (.ok (stream.sendAll (objectMessages objects)), state) := by
  rw [exportObjects, Program.bind_eq, Program.run_bind, Program.run_attempt, Program.run_lift, scans]
  rfl

theorem run_exportRelations (scans : ScansFrom backend state (.scanRelations .byObject {} []) .zero relations) :
    (exportRelations stream).run backend state =
      (.ok (stream.sendAll (relationMessages relations)), state) := by
  rw [exportRelations, Program.bind_eq, Program.run_bind, Program.run_attempt, Program.run_lift,
    scans]
  rfl

variable (scansObjects : ScansFrom backend state (.scanObjects [] []) .zero objects)
  (scansRelations : ScansFrom backend state (.scanRelations .byObject {} []) .zero relations)

include scansObjects scansRelations

theorem run_exportStats (options : ExportOptions) (stream : Outgoing) (selected : options.stats = true) :
    (exportStats options stream).run backend state =
      (.ok (stream.sendAll (exportMessages options objects relations)), state) := by
  obtain ⟨_, dataObjects, dataRelations⟩ := options
  cases selected
  have counted : (countSelected ⟨true, dataObjects, dataRelations⟩).run backend state =
      (.ok (if dataRelations then (relations.iterator .zero).values.foldl incRelation
        (if dataObjects then (objects.iterator .zero).values.foldl incObject ∅ else ∅)
        else if dataObjects then (objects.iterator .zero).values.foldl incObject ∅ else ∅), state) := by
    cases dataObjects <;> cases dataRelations <;>
      simp [countSelected, Program.bind_eq, Program.run_bind, run_countObjects scansObjects,
        run_countRelations scansRelations]
  rw [exportStats, Program.bind_eq, Program.run_bind, Program.run_attempt, counted]
  exact congrArg (fun sent => (Except.ok sent, state)) (stream.sendAll_singleton _).symm

theorem run_exportData (options : ExportOptions) (stream : Outgoing) :
    (exportData options stream).run backend state =
      (.ok (stream.sendAll (exportMessages options objects relations)), state) := by
  obtain ⟨stats, dataObjects, dataRelations⟩ := options
  cases stats with
  | true => exact run_exportStats scansObjects scansRelations _ stream rfl
  | false =>
      have finished (next : Outgoing) :
          (if dataRelations then exportRelations next else pure (.ok (), next) : Tx μ _).run backend
            state = (.ok (next.sendAll (if dataRelations then relationMessages relations else [])), state) := by
        cases dataRelations with
        | true => exact run_exportRelations next scansRelations
        | false => rfl
      cases dataObjects with
      | false => exact finished stream
      | true =>
          change ((exportObjects stream).bind _).run backend state = _
          rw [Program.run_bind, run_exportObjects stream scansObjects]
          change _ = (Except.ok (stream.sendAll (objectMessages objects ++ _)), state)
          rw [Outgoing.sendAll_append]
          cases stream.sendAll (objectMessages objects) with
          | mk outcome next =>
              cases outcome with
              | error error => rfl
              | ok _ => exact finished next

end Export

def exportResult (backend : Backend μ σ) (options : ExportOptions) (stream : Outgoing) (state : σ) :
    Except Err Unit × Outgoing :=
  match view backend (exportData options stream) state with
  | .ok result => result
  | .error error => (.error error, stream)

theorem fails_export {objects : Source Object}
    (scansObjects : ScansFrom backend state (.scanObjects [] []) .zero objects)
    (scansRelations : ScansFrom backend state (.scanRelations .byObject {} []) .zero relations)
    (options : ExportOptions) (stream : Outgoing) : Fails (exportResult backend options stream state).1 ↔
      ¬ stream.Takes (exportMessages options objects relations).length := by
  rw [exportResult, view, run_exportData scansObjects scansRelations]
  rcases stream.sendAll_cases (exportMessages options objects relations) with
    ⟨error, next, refused, short⟩ | ⟨next, accepted, _, enough, _⟩
  · rw [refused]
    exact iff_of_true ⟨error, rfl⟩ short
  · rw [accepted]
    refine iff_of_false ?_ (not_not_intro enough)
    rintro ⟨error, failed⟩
    cases failed

end Consumers

section Results

variable {μ σ : Type}

theorem getObjects_of_valid {library : ListLibrary μ} {model : μ} {request : GetObjectsRequest}
    (valid : library.getObjectsRequest request = .ok ()) (selectable : request.objectType ≠ [] →
      library.validateObjectSelector model ⟨request.objectType, []⟩ = .ok ()) :
    getObjects library model request =
      listObjects request.objectType (request.page.getD ⟨maxPageSize, []⟩) := by
  unfold getObjects
  rw [valid, Program.done_ok_bind]
  split
  · rename_i typed
    rw [selectable typed, Program.done_ok_bind]
  · rfl

theorem getRelation_of_valid {library : Library μ} {model : μ} {request : GetRelationRequest}
    (ifNoneMatch : List GoString) {filter : RelationFilter}
    (valid : library.getRelationRequest request = .ok ())
    (declared : library.validateRelations model (library.safeGetRelation request) = .ok ())
    (anchored : (library.safeGetRelation request).pathAndFilter library = .ok (direction, filter)) :
    getRelation library model ifNoneMatch request = lookupRelation request ifNoneMatch direction filter := by
  simp only [getRelation, valid, declared, anchored, Program.done_ok_bind]

end Results

section Stopped

def documents : Postgres.Tables (Blob Simple.Model) :=
  let relation := fun subjectId => Simple.viewer "1" subjectId
  { objects := (Std.ExtTreeMap.empty.insert ⟨"doc".toList, "1".toList⟩
        (Blob.object { type := "doc".toList, id := "1".toList })).insert
      ⟨"doc".toList, "2".toList⟩ (Blob.object { type := "doc".toList, id := "2".toList })
    relations := (Std.ExtTreeMap.empty.insert (relation "u1").ident
        (Blob.relation (relation "u1"))).insert (relation "u2").ident (Blob.relation (relation "u2"))
    manifest := none }

def stoppedServer : Backend Simple.Model (Postgres.Tables (Blob Simple.Model)) :=
  interrupted (Postgres.backend (.plain (.model {}))) 1 (.engine "connection reset")

def simpleLists : ListLibrary Simple.Model where
  toLibrary := Simple.library
  getObjectsRequest _ := .ok ()
  validateObjectSelector model ident :=
    Simple.require (model.objectTypes.contains ident.objectType) "invalid object type"
  getRelationsRequest _ := .ok ()
  safeGetRelations request :=
    ⟨⟨request.objectType, request.objectId, request.relation, request.subjectType,
      request.subjectId, request.subjectRelation⟩,
      decide (request.subjectRelation ≠ []) || request.withEmptySubjectRelation⟩

def undecodable : Bolt.BoltDB (Blob Simple.Model) :=
  (Bolt.setKey .objects "doc:1".toList (Blob.relation (Simple.viewer "1" "u1")) Bolt.emptyDB).2

def ExportMessage.objectId : ExportMessage → Option GoString
  | .object exported => some exported.id
  | _ => none

end Stopped

end Eamerald.Directory
